import AiStp.Client.Passport

/-!
# The client's revision store

Content-addressed writes with explicit head preconditions. Six kinds of write share `commit`, which
checks the document, the existing entity and the declared parents, and then inserts the revision
and moves the heads under the rule of its kind. A refused write leaves the registry as it was.

`commit_cases` says what a successful commit did: it replayed a stored revision and changed
nothing, or it passed every check and inserted the revision (`insert_cases`).
-/

set_option autoImplicit false

namespace AiStp.Client.Store

open Library Foundation

/-! ### The registry -/

structure EntityRow where
  stableId : String
  kind : String
  createdAt : String
deriving DecidableEq, Repr

/-- A `revision` row with its `revision_parent` rows. -/
structure RevisionRow where
  revisionId : String
  stableId : String
  /-- The canonical bytes of the passport. -/
  content : Json
  deviceId : String
  operationId : Option String
  createdAt : String
  parents : List String
deriving DecidableEq, Repr

structure HeadRow where
  stableId : String
  revisionId : String
deriving DecidableEq, Repr

structure Registry where
  entities : List EntityRow
  revisions : List RevisionRow
  headRows : List HeadRow
  /-- Stable ids of the forgotten objects. -/
  tombstones : List String
deriving DecidableEq, Repr

inductive Write where
  | advance (expectedHeads : List String)
  | transfer (expectedHeads : List String) (previousOwner : String)
  | immutable
  | acquired
  | received (accountId : String)
  | receivedSnapshot (accountId : String)
deriving DecidableEq, Repr

def sorted (texts : List String) : List String :=
  texts.insertionSort (· ≤ ·)

namespace Registry

def empty : Registry := ⟨[], [], [], []⟩

def kind? (registry : Registry) (stableId : String) : Option String :=
  (registry.entities.find? fun row ↦ row.stableId = stableId).map EntityRow.kind

/-- `revisions::heads`, in the order of the query. -/
def heads (registry : Registry) (stableId : String) : List String :=
  sorted ((registry.headRows.filter fun row ↦ row.stableId = stableId).map HeadRow.revisionId)

def stored (registry : Registry) (revisionId : String) : Bool :=
  registry.revisions.any fun row ↦ row.revisionId = revisionId

/-- `Objects::revision`: the passport of a stored revision, verified against its row. -/
def revision (platform : Platform) (registry : Registry) (revisionId : String) :
    Except Failure Json := do
  let row ← present (registry.revisions.find? fun row ↦ row.revisionId = revisionId)
    .absent
  let kind ← present (registry.kind? row.stableId)
    .absent
  let document ← present (Canonical.parse platform row.content) .canonical
  Passport.validate platform document
  ensure (document.index "revision_id" == .string revisionId &&
      document.index "stable_id" == .string row.stableId &&
      document.index "created_at" == .string row.createdAt &&
      document.index "kind" == .string kind)
    (.precondition "snapshot revision metadata disagrees with its passport")
  ensure (sorted (Passport.parents document) == sorted row.parents)
    (.precondition "snapshot parent links disagree with the passport")
  return document

/-- `Objects::require_active`. -/
def requireActive (registry : Registry) (stableId : String) : Except Failure Unit :=
  ensure (stableId ∉ registry.tombstones)
    ((Failure.precondition "the local object was forgotten").withDetails
      [("constraint", .string "object_forgotten")])

/-- Forgetting an object inserts a tombstone for its entity. -/
def forget (registry : Registry) (stableId : String) : Registry :=
  if (registry.kind? stableId).isSome ∧ stableId ∉ registry.tombstones then
    { registry with tombstones := registry.tombstones ++ [stableId] }
  else registry

end Registry

/-! ### The checks of a commit -/

/-- The harness that two declarations agree on, the first one before the second. -/
def agreedHarness (top fact : Option Json) : Except Failure String := do
  ensure (match top, fact with
    | some top, some fact => top.sameValue fact
    | _, _ => true)
    (.precondition "setup harness declarations disagree")
  let harness ← present ((top.or fact).bind Json.asString?)
    (.precondition "a setup requires its harness at creation")
  ensure (harness != "undefined") (.input "a setup requires a concrete harness")
  ensure (harness ∈ Sync.harnessIds) (.input "the harness identifier is not supported")
  return harness

/-- `setup_harness`: the harness that a setup declares, at its top or as a fact. -/
def setupHarness (document : Json) : Except Failure String :=
  agreedHarness (document.get? "harness_id")
    (((document.index "facts").get? "harness_id").map fun fact ↦ fact.index "value")

/-- The writes of documents that were sealed elsewhere. -/
def Write.isExternal : Write → Bool
  | .acquired | .received _ | .receivedSnapshot _ => true
  | _ => false

/-- The writes that the private sync makes, with their account. -/
def Write.syncAccount? : Write → Option String
  | .received accountId | .receivedSnapshot accountId => some accountId
  | _ => none

section Checks

-- `passport::versions::validate_document`, the rules of an immutable version passport.
variable (platform : Platform) (validateVersion : Json → Except Failure Unit)

/-- A document sealed elsewhere is verified as it is; another one is sealed. -/
def addressed (write : Write) (document : Json) : Except Failure Json :=
  if write.isExternal then do
    Passport.validate platform document
    return document
  else Passport.sealPassport platform document

def checkVersion (write : Write) (document : Json) : Except Failure Unit :=
  match write with
  | .immutable | .acquired => validateVersion document
  | _ => .ok ()

/-- The document that is written. -/
def prepared (write : Write) (document : Json) : Except Failure Json := do
  let document ← addressed platform write document
  checkVersion validateVersion write document
  return document

/-- A prepared document with the identity it declares. -/
structure Candidate where
  document : Json
  id : String
  revision : String
  kind : String
  created : String

def textField (document : Json) (field : String) : Except Failure String :=
  present (document.index field).asString? (.input "passport identity is incomplete")

/-- The kinds of passport that private sync delivers. -/
def syncKinds : List String := ["developer", "component", "setup"]

/-- Whether a received passport may belong to the account. -/
def receivedIdentity (write : Write) (document : Json) (kind accountId : String) : Bool :=
  Passport.stableId platform accountId "account" &&
    (match (document.index "owner_id").asString? with
      | some ownerId => Passport.stableId platform ownerId "account"
      | none => false) &&
    (match write with
      | .received _ => document.index "visibility" == .string "private"
      | _ => true) &&
    kind ∈ syncKinds

def checkReceived (write : Write) (document : Json) (kind : String) : Except Failure Unit :=
  match write.syncAccount? with
  | some accountId =>
    ensure (receivedIdentity platform write document kind accountId)
      (.precondition "the received private revision identity is invalid")
  | none => .ok ()

/-- A setup must declare a harness of the catalog. -/
def checkHarness (document : Json) (kind : String) : Except Failure Unit :=
  if kind = "setup" then do
    let _ ← setupHarness document
    return ()
  else .ok ()

def identified (write : Write) (document : Json) : Except Failure Candidate := do
  let id ← textField document "stable_id"
  let revision ← textField document "revision_id"
  let kind ← textField document "kind"
  let created ← textField document "created_at"
  checkReceived platform write document kind
  checkHarness document kind
  return { document, id, revision, kind, created }

/-- Whether the write may follow a held revision, as far as owners go. -/
def ownerMatches (write : Write) (document held : Json) : Bool :=
  held.index "owner_id" == document.index "owner_id" ||
    match write with
    | .transfer _ previousOwner => held.index "owner_id" == .string previousOwner
    | .received accountId => document.index "owner_id" == .string accountId
    | _ => false

/-- A setup keeps the harness of a held revision. -/
def checkSameHarness (candidate : Candidate) (held : Json) : Except Failure Unit :=
  if candidate.kind = "setup" then do
    let before ← setupHarness held
    let after ← setupHarness candidate.document
    ensure (before == after)
      (.precondition "a setup cannot change its harness after creation")
  else .ok ()

/-- The checks of every current head of the entity. -/
def checkHeads (registry : Registry) (write : Write) (candidate : Candidate) :
    List String → Except Failure Unit
  | [] => .ok ()
  | head :: heads => do
    let held ← registry.revision platform head
    checkSameHarness candidate held
    ensure (held.index "stable_id" == .string candidate.id &&
        (write.syncAccount?.isSome || ownerMatches write candidate.document held))
      (.precondition "a revision cannot change its entity owner")
    checkHeads registry write candidate heads

def checkExisting (registry : Registry) (write : Write) (candidate : Candidate) :
    Except Failure Unit :=
  match registry.kind? candidate.id with
  | none => .ok ()
  | some held => do
    ensure (held == candidate.kind && !(registry.heads candidate.id).isEmpty)
      (.precondition "the existing entity kind or revision heads are inconsistent")
    checkHeads platform registry write candidate (registry.heads candidate.id)

def checkActive (registry : Registry) (write : Write) (candidate : Candidate) :
    Except Failure Unit :=
  match write with
  | .transfer _ _ | .received _ | .receivedSnapshot _ => .ok ()
  | _ => registry.requireActive candidate.id

/-- The head preconditions of each kind of write. -/
def checkWrite (registry : Registry) (write : Write) (candidate : Candidate) :
    Except Failure Unit :=
  let parents := Passport.parents candidate.document
  match write with
  | .advance expectedHeads | .transfer expectedHeads _ =>
    ensure (registry.heads candidate.id == sorted expectedHeads &&
        sorted parents == sorted expectedHeads)
      (.conflict "the current heads differ from the planned passport parents")
  | .immutable | .receivedSnapshot _ =>
    ensure ((registry.kind? candidate.id).isSome && parents.isEmpty)
      (.precondition
        "an immutable snapshot requires an existing entity and no draft parents")
  | .acquired =>
    ensure parents.isEmpty
      (.precondition "an acquired immutable version cannot have draft parents")
  | .received _ => .ok ()

def checkParents (registry : Registry) (write : Write) (candidate : Candidate) :
    List String → Except Failure Unit
  | [] => .ok ()
  | parent :: parents => do
    let held ← registry.revision platform parent
    ensure (held.index "stable_id" == .string candidate.id &&
        ownerMatches write candidate.document held &&
        held.index "visibility" == candidate.document.index "visibility")
      (.precondition "a draft revision cannot change its entity, owner or visibility")
    checkParents registry write candidate parents

end Checks

/-! ### The rows of a commit -/

/-- Kinds of which a registry holds one entity, `one_passport_per_singleton_kind`. -/
def singletonKinds : List String := ["developer", "device"]

def Registry.insertEntity (registry : Registry) (row : EntityRow) : Except Failure Registry :=
  if (registry.kind? row.stableId).isSome then .ok registry
  else if row.kind ∈ singletonKinds ∧ row.kind ∈ registry.entities.map EntityRow.kind then
    .error .constraint
  else .ok { registry with entities := registry.entities ++ [row] }

/-- The head rows after a new revision. -/
def Registry.moveHeads (registry : Registry) (write : Write) (candidate : Candidate)
    (existed : Bool) : List HeadRow :=
  let row : HeadRow := ⟨candidate.id, candidate.revision⟩
  let replaced := registry.headRows.filter (fun held ↦ held.stableId ≠ candidate.id) ++ [row]
  match write with
  | .received _ =>
    registry.headRows.filter (fun held ↦
      ¬ (held.stableId = candidate.id ∧
        held.revisionId ∈ Passport.parents candidate.document)) ++ [row]
  | .advance _ | .transfer _ _ => replaced
  | .acquired => if existed then registry.headRows else replaced
  | .immutable | .receivedSnapshot _ => registry.headRows

def insert (platform : Platform) (registry : Registry) (write : Write) (candidate : Candidate)
    (deviceId : String) (operationId : Option String) : Except Failure Registry := do
  let parents := Passport.parents candidate.document
  let entered ← registry.insertEntity ⟨candidate.id, candidate.kind, candidate.created⟩
  let content ← present (Canonical.bytes platform candidate.document) .canonical
  ensure (decide parents.Nodup) .constraint
  return {
    entered with
    revisions := entered.revisions ++
      [{ revisionId := candidate.revision, stableId := candidate.id, content, deviceId,
         operationId, createdAt := candidate.created, parents }]
    headRows := registry.moveHeads write candidate (registry.kind? candidate.id).isSome }

/-! ### The commit -/

/-- `revisions::commit`: the committed document and the registry after it. -/
def commit (platform : Platform) (validateVersion : Json → Except Failure Unit)
    (registry : Registry) (document : Json) (deviceId : String) (operationId : Option String)
    (write : Write) : Except Failure (Json × Registry) := do
  ensure (Passport.stableId platform deviceId "device")
    (.input "a revision requires a device identity")
  let document ← prepared platform validateVersion write document
  let candidate ← identified platform write document
  checkExisting platform registry write candidate
  if registry.stored candidate.revision then
    let held ← registry.revision platform candidate.revision
    ensure (held.sameValue candidate.document)
      (.conflict "the stored revision differs from its content address")
    return (held, registry)
  else
    checkActive registry write candidate
    checkWrite registry write candidate
    checkParents platform registry write candidate (Passport.parents candidate.document)
    let settled ← insert platform registry write candidate deviceId operationId
    return (candidate.document, settled)

/-! ### Reading a stored setup -/

/-- A text equals only itself. -/
theorem eq_string_of_sameValue {text : String} {value : Json}
    (h : (Json.string text).sameValue value = true) : value = .string text := by
  have hvalue : value.rebuild some some = some (.string text) := (beq_iff_eq.mp h).symm
  cases value with
  | null => cases hvalue
  | bool value => cases hvalue
  | number value => cases hvalue
  | string other => exact Option.some.inj hvalue
  | array items =>
    simp only [Json.rebuild, Option.map_eq_some_iff] at hvalue
    obtain ⟨_, -, hvalue⟩ := hvalue
    cases hvalue
  | object fields =>
    simp only [Json.rebuild, Option.bind_eq_bind, Option.bind_eq_some_iff] at hvalue
    obtain ⟨_, -, hvalue⟩ := hvalue
    split_ifs at hvalue
    cases hvalue

variable {harness : String}

theorem harness_plain (h : harness ∈ Sync.harnessIds) : Text.isPlain harness = true := by
  revert h harness
  decide

theorem asString?_eq_some {value : Json} {text : String} (h : value.asString? = some text) :
    value = .string text := by
  cases value <;> simp_all [Json.asString?]

/-- The harness of two declarations: one of them is missing, or both are the same text. -/
theorem agreedHarness_eq_ok {top fact : Option Json} :
    agreedHarness top fact = .ok harness ↔
      (harness != "undefined") = true ∧ harness ∈ Sync.harnessIds ∧
        ((top = some (.string harness) ∧ (fact = none ∨ fact = some (.string harness))) ∨
          (top = none ∧ fact = some (.string harness))) := by
  unfold agreedHarness
  simp only [bind_eq_ok, ensure_eq_ok, present_eq_ok, decide_eq_true_eq, exists_const]
  constructor
  · rintro ⟨hagree, declared, hdeclared, hconcrete, hcatalog, hsame⟩
    obtain rfl : declared = harness := Except.ok.inj hsame
    refine ⟨hconcrete, hcatalog, ?_⟩
    obtain ⟨value, hvalue, htext⟩ := Option.bind_eq_some_iff.mp hdeclared
    obtain rfl := asString?_eq_some htext
    cases top with
    | none => exact Or.inr ⟨rfl, hvalue⟩
    | some top =>
      obtain rfl : top = .string declared := Option.some.inj hvalue
      refine Or.inl ⟨rfl, ?_⟩
      cases fact with
      | none => exact Or.inl rfl
      | some fact => exact Or.inr (congrArg some (eq_string_of_sameValue hagree))
  · rintro ⟨hconcrete, hcatalog, ⟨rfl, rfl | rfl⟩ | ⟨rfl, rfl⟩⟩
    · exact ⟨rfl, harness, rfl, hconcrete, hcatalog, rfl⟩
    · exact ⟨beq_self_eq_true _, harness, rfl, hconcrete, hcatalog, rfl⟩
    · exact ⟨rfl, harness, rfl, hconcrete, hcatalog, rfl⟩

theorem agreedHarness_reread {platform : Platform} {top top' fact fact' : Option Json}
    (htop : Option.Rel (Canonical.Reread platform) top top')
    (hfact : Option.Rel (Canonical.Reread platform) fact fact')
    (h : agreedHarness top fact = .ok harness) : agreedHarness top' fact' = .ok harness := by
  rw [agreedHarness_eq_ok] at h ⊢
  obtain ⟨hconcrete, hcatalog, hdeclared⟩ := h
  have hstable : ∀ value value', Option.Rel (Canonical.Reread platform) value value' →
      value = some (.string harness) → value' = some (.string harness) := by
    rintro _ _ (hread | _) hvalue
    · obtain rfl := Option.some.inj hvalue
      rw [hread.string (harness_plain hcatalog)]
    · cases hvalue
  have hmissing : ∀ value value', Option.Rel (Canonical.Reread platform) value value' →
      value = none → value' = none := by
    rintro _ _ (hread | _) hvalue
    · cases hvalue
    · rfl
  refine ⟨hconcrete, hcatalog, ?_⟩
  rcases hdeclared with ⟨hfirst, hsecond | hsecond⟩ | ⟨hfirst, hsecond⟩
  · exact Or.inl ⟨hstable _ _ htop hfirst, Or.inl (hmissing _ _ hfact hsecond)⟩
  · exact Or.inl ⟨hstable _ _ htop hfirst, Or.inr (hstable _ _ hfact hsecond)⟩
  · exact Or.inr ⟨hmissing _ _ htop hfirst, hstable _ _ hfact hsecond⟩

/-- A stored setup is read back with the harness it was written with. -/
theorem setupHarness_reread {platform : Platform} {document held : Json}
    (hread : Canonical.Reread platform document held) (h : setupHarness document = .ok harness) :
    setupHarness held = .ok harness := by
  refine agreedHarness_reread (hread.get? (by decide)) ?_ h
  have hfact : Option.Rel (Canonical.Reread platform)
      ((document.index "facts").get? "harness_id") ((held.index "facts").get? "harness_id") :=
    (hread.index (by decide)).get? (by decide +kernel)
  revert hfact
  generalize (document.index "facts").get? "harness_id" = fact
  generalize (held.index "facts").get? "harness_id" = fact'
  rintro (hfact | _)
  · exact Option.Rel.some (hfact.index (by decide))
  · exact Option.Rel.none

/-! ### What a commit did -/

section Inversion

variable {platform : Platform} {validateVersion : Json → Except Failure Unit}
  {registry settled : Registry} {document held : Json} {write : Write} {candidate : Candidate}
  {deviceId : String} {operationId : Option String}

/-- The identity of a candidate is the one its validated document declares. -/
structure Candidate.Valid (platform : Platform) (candidate : Candidate) : Prop where
  validated : Passport.validate platform candidate.document = .ok ()
  id_declared : candidate.document.index "stable_id" = .string candidate.id
  revision_declared : candidate.document.index "revision_id" = .string candidate.revision
  kind_declared : candidate.document.index "kind" = .string candidate.kind
  harness : candidate.kind = "setup" → ∃ harness, setupHarness candidate.document = .ok harness

theorem textField_eq_ok {field text : String} (h : textField document field = .ok text) :
    document.index field = .string text := by
  have htext := present_eq_ok.mp h
  cases hvalue : document.index field <;> simp_all [Json.asString?]

theorem prepared_validate (h : prepared platform validateVersion write document = .ok held) :
    Passport.validate platform held = .ok () := by
  unfold prepared at h
  obtain ⟨written, hwritten, h⟩ := bind_eq_ok.mp h
  obtain ⟨_, -, h⟩ := bind_eq_ok.mp h
  obtain rfl : written = held := by simpa [Pure.pure, Except.pure] using h
  unfold addressed at hwritten
  split_ifs at hwritten
  · obtain ⟨_, hvalid, hsame⟩ := bind_eq_ok.mp hwritten
    obtain rfl : document = written := by simpa [Pure.pure, Except.pure] using hsame
    exact hvalid
  · exact Passport.validate_of_sealPassport hwritten

theorem checkHarness_cases {kind : String} (h : checkHarness document kind = .ok ())
    (hkind : kind = "setup") : ∃ harness, setupHarness document = .ok harness := by
  rw [checkHarness, if_pos hkind] at h
  obtain ⟨harness, hharness, -⟩ := bind_eq_ok.mp h
  exact ⟨harness, hharness⟩

theorem identified_valid (hvalid : Passport.validate platform document = .ok ())
    (h : identified platform write document = .ok candidate) : candidate.Valid platform := by
  unfold identified at h
  obtain ⟨id, hid, h⟩ := bind_eq_ok.mp h
  obtain ⟨revision, hrevision, h⟩ := bind_eq_ok.mp h
  obtain ⟨kind, hkind, h⟩ := bind_eq_ok.mp h
  obtain ⟨created, -, h⟩ := bind_eq_ok.mp h
  obtain ⟨_, -, h⟩ := bind_eq_ok.mp h
  obtain ⟨_, hharness, h⟩ := bind_eq_ok.mp h
  obtain rfl : ⟨document, id, revision, kind, created⟩ = candidate := by
    simpa [Pure.pure, Except.pure] using h
  exact ⟨hvalid, textField_eq_ok hid, textField_eq_ok hrevision, textField_eq_ok hkind,
    checkHarness_cases hharness⟩

/-- A successful commit replayed a stored revision, or checked and inserted a new one. -/
theorem commit_cases
    (h : commit platform validateVersion registry document deviceId operationId write =
      .ok (held, settled)) :
    ∃ candidate : Candidate, candidate.Valid platform ∧
      checkExisting platform registry write candidate = .ok () ∧
      ((registry.stored candidate.revision = true ∧ settled = registry ∧
          registry.revision platform candidate.revision = .ok held) ∨
        (registry.stored candidate.revision = false ∧ held = candidate.document ∧
          checkWrite registry write candidate = .ok () ∧
          checkParents platform registry write candidate
            (Passport.parents candidate.document) = .ok () ∧
          insert platform registry write candidate deviceId operationId = .ok settled)) := by
  unfold commit at h
  obtain ⟨_, -, h⟩ := bind_eq_ok.mp h
  obtain ⟨written, hwritten, h⟩ := bind_eq_ok.mp h
  obtain ⟨candidate, hcandidate, h⟩ := bind_eq_ok.mp h
  obtain ⟨_, hexisting, h⟩ := bind_eq_ok.mp h
  refine ⟨candidate, identified_valid (prepared_validate hwritten) hcandidate, hexisting, ?_⟩
  split_ifs at h with hstored
  · obtain ⟨read, hread, h⟩ := bind_eq_ok.mp h
    obtain ⟨_, -, h⟩ := bind_eq_ok.mp h
    obtain ⟨rfl, rfl⟩ : read = held ∧ registry = settled := by
      simpa [Pure.pure, Except.pure] using h
    exact Or.inl ⟨hstored, rfl, hread⟩
  · obtain ⟨_, -, h⟩ := bind_eq_ok.mp h
    obtain ⟨_, hwrite, h⟩ := bind_eq_ok.mp h
    obtain ⟨_, hparents, h⟩ := bind_eq_ok.mp h
    obtain ⟨inserted, hinsert, h⟩ := bind_eq_ok.mp h
    obtain ⟨rfl, rfl⟩ : candidate.document = held ∧ inserted = settled := by
      simpa [Pure.pure, Except.pure] using h
    exact Or.inr ⟨Bool.not_eq_true _ ▸ hstored, rfl, hwrite, hparents, hinsert⟩

theorem insertEntity_other {row : EntityRow} (h : registry.insertEntity row = .ok settled) :
    settled.revisions = registry.revisions ∧ settled.headRows = registry.headRows ∧
      settled.tombstones = registry.tombstones := by
  unfold Registry.insertEntity at h
  split_ifs at h
  all_goals
    obtain rfl := Except.ok.inj h
    exact ⟨rfl, rfl, rfl⟩

/-- A document sealed elsewhere is stored under its own revision, once. -/
theorem commit_external {revision : String} (hexternal : write.isExternal = true)
    (hrevision : document.index "revision_id" = .string revision)
    (h : commit platform validateVersion registry document deviceId operationId write =
      .ok (held, settled)) :
    if registry.stored revision then settled = registry
    else ∃ row : RevisionRow, row.revisionId = revision ∧
      settled.revisions = registry.revisions ++ [row] := by
  simp only [commit, prepared, addressed, hexternal, if_true, bind_eq_ok] at h
  obtain ⟨_, -, written, ⟨addressed, ⟨_, -, haddressed⟩, _, -, hwritten⟩, candidate, hcandidate,
    _, -, h⟩ := h
  obtain rfl : document = addressed := Except.ok.inj haddressed
  obtain rfl : document = written := Except.ok.inj hwritten
  have hsame : candidate.revision = revision := by
    simp only [identified, textField, bind_eq_ok, present_eq_ok] at hcandidate
    obtain ⟨_, -, declared, hdeclared, _, -, _, -, _, -, _, -, hcandidate⟩ := hcandidate
    rw [← Except.ok.inj hcandidate]
    rw [hrevision] at hdeclared
    exact (Option.some.inj hdeclared).symm
  rw [hsame] at h
  split_ifs at h ⊢ with hstored
  · simp only [bind_eq_ok] at h
    obtain ⟨_, -, _, -, h⟩ := h
    exact (Prod.ext_iff.mp (Except.ok.inj h)).2.symm
  · simp only [bind_eq_ok, insert] at h
    obtain ⟨_, -, _, -, _, -, inserted, ⟨entered, hentered, _, -, _, -, hinserted⟩, h⟩ := h
    obtain rfl : inserted = settled := (Prod.ext_iff.mp (Except.ok.inj h)).2
    obtain rfl := Except.ok.inj hinserted
    rw [(insertEntity_other hentered).1]
    exact ⟨_, hsame, rfl⟩

/-- The kinds of the entities after a candidate's entity was entered. -/
theorem kind?_insertEntity {row : EntityRow} (h : registry.insertEntity row = .ok settled)
    (hkind : ∀ kind, registry.kind? row.stableId = some kind → kind = row.kind) (id : String) :
    settled.kind? id = if id = row.stableId then some row.kind else registry.kind? id := by
  unfold Registry.insertEntity at h
  split_ifs at h with hknown hsingleton
  · obtain rfl := Except.ok.inj h
    obtain ⟨kind, hheld⟩ := Option.isSome_iff_exists.mp hknown
    split_ifs with hid
    · rw [hid, hheld, hkind kind hheld]
    · rfl
  · obtain rfl := Except.ok.inj h
    have hmissing : registry.entities.find? (fun other ↦ other.stableId = row.stableId) = none := by
      simpa [Registry.kind?] using hknown
    unfold Registry.kind?
    rw [List.find?_append]
    split_ifs with hid
    · subst hid
      simp [hmissing]
    · have hother : [row].find? (fun other ↦ other.stableId = id) = none := by
        simp [Ne.symm hid]
      rw [hother, Option.or_none]

/-- What the insertion of a candidate does to the registry. -/
structure Inserted (platform : Platform) (registry settled : Registry) (write : Write)
    (candidate : Candidate) (row : RevisionRow) : Prop where
  row_id : row.revisionId = candidate.revision
  row_entity : row.stableId = candidate.id
  row_parents : row.parents = Passport.parents candidate.document
  row_content : Canonical.bytes platform candidate.document = some row.content
  kinds : ∀ id, settled.kind? id =
    if id = candidate.id then some candidate.kind else registry.kind? id
  revisions : settled.revisions = registry.revisions ++ [row]
  headRows : settled.headRows =
    registry.moveHeads write candidate (registry.kind? candidate.id).isSome
  tombstones : settled.tombstones = registry.tombstones

theorem insert_cases
    (h : insert platform registry write candidate deviceId operationId = .ok settled)
    (hkind : ∀ kind, registry.kind? candidate.id = some kind → kind = candidate.kind) :
    ∃ row, Inserted platform registry settled write candidate row := by
  unfold insert at h
  obtain ⟨entered, hentered, h⟩ := bind_eq_ok.mp h
  obtain ⟨content, hcontent, h⟩ := bind_eq_ok.mp h
  obtain ⟨_, -, h⟩ := bind_eq_ok.mp h
  obtain ⟨hrevisions, -, htombstones⟩ := insertEntity_other hentered
  obtain rfl := Except.ok.inj h
  refine ⟨⟨candidate.revision, candidate.id, content, deviceId, operationId, candidate.created,
    Passport.parents candidate.document⟩, rfl, rfl, rfl, present_eq_ok.mp hcontent,
    kind?_insertEntity hentered hkind, ?_, rfl, htombstones⟩
  rw [hrevisions]

/-- A revision that is read belongs to a stored row of its entity. -/
theorem revision_cases {revisionId : String}
    (h : registry.revision platform revisionId = .ok held) :
    ∃ row ∈ registry.revisions, row.revisionId = revisionId ∧
      Canonical.parse platform row.content = some held ∧
      held.index "stable_id" = .string row.stableId ∧
      held.index "revision_id" = .string revisionId := by
  unfold Registry.revision at h
  obtain ⟨row, hrow, h⟩ := bind_eq_ok.mp h
  obtain ⟨kind, -, h⟩ := bind_eq_ok.mp h
  obtain ⟨read, hread, h⟩ := bind_eq_ok.mp h
  obtain ⟨_, -, h⟩ := bind_eq_ok.mp h
  obtain ⟨_, hmetadata, h⟩ := bind_eq_ok.mp h
  obtain ⟨_, -, h⟩ := bind_eq_ok.mp h
  obtain rfl : read = held := by simpa [Pure.pure, Except.pure] using h
  have hfound := present_eq_ok.mp hrow
  have hfields := ensure_eq_ok.mp hmetadata
  simp only [Bool.and_eq_true, beq_iff_eq] at hfields
  exact ⟨row, List.mem_of_find?_eq_some hfound, by simpa using List.find?_some hfound,
    present_eq_ok.mp hread, hfields.1.1.2, hfields.1.1.1⟩

theorem checkSameHarness_cases (h : checkSameHarness candidate held = .ok ())
    (hkind : candidate.kind = "setup") : setupHarness held = setupHarness candidate.document := by
  rw [checkSameHarness, if_pos hkind] at h
  obtain ⟨before, hbefore, h⟩ := bind_eq_ok.mp h
  obtain ⟨after, hafter, h⟩ := bind_eq_ok.mp h
  have hsame : before = after := by simpa using ensure_eq_ok.mp h
  rw [hbefore, hafter, hsame]

/-- Every head of an existing entity was read and agrees with the candidate. -/
theorem checkHeads_cases {heads : List String}
    (h : checkHeads platform registry write candidate heads = .ok ()) :
    ∀ head ∈ heads, ∃ held, registry.revision platform head = .ok held ∧
      held.index "stable_id" = .string candidate.id ∧
      (candidate.kind = "setup" → setupHarness held = setupHarness candidate.document) := by
  induction heads with
  | nil => simp
  | cons head heads ih =>
    unfold checkHeads at h
    obtain ⟨held, hheld, h⟩ := bind_eq_ok.mp h
    obtain ⟨_, hharness, h⟩ := bind_eq_ok.mp h
    obtain ⟨_, hentity, h⟩ := bind_eq_ok.mp h
    have hfields := ensure_eq_ok.mp hentity
    simp only [Bool.and_eq_true, beq_iff_eq] at hfields
    rw [List.forall_mem_cons]
    exact ⟨⟨held, hheld, hfields.1, checkSameHarness_cases hharness⟩, ih h⟩

theorem checkExisting_cases (h : checkExisting platform registry write candidate = .ok ())
    {kind : String} (hkind : registry.kind? candidate.id = some kind) :
    kind = candidate.kind ∧ registry.heads candidate.id ≠ [] ∧
      checkHeads platform registry write candidate (registry.heads candidate.id) = .ok () := by
  simp only [checkExisting, hkind] at h
  obtain ⟨_, hheld, hheads⟩ := bind_eq_ok.mp h
  have hfields := ensure_eq_ok.mp hheld
  simp only [Bool.and_eq_true, beq_iff_eq, Bool.not_eq_true', List.isEmpty_eq_false_iff]
    at hfields
  exact ⟨hfields.1, hfields.2, hheads⟩

/-- Every declared parent is a stored revision of the same entity. -/
theorem checkParents_cases {parents : List String}
    (h : checkParents platform registry write candidate parents = .ok ()) :
    ∀ parent ∈ parents, ∃ row ∈ registry.revisions,
      row.revisionId = parent ∧ row.stableId = candidate.id := by
  induction parents with
  | nil => simp
  | cons parent parents ih =>
    unfold checkParents at h
    obtain ⟨held, hheld, h⟩ := bind_eq_ok.mp h
    obtain ⟨_, hentity, h⟩ := bind_eq_ok.mp h
    have hfields := ensure_eq_ok.mp hentity
    simp only [Bool.and_eq_true, beq_iff_eq] at hfields
    rw [List.forall_mem_cons]
    refine ⟨?_, ih h⟩
    obtain ⟨row, hrow, hrevision, -, hid, -⟩ := revision_cases hheld
    exact ⟨row, hrow, hrevision, Json.string.inj (hid.symm.trans hfields.1.1)⟩

end Inversion

end AiStp.Client.Store
