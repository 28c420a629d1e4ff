import AiStp.Sync.Client.Device

/-!
# The ledger stays readable

Every row of the ledger is written as canonical bytes and read back under the full validation of its
direction. A row is readable as long as the passports it names are stored, and the store only grows
(`Registry.Extends`). So a row is readable for ever once it is readable after it was written, which
is the case exactly when what is written of its request, its receipt or its evidence reads back as
the same (`Survives`). An integral number beyond the exact range of a double is written and does not
read back.
-/

set_option autoImplicit false

namespace AiStp.Sync.Client

open Library Foundation AiStp.Client AiStp.Client.Store

/-! ### A store that grows -/

/-- Whatever passport is read before is read after. -/
def Grows (platform : Platform) (before after : Registry) : Prop :=
  ∀ revisionId document, before.revision platform revisionId = .ok document →
    after.revision platform revisionId = .ok document

section Growth

variable {platform : Platform} {validateVersion : Json → Except Failure Unit}
  {registry settled : Registry} {document held : Json} {write : Write}
  {deviceId : String} {operationId : Option String}

theorem Grows.refl (registry : Registry) : Grows platform registry registry :=
  fun _ _ h ↦ h

theorem Grows.trans {first middle last : Registry} (hfirst : Grows platform first middle)
    (hlast : Grows platform middle last) : Grows platform first last :=
  fun revisionId document h ↦ hlast revisionId document (hfirst revisionId document h)

theorem revision_eq_ok {revisionId : String} :
    registry.revision platform revisionId = .ok document ↔
      ∃ row kind, registry.revisions.find? (fun row ↦ row.revisionId = revisionId) = some row ∧
        registry.kind? row.stableId = some kind ∧
        Canonical.parse platform row.content = some document ∧
        Passport.validate platform document = .ok () ∧
        document.index "revision_id" = .string revisionId ∧
        document.index "stable_id" = .string row.stableId ∧
        document.index "created_at" = .string row.createdAt ∧
        document.index "kind" = .string kind ∧
        sorted (Passport.parents document) = sorted row.parents := by
  simp only [Registry.revision, bind_eq_ok, present_eq_ok, ensure_eq_ok, Bool.and_eq_true,
    beq_iff_eq, exists_const]
  constructor
  · rintro ⟨row, hrow, kind, hkind, read, hread, _, hvalid, ⟨⟨⟨hrevision, hentity⟩, hcreated⟩, hheld⟩,
      hparents, h⟩
    obtain rfl : read = document := Except.ok.inj h
    exact ⟨row, kind, hrow, hkind, hread, hvalid, hrevision, hentity, hcreated, hheld, hparents⟩
  · rintro ⟨row, kind, hrow, hkind, hread, hvalid, hrevision, hentity, hcreated, hheld, hparents⟩
    exact ⟨row, hrow, kind, hkind, document, hread, (), hvalid,
      ⟨⟨⟨hrevision, hentity⟩, hcreated⟩, hheld⟩, hparents, rfl⟩

theorem grows_of_append {rows : List RevisionRow}
    (hrevisions : settled.revisions = registry.revisions ++ rows)
    (hkinds : ∀ id kind, registry.kind? id = some kind → settled.kind? id = some kind) :
    Grows platform registry settled := by
  intro revisionId document h
  obtain ⟨row, kind, hrow, hkind, hrest⟩ := revision_eq_ok.mp h
  refine revision_eq_ok.mpr ⟨row, kind, ?_, hkinds _ _ hkind, hrest⟩
  rw [hrevisions, List.find?_append, hrow, Option.some_or]

/-- A commit takes nothing away. -/
theorem grows_of_commit
    (h : commit platform validateVersion registry document deviceId operationId write =
      .ok (held, settled)) : Grows platform registry settled := by
  obtain ⟨candidate, -, hexisting, hcases⟩ := commit_cases h
  rcases hcases with ⟨-, rfl, -⟩ | ⟨-, -, -, -, hinsert⟩
  · exact Grows.refl _
  · have hkind : ∀ kind, registry.kind? candidate.id = some kind → kind = candidate.kind :=
      fun kind hkind ↦ (checkExisting_cases hexisting hkind).1
    obtain ⟨row, hinserted⟩ := insert_cases hinsert hkind
    refine grows_of_append hinserted.revisions ?_
    intro id kind hheld
    rw [hinserted.kinds id]
    split_ifs with hid
    · rw [hkind kind (hid ▸ hheld)]
    · exact hheld

theorem grows_of_forget (stableId : String) :
    Grows platform registry (registry.forget stableId) := by
  intro revisionId document h
  unfold Registry.forget
  split_ifs
  · exact h
  · exact h

end Growth

section Received

variable {scope : Scope} {replica settled : Replica} {event : Event}

theorem grows_of_receive {id kind eventId deviceId : String} {binding : Binding}
    (h : receive scope replica id kind eventId deviceId binding = .ok settled) :
    Grows scope.platform replica.registry settled.registry := by
  simp only [receive, bind_eq_ok] at h
  obtain ⟨⟨major, minor⟩, -, _, -, _, -, received, hreceived, h⟩ := h
  have hsnapshot : Grows scope.platform replica.registry received.registry := by
    unfold receiveSnapshot at hreceived
    split at hreceived
    · obtain ⟨⟨_, registry⟩, hcommit, hreceived⟩ := bind_eq_ok.mp hreceived
      rw [← Except.ok.inj hreceived]
      exact grows_of_commit hcommit
    · rw [← Except.ok.inj hreceived]
      exact Grows.refl _
  refine hsnapshot.trans ?_
  split at h
  · simp only [bind_eq_ok] at h
    obtain ⟨_, -, _, -, h⟩ := h
    rw [← Except.ok.inj h]
    exact Grows.refl _
  · rw [← Except.ok.inj h]
    unfold Replica.postpone
    split_ifs
    · exact Grows.refl _
    · exact Grows.refl _

theorem grows_of_receiveAll {id kind eventId deviceId : String} {bindings : List Binding}
    (h : receiveAll scope id kind eventId deviceId replica bindings = .ok settled) :
    Grows scope.platform replica.registry settled.registry := by
  induction bindings generalizing replica with
  | nil =>
    rw [← Except.ok.inj h]
    exact Grows.refl _
  | cons binding bindings ih =>
    obtain ⟨received, hreceived, h⟩ := bind_eq_ok.mp h
    exact (grows_of_receive hreceived).trans (ih h)

theorem grows_of_receiveBindings (h : receiveBindings scope replica event = .ok settled) :
    Grows scope.platform replica.registry settled.registry := by
  unfold receiveBindings at h
  split at h
  · split_ifs at h
    · obtain ⟨_, -, h⟩ := bind_eq_ok.mp h
      exact grows_of_receiveAll h
    · rw [← Except.ok.inj h]
      exact Grows.refl _
  · rw [← Except.ok.inj h]
    exact Grows.refl _

theorem grows_of_reconcileAll {rows : List (PendingVersion × String)}
    (h : reconcileAll scope replica rows = .ok settled) :
    Grows scope.platform replica.registry settled.registry := by
  induction rows generalizing replica with
  | nil =>
    rw [← Except.ok.inj h]
    exact Grows.refl _
  | cons row rows ih =>
    obtain ⟨row, kind⟩ := row
    simp only [reconcileAll, bind_eq_ok] at h
    obtain ⟨binding, -, received, hreceived, h⟩ := h
    exact (grows_of_receive hreceived).trans (ih h)

theorem grows_of_reconcile (h : reconcile scope replica = .ok settled) :
    Grows scope.platform replica.registry settled.registry := by
  obtain ⟨_, -, h⟩ := bind_eq_ok.mp h
  exact grows_of_reconcileAll h

theorem registry_of_advance (h : advance scope replica event = .ok settled) :
    settled.registry = replica.registry ∧ settled.events = replica.events := by
  rw [advance_cases h]
  split_ifs
  · exact ⟨rfl, rfl⟩
  · exact ⟨rfl, rfl⟩

end Received

/-! ### What survives being written -/

/-- What is read back of what is written of a document. -/
def readBack (platform : Platform) (document : Json) : Option Json :=
  (Canonical.bytes platform document).bind (Canonical.parse platform)

/-- The event that a request reads as, when it is read at all. -/
def readEvent? (scope : Scope) (direction : Direction) (request : Json) : Option Event :=
  (readEvent scope direction request).toOption

/-- The parts of an event that its row repeats, or by which its passport is found. -/
def Event.sameColumns (event other : Event) : Bool :=
  event.eventId == other.eventId && event.entityId == other.entityId &&
    event.revisionId == other.revisionId && event.createdAt == other.createdAt &&
    event.entityKind == other.entityKind && event.operation == other.operation

/-- The stored request of an event reads back as the event. -/
def Event.survives (scope : Scope) (direction : Direction) (document : Json) (event : Event) :
    Bool :=
  (readBack scope.platform document >>= readEvent? scope direction).any fun other ↦
    other.sameColumns event

/-- The stored passport of an event reads back with the columns of its row. -/
def passportSurvives (platform : Platform) (document : Json) : Bool :=
  (readBack platform document).any fun held ↦
    held.index "revision_id" == document.index "revision_id" &&
      held.index "created_at" == document.index "created_at" &&
      Passport.parents held == Passport.parents document

/-- A stored receipt reads back as a receipt of the event in the same state. -/
def receiptSurvives (scope : Scope) (event : Event) (receipt : Json) : Bool :=
  (readBack scope.platform receipt).any fun held ↦
    (validateReceipt held event).toOption.isSome &&
      held.index "state" == receipt.index "state"

/-- The evidence of a retirement reads back as evidence for the request. -/
def evidenceSurvives (scope : Scope) (request evidence : Json) : Bool :=
  (readBack scope.platform evidence).any fun held ↦
    (scope.retirement request held).toOption.isSome

/-- The passport that a delivered event stores survives. -/
def Event.passportSurvives (platform : Platform) (event : Event) : Bool :=
  event.operation != .upsert ||
    (event.passport platform).toOption.all (Client.passportSurvives platform)

/-- A delivered event survives, with its passport and with the receipt that it stands for. -/
def deliverySurvives (scope : Scope) (raw : Json) : Bool :=
  (readEvent? scope .pull raw).all fun event ↦
    event.survives scope .pull event.document && event.passportSurvives scope.platform &&
      receiptSurvives scope event (deliveredReceipt event)

/-- What an action writes into the ledger survives being written. -/
def Survives (scope : Scope) (replica : Replica) : Action → Prop
  | .retain request =>
    (readEvent? scope .push request).all (fun event ↦ event.survives scope .push request) = true
  | .receipt receipt =>
    replica.events.all (fun row ↦
      (Canonical.parse scope.platform row.body >>= readEvent? scope .push).all fun event ↦
        receipt.index "event_id" != .string row.eventId || receiptSurvives scope event receipt) =
          true
  | .page response _ _ _ _ => (responseItems response).all (deliverySurvives scope) = true
  | .retire request _ evidence =>
    replica.events.all (fun row ↦
      (Canonical.parse scope.platform row.body).all fun held ↦
        !held.sameValue request || evidenceSurvives scope held evidence) = true
  | .edit registry _ _ => Grows scope.platform replica.registry registry

theorem readBack_eq_some {platform : Platform} {document held : Json} :
    readBack platform document = some held ↔
      ∃ content, Canonical.bytes platform document = some content ∧
        Canonical.parse platform content = some held := by
  rw [readBack, Option.bind_eq_some_iff]

theorem readEvent?_eq_some {scope : Scope} {direction : Direction} {request : Json}
    {event : Event} :
    readEvent? scope direction request = some event ↔
      readEvent scope direction request = .ok event := by
  unfold readEvent?
  cases readEvent scope direction request with
  | ok other => simp [Except.toOption]
  | error failure => simp [Except.toOption]

/-- The columns of a row are those of an event. -/
structure Columns (row : EventRow) (event : Event) : Prop where
  eventId : event.eventId = row.eventId
  revisionId : event.revisionId = row.remoteRevisionId
  entityId : event.entityId = row.entityId
  syncKey : event.revisionId = row.syncKey
  createdAt : event.createdAt = row.createdAt

/-- A row that the reader accepts. -/
def Readable (scope : Scope) (replica : Replica) (row : EventRow) : Prop :=
  ∃ held, readRow scope replica row = .ok held

variable {localRevisionId : Option String}

section Rows

variable {scope : Scope} {replica settled : Replica} {row : EventRow} {event : Event}
  {request document : Json}

theorem readable_iff :
    Readable scope replica row ↔
      ∃ request event stored receipt,
        Canonical.parse scope.platform row.body = some request ∧
          readEvent scope row.direction request = .ok event ∧ Columns row event ∧
          localRevision scope replica event = .ok row.localRevisionId ∧
          parseReceipt scope row = .ok stored ∧
          (row.direction = .push ∨ row.state = .accepted ∧ stored = none) ∧
          readReceipt scope row request event stored = .ok receipt := by
  simp only [Readable, readRow, bind_eq_ok, present_eq_ok, ensure_eq_ok, Bool.and_eq_true,
    Bool.or_eq_true, beq_iff_eq, Option.isNone_iff_eq_none, exists_const]
  constructor
  · rintro ⟨held, request, hrequest, event, hevent, ⟨⟨⟨⟨hid, hrevision⟩, hentity⟩, hkey⟩, hcreated⟩,
      _, hlocal, hsame, stored, hstored, hdirection, receipt, hreceipt, -⟩
    exact ⟨request, event, stored, receipt, hrequest, hevent,
      ⟨hid, hrevision, hentity, hkey, hcreated⟩, hsame ▸ hlocal, hstored, hdirection, hreceipt⟩
  · rintro ⟨request, event, stored, receipt, hrequest, hevent, hcolumns, hlocal, hstored,
      hdirection, hreceipt⟩
    exact ⟨_, request, hrequest, event, hevent, ⟨⟨⟨⟨hcolumns.eventId, hcolumns.revisionId⟩,
      hcolumns.entityId⟩, hcolumns.syncKey⟩, hcolumns.createdAt⟩, _, hlocal, rfl, stored, hstored,
      hdirection, receipt, hreceipt, rfl⟩

theorem localRevision_grows (hgrows : Grows scope.platform replica.registry settled.registry)
    (h : localRevision scope replica event = .ok localRevisionId) :
    localRevision scope settled event = .ok localRevisionId := by
  unfold localRevision at h ⊢
  split_ifs at h ⊢
  · simp only [bind_eq_ok] at h ⊢
    obtain ⟨document, hdocument, revision, hrevision, held, hheld, hrest⟩ := h
    exact ⟨document, hdocument, revision, hrevision, held, hgrows _ _ hheld, hrest⟩
  · exact h

/-- A row that is read once is read for as long as the store only grows. -/
theorem Readable.grows (h : Readable scope replica row)
    (hgrows : Grows scope.platform replica.registry settled.registry) :
    Readable scope settled row := by
  obtain ⟨request, event, stored, receipt, hrequest, hevent, hcolumns, hlocal, hrest⟩ :=
    readable_iff.mp h
  exact readable_iff.mpr ⟨request, event, stored, receipt, hrequest, hevent, hcolumns,
    localRevision_grows hgrows hlocal, hrest⟩

end Rows

/-! ### New rows -/

variable {revision : String}

section NewRows

variable {scope : Scope} {replica : Replica} {event other : Event}
  {request document content : Json} {direction : Direction}

theorem payload_of_parse (h : Event.parse request = some event) :
    request.get? "payload" = some event.payload := by
  unfold Event.parse at h
  iterate 11
    obtain ⟨_, -, h⟩ := Option.bind_eq_some_iff.mp h
  obtain ⟨payload, hpayload, h⟩ := Option.bind_eq_some_iff.mp h
  obtain ⟨_, -, h⟩ := Option.bind_eq_some_iff.mp h
  rw [hpayload, ← Option.some.inj (Option.ite_none_right_eq_some.mp h).2]

/-- The event that is read back of a stored request, with the payload that is read back. -/
theorem survives_cases (hcontent : Canonical.bytes scope.platform document = some content)
    (hpayload : document.get? "payload" = some event.payload)
    (h : event.survives scope direction document = true) :
    ∃ request other, Canonical.parse scope.platform content = some request ∧
      readEvent scope direction request = .ok other ∧ other.sameColumns event = true ∧
      Canonical.Reread scope.platform event.payload other.payload := by
  rw [Event.survives, Option.any_eq_true] at h
  obtain ⟨other, hother, hsame⟩ := h
  obtain ⟨request, hread, hevent⟩ := Option.bind_eq_some_iff.mp hother
  obtain ⟨content', hcontent', hrequest⟩ := readBack_eq_some.mp hread
  obtain rfl : content = content' := Option.some.inj (hcontent.symm.trans hcontent')
  have hevent := readEvent?_eq_some.mp hevent
  refine ⟨request, other, hrequest, hevent, hsame, ?_⟩
  have hget := (Canonical.reread_of_parse hcontent hrequest).get?
    (show Text.isPlain "payload" = true by decide)
  rw [hpayload, payload_of_parse (validate_of_readEvent hevent).1] at hget
  cases hget with
  | some hpayloads => exact hpayloads

theorem columns_of_sameColumns {row : EventRow} (hcolumns : Columns row event)
    (h : other.sameColumns event = true) : Columns row other := by
  simp only [Event.sameColumns, Bool.and_eq_true, beq_iff_eq] at h
  obtain ⟨⟨⟨⟨⟨hid, hentity⟩, hrevision⟩, hcreated⟩, -⟩, -⟩ := h
  exact ⟨hid.trans hcolumns.eventId, hrevision.trans hcolumns.revisionId,
    hentity.trans hcolumns.entityId, hrevision.trans hcolumns.syncKey,
    hcreated.trans hcolumns.createdAt⟩

theorem kind_of_sameColumns (h : other.sameColumns event = true) :
    other.passportKind = event.passportKind ∧ other.operation = event.operation := by
  simp only [Event.sameColumns, Bool.and_eq_true, beq_iff_eq] at h
  exact ⟨by rw [Event.passportKind, Event.passportKind, h.1.2], h.2⟩

theorem passport_eq_ok {platform : Platform} (h : event.passport platform = .ok document) :
    document = event.payload.erase releasedVersionsKey ∧
      Passport.validate platform document = .ok () ∧
      document.index "stable_id" = .string event.entityId ∧
      ∃ kind, event.passportKind = some kind ∧ document.index "kind" = .string kind := by
  simp only [Event.passport, bind_eq_ok, present_eq_ok, ensure_eq_ok, Bool.and_eq_true,
    beq_iff_eq] at h
  obtain ⟨kind, hkind, _, -, _, hvalid, _, ⟨⟨hentity, hheld⟩, -⟩, h⟩ := h
  obtain rfl := Except.ok.inj h
  exact ⟨rfl, hvalid, hentity, kind, hkind, hheld⟩

/-- A valid upsert of a passport kind carries a passport. -/
theorem passport_of_validate (hvalid : event.validate scope.platform scope.account = .ok ())
    (hkind : event.passportKind.isSome) (hupsert : event.operation = .upsert) :
    event.passport scope.platform = .ok (event.payload.erase releasedVersionsKey) := by
  simp only [Event.validate, Event.checkKind, bind_eq_ok] at hvalid
  obtain ⟨_, -, _, -, _, -, _, -, _, -, _, -, hkinds⟩ := hvalid
  obtain ⟨kind, hsome⟩ := Option.isSome_iff_exists.mp hkind
  simp only [hsome, Event.checkPassport, hupsert, if_true, bind_eq_ok] at hkinds
  obtain ⟨_, -, _, ⟨document, hdocument, -⟩, -⟩ := hkinds
  rw [hdocument, (passport_eq_ok hdocument).1]

/-- The stored revision of an event is that of its passport in the store. -/
theorem localRevision_of_stored (hpassport : event.passport scope.platform = .ok document)
    (hupsert : event.operation = .upsert)
    (hstored : replica.registry.revision scope.platform revision = .ok document) :
    localRevision scope replica event = .ok (some revision) := by
  obtain ⟨-, -, -, kind, hkind, -⟩ := passport_eq_ok hpassport
  obtain ⟨row, _, -, -, hparse, -, hrevision, -⟩ := revision_eq_ok.mp hstored
  have hsame : document.sameValue document = true := by
    unfold Canonical.parse at hparse
    split_ifs at hparse
    exact Canonical.sameValue_of_decode hparse
  have hnamed : (document.index "revision_id").asString? = some revision := by
    rw [hrevision]
    rfl
  simp only [localRevision, hkind, hupsert, Option.isSome_some, and_self, if_true, hpassport,
    bind_eq_ok, present_eq_ok, ensure_eq_ok]
  exact ⟨document, rfl, revision, hnamed, document, hstored, (), hsame, rfl⟩

theorem decode_of_parse {platform : Platform} {encoded held : Json}
    (h : Canonical.parse platform encoded = some held) :
    Canonical.decode platform encoded = some held := by
  unfold Canonical.parse at h
  split_ifs at h
  exact h

/-- What is read back of a passport that the store has is the stored passport. -/
theorem stored_of_reread {held again : Json}
    (hstored : replica.registry.revision scope.platform revision = .ok held)
    (hsame : held.sameValue document = true)
    (hread : Canonical.Reread scope.platform document again) : again = held := by
  obtain ⟨row, _, -, -, hparse, -⟩ := revision_eq_ok.mp hstored
  exact Canonical.reread_of_decode (decode_of_parse hparse) (hread.of_sameValue hsame)

/-- The passport that is read back of an event. -/
theorem passport_of_reread (hother : readEvent scope direction request = .ok other)
    (hcolumns : other.sameColumns event = true)
    (hpassport : event.passport scope.platform = .ok document) (hupsert : event.operation = .upsert)
    (hread : Canonical.Reread scope.platform event.payload other.payload) :
    ∃ again, other.passport scope.platform = .ok again ∧
      Canonical.Reread scope.platform document again := by
  obtain ⟨rfl, -, -, kind, hkind, -⟩ := passport_eq_ok hpassport
  obtain ⟨hkinds, hoperations⟩ := kind_of_sameColumns hcolumns
  refine ⟨_, passport_of_validate (validate_of_readEvent hother).2 ?_ (hoperations.trans hupsert),
    hread.erase (by decide)⟩
  rw [hkinds, hkind, Option.isSome_some]

/-- A pushed event keeps its stored revision when it is read back. -/
theorem localRevision_again (hother : readEvent scope direction request = .ok other)
    (hcolumns : other.sameColumns event = true)
    (hread : Canonical.Reread scope.platform event.payload other.payload)
    (h : localRevision scope replica event = .ok localRevisionId) :
    localRevision scope replica other = .ok localRevisionId := by
  obtain ⟨hkinds, hoperations⟩ := kind_of_sameColumns hcolumns
  by_cases hpassport : event.passportKind.isSome ∧ event.operation = .upsert
  · rw [localRevision, if_pos hpassport] at h
    simp only [bind_eq_ok, present_eq_ok, ensure_eq_ok] at h
    obtain ⟨document, hdocument, revision, -, held, hheld, _, hsame, h⟩ := h
    obtain ⟨again, hagain, hreread⟩ :=
      passport_of_reread hother hcolumns hdocument hpassport.2 hread
    obtain rfl : again = held := stored_of_reread hheld hsame hreread
    rw [← Except.ok.inj h]
    exact localRevision_of_stored hagain (hoperations.trans hpassport.2) hheld
  · have hother : ¬ (other.passportKind.isSome ∧ other.operation = .upsert) := by
      rw [hkinds, hoperations]
      exact hpassport
    rw [localRevision, if_neg hpassport] at h
    rw [localRevision, if_neg hother]
    exact h

/-- The row of a retained push is read when its request survives. -/
theorem readable_pushRow {body : Json}
    (hpush : Event.push scope.platform request scope.account = .ok event)
    (hlocal : localRevision scope replica event = .ok localRevisionId)
    (hbody : Canonical.bytes scope.platform request = some body)
    (hsurvives : event.survives scope .push request = true) :
    Readable scope replica (pushRow event localRevisionId body) := by
  obtain ⟨again, other, hparse, hother, hsame, hread⟩ :=
    survives_cases hbody (payload_of_parse (Event.push_eq_ok.mp hpush).2.1) hsurvives
  have hcolumns : Columns (pushRow event localRevisionId body) event := ⟨rfl, rfl, rfl, rfl, rfl⟩
  refine readable_iff.mpr ⟨again, other, none, none, hparse, hother,
    columns_of_sameColumns hcolumns hsame, localRevision_again hother hsame hread hlocal, rfl,
    .inl rfl, ?_⟩
  rfl

end NewRows

/-! ### Delivered rows -/

section DeliveredRows

variable {scope : Scope} {replica stored : Replica} {event : Event}
  {document held : Json} {registry next : Registry} {platform : Platform}
  {validateVersion : Json → Except Failure Unit} {write : Write} {deviceId : String}
  {operationId : Option String}

/-- A document sealed elsewhere is stored already, or it has a new row. -/
theorem commit_stored (hexternal : write.isExternal = true)
    (h : commit platform validateVersion registry document deviceId operationId write =
      .ok (held, next)) :
    ∃ revision, document.index "revision_id" = .string revision ∧
      ((∃ known, registry.revision platform revision = .ok known ∧
          known.sameValue document = true ∧ next = registry) ∨
        ∃ row kind, next.revisions.find? (fun row ↦ row.revisionId = revision) = some row ∧
          next.kind? row.stableId = some kind ∧
          Canonical.bytes platform document = some row.content ∧
          row.parents = Passport.parents document ∧
          document.index "created_at" = .string row.createdAt ∧
          document.index "stable_id" = .string row.stableId ∧
          document.index "kind" = .string kind) := by
  simp only [commit, prepared, addressed, hexternal, if_true, bind_eq_ok] at h
  obtain ⟨_, -, written, ⟨addressed, ⟨_, hvalid, haddressed⟩, _, -, hwritten⟩, candidate,
    hcandidate, _, hexisting, h⟩ := h
  obtain rfl : document = addressed := Except.ok.inj haddressed
  obtain rfl : document = written := Except.ok.inj hwritten
  simp only [identified, bind_eq_ok] at hcandidate
  obtain ⟨id, hid, revision, hrevision, kind, hkind, created, hcreated, _, -, _, -, hcandidate⟩ :=
    hcandidate
  obtain rfl := Except.ok.inj hcandidate
  refine ⟨revision, textField_eq_ok hrevision, ?_⟩
  dsimp only at h
  split_ifs at h with hstored
  · simp only [bind_eq_ok, ensure_eq_ok] at h
    obtain ⟨known, hknown, _, hsame, h⟩ := h
    obtain rfl : registry = next := (Prod.ext_iff.mp (Except.ok.inj h)).2
    exact .inl ⟨known, hknown, hsame, rfl⟩
  · simp only [bind_eq_ok, Store.insert, present_eq_ok] at h
    obtain ⟨_, -, _, -, _, -, inserted, ⟨entered, hentered, content, hcontent, _, -, hinserted⟩,
      h⟩ := h
    obtain rfl : inserted = next := (Prod.ext_iff.mp (Except.ok.inj h)).2
    obtain rfl := Except.ok.inj hinserted
    have hkinds : ∀ other, registry.kind? id = some other → other = kind :=
      fun other hother ↦ (checkExisting_cases hexisting hother).1
    refine .inr ⟨⟨revision, id, content, deviceId, operationId, created,
      Passport.parents document⟩, kind, ?_, ?_, hcontent, rfl, textField_eq_ok hcreated,
      textField_eq_ok hid, textField_eq_ok hkind⟩
    · have hmissing : registry.revisions.find? (fun row ↦ row.revisionId = revision) = none := by
        simpa [Registry.stored] using hstored
      rw [(insertEntity_other hentered).1, List.find?_append, hmissing, Option.none_or]
      exact List.find?_cons_of_pos (by simp)
    · show entered.kind? id = some kind
      rw [kind?_insertEntity hentered hkinds, if_pos rfl]

/-- The passport that a delivered event stores is found as the one that is read back. -/
theorem stored_passport {again : Json} (hexternal : write.isExternal = true)
    (h : commit platform validateVersion registry document deviceId operationId write =
      .ok (held, next)) (hrevision : document.index "revision_id" = .string revision)
    (hread : Canonical.Reread platform document again)
    (hvalid : Passport.validate platform again = .ok ())
    (hentity : again.index "stable_id" = document.index "stable_id")
    (hkind : again.index "kind" = document.index "kind")
    (hsurvives : passportSurvives platform document = true) :
    next.revision platform revision = .ok again := by
  obtain ⟨named, hnamed, hcases⟩ := commit_stored hexternal h
  obtain rfl : named = revision := Json.string.inj (hnamed.symm.trans hrevision)
  rcases hcases with ⟨known, hknown, hsame, rfl⟩ |
    ⟨row, kind, hrow, hheld, hcontent, hparents, hcreated, hid, hkinds⟩
  · obtain ⟨row, _, -, -, hparse, -⟩ := revision_eq_ok.mp hknown
    rw [Canonical.reread_of_decode (decode_of_parse hparse) (hread.of_sameValue hsame)]
    exact hknown
  · rw [passportSurvives, Option.any_eq_true] at hsurvives
    obtain ⟨found, hfound, hfields⟩ := hsurvives
    simp only [Bool.and_eq_true, beq_iff_eq] at hfields
    obtain ⟨⟨hsameRevision, hsameCreated⟩, hsameParents⟩ := hfields
    obtain ⟨content, hcontent', hparse⟩ := readBack_eq_some.mp hfound
    obtain rfl : row.content = content := Option.some.inj (hcontent.symm.trans hcontent')
    obtain rfl : found = again := (Canonical.reread_of_parse hcontent hparse).unique hread
    refine revision_eq_ok.mpr ⟨row, kind, hrow, hheld, hparse, hvalid,
      hsameRevision.trans hrevision, hentity.trans hid, hsameCreated.trans hcreated,
      hkind.trans hkinds, ?_⟩
    rw [hsameParents, hparents]

/-- What the storing of a delivered event leaves: no local revision, or its passport. -/
theorem storePassport_cases
    (h : storePassport scope replica event = .ok (localRevisionId, stored)) :
    Grows scope.platform replica.registry stored.registry ∧
      ((¬ (event.passportKind.isSome ∧ event.operation = .upsert) ∧ localRevisionId = none) ∨
        (event.passportKind.isSome ∧ event.operation = .upsert) ∧ ∃ document revision held middle,
          event.passport scope.platform = .ok document ∧
          document.index "revision_id" = .string revision ∧ localRevisionId = some revision ∧
          commit scope.platform (fun _ ↦ .ok ()) replica.registry document event.deviceId none
            (.received scope.account) = .ok (held, middle) ∧
          Grows scope.platform middle stored.registry) := by
  unfold storePassport at h
  split_ifs at h with hkind hupsert
  · obtain ⟨rfl, rfl⟩ : none = localRevisionId ∧ replica = stored :=
      Prod.ext_iff.mp (Except.ok.inj h)
    refine ⟨Grows.refl _, .inl ⟨?_, rfl⟩⟩
    rintro ⟨hsome, -⟩
    simp [Option.isNone_iff_eq_none.mp hkind] at hsome
  · simp only [bind_eq_ok] at h
    obtain ⟨_, -, document, hdocument, ⟨held, middle⟩, hcommit, received, hreceived, h⟩ := h
    obtain ⟨hlocal, rfl⟩ : (document.index "revision_id").asString? = localRevisionId ∧
      received = stored := Prod.ext_iff.mp (Except.ok.inj h)
    have hgrows : Grows scope.platform middle received.registry :=
      grows_of_receiveBindings hreceived
    obtain ⟨revision, hrevision, -⟩ := commit_stored rfl hcommit
    rw [hrevision] at hlocal
    refine ⟨(grows_of_commit hcommit).trans hgrows, .inr ⟨⟨?_, hupsert⟩, document, revision, held,
      middle, hdocument, hrevision, hlocal.symm, hcommit, hgrows⟩⟩
    rw [Option.isSome_iff_ne_none]
    exact fun hnone ↦ hkind (Option.isNone_iff_eq_none.mpr hnone)
  · obtain ⟨forgotten, hforgotten, h⟩ := bind_eq_ok.mp h
    unfold Replica.forget at hforgotten
    split_ifs at hforgotten
    obtain ⟨rfl, rfl⟩ : none = localRevisionId ∧ forgotten = stored :=
      Prod.ext_iff.mp (Except.ok.inj h)
    rw [← Except.ok.inj hforgotten]
    exact ⟨grows_of_forget _, .inl ⟨fun hboth ↦ hupsert hboth.2, rfl⟩⟩

theorem payload_of_document (event : Event) :
    event.document.get? "payload" = some event.payload := by
  cases hsequence : event.sequence <;> simp [Event.document, Json.get?, hsequence, List.lookup]

/-- The row of a delivered event is read when the event survives. -/
theorem readable_pullRow {body : Json}
    (hstored : storePassport scope replica event = .ok (localRevisionId, stored))
    (hbody : Canonical.bytes scope.platform event.document = some body)
    (hsurvives : event.survives scope .pull event.document = true)
    (hpassport : event.passportSurvives scope.platform = true) :
    Readable scope stored (pullRow event localRevisionId body) := by
  obtain ⟨request, other, hparse, hother, hsame, hread⟩ :=
    survives_cases hbody (payload_of_document event) hsurvives
  have hcolumns : Columns (pullRow event localRevisionId body) event := ⟨rfl, rfl, rfl, rfl, rfl⟩
  obtain ⟨hkinds, hoperations⟩ := kind_of_sameColumns hsame
  have hlocal : localRevision scope stored other = .ok localRevisionId := by
    obtain ⟨-, hcases⟩ := storePassport_cases hstored
    rcases hcases with ⟨hnone, rfl⟩ |
      ⟨hboth, document, revision, held, middle, hdocument, hrevision, rfl, hcommit, hgrows⟩
    · rw [localRevision, hkinds, hoperations, if_neg hnone]
    · obtain ⟨again, hagain, hreread⟩ := passport_of_reread hother hsame hdocument hboth.2 hread
      obtain ⟨-, hvalid, hentity, kind, hkind, hheld⟩ := passport_eq_ok hagain
      obtain ⟨-, -, hentity', kind', hkind', hheld'⟩ := passport_eq_ok hdocument
      have hsurvives' : passportSurvives scope.platform document = true := by
        simpa [Event.passportSurvives, hboth.2, hdocument, Except.toOption] using hpassport
      have hids : other.entityId = event.entityId := by
        simp only [Event.sameColumns, Bool.and_eq_true, beq_iff_eq] at hsame
        exact hsame.1.1.1.1.2
      have hkindSame : kind = kind' :=
        Option.some.inj (hkind.symm.trans (hkinds.trans hkind'))
      have hfound := stored_passport rfl hcommit hrevision hreread hvalid
        (by rw [hentity, hentity', hids]) (by rw [hheld, hheld', hkindSame]) hsurvives'
      exact localRevision_of_stored hagain (hoperations.trans hboth.2) (hgrows _ _ hfound)
  refine readable_iff.mpr ⟨request, other, none, none, hparse, hother,
    columns_of_sameColumns hcolumns hsame, hlocal, rfl, .inr ⟨rfl, rfl⟩, rfl⟩

end DeliveredRows

/-! ### Settled rows -/

variable {state : EventState}

section SettledRows

variable {scope : Scope} {replica : Replica} {row : EventRow} {event other : Event}
  {receipt content : Json}

theorem bytes_of_encoded {platform : Platform} (h : encoded platform receipt = .ok content) :
    Canonical.bytes platform receipt = some content := by
  simp only [encoded, bind_eq_ok, present_eq_ok, ensure_eq_ok] at h
  obtain ⟨written, hwritten, _, -, h⟩ := h
  rw [hwritten, Except.ok.inj h]

theorem bytes_of_encode {platform : Platform} (h : encode platform receipt = .ok content) :
    Canonical.bytes platform receipt = some content := by
  simp only [encode, bind_eq_ok, present_eq_ok, ensure_eq_ok] at h
  obtain ⟨written, hwritten, _, -, h⟩ := h
  rw [hwritten, Except.ok.inj h]

/-- A receipt is checked against the id and the revision of an event. -/
theorem validateReceipt_congr (hid : event.eventId = other.eventId)
    (hrevision : event.revisionId = other.revisionId) :
    validateReceipt receipt event = validateReceipt receipt other := by
  rw [validateReceipt, validateReceipt, hid, hrevision]

theorem receiptSurvives_congr (hid : event.eventId = other.eventId)
    (hrevision : event.revisionId = other.revisionId) :
    receiptSurvives scope event receipt = receiptSurvives scope other receipt := by
  simp only [receiptSurvives, validateReceipt_congr hid hrevision]

theorem receiptSurvives_cases (hcontent : Canonical.bytes scope.platform receipt = some content)
    (h : receiptSurvives scope event receipt = true) :
    ∃ held, Canonical.parse scope.platform content = some held ∧
      validateReceipt held event = .ok () ∧ held.index "state" = receipt.index "state" := by
  rw [receiptSurvives, Option.any_eq_true] at h
  obtain ⟨held, hheld, hfields⟩ := h
  obtain ⟨content', hcontent', hparse⟩ := readBack_eq_some.mp hheld
  obtain rfl : content = content' := Option.some.inj (hcontent.symm.trans hcontent')
  simp only [Bool.and_eq_true, beq_iff_eq] at hfields
  refine ⟨held, hparse, ?_, hfields.2⟩
  cases hvalid : validateReceipt held event with
  | ok => rfl
  | error failure => simp [hvalid, Except.toOption] at hfields

theorem wire_of_ofReceipt {text : String} (h : EventState.ofReceipt text = some state) :
    state.wire = text ∧ state ≠ .failed ∧ state ≠ .pending := by
  have hfound := List.find?_some h
  have hmem := List.mem_of_find?_eq_some h
  simp only [decide_eq_true_eq] at hfound
  refine ⟨hfound, ?_, ?_⟩
  · rintro rfl
    simp at hmem
  · rintro rfl
    simp at hmem

/-- A push with a receipt that is read back is read. -/
theorem readable_settled (h : Readable scope replica row) (hpush : row.direction = .push)
    (hstate : state ≠ .failed)
    (hreceipt : ∀ request event, Canonical.parse scope.platform row.body = some request →
      readEvent scope .push request = .ok event → ∃ held,
        Canonical.parse scope.platform content = some held ∧
          validateReceipt held event = .ok () ∧ held.index "state" = .string state.wire) :
    Readable scope replica { row with state, receipt := some content } := by
  obtain ⟨request, event, _, _, hrequest, hevent, hcolumns, hlocal, -⟩ := readable_iff.mp h
  obtain ⟨held, hparse, hvalid, hwire⟩ := hreceipt request event hrequest (hpush ▸ hevent)
  have hstored : parseReceipt scope { row with state, receipt := some content } =
      .ok (some held) := by
    simp only [parseReceipt, bind_eq_ok, present_eq_ok]
    exact ⟨held, hparse, rfl⟩
  refine readable_iff.mpr ⟨request, event, some held, some held, hrequest, hevent,
    ⟨hcolumns.eventId, hcolumns.revisionId, hcolumns.entityId, hcolumns.syncKey,
      hcolumns.createdAt⟩, hlocal, hstored, .inl hpush, ?_⟩
  cases state with
  | failed => exact absurd rfl hstate
  | pending | accepted | conflict | rejected | superseded =>
    simp only [readReceipt, bind_eq_ok, ensure_eq_ok, beq_iff_eq]
    exact ⟨(), hvalid, (), hwire, rfl⟩

/-- A retired push with evidence that is read back is read. -/
theorem readable_retired (h : Readable scope replica row) (hpush : row.direction = .push)
    (hevidence : ∀ request, Canonical.parse scope.platform row.body = some request → ∃ held,
      Canonical.parse scope.platform content = some held ∧
        scope.retirement request held = .ok ()) :
    Readable scope replica { row with state := .failed, receipt := some content } := by
  obtain ⟨request, event, _, _, hrequest, hevent, hcolumns, hlocal, -⟩ := readable_iff.mp h
  obtain ⟨held, hparse, haccepted⟩ := hevidence request hrequest
  have hstored : parseReceipt scope { row with state := .failed, receipt := some content } =
      .ok (some held) := by
    simp only [parseReceipt, bind_eq_ok, present_eq_ok]
    exact ⟨held, hparse, rfl⟩
  refine readable_iff.mpr ⟨request, event, some held, none, hrequest, hevent,
    ⟨hcolumns.eventId, hcolumns.revisionId, hcolumns.entityId, hcolumns.syncKey,
      hcolumns.createdAt⟩, hlocal, hstored, .inl hpush, ?_⟩
  simp only [readReceipt, bind_eq_ok]
  exact ⟨(), haccepted, rfl⟩

end SettledRows

/-! ### One operation -/

/-- Every row is read, and no two rows have one event id. -/
structure Consistent (scope : Scope) (replica : Replica) : Prop where
  readable : ∀ row ∈ replica.events, Readable scope replica row
  distinct : replica.events.Pairwise fun first second ↦ first.eventId ≠ second.eventId

section Operations

variable {scope : Scope} {replica settled : Replica} {event : Event} {receipt content : Json}

section

variable (h : Consistent scope replica)
include h

/-- A row is known by its event id. -/
theorem Consistent.unique {row other : EventRow} (hrow : row ∈ replica.events)
    (hother : other ∈ replica.events) (hid : row.eventId = other.eventId) : row = other := by
  have hnodup : (replica.events.map EventRow.eventId).Nodup := List.pairwise_map.mpr h.distinct
  exact List.inj_on_of_nodup_map hnodup hrow hother hid

theorem Consistent.grows (hevents : settled.events = replica.events)
    (hgrows : Grows scope.platform replica.registry settled.registry) :
    Consistent scope settled where
  readable := by
    intro row hrow
    exact (h.readable row (hevents ▸ hrow)).grows hgrows
  distinct := hevents ▸ h.distinct

theorem Consistent.append {row : EventRow} (hevents : settled.events = replica.events ++ [row])
    (hgrows : Grows scope.platform replica.registry settled.registry)
    (hfresh : ∀ other ∈ replica.events, other.eventId ≠ row.eventId)
    (hrow : Readable scope settled row) : Consistent scope settled where
  readable := by
    intro other hother
    rw [hevents] at hother
    rcases List.mem_append.mp hother with hold | hnew
    · exact (h.readable other hold).grows hgrows
    · exact List.mem_singleton.mp hnew ▸ hrow
  distinct := by
    rw [hevents, List.pairwise_append]
    refine ⟨h.distinct, List.pairwise_singleton _ _, ?_⟩
    intro other hother added hadded
    rw [List.mem_singleton.mp hadded]
    exact hfresh other hother

/-- Rows that are rewritten in place, each under its event id. -/
theorem Consistent.rewrite {change : EventRow → EventRow}
    (hid : ∀ row, (change row).eventId = row.eventId)
    (hchange : ∀ row ∈ replica.events, Readable scope replica (change row)) :
    Consistent scope { replica with events := replica.events.map change } where
  readable := by
    intro row hrow
    obtain ⟨old, hold, rfl⟩ := List.mem_map.mp hrow
    exact (hchange old hold).grows (Grows.refl _)
  distinct := by
    rw [List.pairwise_map]
    simp only [hid]
    exact h.distinct

end

/-- A receipt changes nothing, or it is written over the waiting pushes of its event. -/
theorem recordReceipt_written (h : recordReceipt scope replica receipt = .ok settled) :
    settled = replica ∨ ∃ eventId text state content,
      receipt.index "event_id" = .string eventId ∧ receipt.index "state" = .string text ∧
        EventState.ofReceipt text = some state ∧
        Canonical.bytes scope.platform receipt = some content ∧
        settled.events = (replica.finish state content eventId).events ∧
        settled.registry = replica.registry := by
  simp only [recordReceipt, bind_eq_ok, present_eq_ok] at h
  obtain ⟨_, -, eventId, hid, held, -, event, -, _, -, _, -, h⟩ := h
  cases hprevious : held.receipt with
  | some previous =>
    rw [hprevious] at h
    obtain ⟨_, -, h⟩ := bind_eq_ok.mp h
    exact .inl (Except.ok.inj h).symm
  | none =>
    rw [hprevious] at h
    simp only [writeFirstReceipt, bind_eq_ok, present_eq_ok] at h
    obtain ⟨state, hstate, content, hcontent, _, -, h⟩ := h
    obtain ⟨text, htext, hstate⟩ := Option.bind_eq_some_iff.mp hstate
    refine .inr ⟨eventId, text, state, content, asString?_eq_some hid, asString?_eq_some htext,
      hstate, bytes_of_encoded hcontent, ?_⟩
    by_cases haccepted : state = .accepted
    · rw [if_pos haccepted] at h
      obtain ⟨hregistry, hevents⟩ := registry_of_advance h
      exact ⟨hevents, hregistry⟩
    · rw [if_neg haccepted] at h
      rw [← Except.ok.inj h]
      exact ⟨rfl, rfl⟩

theorem consistent_recordReceipt (hconsistent : Consistent scope replica)
    (hsurvives : ∀ row ∈ replica.events, ∀ request event,
      Canonical.parse scope.platform row.body = some request →
      readEvent scope .push request = .ok event →
      receipt.index "event_id" = .string row.eventId → receiptSurvives scope event receipt = true)
    (h : recordReceipt scope replica receipt = .ok settled) : Consistent scope settled := by
  rcases recordReceipt_written h with rfl |
    ⟨eventId, text, state, content, hid, htext, hstate, hcontent, hevents, hregistry⟩
  · exact hconsistent
  obtain ⟨hwire, hfinal, -⟩ := wire_of_ofReceipt hstate
  have hfinished : Consistent scope (replica.finish state content eventId) := by
    refine hconsistent.rewrite (fun row ↦ ?_) ?_
    · split_ifs
      · rfl
      · rfl
    · intro row hrow
      split_ifs with hwaits
      · refine readable_settled (hconsistent.readable row hrow) hwaits.2.1 hfinal ?_
        intro request event hrequest hevent
        obtain ⟨held, hparse, hvalid, hsame⟩ := receiptSurvives_cases hcontent
          (hsurvives row hrow request event hrequest hevent (hwaits.1 ▸ hid))
        exact ⟨held, hparse, hvalid, by rw [hsame, htext, hwire]⟩
      · exact hconsistent.readable row hrow
  exact hfinished.grows hevents (hregistry ▸ Grows.refl _)

end Operations

section Delivery

variable {scope : Scope} {replica settled : Replica} {event : Event}

theorem grows_of_applyConsent (h : applyConsent scope replica event = .ok settled) :
    settled.events = replica.events ∧ settled.registry = replica.registry := by
  rw [applyConsent_cases h]
  exact ⟨rfl, rfl⟩

section

variable (hconsistent : Consistent scope replica)
include hconsistent

/-- A delivered push takes its receipt, which survives. -/
theorem consistent_acceptDelivered {row : EventRow} {kept : Replica}
    (hknown : KnownRow scope replica event row)
    (hsurvives : receiptSurvives scope event (deliveredReceipt event) = true)
    (h : acceptDelivered scope replica event row = .ok kept) : Consistent scope kept := by
  unfold acceptDelivered at h
  by_cases hpush : row.direction = .push
  · rw [if_pos hpush] at h
    obtain ⟨_, -, h⟩ := bind_eq_ok.mp h
    by_cases hwaits : (row.state = .pending ∨ row.state = .failed) ∧ row.eventId = event.eventId
    · rw [if_pos hwaits] at h
      refine consistent_recordReceipt hconsistent ?_ h
      intro other hother request held hrequest hheld hid
      have hotherId : event.eventId = other.eventId := Json.string.inj hid
      obtain rfl : other = row := hknown.only other hother (.inl hotherId.symm)
      obtain ⟨request', event', _, _, hrequest', hevent', hcolumns, -⟩ :=
        readable_iff.mp (hconsistent.readable other hother)
      obtain rfl : request = request' := Option.some.inj (hrequest.symm.trans hrequest')
      rw [hpush] at hevent'
      obtain rfl : held = event' := Except.ok.inj (hheld.symm.trans hevent')
      rw [receiptSurvives_congr (hcolumns.eventId.trans hotherId.symm)
        (hcolumns.revisionId.trans hknown.revisionId)]
      exact hsurvives
    · rw [if_neg hwaits] at h
      rw [← Except.ok.inj h]
      exact hconsistent
  · rw [if_neg hpush] at h
    rw [← Except.ok.inj h]
    exact hconsistent

theorem consistent_applyEvent {replayed : Bool}
    (hvalid : event.validate scope.platform scope.account = .ok ())
    (hevent : event.survives scope .pull event.document = true)
    (hpassport : event.passportSurvives scope.platform = true)
    (hreceipt : receiptSurvives scope event (deliveredReceipt event) = true)
    (h : applyEvent scope replica event = .ok (settled, replayed)) : Consistent scope settled := by
  rcases applyEvent_cases hvalid h with
    ⟨row, kept, received, -, hknown, hkept, hreceived, hadvanced⟩ |
      ⟨-, hfresh, localRevisionId, stored, body, advanced, hstored, hbody, hadvanced, hconsent⟩
  · obtain ⟨hregistry, hevents⟩ := registry_of_advance hadvanced
    have hsame := sameLedger_of_receiveBindings hreceived
    have haccepted := consistent_acceptDelivered hconsistent hknown hreceipt hkept
    exact haccepted.grows (hevents.trans hsame.events)
      (hregistry ▸ grows_of_receiveBindings hreceived)
  · obtain ⟨hevents, hregistry⟩ := grows_of_applyConsent hconsent
    obtain ⟨hadvancedRegistry, hadvancedEvents⟩ := registry_of_advance hadvanced
    have hsame := sameLedger_of_storePassport hstored
    have hsettledEvents : settled.events =
        replica.events ++ [pullRow event localRevisionId body] := by
      rw [hevents, hadvancedEvents]
      exact congrArg (· ++ _) hsame.events
    have hsettledRegistry : settled.registry = stored.registry :=
      hregistry.trans hadvancedRegistry
    refine hconsistent.append hsettledEvents
      (hsettledRegistry ▸ (storePassport_cases hstored).1) ?_ ?_
    · intro other hother hid
      have hmem : other ∈ matching replica event :=
        List.mem_filter.mpr ⟨hother, by simpa using .inl hid⟩
      rw [hfresh] at hmem
      simp at hmem
    · exact (readable_pullRow hstored (bytes_of_encode hbody) hevent hpassport).grows
        (hsettledRegistry ▸ Grows.refl _)

theorem consistent_applyItems {items : List Json} {report counted : PageReport}
    (hsurvives : ∀ raw ∈ items, deliverySurvives scope raw = true)
    (h : applyItems scope replica report items = .ok (settled, counted)) :
    Consistent scope settled := by
  refine applyItems_induction (motive := fun replica items settled ↦ Consistent scope replica →
    (∀ raw ∈ items, deliverySurvives scope raw = true) → Consistent scope settled) ?_ ?_ ?_ h
      hconsistent hsurvives
  · intro replica hconsistent _
    exact hconsistent
  · intro replica raw items settled id _ _ ih hconsistent hsurvives
    exact ih hconsistent (List.forall_mem_cons.mp hsurvives).2
  · intro replica raw items middle settled id event replayed _ _ hstream happlied ih hconsistent
      hsurvives
    rw [List.forall_mem_cons] at hsurvives
    have hread : readEvent? scope .pull raw = some event := readEvent?_eq_some.mpr hstream
    have hfields := hsurvives.1
    simp only [deliverySurvives, hread, Option.all_some, Bool.and_eq_true] at hfields
    exact ih (consistent_applyEvent hconsistent (Event.stream_eq_ok.mp hstream).2.2
      hfields.1.1 hfields.1.2 hfields.2 happlied) hsurvives.2

end

theorem consistent_apply (response : Json) (expectedCursor : Option String) (pageSize : Nat)
    (skip : List String) (at_ : String) (hconsistent : Consistent scope replica)
    (hsurvives : ∀ raw ∈ responseItems response, deliverySurvives scope raw = true) :
    Consistent scope (apply scope replica response expectedCursor pageSize skip at_) := by
  rcases apply_cases scope replica response expectedCursor pageSize skip at_ with
    hsame | ⟨-, applied, reconciled, report, counted, happlied, hreconciled, hmoved⟩
  · rw [hsame]
    exact hconsistent
  · have habandoned : Consistent scope (abandon replica skip) :=
      hconsistent.grows rfl (Grows.refl _)
    have hitems := consistent_applyItems habandoned hsurvives happlied
    rw [moveCursor_cases hmoved]
    have hgrows : Grows scope.platform applied.registry reconciled.registry :=
      grows_of_reconcile hreconciled
    exact hitems.grows (sameLedger_of_reconcile hreconciled).events hgrows

end Delivery

section Pushes

variable {scope : Scope} {replica settled : Replica} {request : Json}

theorem consistent_retain {held : Pending} (hconsistent : Consistent scope replica)
    (hsurvives : ∀ event, Event.push scope.platform request scope.account = .ok event →
      event.survives scope .push request = true)
    (h : retain scope replica request = .ok (held, settled)) : Consistent scope settled := by
  rcases retain_cases h with
    rfl | ⟨event, localRevisionId, body, hevent, hlocal, hbody, -, hfresh, rfl⟩
  · exact hconsistent
  · refine hconsistent.append rfl (Grows.refl _) (fun row hrow ↦ (hfresh row hrow).1) ?_
    exact (readable_pushRow hevent hlocal (bytes_of_encoded hbody)
      (hsurvives event hevent)).grows (Grows.refl _)

theorem consistent_retire {replacementDeviceId : String} {evidence : Json}
    (hconsistent : Consistent scope replica)
    (hsurvives : ∀ row ∈ replica.events, ∀ held, Canonical.parse scope.platform row.body = some held →
      held.sameValue request = true → evidenceSurvives scope held evidence = true)
    (h : retire scope replica request replacementDeviceId evidence = .ok settled) :
    Consistent scope settled := by
  simp only [retire, bind_eq_ok, present_eq_ok, ensure_eq_ok, Bool.and_eq_true, beq_iff_eq] at h
  obtain ⟨event, -, held, hheld, _, ⟨⟨-, hsame⟩, -⟩, content, hcontent, h⟩ := h
  obtain ⟨found, hfound, hfoundId, -, event', hreads⟩ := recorded_cases hheld
  rw [← Except.ok.inj h]
  refine hconsistent.rewrite (fun row ↦ ?_) ?_
  · split_ifs
    · rfl
    · rfl
  · intro row hrow
    split_ifs with hwaits
    · refine readable_retired (hconsistent.readable row hrow) hwaits.2.1 ?_
      intro request' hrequest'
      obtain rfl : row = found :=
        hconsistent.unique hrow hfound (hwaits.1.trans hfoundId.symm)
      obtain rfl : held.request = request' := Option.some.inj (hreads.parses.symm.trans hrequest')
      have hevidence := hsurvives row hrow held.request hreads.parses hsame
      rw [evidenceSurvives, Option.any_eq_true] at hevidence
      obtain ⟨again, hagain, haccepted⟩ := hevidence
      obtain ⟨content', hcontent', hparse⟩ := readBack_eq_some.mp hagain
      obtain rfl : content = content' := Option.some.inj (hcontent.symm.trans hcontent')
      refine ⟨again, hparse, ?_⟩
      cases hretired : scope.retirement held.request again with
      | ok => rfl
      | error failure => simp [hretired, Except.toOption] at haccepted
    · exact hconsistent.readable row hrow

end Pushes

/-! ### What operations do to the rows -/

/-- The unfinished pushes of an entity. -/
def unfinished (events : List EventRow) (entityId : String) : List EventRow :=
  events.filter fun row ↦ row.entityId = entityId ∧ row.direction = .push ∧ row.state = .pending

/-- The states that the server's answer settles. A retired push may still be accepted. -/
def EventState.isFinal (state : EventState) : Prop :=
  state ≠ .pending ∧ state ≠ .failed

/-- One change of the rows. -/
inductive RowStep : List EventRow → List EventRow → Prop
  | pushed (events : List EventRow) (row : EventRow) (hnone : unfinished events row.entityId = []) :
      RowStep events (events ++ [row])
  | pulled (events : List EventRow) (row : EventRow) (hpull : row.direction = .pull) :
      RowStep events (events ++ [row])
  | settled (events : List EventRow) (change : EventRow → EventRow)
      (hchange : ∀ row, change row = row ∨ ¬ row.state.isFinal ∧ (change row).state ≠ .pending) :
      RowStep events (events.map change)

/-- The changes of one operation, in turn. -/
abbrev RowSteps : List EventRow → List EventRow → Prop :=
  Relation.ReflTransGen RowStep

/-- No change adds a second unfinished push to an entity. -/
theorem RowStep.unfinished_le {before after : List EventRow} (h : RowStep before after)
    (hbefore : ∀ entityId, (unfinished before entityId).length ≤ 1) (entityId : String) :
    (unfinished after entityId).length ≤ 1 := by
  cases h with
  | pushed row hnone =>
    rw [unfinished, List.filter_append, List.length_append]
    by_cases hentity : row.entityId = entityId
    · have hempty : (before.filter fun row ↦ decide (row.entityId = entityId ∧
          row.direction = .push ∧ row.state = .pending)).length = 0 := by
        rw [← hentity]
        exact List.length_eq_zero_iff.mpr hnone
      rw [hempty, Nat.zero_add]
      exact List.length_filter_le _ [row]
    · rw [List.filter_cons_of_neg (by simp [hentity]), List.filter_nil, List.length_nil,
        Nat.add_zero]
      exact hbefore entityId
  | pulled row hpull =>
    rw [unfinished, List.filter_append, List.filter_cons_of_neg (by simp [hpull]),
      List.filter_nil, List.append_nil]
    exact hbefore entityId
  | settled change hchange =>
    rw [unfinished, ← List.countP_eq_length_filter, List.countP_map]
    refine le_trans (List.countP_mono_left fun row _ hrow ↦ ?_)
      (List.countP_eq_length_filter.trans_le (hbefore entityId))
    simp only [Function.comp_apply, decide_eq_true_eq] at hrow
    rcases hchange row with hsame | ⟨-, hsettled⟩
    · simpa [hsame] using hrow
    · exact absurd hrow.2.2 hsettled

/-- No change touches a row whose state is final. -/
theorem RowStep.keeps_final {before after : List EventRow} (h : RowStep before after)
    {row : EventRow} (hrow : row ∈ before) (hfinal : row.state.isFinal) : row ∈ after := by
  cases h with
  | pushed | pulled => exact List.mem_append_left _ hrow
  | settled change hchange =>
    rcases hchange row with hsame | ⟨hopen, -⟩
    · exact List.mem_map.mpr ⟨row, hrow, hsame⟩
    · exact absurd hfinal hopen

section Rows

variable {scope : Scope} {replica settled : Replica} {event : Event} {request receipt : Json}

theorem rowStep_finish (events : List EventRow) (content : Json) (eventId : String)
    (hstate : state ≠ .pending) :
    RowStep events (events.map fun row ↦
      if row.eventId = eventId ∧ row.direction = .push ∧
          (row.state = .pending ∨ row.state = .failed) then
        { row with state, receipt := some content }
      else row) := by
  refine .settled events _ fun row ↦ ?_
  split_ifs with hwaits
  · refine .inr ⟨?_, hstate⟩
    rintro ⟨hpending, hfailed⟩
    exact hwaits.2.2.elim hpending hfailed
  · exact .inl rfl

theorem rowSteps_recordReceipt (h : recordReceipt scope replica receipt = .ok settled) :
    RowSteps replica.events settled.events := by
  rcases recordReceipt_written h with rfl |
    ⟨eventId, text, state, content, -, -, hstate, -, hevents, -⟩
  · exact .refl
  · rw [hevents]
    exact .single (rowStep_finish _ _ _ (wire_of_ofReceipt hstate).2.2)

theorem rowSteps_retain {held : Pending} (h : retain scope replica request = .ok (held, settled)) :
    RowSteps replica.events settled.events := by
  rcases retain_cases h with rfl | ⟨event, localRevisionId, body, -, -, -, hnone, -, rfl⟩
  · exact .refl
  · exact .single (.pushed _ _ hnone)

theorem rowSteps_retire {replacementDeviceId : String} {evidence : Json}
    (h : retire scope replica request replacementDeviceId evidence = .ok settled) :
    RowSteps replica.events settled.events := by
  obtain ⟨eventId, content, rfl⟩ := retire_cases h
  refine .single (.settled _ _ fun row ↦ ?_)
  split_ifs with hwaits
  · refine .inr ⟨?_, by simp⟩
    rintro ⟨hpending, -⟩
    exact hpending hwaits.2.2.1
  · exact .inl rfl

theorem rowSteps_applyItems {items : List Json} {report counted : PageReport}
    (h : applyItems scope replica report items = .ok (settled, counted)) :
    RowSteps replica.events settled.events := by
  refine applyItems_induction (motive := fun replica _ settled ↦
    RowSteps replica.events settled.events) ?_ ?_ ?_ h
  · intro replica
    exact .refl
  · intro replica raw items settled id _ _ ih
    exact ih
  · intro replica raw items middle settled id event replayed _ _ hstream happlied ih
    have henters := (applyEvent_effect (Event.stream_eq_ok.mp hstream).2.2 happlied).enters
    generalize middle.events = rows at henters ih
    cases henters with
    | recorded => exact ih
    | accepted row content => exact .head (rowStep_finish _ _ _ (by decide)) ih
    | inserted localRevisionId body => exact .head (.pulled _ _ rfl) ih

theorem rowSteps_perform (scope : Scope) (replica : Replica) (action : Action) :
    RowSteps replica.events (perform scope replica action).events := by
  cases action with
  | retain request =>
    exact retain_invariant (fun settled ↦ RowSteps replica.events settled.events) .refl
      fun held settled h ↦ rowSteps_retain h
  | receipt receipt =>
    exact orKeep_invariant (fun settled ↦ RowSteps replica.events settled.events) .refl
      fun settled h ↦ rowSteps_recordReceipt h
  | page response expectedCursor pageSize skip at_ =>
    rcases apply_cases scope replica response expectedCursor pageSize skip at_ with
      hsame | ⟨-, applied, reconciled, report, counted, happlied, hreconciled, hmoved⟩
    · rw [perform, hsame]
    · have hevents : (perform scope replica
          (.page response expectedCursor pageSize skip at_)).events = applied.events := by
        rw [perform, moveCursor_cases hmoved]
        exact (sameLedger_of_reconcile hreconciled).events
      have hitems : RowSteps (abandon replica skip).events applied.events :=
        rowSteps_applyItems happlied
      rw [hevents]
      exact hitems
  | retire request replacementDeviceId evidence =>
    exact orKeep_invariant (fun settled ↦ RowSteps replica.events settled.events) .refl
      fun settled h ↦ rowSteps_retire h
  | edit registry versions consents => exact .refl

/-- What an action writes survives, so the rows stay readable. -/
theorem consistent_perform {action : Action} (hconsistent : Consistent scope replica)
    (hsurvives : Survives scope replica action) :
    Consistent scope (perform scope replica action) := by
  cases action with
  | retain request =>
    refine retain_invariant (Consistent scope) hconsistent fun held settled h ↦ ?_
    refine consistent_retain hconsistent (fun event hevent ↦ ?_) h
    have hread : readEvent? scope .push request = some event := readEvent?_eq_some.mpr hevent
    simpa [Survives, hread] using hsurvives
  | receipt receipt =>
    refine orKeep_invariant (Consistent scope) hconsistent fun settled h ↦ ?_
    refine consistent_recordReceipt hconsistent ?_ h
    intro row hrow request event hrequest hevent hid
    have hread : readEvent? scope .push request = some event := readEvent?_eq_some.mpr hevent
    have hrowSurvives := List.all_eq_true.mp hsurvives row hrow
    simpa [hrequest, hread, hid] using hrowSurvives
  | page response expectedCursor pageSize skip at_ =>
    exact consistent_apply response expectedCursor pageSize skip at_ hconsistent
      (List.all_eq_true.mp hsurvives)
  | retire request replacementDeviceId evidence =>
    refine orKeep_invariant (Consistent scope) hconsistent fun settled h ↦ ?_
    refine consistent_retire hconsistent ?_ h
    intro row hrow held hheld hsame
    have hrowSurvives := List.all_eq_true.mp hsurvives row hrow
    simpa [hheld, hsame] using hrowSurvives
  | edit registry versions consents => exact hconsistent.grows rfl hsurvives

end Rows

/-! ### Runs of the ledger -/

/-- The operation of an action is refused. -/
def Refused (scope : Scope) (replica : Replica) : Action → Prop
  | .retain request => ∃ failure, retain scope replica request = .error failure
  | .receipt receipt => ∃ failure, recordReceipt scope replica receipt = .error failure
  | .page response expectedCursor pageSize skip at_ =>
    ∃ failure, applyTransaction scope replica response expectedCursor pageSize skip at_ =
      .error failure
  | .retire request replacementDeviceId evidence =>
    ∃ failure, retire scope replica request replacementDeviceId evidence = .error failure
  | .edit _ _ _ => False

theorem perform_refused {scope : Scope} {replica : Replica} {action : Action}
    (h : Refused scope replica action) : perform scope replica action = replica := by
  cases action with
  | retain request =>
    obtain ⟨failure, hfailure⟩ := h
    rw [perform, hfailure]
    rfl
  | receipt receipt =>
    obtain ⟨failure, hfailure⟩ := h
    rw [perform, hfailure]
    rfl
  | page response expectedCursor pageSize skip at_ =>
    obtain ⟨failure, hfailure⟩ := h
    rw [perform, apply, hfailure]
  | retire request replacementDeviceId evidence =>
    obtain ⟨failure, hfailure⟩ := h
    rw [perform, hfailure]
    rfl
  | edit registry versions consents => cases h

theorem unfinished_run (scope : Scope) {start : Replica}
    (hstart : ∀ entityId, (unfinished start.events entityId).length ≤ 1) (actions : List Action) :
    ∀ entityId, (unfinished (Runs.run (perform scope) start actions).events entityId).length ≤ 1 := by
  have hstep : ∀ replica action,
      (∀ entityId, (unfinished replica.events entityId).length ≤ 1) →
        ∀ entityId, (unfinished (perform scope replica action).events entityId).length ≤ 1 := by
    intro replica action hreplica
    have hsteps := rowSteps_perform scope replica action
    generalize (perform scope replica action).events = rows at hsteps ⊢
    induction hsteps with
    | refl => exact hreplica
    | tail _ hstep ih => exact hstep.unfinished_le ih
  exact Runs.run_invariant hstep start hstart actions

theorem final_run (scope : Scope) (start : Replica) (actions : List Action) :
    ∀ row ∈ start.events, row.state.isFinal →
      row ∈ (Runs.run (perform scope) start actions).events := by
  refine Runs.run_related (fun before after : Replica ↦ ∀ row ∈ before.events,
    row.state.isFinal → row ∈ after.events) (fun _ _ hrow _ ↦ hrow) ?_ ?_ start actions
  · intro first middle last hfirst hlast row hrow hfinal
    exact hlast row (hfirst row hrow hfinal) hfinal
  · intro replica action row hrow hfinal
    have hsteps := rowSteps_perform scope replica action
    generalize (perform scope replica action).events = rows at hsteps ⊢
    induction hsteps with
    | refl => exact hrow
    | tail _ hstep ih => exact hstep.keeps_final ih hfinal

/-- From a ledger without rows on, in every run: an entity has at most one unfinished push, a settled
row stays as it is, and a refused operation changes nothing. When everything that is written
survives being written, the reader accepts every row. -/
theorem ledger_run {scope : Scope} {start : Replica} (hstart : start.events = [])
    (actions : List Action) :
    (∀ entityId,
      (unfinished (Runs.run (perform scope) start actions).events entityId).length ≤ 1) ∧
    (∀ later, ∀ row ∈ (Runs.run (perform scope) start actions).events, row.state.isFinal →
      row ∈ (Runs.run (perform scope) start (actions ++ later)).events) ∧
    (∀ action, Refused scope (Runs.run (perform scope) start actions) action →
      Runs.run (perform scope) start (actions ++ [action]) =
        Runs.run (perform scope) start actions) ∧
    (Runs.StepsMeet (perform scope) (Survives scope) start actions →
      ∀ row ∈ (Runs.run (perform scope) start actions).events, ∃ held,
        readRow scope (Runs.run (perform scope) start actions) row = .ok held) := by
  refine ⟨unfinished_run scope (by simp [hstart, unfinished]) actions, ?_, ?_, ?_⟩
  · intro later row hrow hfinal
    rw [Runs.run_append]
    exact final_run scope _ later row hrow hfinal
  · intro action hrefused
    rw [Runs.run_append]
    exact perform_refused hrefused
  · intro hmeet
    have hempty : Consistent scope start :=
      ⟨by simp [hstart], by simp [hstart]⟩
    exact (Runs.run_invariant_of_stepsMeet
      (fun _ _ hconsistent hsurvives ↦ consistent_perform hconsistent hsurvives) start hempty
        actions hmeet).readable

namespace Renewal

/-- A push, its receipt, and a page with the push and another device's event. -/
def exchange : List Action :=
  [.retain granted.document, accepted granted,
    page [item granted 1, item renewed 2] none (some "position-2")]

/-- A consent whose fingerprint has an integral number beyond the exact range of a double. -/
def imprecise : SyncEvent :=
  { granted with
    revisionId := "revision_573f89b58f184f30339fee70c05f152fa2302c26509aafd4588df87ec05fd218"
    contentDigest := "sha256:d8f54c72e9a57d97d8ec9c4c34550170c6b575fac09d44d5c1c37f00826a3792"
    payload :=
      [("schema_version", .number (.integer 1)), ("scope", .string "task"),
        ("target", .string "full-auto"),
        ("fingerprint", .object [("n", .number (.float "100000000000000000000"))]),
        ("observed", .array []), ("decided_by", .string "user"), ("origin", .string "cli"),
        ("created_at", .string "2026-01-01T00:00:00.000Z")] }

/-- The database after the imprecise consent was retained. -/
def stuck : Replica :=
  after scope [.retain imprecise.document]

end Renewal

theorem ledger_run_exchange :
    (after Renewal.scope Renewal.exchange).events.length = 2 ∧
      ∀ row ∈ (after Renewal.scope Renewal.exchange).events, ∃ held,
        readRow Renewal.scope (after Renewal.scope Renewal.exchange) row = .ok held := by
  have hfacts : (after Renewal.scope Renewal.exchange).events.length = 2 ∧
      Runs.StepsMeet (perform Renewal.scope) (Survives Renewal.scope) .empty Renewal.exchange := by
    show _ ∧ _ = true ∧ _ = true ∧ _ = true ∧ True
    decide +kernel
  exact ⟨hfacts.1, (ledger_run rfl Renewal.exchange).2.2.2 hfacts.2⟩

/-- The ledger takes the imprecise consent and then refuses to read it: it cannot look for an
unfinished push of the entity, nor record the receipt. -/
theorem ledger_unreadable :
    (∃ row ∈ Renewal.stuck.events,
      readRow Renewal.scope Renewal.stuck row = .error .canonical) ∧
      pending Renewal.scope Renewal.stuck Renewal.entityId = .error .canonical ∧
      recorded Renewal.scope Renewal.stuck Renewal.imprecise.eventId = .error .canonical := by
  decide +kernel

end AiStp.Sync.Client
