import AiStp.Client.Passport

/-!
# The client's reading of sync events

The client reads an event from JSON against the generated schema and validates it again: the
account, the content addresses, the payload policy, the payload of each entity kind and the version
bindings. The payload policy refuses a value more than 64 levels below the payload; the fields that
the policy declares safe are not visited.
-/

set_option autoImplicit false

namespace AiStp.Sync.Client

open Library Foundation AiStp.Client

/-! ### Payload policy -/

section Payload

variable (platform : Platform)

/-- A refusal names the field, never its value. -/
def refused (path : String) : Failure :=
  (Failure.input
    "the private sync payload contains a forbidden field, path or malformed declaration").withDetails
    [("field", .string (if path = "" then "/" else path))]

def fieldPath (path key : String) : String :=
  if path = "" then key else path ++ "." ++ key

def itemPath (path : String) (index : Nat) : String :=
  path ++ "[" ++ toString index ++ "]"

/-- The deepest value that is visited. -/
def maxPayloadDepth : Nat := 64

/-- One record of `required_env`. -/
def requiredEnvEntry (entry : Json) : Bool :=
  match entry with
  | .object fields =>
    fields.length == payloadPolicy.requiredEnvFields.length &&
      payloadPolicy.requiredEnvFields.all fun name ↦
        ((fields.lookup name).bind Json.asString?).isSome
  | _ => false

def requiredEnvEntries (path : String) : Nat → List Json → Except Failure Unit
  | _, [] => .ok ()
  | index, entry :: entries => do
    ensure (requiredEnvEntry entry) (refused (itemPath path index))
    requiredEnvEntries path (index + 1) entries

def requiredEnv (value : Json) (path : String) : Except Failure Unit :=
  match value with
  | .array entries => do
    ensure (entries.length ≤ payloadPolicy.maxRequiredEnvEntries) (refused path)
    requiredEnvEntries path 0 entries
  | _ => .error (refused path)

def requiresAuthorization (value : Json) : Bool :=
  match value with
  | .string text => text ∈ payloadPolicy.requiresAuthorizationValues
  | _ => false

def forbiddenKind (key : String) (value : Json) : Bool :=
  key == "kind" &&
    match value with
    | .string kind => kind ∈ payloadPolicy.forbiddenPayloadKinds
    | _ => false

mutual

/-- `payload::visit`. -/
def visit (path : String) (depth : Nat) : Json → Except Failure Unit
  | .object fields => do
    ensure (depth ≤ maxPayloadDepth) (refused path)
    visitFields path depth fields
  | .array items => do
    ensure (depth ≤ maxPayloadDepth) (refused path)
    visitItems path depth 0 items
  | .string text => do
    ensure (depth ≤ maxPayloadDepth) (refused path)
    ensure (!isAbsolutePath text) (refused path)
  | _ => ensure (depth ≤ maxPayloadDepth) (refused path)

def visitItems (path : String) (depth : Nat) : Nat → List Json → Except Failure Unit
  | _, [] => .ok ()
  | index, item :: items => do
    visit (itemPath path index) (depth + 1) item
    visitItems path depth (index + 1) items

def visitFields (path : String) (depth : Nat) : List (String × Json) → Except Failure Unit
  | [] => .ok ()
  | (name, value) :: fields => do
    let at_ := fieldPath path name
    let key := platform.lower name
    ensure (!forbiddenKind key value) (refused at_)
    if key == payloadPolicy.requiredEnvKey then
      requiredEnv value at_
    else if key == payloadPolicy.requiresAuthorizationKey then
      ensure (requiresAuthorization value) (refused at_)
    else do
      ensure (!payloadPolicy.forbiddenKeyFragments.any (Text.contains key)) (refused at_)
      visit at_ (depth + 1) value
    visitFields path depth fields

end

/-- `payload::check`. -/
def checkPayload (payload : Json) : Except Failure Unit :=
  visit platform "" 0 payload

end Payload

/-! ### Version bindings -/

structure Binding where
  version : String
  passportDigest : String
  revisionId : String
  createdAt : String
  snapshot : Option Json
deriving DecidableEq, Repr

def invalidBinding : Failure :=
  .input "a private sync version does not match its immutable coordinates"

/-- The largest part of a version that fits the client's integers. -/
def maxVersionPart : Nat := 2 ^ 63 - 1

/-- `Binding::coordinates`. -/
def Binding.coordinates (binding : Binding) : Except Failure (Nat × Nat) := do
  let (major, minor) ← present (Identity.parseVersion binding.version) invalidBinding
  ensure (major ≤ maxVersionPart && minor ≤ maxVersionPart) invalidBinding
  return (major, minor)

def Binding.parse (value : Json) : Option Binding := do
  let version ← (value.index "version").asString?
  let passportDigest ← (value.index "passport_digest").asString?
  let revisionId ← (value.index "revision_id").asString?
  let createdAt ← (value.index "created_at").asString?
  return { version, passportDigest, revisionId, createdAt, snapshot := value.get? "snapshot" }

section Bindings

variable (platform : Platform)

/-- The snapshot of a binding is the passport that the coordinates name. -/
def checkSnapshot (id kind : String) (binding : Binding) (snapshot : Json) :
    Except Failure Unit := do
  Passport.validate platform snapshot
  ensure (snapshot.index "stable_id" == .string id && snapshot.index "kind" == .string kind &&
      snapshot.index "revision_id" == .string binding.revisionId &&
      snapshot.index "parent_revision_ids" == .array [] &&
      (snapshot.get? "version").all (· == .string binding.version))
    invalidBinding
  let digest ← present (Canonical.digest platform Canonical.passportDomain snapshot) .canonical
  ensure (digest == binding.passportDigest) invalidBinding

/-- `Binding::read`. -/
def Binding.read (value : Json) (id kind : String) : Except Failure Binding := do
  let binding ← present (Binding.parse value) invalidBinding
  let _ ← binding.coordinates
  ensure (Passport.timestamp platform binding.createdAt &&
      Identity.isDigest binding.passportDigest &&
      Identity.isValidRevisionId binding.revisionId)
    invalidBinding
  match binding.snapshot with
  | some snapshot => do
    checkSnapshot platform id kind binding snapshot
    return binding
  | none => return binding

/-- Read the bindings in turn; one version names one content. -/
def readBindings (id kind : String) : List Binding → List Json → Except Failure (List Binding)
  | _, [] => .ok []
  | seen, raw :: rows => do
    let binding ← Binding.read platform raw id kind
    ensure (seen.all fun other ↦ other.version != binding.version ||
        (other.passportDigest == binding.passportDigest &&
          other.revisionId == binding.revisionId))
      (.conflict "one sync payload binds a version number to different content")
    let bindings ← readBindings id kind (seen ++ [binding]) rows
    return binding :: bindings

/-- `versions::bindings`. -/
def bindings (payload : Json) (id kind : String) : Except Failure (List Binding) :=
  match payload.get? releasedVersionsKey with
  | none => .ok []
  | some (.array rows) => do
    ensure (rows.length ≤ maxVersions) invalidBinding
    ensure (rows.isEmpty || kind ∈ ["component", "setup"]) invalidBinding
    readBindings platform id kind [] rows
  | some _ => .error invalidBinding

end Bindings

/-! ### Events -/

structure Event where
  eventId : String
  entityId : String
  entityKind : EntityKind
  revisionId : String
  parentRevisionIds : List String
  deviceId : String
  actorId : String
  operation : Operation
  contentDigest : String
  createdAt : String
  payload : Json
  sequence : Option Nat
deriving DecidableEq, Repr

def invalidEvent : Failure :=
  .input "the private sync event fails its content, account or entity binding"

section Shapes

open Shape

/-- The fields that a pushed and a delivered event share. -/
def eventFields : List Field :=
  [⟨"event_id", matching (Text.isBoundedToken 8 128), true⟩,
    ⟨"entity_id", text 1 128, true⟩,
    ⟨"entity_kind", oneOf (EntityKind.all.map EntityKind.wire), true⟩,
    ⟨"revision_id", matching Identity.isValidRevisionId, true⟩,
    ⟨"parent_revision_ids", listOf 2 (matching Identity.isValidRevisionId), true⟩,
    ⟨"device_id", matching (Identity.matchesStableId "device"), true⟩,
    ⟨"actor_id", matching (Identity.matchesStableId "account"), true⟩,
    ⟨"operation", oneOf ["upsert", "tombstone"], true⟩,
    ⟨"content_digest", matching Identity.isDigest, true⟩,
    ⟨"created_at", matching Passport.schemaTimestamp, true⟩,
    ⟨"payload", fun value ↦ value.asObject?.isSome, true⟩]

/-- A whole number from one; the schema admits it in any spelling. -/
def positiveInteger : Json → Bool
  | .number (.integer value) => 1 ≤ value
  | .number (.float token) => (Text.integer? token).any (1 ≤ ·)
  | _ => false

/-- The generated schema of a delivered event. -/
def streamSchema (value : Json) : Bool :=
  conforms (eventFields ++
    [⟨"schema_version", constOne, true⟩, ⟨"sequence", positiveInteger, true⟩]) value

def pushFields : List Field :=
  eventFields ++
    [⟨"schema_version", constOne, false⟩,
      ⟨"idempotency_key", matching (Text.isBoundedToken 16 128), true⟩,
      ⟨"expected_head_revision_id", nullable (matching Identity.isValidRevisionId), true⟩]

/-- The generated schema of a pushed event, which admits no other field. -/
def pushSchema (value : Json) : Bool :=
  conforms pushFields value &&
    ((value.asObject?).getD []).all fun field ↦ field.1 ∈ pushFields.map Field.name

end Shapes

/-- A number that the client's reader takes as an unsigned integer. -/
def unsigned? : Json → Option Nat
  | .number (.integer value) => if 0 ≤ value then some value.toNat else none
  | _ => none

/-- An unsigned integer that may be absent. -/
def optionalUnsigned? : Json → Option (Option Nat)
  | .null => some none
  | value => (unsigned? value).map some

/-- The fields of an event, read from a document of its schema. -/
def Event.parse (value : Json) : Option Event := do
  let version ← unsigned? (value.index "schema_version")
  let eventId ← (value.index "event_id").asString?
  let entityId ← (value.index "entity_id").asString?
  let entityKind ← (value.index "entity_kind").asString? >>= EntityKind.ofWire
  let revisionId ← (value.index "revision_id").asString?
  let parentRevisionIds ← (value.index "parent_revision_ids").asArray? >>= Json.strings?
  let deviceId ← (value.index "device_id").asString?
  let actorId ← (value.index "actor_id").asString?
  let operation ← (value.index "operation").asString? >>= Operation.ofWire
  let contentDigest ← (value.index "content_digest").asString?
  let createdAt ← (value.index "created_at").asString?
  let payload ← value.get? "payload"
  let sequence ← optionalUnsigned? (value.index "sequence")
  if version = 1 then
    some { eventId, entityId, entityKind, revisionId, parentRevisionIds, deviceId, actorId,
           operation, contentDigest, createdAt, payload, sequence }
  else none

namespace Event

/-- `Event::sealed`. -/
def sealedDocument (event : Event) : Json :=
  .object
    [("schema_version", .number (.integer 1)), ("entity_id", .string event.entityId),
      ("entity_kind", .string event.entityKind.wire),
      ("parent_revision_ids", jsonTexts event.parentRevisionIds),
      ("operation", .string event.operation.wire), ("payload", event.payload),
      ("device_id", .string event.deviceId), ("actor_id", .string event.actorId),
      ("created_at", .string event.createdAt)]

/-- The event as the client serializes it into its ledger. -/
def document (event : Event) : Json :=
  .object
    ([("schema_version", .number (.integer 1)), ("event_id", .string event.eventId),
      ("entity_id", .string event.entityId), ("entity_kind", .string event.entityKind.wire),
      ("revision_id", .string event.revisionId),
      ("parent_revision_ids", jsonTexts event.parentRevisionIds),
      ("device_id", .string event.deviceId), ("actor_id", .string event.actorId),
      ("operation", .string event.operation.wire),
      ("content_digest", .string event.contentDigest), ("created_at", .string event.createdAt),
      ("payload", event.payload)] ++
      match event.sequence with
      | some sequence => [("sequence", .number (.integer sequence))]
      | none => [])

/-- `Event::passport_kind`. -/
def passportKind (event : Event) : Option String :=
  match event.entityKind with
  | .developerPassport => some "developer"
  | .componentPrivate => some "component"
  | .setupPrivate => some "setup"
  | _ => none

section Validation

variable (platform : Platform)

/-- `Event::passport`: the passport of the payload, without the version closure. -/
def passport (event : Event) : Except Failure Json := do
  let kind ← present event.passportKind invalidEvent
  ensure event.payload.asObject?.isSome invalidEvent
  let document := event.payload.erase releasedVersionsKey
  Passport.validate platform document
  ensure (document.index "stable_id" == .string event.entityId &&
      document.index "kind" == .string kind &&
      document.index "visibility" == .string "private")
    invalidEvent
  return document

/-- An upsert of a passport kind carries a passport. -/
def checkPassport (event : Event) : Except Failure Unit :=
  if event.operation = .upsert then do
    let _ ← event.passport platform
    return ()
  else .ok ()

/-- The generated schema of a consent payload. -/
def consentSchema (event : Event) : Bool :=
  match event.operation with
  | .upsert =>
    Shape.conforms (Shape.wireRequired (consentUpsert Passport.schemaTimestamp)) event.payload
  | .tombstone =>
    Shape.conforms (Shape.wireRequired (consentTombstone Passport.schemaTimestamp)) event.payload

/-- The generated schema of a device summary. -/
def summarySchema (event : Event) : Bool :=
  event.operation != .upsert ||
    Shape.conforms (Shape.wireRequired (deviceSummary Passport.schemaTimestamp)) event.payload

/-- The part of the validation that depends on the entity kind. -/
def checkKind (event : Event) : Except Failure Unit :=
  match event.passportKind with
  | some kind => do
    ensure (Passport.stableId platform event.entityId kind) invalidEvent
    event.checkPassport platform
    let _ ← bindings platform event.payload event.entityId kind
    return ()
  | none =>
    if event.entityKind = .deviceSummary then do
      ensure (event.entityId == event.deviceId) invalidEvent
      ensure event.summarySchema .schema
      let _ ← bindings platform event.payload event.entityId "device"
      return ()
    else do
      ensure (Passport.stableId platform event.entityId "account" ||
          (Text.stripPrefix? "consent_" event.entityId).isSome)
        invalidEvent
      ensure event.consentSchema .schema
      ensure (taskTarget event.payload) invalidEvent
      let _ ← bindings platform event.payload event.entityId "consent"
      return ()

/-- The account, device, moment and parents of an event. -/
def wellFormed (event : Event) (account : String) : Bool :=
  Passport.stableId platform account "account" && event.actorId == account &&
    Passport.stableId platform event.deviceId "device" &&
    Passport.timestamp platform event.createdAt && event.parentRevisionIds.length ≤ 2 &&
    decide event.parentRevisionIds.Nodup &&
    (event.operation != .tombstone || !event.parentRevisionIds.isEmpty)

/-- `Event::validate`. -/
def validate (event : Event) (account : String) : Except Failure Unit := do
  ensure (event.wellFormed platform account) invalidEvent
  let address ← Passport.revisionId platform event.sealedDocument
  ensure (event.revisionId == address) invalidEvent
  let digest ← present (Canonical.digest platform Canonical.revisionDomain event.payload)
    .canonical
  ensure (event.contentDigest == digest) invalidEvent
  checkPayload platform event.payload
  event.checkKind platform

/-- `Event::read`. -/
def read (value : Json) (account : String) : Except Failure Event := do
  let event ← present (Event.parse value) invalidEvent
  event.validate platform account
  return event

/-- `Event::stream`. -/
def stream (value : Json) (account : String) : Except Failure Event := do
  ensure (streamSchema value) .schema
  read platform value account

/-- `Event::push`. -/
def push (value : Json) (account : String) : Except Failure Event := do
  ensure (pushSchema value) .schema
  read platform value account

end Validation

/-! ### What a valid event says -/

section Facts

variable {platform : Platform} {value : Json} {account : String} {event other : Event}

theorem read_eq_ok :
    read platform value account = .ok event ↔
      Event.parse value = some event ∧ event.validate platform account = .ok () := by
  simp only [read, bind_eq_ok, present_eq_ok]
  constructor
  · rintro ⟨parsed, hparsed, _, hvalid, h⟩
    obtain rfl : parsed = event := Except.ok.inj h
    exact ⟨hparsed, hvalid⟩
  · rintro ⟨hparsed, hvalid⟩
    exact ⟨event, hparsed, (), hvalid, rfl⟩

theorem stream_eq_ok :
    stream platform value account = .ok event ↔
      streamSchema value = true ∧ Event.parse value = some event ∧
        event.validate platform account = .ok () := by
  simp only [stream, bind_eq_ok, ensure_eq_ok, read_eq_ok]
  constructor
  · rintro ⟨_, hschema, h⟩
    exact ⟨hschema, h⟩
  · rintro ⟨hschema, h⟩
    exact ⟨(), hschema, h⟩

theorem push_eq_ok :
    push platform value account = .ok event ↔
      pushSchema value = true ∧ Event.parse value = some event ∧
        event.validate platform account = .ok () := by
  simp only [push, bind_eq_ok, ensure_eq_ok, read_eq_ok]
  constructor
  · rintro ⟨_, hschema, h⟩
    exact ⟨hschema, h⟩
  · rintro ⟨hschema, h⟩
    exact ⟨(), hschema, h⟩

private theorem eq_of_strings? {items : List Json} {texts : List String}
    (h : Json.strings? items = some texts) : items = texts.map .string := by
  induction items generalizing texts with
  | nil => rw [← Option.some.inj h, List.map_nil]
  | cons item items ih =>
    simp only [Json.strings?, Option.bind_eq_bind, Option.bind_eq_some_iff, Option.pure_def,
      Option.some.injEq] at h
    obtain ⟨text, htext, rest, hrest, rfl⟩ := h
    cases item with
    | string held =>
      rw [List.map_cons, ih hrest]
      rw [Option.some.inj htext]
    | null | bool | number | array | object => cases htext

/-- The parents of an event are listed in its document. -/
theorem parents_of_parse (h : Event.parse value = some event) :
    value.index "parent_revision_ids" = jsonTexts event.parentRevisionIds := by
  unfold Event.parse at h
  obtain ⟨_, -, h⟩ := Option.bind_eq_some_iff.mp h
  obtain ⟨_, -, h⟩ := Option.bind_eq_some_iff.mp h
  obtain ⟨_, -, h⟩ := Option.bind_eq_some_iff.mp h
  obtain ⟨_, -, h⟩ := Option.bind_eq_some_iff.mp h
  obtain ⟨_, -, h⟩ := Option.bind_eq_some_iff.mp h
  obtain ⟨parents, hlisted, h⟩ := Option.bind_eq_some_iff.mp h
  obtain ⟨items, hitems, htexts⟩ := Option.bind_eq_some_iff.mp hlisted
  have hparents : event.parentRevisionIds = parents := by
    iterate 7
      obtain ⟨_, -, h⟩ := Option.bind_eq_some_iff.mp h
    rw [← Option.some.inj (Option.ite_none_right_eq_some.mp h).2]
  rw [hparents]
  cases hvalue : value.index "parent_revision_ids" with
  | array held =>
    rw [hvalue] at hitems
    obtain rfl : held = items := Option.some.inj hitems
    rw [eq_of_strings? htexts, jsonTexts]
  | null | bool | number | string | object =>
    rw [hvalue] at hitems
    cases hitems

/-- The declared parents are revision ids, which are plain words. -/
theorem plain_parents (hschema : Shape.conforms eventFields value = true)
    (h : Event.parse value = some event) :
    ∀ parent ∈ event.parentRevisionIds, Text.isPlain parent = true := by
  intro parent hparent
  simp only [Shape.conforms, Bool.and_eq_true, List.all_eq_true] at hschema
  have hfield := hschema.2 ⟨"parent_revision_ids",
    Shape.listOf 2 (Shape.matching Identity.isValidRevisionId), true⟩ (by simp [eventFields])
  have hindex := parents_of_parse h
  unfold Json.index at hindex
  unfold Shape.Field.accepts at hfield
  cases hvalue : value.get? "parent_revision_ids" with
  | none =>
    rw [hvalue] at hindex
    cases hindex
  | some items =>
    rw [hvalue] at hindex
    obtain rfl : items = jsonTexts event.parentRevisionIds := hindex
    simp only [hvalue, jsonTexts, Shape.listOf, Bool.and_eq_true, List.all_eq_true] at hfield
    have hvalid := hfield.2 (.string parent) (List.mem_map_of_mem hparent)
    exact Text.isPlain_of_isHexAddress (by decide +kernel) hvalid

theorem conforms_append {fields others : List Shape.Field}
    (h : Shape.conforms (fields ++ others) value = true) :
    Shape.conforms fields value = true := by
  simp only [Shape.conforms, List.all_append, Bool.and_eq_true] at h ⊢
  exact ⟨h.1, h.2.1⟩

theorem plain_parents_of_stream (h : stream platform value account = .ok event) :
    ∀ parent ∈ event.parentRevisionIds, Text.isPlain parent = true := by
  obtain ⟨hschema, hparse, -⟩ := stream_eq_ok.mp h
  exact plain_parents (conforms_append hschema) hparse

theorem plain_parents_of_push (h : push platform value account = .ok event) :
    ∀ parent ∈ event.parentRevisionIds, Text.isPlain parent = true := by
  obtain ⟨hschema, hparse, -⟩ := push_eq_ok.mp h
  rw [pushSchema, Bool.and_eq_true] at hschema
  exact plain_parents (conforms_append hschema.1) hparse

theorem jsonTexts_injective : Function.Injective jsonTexts := by
  intro left right h
  exact List.map_injective_iff.mpr (fun _ _ htext ↦ Json.string.inj htext) (Json.array.inj h)

/-- The document that is read back from the ledger lists the same parents. -/
theorem parents_of_reread {document request : Json} {content : Json} {parents : List String}
    (hparents : document.index "parent_revision_ids" = jsonTexts parents)
    (hplain : ∀ parent ∈ parents, Text.isPlain parent = true)
    (hcontent : Canonical.bytes platform document = some content)
    (hrequest : Canonical.parse platform content = some request)
    (h : Event.parse request = some event) : event.parentRevisionIds = parents := by
  have hread := (Canonical.reread_of_parse hcontent hrequest).index
    (show Text.isPlain "parent_revision_ids" = true by decide +kernel)
  rw [hparents, parents_of_parse h] at hread
  exact jsonTexts_injective (hread.strings hplain)

/-- The revision of a valid event is the address of its sealed document. -/
theorem address_of_validate (h : event.validate platform account = .ok ()) :
    ∃ content, Canonical.canonize platform event.sealedDocument = some content ∧
      event.revisionId = "revision_" ++ platform.sha256 Canonical.revisionDomain content := by
  simp only [validate, Passport.revisionId, bind_eq_ok, ensure_eq_ok, present_eq_ok,
    beq_iff_eq] at h
  obtain ⟨_, -, address, ⟨_, -, content, hcontent, haddress⟩, _, hrevision, -⟩ := h
  have hbytes : Canonical.canonize platform event.sealedDocument = some content :=
    (Canonical.bytes_eq_some.mp hcontent).2.2
  exact ⟨content, hbytes, hrevision.trans (Except.ok.inj haddress).symm⟩

private theorem asMap_jsonTexts (texts : List String) :
    (jsonTexts texts).asMap? = some (jsonTexts texts) := by
  have hitems : Json.rebuildItems some some (texts.map .string) = some (texts.map .string) := by
    induction texts with
    | nil => rfl
    | cons text texts ih => simp [Json.rebuildItems, Json.rebuild, ih]
  simp [Json.asMap?, Json.rebuild, jsonTexts, hitems]

theorem texts_eq_of_sameValue {left right : List String}
    (h : (jsonTexts left).sameValue (jsonTexts right) = true) : left = right := by
  simp only [Json.sameValue, asMap_jsonTexts, Option.isSome_some, Bool.true_and,
    beq_iff_eq, Option.some.injEq] at h
  exact jsonTexts_injective h

theorem string_eq_of_sameValue {left right : String}
    (h : (Json.string left).sameValue (.string right) = true) : left = right := by
  simpa [Json.sameValue, Json.asMap?, Json.rebuild] using h

/-- What the sealed document of an event fixes. -/
structure SameRevision (event other : Event) : Prop where
  entityId : event.entityId = other.entityId
  entityKind : event.entityKind = other.entityKind
  revisionId : event.revisionId = other.revisionId
  parentRevisionIds : event.parentRevisionIds = other.parentRevisionIds
  operation : event.operation = other.operation
  payload : event.payload.sameValue other.payload = true
  createdAt : event.createdAt = other.createdAt

/-- Two valid events with one sealed document are one revision. -/
theorem sameRevision_of_sealed (hevent : event.validate platform account = .ok ())
    (hother : other.validate platform account = .ok ())
    (h : event.sealedDocument.sameValue other.sealedDocument = true) :
    SameRevision event other := by
  have hsame := fun name ↦ Json.sameValue_index h name
  refine ⟨string_eq_of_sameValue (hsame "entity_id"), ?_, ?_,
    texts_eq_of_sameValue (hsame "parent_revision_ids"), ?_, hsame "payload",
    string_eq_of_sameValue (hsame "created_at")⟩
  · exact EntityKind.wire_injective (string_eq_of_sameValue (hsame "entity_kind"))
  · obtain ⟨content, hcontent, hrevision⟩ := address_of_validate hevent
    obtain ⟨content', hcontent', hrevision'⟩ := address_of_validate hother
    have hcontents : some content = some content' := by
      rw [← hcontent, ← hcontent']
      exact Json.rebuild_eq_of_sameValue h
    rw [hrevision, hrevision', Option.some.inj hcontents]
  · have hwire : event.operation.wire = other.operation.wire :=
      string_eq_of_sameValue (hsame "operation")
    revert hwire
    cases event.operation <;> cases other.operation <;> decide

end Facts

end Event

end AiStp.Sync.Client
