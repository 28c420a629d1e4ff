import AiStp.Sync.Contracts

/-!
# Server validation of a push event

Pure intake rules of the server: the identity of the entity, the mechanical parent rules, the
payload policy, embedded version bindings, the closed payload shapes and the two content
addresses. A refusal carries the server's text. Every function is the one of the same name in the
sync slice and in the contracts package; a check that the wire model already made is made again
where the source makes it again.
-/

set_option autoImplicit false

namespace AiStp.Sync.Server

open Library Foundation

/-- Refuse with a text when a condition fails. -/
def require (condition : Bool) (refusal : String) : Except String Unit :=
  if condition then .ok () else .error refusal

/-! ### Payload policy -/

mutual

/-- `_scan_kinds`: refuse a payload that declares itself a kind that never syncs. -/
def scanKinds (platform : Platform) : Json → Except String Unit
  | .object fields => scanKindsFields platform fields
  | .array items => scanKindsItems platform items
  | _ => .ok ()

def scanKindsItems (platform : Platform) : List Json → Except String Unit
  | [] => .ok ()
  | item :: items => do
    scanKinds platform item
    scanKindsItems platform items

def scanKindsFields (platform : Platform) : List (String × Json) → Except String Unit
  | [] => .ok ()
  | (key, item) :: fields => do
    if platform.lower key == "kind" then
      match item with
      | .string kind =>
        require (kind ∉ payloadPolicy.forbiddenPayloadKinds) ("forbidden payload kind: " ++ kind)
      | _ => .ok ()
    scanKinds platform item
    scanKindsFields platform fields

end

/-- The text of a rejection; an empty path names the document itself. -/
def rejection (reason path : String) : String :=
  reason ++ " at " ++ (if path = "" then "/" else path)

def itemPath (path : String) (index : Nat) : String :=
  path ++ "[" ++ toString index ++ "]"

def fieldPath (path key : String) : String :=
  if path = "" then key else path ++ "." ++ key

/-- One record of `required_env`: exactly the declared names, all of them texts. -/
def checkRequiredEnvEntry (entry : Json) (at_ : String) : Except String Unit :=
  match entry with
  | .object fields => do
    require ((fields.map Prod.fst).all (· ∈ payloadPolicy.requiredEnvFields) &&
        payloadPolicy.requiredEnvFields.all fun name ↦ (fields.lookup name).isSome)
      (rejection "required_env may contain only name and purpose" at_)
    require (payloadPolicy.requiredEnvFields.all fun name ↦
        ((fields.lookup name).bind Json.asString?).isSome)
      (rejection "required_env values must be text" at_)
  | _ => .error (rejection "required_env may contain only name and purpose" at_)

def checkRequiredEnvEntries (path : String) : Nat → List Json → Except String Unit
  | _, [] => .ok ()
  | index, entry :: entries => do
    checkRequiredEnvEntry entry (itemPath path index)
    checkRequiredEnvEntries path (index + 1) entries

/-- `_check_required_env`. -/
def checkRequiredEnv (value : Json) (path : String) : Except String Unit :=
  match value with
  | .array entries => do
    require (entries.length ≤ payloadPolicy.maxRequiredEnvEntries)
      (rejection "required_env must be a bounded list of name and purpose records" path)
    checkRequiredEnvEntries path 0 entries
  | _ => .error (rejection "required_env must be a bounded list of name and purpose records" path)

/-- `_check_requires_authorization`. -/
def checkRequiresAuthorization (value : Json) (path : String) : Except String Unit :=
  match value with
  | .string text =>
    require (text ∈ payloadPolicy.requiresAuthorizationValues)
      (rejection "requires_authorization must be one of the declared classes" path)
  | _ => .error (rejection "requires_authorization must be one of the declared classes" path)

mutual

/-- `check_sync_payload`: refuse forbidden fields and absolute paths anywhere in a value. -/
def checkSyncPayload (platform : Platform) (path : String) : Json → Except String Unit
  | .object fields => checkSyncFields platform path fields
  | .array items => checkSyncItems platform path 0 items
  | .string text =>
    require (!isAbsolutePath text) (rejection "sync payload contains an absolute path" path)
  | _ => .ok ()

def checkSyncItems (platform : Platform) (path : String) :
    Nat → List Json → Except String Unit
  | _, [] => .ok ()
  | index, item :: items => do
    checkSyncPayload platform (itemPath path index) item
    checkSyncItems platform path (index + 1) items

def checkSyncFields (platform : Platform) (path : String) :
    List (String × Json) → Except String Unit
  | [] => .ok ()
  | (key, item) :: fields => do
    let at_ := fieldPath path key
    let lowered := platform.lower key
    if lowered == payloadPolicy.requiredEnvKey then
      checkRequiredEnv item at_
    else if lowered == payloadPolicy.requiresAuthorizationKey then
      checkRequiresAuthorization item at_
    else do
      require (!payloadPolicy.forbiddenKeyFragments.any (Text.contains lowered))
        (rejection "sync payload contains a forbidden field" at_)
      checkSyncPayload platform at_ item
    checkSyncFields platform path fields

end

/-- `_scan_forbidden`. -/
def scanForbidden (platform : Platform) (value : Json) : Except String Unit := do
  scanKinds platform value
  checkSyncPayload platform "" value

/-! ### Version bindings -/

structure VersionBinding where
  stableId : String
  version : String
  major : Nat
  minor : Nat
  passportDigest : String
  revisionId : String
  createdAt : String
deriving DecidableEq, Repr

/-- A field that must be a text that is not empty. -/
def bindingText (raw : Json) (name : String) : Except String String :=
  match raw.get? name with
  | some (.string text) =>
    if text = "" then .error "a pulled released version is incomplete" else .ok text
  | _ => .error "a pulled released version is incomplete"

/-- `parse_binding`. -/
def parseBinding (platform : Platform) (raw : Json) (stableId : String) :
    Except String VersionBinding := do
  let version ← bindingText raw "version"
  let passportDigest ← bindingText raw "passport_digest"
  let revisionId ← bindingText raw "revision_id"
  let createdAt ← bindingText raw "created_at"
  require (Identity.isValidTimestamp platform createdAt)
    "a pulled released version has an invalid timestamp"
  match Identity.parseVersion version with
  | none => .error "a pulled released version has an invalid number"
  | some (major, minor) => do
    require (Identity.isDigest passportDigest && Identity.isValidRevisionId revisionId)
      "a pulled released version has an invalid identity"
    return { stableId, version, major, minor, passportDigest, revisionId, createdAt }

/-- The dump of a validated fact: the fact with its defaults spelled out. -/
def dumpFact (value : Json) : Json :=
  Json.withDefault "confidence" .null (Json.withDefault "confirmed_at" .null
    (Json.withDefault "observed_at" .null (Json.withDefault "source_refs" (.array []) value)))

def dumpFacts : Json → Json
  | .object fields => .object (fields.map fun field ↦ (field.1, dumpFact field.2))
  | value => value

/-- The dump of a validated envelope: the envelope with its defaults spelled out. -/
def dumpEnvelope (raw : Json) : Json :=
  let filled := Json.withDefault "facts" (.object [])
    (Json.withDefault "visibility" (.string "private")
      (Json.withDefault "parent_revision_ids" (.array [])
        (Json.withDefault "schema_version" (.number (.integer 1)) raw)))
  match filled with
  | .object fields =>
    .object (fields.map fun field ↦
      if field.1 = "facts" then (field.1, dumpFacts field.2) else field)
  | _ => filled

/-- The texts of a list, empty for a document that is not a list of texts. -/
def textsOf (value : Json) : List String :=
  ((value.asArray?).bind Json.strings?).getD []

/-- `PassportEnvelope.model_validate`: the declared fields and the two cross-field rules. -/
def validEnvelope (platform : Platform) (raw : Json) : Bool :=
  Shape.conforms (passportEnvelope (Identity.matchesTimestampPattern platform)) raw &&
    ((raw.index "facts").asObject?.getD []).all (fun field ↦ factAxes field.2) &&
    Identity.matchesStableId ((raw.index "kind").asString?.getD "")
      ((raw.index "stable_id").asString?.getD "") &&
    decide (textsOf (raw.index "parent_revision_ids")).Nodup

/-- `derive_revision_id`: the address of the envelope without its own id. -/
def deriveRevisionId (platform : Platform) (body : Json) : Option String :=
  Canonical.revisionId platform (body.erase "revision_id")

/-- `verify_snapshot`. -/
def verifySnapshot (platform : Platform) (raw : Json) (item : VersionBinding) (kind : String) :
    Except String Unit :=
  match raw with
  | .object _ => do
    require (validEnvelope platform raw) "a pulled version snapshot is not a passport envelope"
    let body := dumpEnvelope raw
    require (Canonical.canonize platform raw == Canonical.canonize platform body &&
        deriveRevisionId platform body == (body.index "revision_id").asString? &&
        body.index "revision_id" == .string item.revisionId &&
        body.index "stable_id" == .string item.stableId &&
        body.index "kind" == .string kind &&
        body.index "parent_revision_ids" == .array [] &&
        (body.get? "version").all (· == .string item.version) &&
        Canonical.digestCanonical platform Canonical.passportDomain body ==
          some item.passportDigest)
      "a pulled version snapshot does not match its exact version identity"
  | _ => .error "a pulled version snapshot is not an object"

/-- The rows of `validate_payload`, each checked alone. -/
def validateRows (platform : Platform) (stableId kind : String) : List Json → Except String Unit
  | [] => .ok ()
  | raw :: rows => do
    match raw with
    | .object fields => do
      let item ← parseBinding platform raw stableId
      match fields.lookup "snapshot" with
      | some snapshot => verifySnapshot platform snapshot item kind
      | none => .ok ()
    | _ => .error "a pulled released version is not an object"
    validateRows platform stableId kind rows

/-- `validate_payload` of the version bindings. -/
def validatePayload (platform : Platform) (payload : Json) (stableId kind : String) :
    Except String Unit :=
  match (payload.get? releasedVersionsKey).getD (.array []) with
  | .array rows => do
    require (rows.length ≤ maxVersions) "pulled released versions must be a bounded list"
    require (rows.isEmpty || kind ∈ ["component", "setup"])
      "released versions belong only to component or setup events"
    validateRows platform stableId kind rows
  | _ => .error "pulled released versions must be a bounded list"

/-! ### The event document -/

/-- `request_fingerprint`; nothing when the event has no canonical bytes. -/
def requestFingerprint (platform : Platform) (event : SyncEvent) : Option String :=
  (Canonical.canonize platform event.document).map
    (platform.sha256 Canonical.revisionDomain)

/-- `seal_revision_document`. -/
def sealRevisionDocument (event : SyncEvent) : Json :=
  .object
    [("schema_version", .number (.integer 1)), ("entity_id", .string event.entityId),
      ("entity_kind", .string event.entityKind.wire),
      ("parent_revision_ids", jsonTexts event.parentRevisionIds),
      ("operation", .string event.operation.wire), ("payload", .object event.payload),
      ("device_id", .string event.deviceId), ("actor_id", .string event.actorId),
      ("created_at", .string event.createdAt)]

/-- `can_accept_head_transition`: an initial revision, or a fast-forward from the current head. -/
def canAcceptHeadTransition (currentHead expectedHead : Option String)
    (parentRevisionIds : List String) : Bool :=
  let isInitial := currentHead.isNone && parentRevisionIds.isEmpty && expectedHead.isNone
  let isFastForward :=
    match currentHead with
    | some head => expectedHead == some head && head ∈ parentRevisionIds
    | none => false
  isInitial || isFastForward

/-- `validate_entity_identity`. The allowlist of kinds is the type of the kind. -/
def validateEntityIdentity (event : SyncEvent) : Except String Unit :=
  if event.entityKind = .unverifiedConsent then
    require (Identity.isValidId event.entityId "account" ||
        (Text.stripPrefix? "consent_" event.entityId).isSome)
      "unverified_consent entity_id is invalid"
  else do
    require (Identity.isValidId event.entityId event.entityKind.entityPrefix)
      ("entity_id must be a valid " ++ event.entityKind.entityPrefix ++ " id")
    require (event.entityKind != .deviceSummary || event.entityId == event.deviceId)
      "device_summary entity_id must match the session device"

/-- `validate_parents`. -/
def validateParents (event : SyncEvent) : Except String Unit := do
  require (decide event.parentRevisionIds.Nodup) "parent_revision_ids must be unique"
  require (event.parentRevisionIds.all Identity.isValidRevisionId)
    "parent_revision_ids contain an invalid revision id"
  require (event.operation != .tombstone || !event.parentRevisionIds.isEmpty)
    "tombstone requires at least one parent"
  require (event.parentRevisionIds.length ≤ 2) "at most two parents are supported"

/-- The kind under which the version bindings of an event are checked. -/
def bindingKind : EntityKind → String
  | .componentPrivate => "component"
  | .setupPrivate => "setup"
  | kind => kind.wire

/-- The closed shape of an event's payload; passport kinds and device tombstones have none. -/
def closedShape (platform : Platform) (event : SyncEvent) : Bool :=
  let timestamp := Identity.isValidTimestamp platform
  let payload := Json.object event.payload
  match event.entityKind, event.operation with
  | .deviceSummary, .upsert => Shape.conforms (deviceSummary timestamp) payload
  | .unverifiedConsent, .upsert =>
    Shape.conforms (consentUpsert timestamp) payload && taskTarget payload
  | .unverifiedConsent, .tombstone =>
    Shape.conforms (consentTombstone timestamp) payload && taskTarget payload
  | _, _ => true

/-- `validate_event_document`. -/
def validateEventDocument (platform : Platform) (event : SyncEvent) : Except String Unit := do
  let payload := Json.object event.payload
  validateEntityIdentity event
  validateParents event
  require (Identity.isValidRevisionId event.revisionId) "revision_id form is invalid"
  require (Identity.isValidId event.deviceId "device") "device_id is invalid"
  require (Identity.isValidId event.actorId "account") "actor_id is invalid"
  scanForbidden platform payload
  validatePayload platform payload event.entityId (bindingKind event.entityKind)
  require (closedShape platform event)
    (event.entityKind.wire ++ " payload is not the declared closed shape")
  require (Canonical.revisionId platform (sealRevisionDocument event) == some event.revisionId)
    "revision_id does not match canonical content"
  require (Canonical.digestCanonical platform Canonical.revisionDomain payload ==
      some event.contentDigest)
    "content_digest does not match payload"

end AiStp.Sync.Server
