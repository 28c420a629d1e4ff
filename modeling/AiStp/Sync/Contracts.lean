import AiStp.Foundation.Canonical
import AiStp.Foundation.Shape

/-!
# Wire contracts of private sync

Events, receipts and the closed payload shapes, as the contracts package declares them for both
programs. The shapes take the timestamp rule as a parameter: the server's models read a timestamp
as a moment, the generated schemas only match its pattern.
-/

set_option autoImplicit false

namespace AiStp.Sync

open Library Foundation

/-! ### Events and receipts -/

inductive EntityKind where
  | developerPassport
  | deviceSummary
  | componentPrivate
  | setupPrivate
  | unverifiedConsent
deriving DecidableEq, Repr

inductive Operation where
  | upsert
  | tombstone
deriving DecidableEq, Repr

inductive ReceiptState where
  | accepted
  | rejected
  | conflict
  | superseded
deriving DecidableEq, Repr

namespace EntityKind

def wire : EntityKind → String
  | developerPassport => "developer_passport"
  | deviceSummary => "device_summary"
  | componentPrivate => "component_private"
  | setupPrivate => "setup_private"
  | unverifiedConsent => "unverified_consent"

/-- `_ENTITY_PREFIX`. -/
def entityPrefix : EntityKind → String
  | developerPassport => "developer"
  | deviceSummary => "device"
  | componentPrivate => "component"
  | setupPrivate => "setup"
  | unverifiedConsent => "account"

def all : List EntityKind :=
  [developerPassport, deviceSummary, componentPrivate, setupPrivate, unverifiedConsent]

def ofWire (text : String) : Option EntityKind :=
  all.find? fun kind ↦ kind.wire == text

theorem wire_injective : Function.Injective wire := by
  intro left right hwire
  cases left <;> cases right <;> first | rfl | exact absurd hwire (by decide)

end EntityKind

namespace Operation

def wire : Operation → String
  | upsert => "upsert"
  | tombstone => "tombstone"

def ofWire (text : String) : Option Operation :=
  [upsert, tombstone].find? fun operation ↦ operation.wire == text

end Operation

/-- Kinds an account holds exactly one of, `SINGLETON_ENTITY_KINDS`. -/
def singletonEntityKinds : List EntityKind := [.developerPassport]

/-- One push event: a candidate revision and its idempotency key. -/
structure SyncEvent where
  eventId : String
  entityId : String
  entityKind : EntityKind
  revisionId : String
  parentRevisionIds : List String
  deviceId : String
  actorId : String
  operation : Operation
  contentDigest : String
  createdAt : String
  idempotencyKey : String
  expectedHeadRevisionId : Option String
  payload : List (String × Json)
deriving DecidableEq, Repr

structure SyncConflictInfo where
  serverHeadRevisionId : String
  clientHeadRevisionId : String
  commonAncestorRevisionId : Option String
  affectedFields : List String
deriving DecidableEq, Repr

/-- Durable outcome of one event. -/
structure SyncEventReceipt where
  eventId : String
  state : ReceiptState
  revisionId : Option String
  serverHeadRevisionId : Option String
  cursor : Option String := none
  conflict : Option SyncConflictInfo := none
  errorCode : Option String := none
  conflictingEntityId : Option String := none
deriving DecidableEq, Repr

/-- One accepted event as delivered on pull. -/
structure SyncStreamEvent where
  eventId : String
  entityId : String
  entityKind : EntityKind
  revisionId : String
  parentRevisionIds : List String
  deviceId : String
  actorId : String
  operation : Operation
  contentDigest : String
  createdAt : String
  payload : List (String × Json)
  sequence : Nat
deriving DecidableEq, Repr

def jsonTexts (texts : List String) : Json :=
  .array (texts.map .string)

def jsonOptional : Option String → Json
  | some text => .string text
  | none => .null

/-- The dump of an event, `_event_as_fingerprint_payload`. -/
def SyncEvent.document (event : SyncEvent) : Json :=
  .object
    [("schema_version", .number (.integer 1)), ("event_id", .string event.eventId),
      ("entity_id", .string event.entityId), ("entity_kind", .string event.entityKind.wire),
      ("revision_id", .string event.revisionId),
      ("parent_revision_ids", jsonTexts event.parentRevisionIds),
      ("device_id", .string event.deviceId), ("actor_id", .string event.actorId),
      ("operation", .string event.operation.wire),
      ("content_digest", .string event.contentDigest), ("created_at", .string event.createdAt),
      ("idempotency_key", .string event.idempotencyKey),
      ("expected_head_revision_id", jsonOptional event.expectedHeadRevisionId),
      ("payload", .object event.payload)]

/-- The dump of a delivered event. -/
def SyncStreamEvent.document (event : SyncStreamEvent) : Json :=
  .object
    [("schema_version", .number (.integer 1)), ("event_id", .string event.eventId),
      ("entity_id", .string event.entityId), ("entity_kind", .string event.entityKind.wire),
      ("revision_id", .string event.revisionId),
      ("parent_revision_ids", jsonTexts event.parentRevisionIds),
      ("device_id", .string event.deviceId), ("actor_id", .string event.actorId),
      ("operation", .string event.operation.wire),
      ("content_digest", .string event.contentDigest), ("created_at", .string event.createdAt),
      ("payload", .object event.payload), ("sequence", .number (.integer event.sequence))]

/-! ### Closed payload shapes -/

section Shapes

open Shape

-- The timestamp rule of the reader.
variable (timestamp : String → Bool)

def schemaVersionField : Field := ⟨"schema_version", constOne, false⟩

def harnessIds : List String :=
  ["claude-code", "codex", "pi", "opencode", "grok-build", "cursor", "antigravity"]

/-- The fields of `DetectedHarness`. -/
def detectedHarness : List Field :=
  [⟨"harness_id", oneOf harnessIds, true⟩, ⟨"version", text 1 64, true⟩]

/-- The fields of `DeviceSummary`. -/
def deviceSummary : List Field :=
  [schemaVersionField,
    ⟨"display_name", text 1 100, true⟩,
    ⟨"operating_system", oneOf ["linux", "macos", "windows"], true⟩,
    ⟨"architecture", oneOf ["x86_64", "arm64"], true⟩,
    ⟨"detected_harnesses", listOf 16 (conforms detectedHarness), true⟩,
    ⟨"toolchain_profile_version", text 1 64, true⟩,
    ⟨"summary_updated_at", matching timestamp, true⟩]

def consentScopes : List String := ["publisher", "object_major", "task"]

/-- `CONSENT_TASK_TARGET`. -/
def consentTaskTarget : String := "full-auto"

/-- The fields of `ConsentUpsertPayload`. -/
def consentUpsert : List Field :=
  [schemaVersionField,
    ⟨"scope", oneOf consentScopes, true⟩,
    ⟨"target", text 1 128, true⟩,
    ⟨"fingerprint", objectOf 32, true⟩,
    ⟨"observed", listOf 256 (text 0 256), true⟩,
    ⟨"decided_by", text 1 128, true⟩,
    ⟨"origin", text 1 256, true⟩,
    ⟨"created_at", matching timestamp, true⟩]

/-- The fields of `ConsentTombstonePayload`. -/
def consentTombstone : List Field :=
  [schemaVersionField,
    ⟨"scope", oneOf consentScopes, true⟩,
    ⟨"target", text 1 128, true⟩,
    ⟨"revoked_at", nullable (matching timestamp), false⟩]

/-- A task consent names only the authorized profile, the models' cross-field rule. -/
def taskTarget (payload : Json) : Bool :=
  !(payload.index "scope" == .string "task" &&
    payload.index "target" != .string consentTaskTarget)

/-! ### Passports -/

def passportKinds : List String := ["developer", "device", "project", "component", "setup"]

/-- A number from zero to one. -/
def unitInterval : Json → Bool
  | .number (.integer value) => value == 0 || value == 1
  | .number (.float text) =>
    text == "0" || text == "1" || (Text.stripPrefix? "0." text).isSome ||
      (Text.contains text "e-" && (Text.units text).head? != some '-')
  | _ => false

/-- The fields of a passport fact. -/
def fact : List Field :=
  [⟨"value", fun _ ↦ true, true⟩,
    ⟨"origin", oneOf ["declared", "observed", "derived", "imported"], true⟩,
    ⟨"confirmation", oneOf ["none", "user_confirmed"], true⟩,
    ⟨"source_refs", listOf 16 fun item ↦ item.asString?.isSome, false⟩,
    ⟨"observed_at", nullable (matching timestamp), false⟩,
    ⟨"confirmed_at", nullable (matching timestamp), false⟩,
    ⟨"confidence", nullable unitInterval, false⟩]

/-- The fields of the passport envelope. -/
def passportEnvelope : List Field :=
  [schemaVersionField,
    ⟨"kind", oneOf passportKinds, true⟩,
    ⟨"stable_id", fun value ↦ value.asString?.isSome, true⟩,
    ⟨"revision_id", matching Identity.isValidRevisionId, true⟩,
    ⟨"parent_revision_ids", listOf 2 (matching Identity.isValidRevisionId), false⟩,
    ⟨"owner_id", matching (Identity.matchesStableId "account"), true⟩,
    ⟨"created_at", matching timestamp, true⟩,
    ⟨"visibility", oneOf ["private", "public"], false⟩,
    ⟨"facts", valuesOf (conforms (fact timestamp)), false⟩]

/-- A fact's two axes agree: a confirmation time needs a confirmation, a confidence an
observation. -/
def factAxes (value : Json) : Bool :=
  !(value.index "confirmation" == .string "none" && value.index "confirmed_at" != .null) &&
    !(value.index "confidence" != .null && value.index "origin" != .string "observed")

end Shapes

/-! ### Payload policy -/

/-- The packaged constants that both payload readers load. -/
structure PayloadPolicy where
  forbiddenPayloadKinds : List String
  forbiddenKeyFragments : List String
  requiredEnvKey : String
  requiredEnvFields : List String
  maxRequiredEnvEntries : Nat
  requiresAuthorizationKey : String
  requiresAuthorizationValues : List String

def payloadPolicy : PayloadPolicy where
  forbiddenPayloadKinds := ["DevicePassport", "ProjectIndex", "ProjectPassport", "device", "project"]
  forbiddenKeyFragments :=
    ["absolute_path", "api_key", "artifact_bytes", "authorization", "backup", "cookie",
      "device_passport", "env", "environment", "file_path", "home_path", "password",
      "private_key", "project_index", "project_passport", "secret", "session", "token"]
  requiredEnvKey := "required_env"
  requiredEnvFields := ["name", "purpose"]
  maxRequiredEnvEntries := 128
  requiresAuthorizationKey := "requires_authorization"
  requiresAuthorizationValues := ["external_service", "none", "user_account"]

/-- `absolute_path_pattern`: a drive letter with a separator, a slash, or two backslashes. -/
def isAbsolutePath (value : String) : Bool :=
  match Text.units value with
  | '/' :: _ => true
  | '\\' :: '\\' :: _ => true
  | drive :: ':' :: separator :: _ =>
    drive.isAlpha && (separator == '\\' || separator == '/')
  | _ => false

/-- The most version bindings one payload may carry. -/
def maxVersions : Nat := 128

def releasedVersionsKey : String := "sync_released_versions"

end AiStp.Sync
