import AiStp.Sync.Client.Ledger

/-!
# Received pages

A page of the account's stream is applied in one transaction: every event that is neither abandoned
nor already recorded is committed to the local store, recorded and offered to the remote head of
its entity; then pending version bindings are reconciled and the cursor moves. A failure anywhere
leaves the database as it was (`apply`).
-/

set_option autoImplicit false

namespace AiStp.Sync.Client

open Library Foundation AiStp.Client AiStp.Client.Store

section Versions

variable (scope : Scope)

/-! ### Version bindings -/

def collision : Failure :=
  .conflict "a sync version number already names different immutable content"

/-- Whether held coordinates are those of a binding. -/
def Binding.agrees (binding : Binding) (passportDigest revisionId : String) : Bool :=
  passportDigest == binding.passportDigest && revisionId == binding.revisionId

namespace Replica

def version? (replica : Replica) (stableId version : String) : Option VersionRow :=
  replica.versions.find? fun row ↦ row.stableId = stableId ∧ row.version = version

def pendingVersion? (replica : Replica) (stableId version : String) : Option PendingVersion :=
  replica.pendingVersions.find? fun row ↦ row.stableId = stableId ∧ row.version = version

/-- Keep a binding whose revision is not stored yet. -/
def postpone (replica : Replica) (id eventId : String) (binding : Binding) : Replica :=
  if (replica.pendingVersion? id binding.version).isSome then replica
  else
    { replica with
      pendingVersions := replica.pendingVersions ++
        [{ stableId := id, version := binding.version,
           passportDigest := binding.passportDigest, revisionId := binding.revisionId,
           createdAt := binding.createdAt, eventId }] }

/-- Record a version, unless the number is recorded already, and stop waiting for it. -/
def recordVersion (replica : Replica) (id : String) (binding : Binding) (major minor : Nat) :
    Replica :=
  { replica with
    versions :=
      if (replica.version? id binding.version).isSome then replica.versions
      else replica.versions ++
        [{ stableId := id, version := binding.version, major, minor,
           passportDigest := binding.passportDigest, revisionId := binding.revisionId,
           createdAt := binding.createdAt }]
    pendingVersions := replica.pendingVersions.filter fun row ↦
      ¬ (row.stableId = id ∧ row.version = binding.version) }

end Replica

/-- `Objects::version_metadata`: the recorded version agrees with its passport. -/
def versionMetadata (replica : Replica) (id version expected : String) : Except Failure Json := do
  ensure ((Passport.stableId scope.platform id "component" ||
      Passport.stableId scope.platform id "setup") && Passport.versionNumber version)
    (.input "an exact version requires a component or setup id and X.Y number")
  let row ← present (replica.version? id version) .absent
  let document ← replica.registry.revision scope.platform row.revisionId
  let digest ← present (Canonical.digest scope.platform Canonical.passportDomain document)
    .canonical
  ensure (version == toString row.major ++ "." ++ toString row.minor &&
      document.index "stable_id" == .string id &&
      (document.get? "version").all (· == .string version) &&
      digest == row.passportDigest && expected == row.passportDigest)
    (.conflict "an exact dependency disagrees with its recorded identity")
  return document

/-- Store the snapshot that a binding carries. -/
def receiveSnapshot (replica : Replica) (deviceId : String) (binding : Binding) :
    Except Failure Replica :=
  match binding.snapshot with
  | some snapshot => do
    let (_, registry) ← commit scope.platform (fun _ ↦ .ok ()) replica.registry snapshot deviceId
      none (.receivedSnapshot scope.account)
    return { replica with registry }
  | none => .ok replica

/-- The passport that a binding names. -/
def boundPassport (replica : Replica) (id kind : String) (binding : Binding) :
    Except Failure Unit := do
  let document ← replica.registry.revision scope.platform binding.revisionId
  ensure (document.index "stable_id" == .string id && document.index "kind" == .string kind &&
      (document.get? "version").all (· == .string binding.version))
    invalidBinding
  let digest ← present (Canonical.digest scope.platform Canonical.passportDomain document)
    .canonical
  ensure (digest == binding.passportDigest) invalidBinding

/-- `versions::receive`. -/
def receive (replica : Replica) (id kind eventId deviceId : String) (binding : Binding) :
    Except Failure Replica := do
  let (major, minor) ← binding.coordinates
  ensure ((replica.version? id binding.version).all fun row ↦
      binding.agrees row.passportDigest row.revisionId) collision
  ensure ((replica.pendingVersion? id binding.version).all fun row ↦
      binding.agrees row.passportDigest row.revisionId) collision
  let received ← receiveSnapshot scope replica deviceId binding
  if received.registry.stored binding.revisionId then do
    boundPassport scope received id kind binding
    let recorded := received.recordVersion id binding major minor
    let _ ← versionMetadata scope recorded id binding.version binding.passportDigest
    return recorded
  else return received.postpone id eventId binding

def receiveAll (id kind eventId deviceId : String) :
    Replica → List Binding → Except Failure Replica
  | replica, [] => .ok replica
  | replica, binding :: bindings => do
    let received ← receive scope replica id kind eventId deviceId binding
    receiveAll id kind eventId deviceId received bindings

/-- A pending version as a binding document. -/
def PendingVersion.document (row : PendingVersion) : Json :=
  .object
    [("version", .string row.version), ("passport_digest", .string row.passportDigest),
      ("revision_id", .string row.revisionId), ("created_at", .string row.createdAt)]

/-- The pending versions whose revision is stored, with the kind of their entity. -/
def resolvable (replica : Replica) : List (PendingVersion × String) :=
  replica.pendingVersions.filterMap fun row ↦
    if replica.registry.stored row.revisionId then
      (replica.registry.kind? row.stableId).map fun kind ↦ (row, kind)
    else none

def reconcileAll : Replica → List (PendingVersion × String) → Except Failure Replica
  | replica, [] => .ok replica
  | replica, (row, kind) :: rows => do
    let binding ← Binding.read scope.platform row.document row.stableId kind
    let received ← receive scope replica row.stableId kind row.eventId "" binding
    reconcileAll received rows

/-- `versions::reconcile`. -/
def reconcile (replica : Replica) : Except Failure Replica := do
  let rows := resolvable replica
  ensure (rows.length ≤ 16384)
    (.precondition "pending sync version reconciliation exceeds its bound")
  reconcileAll scope replica rows

end Versions

/-! ### Consents -/

def invalidPage : Failure :=
  .precondition "the private sync page disagrees with its retained account history"

/-- `pages::encode`. -/
def encode (platform : Platform) (value : Json) : Except Failure Json := do
  let content ← present (Canonical.bytes platform value) .canonical
  ensure (platform.encodedLength content ≤ maxBody) invalidPage
  return content

def payloadText (payload : Json) (key : String) : Except Failure String :=
  present (payload.index key).asString? invalidPage

namespace Replica

/-- A revocation marks the consent that is in force. -/
def revoke (replica : Replica) (scope target at_ : String) : Replica :=
  { replica with
    consents := replica.consents.map fun row ↦
      if row.scope = scope ∧ row.target = target ∧ row.revokedAt = none then
        { row with revokedAt := some at_ }
      else row }

/-- A consent replaces the one of its scope and target, under the unique consent id. -/
def grant (replica : Replica) (row : ConsentRow) : Except Failure Replica :=
  if replica.consents.any fun other ↦
      other.consentId = row.consentId ∧ ¬ (other.scope = row.scope ∧ other.target = row.target) then
    .error .constraint
  else if replica.consents.any fun other ↦
      other.scope = row.scope ∧ other.target = row.target then
    .ok { replica with
      consents := replica.consents.map fun other ↦
        if other.scope = row.scope ∧ other.target = row.target then row else other }
  else .ok { replica with consents := replica.consents ++ [row] }

end Replica

/-- The consent that an upsert carries. -/
def consentOf (platform : Platform) (event : Event) : Except Failure ConsentRow := do
  let value := event.payload
  let createdAt ← payloadText value "created_at"
  ensure (Passport.timestamp platform createdAt) invalidPage
  let observed ← present (value.index "observed").asArray? invalidPage
  let scope ← payloadText value "scope"
  let target ← payloadText value "target"
  let fingerprint ← encode platform (value.index "fingerprint")
  let observed ← encode platform (.array (observed.insertionSort fun left right ↦
    (left.asString?.getD "") ≤ (right.asString?.getD "")))
  let decidedBy ← payloadText value "decided_by"
  let origin ← payloadText value "origin"
  return { consentId := event.entityId, scope, target, fingerprint, observed, decidedBy, origin,
           createdAt, revokedAt := none }

/-- `pages::consent`. -/
def consent (platform : Platform) (replica : Replica) (event : Event) :
    Except Failure Replica :=
  match event.operation with
  | .tombstone => do
    let at_ := (event.payload.index "revoked_at").asString?.getD event.createdAt
    ensure (Passport.timestamp platform at_) invalidPage
    let scope ← payloadText event.payload "scope"
    let target ← payloadText event.payload "target"
    return replica.revoke scope target at_
  | .upsert => do
    let row ← consentOf platform event
    replica.grant row

/-! ### One event -/

section Events

variable (scope : Scope)

/-- The receipt that a delivered push stands for. -/
def deliveredReceipt (event : Event) : Json :=
  .object
    [("schema_version", .number (.integer 1)), ("event_id", .string event.eventId),
      ("state", .string "accepted"), ("revision_id", .string event.revisionId),
      ("server_head_revision_id", .string event.revisionId), ("cursor", .null),
      ("conflict", .null), ("conflicting_entity_id", .null), ("error_code", .null)]

/-- The recorded rows that an event may be. -/
def matching (replica : Replica) (event : Event) : List EventRow :=
  replica.events.filter fun row ↦
    row.eventId = event.eventId ∨ row.remoteRevisionId = event.revisionId

/-- A recorded row is the delivered event. -/
def checkKnown (replica : Replica) (event : Event) (row : EventRow) : Except Failure Unit := do
  let value ← present (Canonical.parse scope.platform row.body) .canonical
  ensure (row.direction == .push || row.state == .accepted) invalidPage
  let held ← readEvent scope row.direction value
  ensure (held.eventId == row.eventId && held.revisionId == row.remoteRevisionId &&
      held.entityId == row.entityId && held.sealedDocument.sameValue event.sealedDocument)
    invalidPage
  let revision ← localRevision scope replica held
  ensure (row.localRevisionId == revision && row.syncKey == row.remoteRevisionId &&
      row.createdAt == held.createdAt &&
      (row.direction == .push || held.sequence == event.sequence))
    invalidPage

/-- A delivered push that still waits for its receipt is accepted. -/
def acceptDelivered (replica : Replica) (event : Event) (row : EventRow) :
    Except Failure Replica :=
  if row.direction = .push then do
    let _ ← recorded scope replica row.eventId
    if (row.state = .pending ∨ row.state = .failed) ∧ row.eventId = event.eventId then
      recordReceipt scope replica (deliveredReceipt event)
    else .ok replica
  else .ok replica

/-- `pages::known`: nothing for a new event, else the database after a delivered push. -/
def known (replica : Replica) (event : Event) : Except Failure (Option Replica) :=
  match matching replica event with
  | [] => .ok none
  | [row] => do
    checkKnown scope replica event row
    let settled ← acceptDelivered scope replica event row
    return some settled
  | _ => .error invalidPage

/-- Receive the version bindings of a passport upsert. -/
def receiveBindings (replica : Replica) (event : Event) : Except Failure Replica :=
  match event.passportKind with
  | some kind =>
    if event.operation = .upsert then do
      let bindings ← bindings scope.platform event.payload event.entityId kind
      receiveAll scope event.entityId kind event.eventId event.deviceId replica bindings
    else .ok replica
  | none => .ok replica

/-- One developer passport per installation. -/
def checkDeveloper (replica : Replica) (event : Event) : Except Failure Unit :=
  ensure (event.passportKind != some "developer" ||
      replica.registry.entities.all fun row ↦
        row.kind ≠ "developer" ∨ row.stableId = event.entityId)
    (.conflict "the received account uses another developer identity")

/-- Insert a tombstone, under the reference to its entity. -/
def Replica.forget (replica : Replica) (stableId : String) : Except Failure Replica :=
  if (replica.registry.kind? stableId).isSome then
    .ok { replica with registry := replica.registry.forget stableId }
  else .error .constraint

/-- Store the passport of a new event, or forget its object; the stored revision. -/
def storePassport (replica : Replica) (event : Event) :
    Except Failure (Option String × Replica) :=
  if event.passportKind.isNone then .ok (none, replica)
  else if event.operation = .upsert then do
    checkDeveloper replica event
    let document ← event.passport scope.platform
    let (_, registry) ← commit scope.platform (fun _ ↦ .ok ()) replica.registry document
      event.deviceId none (.received scope.account)
    let received ← receiveBindings scope { replica with registry } event
    return ((document.index "revision_id").asString?, received)
  else do
    let forgotten ← replica.forget event.entityId
    return (none, forgotten)

/-- The row of a new delivered event. -/
def pullRow (event : Event) (localRevisionId : Option String) (body : Json) : EventRow :=
  { eventId := event.eventId, syncKey := event.revisionId, localRevisionId,
    remoteRevisionId := event.revisionId, entityId := event.entityId, direction := .pull, body,
    state := .accepted, receipt := none, createdAt := event.createdAt }

/-- A consent takes effect when its event became the remote head. -/
def applyConsent (replica : Replica) (event : Event) : Except Failure Replica :=
  if event.entityKind = .unverifiedConsent ∧
      replica.remoteHead event.entityId = some event.revisionId then
    consent scope.platform replica event
  else .ok replica

/-- An event that nothing recorded yet. -/
def applyNew (replica : Replica) (event : Event) : Except Failure Replica := do
  let (localRevisionId, stored) ← storePassport scope replica event
  let body ← encode scope.platform event.document
  let recorded ← stored.insertEvent (pullRow event localRevisionId body)
  let advanced ← advance scope recorded event
  applyConsent scope advanced event

/-- An event that is recorded: its bindings and its offer to the remote head again. -/
def applyKnown (replica : Replica) (event : Event) : Except Failure Replica := do
  let received ← receiveBindings scope replica event
  advance scope received event

/-- `pages::apply_event`; the flag says that the event was known. -/
def applyEvent (replica : Replica) (event : Event) : Except Failure (Replica × Bool) := do
  match ← known scope replica event with
  | some settled => do
    let replayed ← applyKnown scope settled event
    return (replayed, true)
  | none => do
    let applied ← applyNew scope replica event
    return (applied, false)

/-! ### Pages -/

section Response

open Shape

/-- The generated schema of the page position. -/
def pageInfo : List Field :=
  [⟨"schema_version", constOne, true⟩,
    ⟨"next_cursor", nullable (Shape.matching cursorToken), true⟩,
    ⟨"page_size", fun value ↦ positiveInteger value, true⟩]

/-- The generated schema of a pull response. -/
def pullResponse : Json → Bool :=
  conforms
    [⟨"schema_version", constOne, true⟩,
      ⟨"items", listOf 100 streamSchema, true⟩,
      ⟨"page", conforms pageInfo, true⟩]

end Response

def invalidResponse : Failure :=
  .input
    "the private sync request or response does not match its bounded account contract"

/-- Sequences go up, event ids differ, and every event belongs to the account. -/
def checkItems (account : String) : Nat → List String → List Json → Except Failure Unit
  | _, _, [] => .ok ()
  | previous, ids, event :: events => do
    let sequence ← present (unsigned? (event.index "sequence")) invalidResponse
    ensure (previous < sequence && event.index "actor_id" == .string account) invalidResponse
    let id ← present (event.index "event_id").asString? invalidResponse
    ensure (id ∉ ids) invalidResponse
    checkItems account sequence (ids ++ [id]) events

/-- The items of a response. -/
def responseItems (response : Json) : List Json :=
  (response.index "items").asArray?.getD []

/-- `Request::validate` and `Request::response` of a pull. -/
def checkResponse (response : Json) (expectedCursor : Option String) (pageSize : Nat) :
    Except Failure Unit := do
  ensure (1 ≤ pageSize && pageSize ≤ 100 && expectedCursor.all cursorToken) invalidResponse
  ensure (pullResponse response) .schema
  ensure ((response.index "page").index "page_size" == .number (.integer pageSize) &&
      (responseItems response).length ≤ pageSize)
    invalidResponse
  checkItems scope.account 0 [] (responseItems response)

/-- `pages::cursor`. -/
def heldCursor (replica : Replica) : Except Failure (Option String) := do
  replica.require
  ensure (replica.cursor.all cursorToken) invalidPage
  return replica.cursor

/-- The result of a page. -/
structure PageReport where
  applied : Nat
  replayed : Nat
  skippedEventIds : List String
  cursor : Option String
  pendingVersionCount : Nat
deriving DecidableEq, Repr

/-- One item of a page, with the failure naming the event. -/
def applyItem (replica : Replica) (raw : Json) (id : String) : Except Failure (Replica × Bool) :=
  match Event.stream scope.platform raw scope.account >>= applyEvent scope replica with
  | .ok result => .ok result
  | .error failure =>
    .error (failure.withDetails
      [("event_id", .string id), ("entity_id", raw.index "entity_id")])

/-- The items of a page in turn, with the counts so far. -/
def applyItems : Replica → PageReport → List Json → Except Failure (Replica × PageReport)
  | replica, report, [] => .ok (replica, report)
  | replica, report, raw :: items => do
    let id ← present (raw.index "event_id").asString? invalidPage
    if id ∈ replica.abandoned then
      applyItems replica { report with skippedEventIds := report.skippedEventIds ++ [id] } items
    else do
      let (settled, replayed) ← applyItem scope replica raw id
      applyItems settled
        (if replayed then { report with replayed := report.replayed + 1 }
          else { report with applied := report.applied + 1 })
        items

/-- The events that a page is told to leave out. -/
def abandon (replica : Replica) (skip : List String) : Replica :=
  { replica with
    abandoned := replica.abandoned ++ skip.filter fun id ↦ id ∉ replica.abandoned }

/-- The position after a page; a final or empty page keeps the retained one. -/
def moveCursor (replica : Replica) (response : Json) : Except Failure Replica :=
  match (response.index "page").index "next_cursor" with
  | .null => .ok replica
  | .string next => .ok { replica with cursor := some next }
  | _ => .error invalidPage

/-- `pages::apply_transaction`. -/
def applyTransaction (replica : Replica) (response : Json) (expectedCursor : Option String)
    (pageSize : Nat) (skip : List String) (at_ : String) :
    Except Failure (Replica × PageReport) := do
  checkResponse scope response expectedCursor pageSize
  let _ ← encode scope.platform response
  ensure (Passport.timestamp scope.platform at_ && skip.length ≤ 100 &&
      skip.all (Text.isBoundedToken 8 128))
    invalidPage
  let held ← heldCursor replica
  ensure (held == expectedCursor)
    (.conflict "the sync pull position changed before page application")
  let (applied, report) ← applyItems scope (abandon replica skip) ⟨0, 0, [], none, 0⟩
    (responseItems response)
  let reconciled ← reconcile scope applied
  let settled ← moveCursor reconciled response
  let cursor ← heldCursor settled
  return (settled, { report with
    cursor, pendingVersionCount := settled.pendingVersions.length })

/-- `pages::apply`: the transaction of a page, rolled back by a failure. -/
def apply (replica : Replica) (response : Json) (expectedCursor : Option String)
    (pageSize : Nat) (skip : List String) (at_ : String) : Replica :=
  match applyTransaction scope replica response expectedCursor pageSize skip at_ with
  | .ok (settled, _) => settled
  | .error _ => replica

end Events

end AiStp.Sync.Client
