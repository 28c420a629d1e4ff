import AiStp.Library.Runs
import AiStp.Sync.Client.Effects

/-!
# Runs of a device

A device retains pushes, records receipts, applies pages and retires pushes of a replaced device,
in any order; everything else its commands do touches the passports, the versions and the consents.
A reply that is lost is no action, and an operation that fails changes nothing.
-/

set_option autoImplicit false

namespace AiStp.Sync.Client

open Library Foundation AiStp.Client AiStp.Client.Store

section Retirement

variable (scope : Scope)

def invalidRetirement : Failure :=
  .precondition "the retained request does not have exact local retirement evidence"

/-- `recovery::retire`, whose other checks read the journal of runs and only refuse. -/
def retire (replica : Replica) (request : Json) (replacementDeviceId : String) (evidence : Json) :
    Except Failure Replica := do
  let event ← Event.push scope.platform request scope.account
  let held ← recorded scope replica event.eventId
  ensure (held.state == .pending && held.request.sameValue request &&
      event.deviceId != replacementDeviceId)
    invalidRetirement
  let content ← present (Canonical.bytes scope.platform evidence) .canonical
  return { replica with
    events := replica.events.map fun row ↦
      if row.eventId = event.eventId ∧ row.direction = .push ∧ row.state = .pending ∧
          row.receipt = none then
        { row with state := .failed, receipt := some content }
      else row }

end Retirement

/-! ### Actions -/

inductive Action where
  | retain (request : Json)
  | receipt (receipt : Json)
  | page (response : Json) (expectedCursor : Option String) (pageSize : Nat)
      (skip : List String) (at_ : String)
  | retire (request : Json) (replacementDeviceId : String) (evidence : Json)
  | edit (registry : Registry) (versions : List VersionRow) (consents : List ConsentRow)

/-- The database after an operation, which a failure leaves as it was. -/
def Replica.orKeep (replica : Replica) : Except Failure Replica → Replica
  | .ok settled => settled
  | .error _ => replica

section Runs

variable (scope : Scope)

def perform (replica : Replica) : Action → Replica
  | .retain request => replica.orKeep ((retain scope replica request).map Prod.snd)
  | .receipt receipt => replica.orKeep (recordReceipt scope replica receipt)
  | .page response expectedCursor pageSize skip at_ =>
    apply scope replica response expectedCursor pageSize skip at_
  | .retire request replacementDeviceId evidence =>
    replica.orKeep (retire scope replica request replacementDeviceId evidence)
  | .edit registry versions consents => { replica with registry, versions, consents }

/-- The database of a device that started empty. -/
def after (actions : List Action) : Replica :=
  Runs.run (perform scope) .empty actions

end Runs

/-- What holds of the database before an operation and after a success holds after it. -/
theorem orKeep_invariant (Invariant : Replica → Prop) {replica : Replica}
    {result : Except Failure Replica} (hreplica : Invariant replica)
    (hresult : ∀ settled, result = .ok settled → Invariant settled) :
    Invariant (replica.orKeep result) := by
  cases result with
  | ok settled => exact hresult settled rfl
  | error failure => exact hreplica

theorem retain_invariant (Invariant : Replica → Prop) {scope : Scope} {replica : Replica}
    {request : Json} (hreplica : Invariant replica)
    (hresult : ∀ held settled, retain scope replica request = .ok (held, settled) →
      Invariant settled) :
    Invariant (perform scope replica (.retain request)) := by
  refine orKeep_invariant Invariant hreplica ?_
  intro settled h
  cases hretain : retain scope replica request with
  | error failure =>
    rw [hretain] at h
    cases h
  | ok result =>
    rw [hretain] at h
    rw [← Except.ok.inj h]
    exact hresult result.1 result.2 hretain

/-- Retiring changes states of pushes that wait. -/
theorem retire_cases {scope : Scope} {replica settled : Replica} {request evidence : Json}
    {replacementDeviceId : String}
    (h : retire scope replica request replacementDeviceId evidence = .ok settled) :
    ∃ eventId content, settled = { replica with
      events := replica.events.map fun row ↦
        if row.eventId = eventId ∧ row.direction = .push ∧ row.state = .pending ∧
            row.receipt = none then
          { row with state := .failed, receipt := some content }
        else row } := by
  simp only [retire, bind_eq_ok] at h
  obtain ⟨event, -, _, -, _, -, content, -, h⟩ := h
  exact ⟨event.eventId, content, (Except.ok.inj h).symm⟩

/-! ### A stream to evaluate on

One consent: it is granted on a device, renewed by another one, revoked on the first one beside the
renewal, and the revocation is merged with the renewal. -/

namespace Renewal

def scope : Scope where
  platform := asciiPlatform
  account := "account_01ARZ3NDEKTSV4RRFFQ69G5FAV"
  retirement := fun _ _ ↦ .error invalidRetirement

def entityId : String := "consent_01ARZ3NDEKTSV4RRFFQ69G5FAV"

def device : String := "device_01ARZ3NDEKTSV4RRFFQ69G5FAV"

def otherDevice : String := "device_01ARZ3NDEKTSV4RRFFQ69G5FAW"

def grant (decidedBy : String) : List (String × Json) :=
  [("schema_version", .number (.integer 1)), ("scope", .string "task"),
    ("target", .string "full-auto"), ("fingerprint", .object []), ("observed", .array []),
    ("decided_by", .string decidedBy), ("origin", .string "cli"),
    ("created_at", .string "2026-01-01T00:00:00.000Z")]

def revocation : List (String × Json) :=
  [("schema_version", .number (.integer 1)), ("scope", .string "task"),
    ("target", .string "full-auto"), ("revoked_at", .null)]

def granted : SyncEvent where
  eventId := "event-0001"
  entityId := entityId
  entityKind := .unverifiedConsent
  revisionId := "revision_5b88f9ed1f20b14b2e418bae3c9c21e4fa7620f8eaabceb5bf8de80912d5d12a"
  parentRevisionIds := []
  deviceId := device
  actorId := scope.account
  operation := .upsert
  contentDigest := "sha256:d4f7e3ad46fd62fd8283f689135faaa329dd25f3a5fdcc16a43d868b4c788969"
  createdAt := "2026-01-01T00:00:00.000Z"
  idempotencyKey := "key-event-0001-00000"
  expectedHeadRevisionId := none
  payload := grant "user"

def renewed : SyncEvent where
  eventId := "event-0002"
  entityId := entityId
  entityKind := .unverifiedConsent
  revisionId := "revision_5cf342a8347408564f915031e7aa8991238f038a5f1afcb93367366e2a488edf"
  parentRevisionIds := [granted.revisionId]
  deviceId := otherDevice
  actorId := scope.account
  operation := .upsert
  contentDigest := "sha256:cf44c67661d63234cf76dee0d472ebd31b3f2f1e413fe7c805c961bb5f6fe153"
  createdAt := "2026-01-02T00:00:00.000Z"
  idempotencyKey := "key-event-0002-00000"
  expectedHeadRevisionId := some granted.revisionId
  payload := grant "renewal"

def revoked : SyncEvent where
  eventId := "event-0003"
  entityId := entityId
  entityKind := .unverifiedConsent
  revisionId := "revision_38f1e1bac097850d8006b1e01992506a839c2074e928ced2dc6f3315ec78e83f"
  parentRevisionIds := [granted.revisionId]
  deviceId := device
  actorId := scope.account
  operation := .tombstone
  contentDigest := "sha256:05c27eeb215687203d0c0e7fbc24688d3b8ae04499dd7b371161e57cfeea1c43"
  createdAt := "2026-01-03T00:00:00.000Z"
  idempotencyKey := "key-event-0003-00000"
  expectedHeadRevisionId := some granted.revisionId
  payload := revocation

def merged : SyncEvent where
  eventId := "event-0004"
  entityId := entityId
  entityKind := .unverifiedConsent
  revisionId := "revision_7a18b60266a0c1f628357b30ff573bfa575512a4f1d8c86ea7cd83486f6796a7"
  parentRevisionIds := [renewed.revisionId, revoked.revisionId]
  deviceId := device
  actorId := scope.account
  operation := .tombstone
  contentDigest := "sha256:05c27eeb215687203d0c0e7fbc24688d3b8ae04499dd7b371161e57cfeea1c43"
  createdAt := "2026-01-04T00:00:00.000Z"
  idempotencyKey := "key-event-0004-00000"
  expectedHeadRevisionId := some renewed.revisionId
  payload := revocation

/-- The event at its place in the outbox, as a page carries it. -/
def item (event : SyncEvent) (sequence : Nat) : Json :=
  SyncStreamEvent.document
    { eventId := event.eventId, entityId := event.entityId, entityKind := event.entityKind,
      revisionId := event.revisionId, parentRevisionIds := event.parentRevisionIds,
      deviceId := event.deviceId, actorId := event.actorId, operation := event.operation,
      contentDigest := event.contentDigest, createdAt := event.createdAt,
      payload := event.payload, sequence }

/-- A page of the stream, from a position to the next one. -/
def page (items : List Json) (expectedCursor next : Option String) : Action :=
  .page
    (.object
      [("schema_version", .number (.integer 1)), ("items", .array items),
        ("page", .object
          [("schema_version", .number (.integer 1)), ("next_cursor", jsonOptional next),
            ("page_size", .number (.integer 4))])])
    expectedCursor 4 [] "2026-01-05T00:00:00.000Z"

def accepted (event : SyncEvent) : Action :=
  .receipt
    (.object
      [("schema_version", .number (.integer 1)), ("event_id", .string event.eventId),
        ("state", .string "accepted"), ("revision_id", .string event.revisionId),
        ("server_head_revision_id", .string event.revisionId), ("cursor", .string "cursor"),
        ("conflict", .null), ("conflicting_entity_id", .null), ("error_code", .null)])

/-- The answer to a push beside the renewal. -/
def conflicting (event : SyncEvent) : Action :=
  .receipt
    (.object
      [("schema_version", .number (.integer 1)), ("event_id", .string event.eventId),
        ("state", .string "conflict"), ("revision_id", .string event.revisionId),
        ("server_head_revision_id", .string renewed.revisionId), ("cursor", .null),
        ("conflict", .object
          [("schema_version", .number (.integer 1)),
            ("server_head_revision_id", .string renewed.revisionId),
            ("client_head_revision_id", .string event.revisionId),
            ("common_ancestor_revision_id", .string granted.revisionId),
            ("affected_fields", .array [])]),
        ("conflicting_entity_id", .null), ("error_code", .null)])

end Renewal

end AiStp.Sync.Client
