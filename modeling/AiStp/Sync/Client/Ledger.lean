import AiStp.Client.Store.Revisions
import AiStp.Library.AncestorWalk
import AiStp.Sync.Client.Event

/-!
# The client's sync ledger

The rows of one account in the client's database. `retain` writes a push before it is sent,
`recordReceipt` writes the server's answer, and `advance` moves the recorded remote head of an
entity unless the incoming revision is already an ancestor of it. Requests are kept as canonical
bytes and validated again whenever they are read.

`advance_cases`, `retain_cases` and `recordReceipt_cases` say once what each operation can do.
-/

set_option autoImplicit false

namespace AiStp.Sync.Client

open Library Foundation AiStp.Client AiStp.Client.Store

/-! ### Rows -/

inductive Direction where
  | push
  | pull
deriving DecidableEq, Repr

inductive EventState where
  | pending
  | accepted
  | conflict
  | rejected
  | superseded
  | failed
deriving DecidableEq, Repr

def EventState.wire : EventState → String
  | .pending => "pending"
  | .accepted => "accepted"
  | .conflict => "conflict"
  | .rejected => "rejected"
  | .superseded => "superseded"
  | .failed => "failed"

/-- The state that a receipt names. -/
def EventState.ofReceipt (text : String) : Option EventState :=
  [accepted, rejected, conflict, superseded].find? fun state ↦ state.wire = text

/-- A `sync_event` row. -/
structure EventRow where
  eventId : String
  syncKey : String
  localRevisionId : Option String
  remoteRevisionId : String
  entityId : String
  direction : Direction
  /-- The canonical bytes of the request. -/
  body : Json
  state : EventState
  /-- The canonical bytes of the receipt, or of the evidence of a retirement. -/
  receipt : Option Json
  createdAt : String
deriving DecidableEq, Repr

/-- An `object_version` row. -/
structure VersionRow where
  stableId : String
  version : String
  major : Nat
  minor : Nat
  passportDigest : String
  revisionId : String
  createdAt : String
deriving DecidableEq, Repr

/-- A `sync_pending_version` row. -/
structure PendingVersion where
  stableId : String
  version : String
  passportDigest : String
  revisionId : String
  createdAt : String
  eventId : String
deriving DecidableEq, Repr

/-- A `consent` row. -/
structure ConsentRow where
  consentId : String
  scope : String
  target : String
  fingerprint : Json
  observed : Json
  decidedBy : String
  origin : String
  createdAt : String
  revokedAt : Option String
deriving DecidableEq, Repr

/-- The rows of one account in the client's database. -/
structure Replica where
  registry : Registry
  versions : List VersionRow
  events : List EventRow
  remoteHeads : AList fun _ : String ↦ String
  cursor : Option String
  pendingVersions : List PendingVersion
  abandoned : List String
  consents : List ConsentRow
  /-- The origin binding of the account is recorded. -/
  bound : Bool

/-- The account of a ledger, and the evidence rule for retired requests, which reads the journal
of runs. -/
structure Scope where
  platform : Platform
  account : String
  retirement : Json → Json → Except Failure Unit

/-! ### Reading rows -/

def invalidLedger : Failure :=
  .precondition "the private sync journal or its origin binding is inconsistent"

def conflictingLedger : Failure :=
  .conflict "the sync event identity already names another immutable request or receipt"

/-- `http::MAX_BODY`. -/
def maxBody : Nat := 8 * 1024 * 1024

/-- `ledger::encoded`: canonical bytes within the byte limit. -/
def encoded (platform : Platform) (value : Json) : Except Failure Json := do
  let content ← present (Canonical.bytes platform value) .canonical
  ensure (platform.encodedLength content ≤ maxBody)
    (.input "the private sync record exceeds its byte limit")
  return content

namespace Replica

def empty : Replica :=
  { registry := .empty, versions := [], events := [], remoteHeads := ∅, cursor := none,
    pendingVersions := [], abandoned := [], consents := [], bound := true }

def remoteHead (replica : Replica) (entityId : String) : Option String :=
  replica.remoteHeads.lookup entityId

def setRemoteHead (replica : Replica) (entityId revisionId : String) : Replica :=
  { replica with remoteHeads := replica.remoteHeads.insert entityId revisionId }

/-- `Scope::require`. -/
def require (replica : Replica) : Except Failure Unit :=
  ensure replica.bound invalidLedger

end Replica

section Operations

variable (scope : Scope)

/-- `ledger::local_revision`: the stored passport revision of a passport upsert. -/
def localRevision (replica : Replica) (event : Event) : Except Failure (Option String) :=
  if event.passportKind.isSome ∧ event.operation = .upsert then do
    let document ← event.passport scope.platform
    let revision ← present (document.index "revision_id").asString? invalidLedger
    let held ← replica.registry.revision scope.platform revision
    ensure (held.sameValue document) invalidLedger
    return some revision
  else .ok none

/-- The complete retained request of a row. -/
structure Pending where
  request : Json
  state : EventState
  localRevisionId : Option String
  receipt : Option Json
deriving DecidableEq, Repr

section Receipts

open Shape

/-- The fields of a conflict's context. -/
def conflictInfo : List Field :=
  [⟨"affected_fields", listOf 64 fun value ↦ value.asString?.isSome, true⟩,
    ⟨"client_head_revision_id", matching Identity.isValidRevisionId, true⟩,
    ⟨"common_ancestor_revision_id", nullable (matching Identity.isValidRevisionId), true⟩,
    ⟨"schema_version", constOne, true⟩,
    ⟨"server_head_revision_id", matching Identity.isValidRevisionId, true⟩]

def cursorToken (text : String) : Bool :=
  let characters := Text.units text
  1 ≤ characters.length && characters.length ≤ 512 &&
    characters.all fun character ↦ character.isAlphanum || character == '_' || character == '-'

/-- The generated schema of a receipt. -/
def receiptSchema : Json → Bool :=
  conforms
    [⟨"schema_version", constOne, true⟩,
      ⟨"event_id", matching (Text.isBoundedToken 8 128), true⟩,
      ⟨"state", oneOf ["accepted", "rejected", "conflict", "superseded"], true⟩,
      ⟨"revision_id", nullable (matching Identity.isValidRevisionId), true⟩,
      ⟨"server_head_revision_id", nullable (matching Identity.isValidRevisionId), true⟩,
      ⟨"cursor", nullable (matching cursorToken), true⟩,
      ⟨"conflict", nullable (conforms conflictInfo), true⟩,
      ⟨"conflicting_entity_id", nullable fun value ↦ value.asString?.isSome, true⟩,
      ⟨"error_code", nullable fun value ↦ value.asString?.isSome, true⟩]

end Receipts

/-- `ledger::validate_receipt`. -/
def validateReceipt (receipt : Json) (event : Event) : Except Failure Unit := do
  ensure (receiptSchema receipt) .schema
  ensure (receipt.index "event_id" == .string event.eventId &&
      (receipt.index "revision_id" == .null ||
        receipt.index "revision_id" == .string event.revisionId) &&
      (receipt.index "state" != .string "accepted" ||
        (receipt.index "revision_id" == .string event.revisionId &&
          receipt.index "server_head_revision_id" == .string event.revisionId &&
          receipt.index "conflict" == .null && receipt.index "conflicting_entity_id" == .null &&
          receipt.index "error_code" == .null)))
    conflictingLedger

/-- The event of a stored request, read as its direction demands. -/
def readEvent (direction : Direction) (request : Json) : Except Failure Event :=
  match direction with
  | .push => Event.push scope.platform request scope.account
  | .pull => Event.stream scope.platform request scope.account

/-- The receipt of a stored row, checked against its state. -/
def readReceipt (row : EventRow) (request : Json) (event : Event) (receipt : Option Json) :
    Except Failure (Option Json) :=
  match row.state, receipt with
  | .failed, some evidence => do
    scope.retirement request evidence
    return none
  | .failed, none => .error invalidLedger
  | state, some receipt => do
    validateReceipt receipt event
    ensure (receipt.index "state" == .string state.wire) invalidLedger
    return some receipt
  | state, none => do
    ensure (state == .pending || row.direction == .pull) invalidLedger
    return none

/-- The stored receipt as the reader holds it. -/
def parseReceipt (row : EventRow) : Except Failure (Option Json) :=
  match row.receipt with
  | none => .ok none
  | some content => do
    let receipt ← present (Canonical.parse scope.platform content) .canonical
    return some receipt

/-- `ledger::read`: a row whose request, columns and receipt agree. -/
def readRow (replica : Replica) (row : EventRow) : Except Failure Pending := do
  let request ← present (Canonical.parse scope.platform row.body) .canonical
  let event ← readEvent scope row.direction request
  ensure (event.eventId == row.eventId && event.revisionId == row.remoteRevisionId &&
      event.entityId == row.entityId && event.revisionId == row.syncKey &&
      event.createdAt == row.createdAt)
    invalidLedger
  let revision ← localRevision scope replica event
  ensure (row.localRevisionId == revision) invalidLedger
  let receipt ← parseReceipt scope row
  ensure (row.direction == .push || (row.state == .accepted && receipt.isNone)) invalidLedger
  let receipt ← readReceipt scope row request event receipt
  return { request, state := row.state, localRevisionId := row.localRevisionId, receipt }

/-- The most rows of one entity that are read. -/
def maxHistory : Nat := 16384

def readRows (replica : Replica) : List EventRow → Except Failure (List Pending)
  | [] => .ok []
  | row :: rows => do
    let held ← readRow scope replica row
    let rest ← readRows replica rows
    return held :: rest

/-- `ledger::history`. -/
def history (replica : Replica) (entityId : String) : Except Failure (List Pending) := do
  replica.require
  let rows := replica.events.filter fun row ↦ row.entityId = entityId
  ensure (rows.length ≤ maxHistory &&
      (rows.map fun row ↦ scope.platform.encodedLength row.body).sum ≤ 64 * 1024 * 1024)
    (.precondition "the retained entity sync history exceeds its bound")
  readRows scope replica rows

/-- `ledger::pending`: the unfinished push of an entity. -/
def pending (replica : Replica) (entityId : String) : Except Failure (Option Pending) := do
  replica.require
  match replica.events.filter fun row ↦
      row.entityId = entityId ∧ row.direction = .push ∧ row.state = .pending with
  | [] => .ok none
  | [row] => do
    let held ← readRow scope replica row
    return some held
  | _ => .error invalidLedger

/-! ### Operations -/

/-- The row of a new push. -/
def pushRow (event : Event) (localRevisionId : Option String) (body : Json) : EventRow :=
  { eventId := event.eventId, syncKey := event.revisionId, localRevisionId,
    remoteRevisionId := event.revisionId, entityId := event.entityId, direction := .push, body,
    state := .pending, receipt := none, createdAt := event.createdAt }

/-- Insert an event row under the unique keys of the table. -/
def Replica.insertEvent (replica : Replica) (row : EventRow) : Except Failure Replica :=
  if replica.events.any fun other ↦
      other.eventId = row.eventId ∨ other.remoteRevisionId = row.remoteRevisionId then
    .error .constraint
  else .ok { replica with events := replica.events ++ [row] }

/-- A request that is retained already, unless it is another one. -/
def held? (request : Json) (held : Pending) : Except Failure Pending := do
  ensure (held.request.index "event_id" != request.index "event_id" ||
      held.request.sameValue request)
    conflictingLedger
  return held

/-- The first writing of a push that nothing earlier names. -/
def retainNew (replica : Replica) (request : Json) (event : Event) :
    Except Failure (Pending × Replica) := do
  let localRevisionId ← localRevision scope replica event
  let body ← encoded scope.platform request
  let settled ← replica.insertEvent (pushRow event localRevisionId body)
  return ({ request, state := .pending, localRevisionId, receipt := none }, settled)

/-- A retained push with the event id or the revision of a request must be the same event. -/
def retainedAgain (replica : Replica) (request : Json) (event : Event) (row : EventRow) :
    Except Failure Pending := do
  let held ← readRow scope replica row
  let other ← Event.push scope.platform held.request scope.account
  ensure (other.sealedDocument.sameValue event.sealedDocument) conflictingLedger
  held? request held

/-- `ledger::retain`: an unfinished earlier request wins over a new payload. -/
def retain (replica : Replica) (request : Json) : Except Failure (Pending × Replica) := do
  replica.require
  let event ← Event.push scope.platform request scope.account
  let _ ← encoded scope.platform
    (.object [("schema_version", .number (.integer 1)), ("events", .array [request])])
  match ← pending scope replica event.entityId with
  | some held => do
    let held ← held? request held
    return (held, replica)
  | none =>
    match replica.events.filter fun row ↦ row.direction = .push ∧
        (row.eventId = event.eventId ∨ row.remoteRevisionId = event.revisionId) with
    | [] => retainNew scope replica request event
    | [row] => do
      let held ← retainedAgain scope replica request event row
      return (held, replica)
    | _ => .error conflictingLedger

/-- `ledger::recorded`: the push row of an event id. -/
def recorded (replica : Replica) (eventId : String) : Except Failure Pending := do
  replica.require
  let row ← present (replica.events.find? fun row ↦
    row.eventId = eventId ∧ row.direction = .push) invalidLedger
  readRow scope replica row

/-- The parents that the ledger records for a revision of an entity. -/
def recordedParents (replica : Replica) (entityId revisionId : String) :
    Except Failure (Option (List String)) :=
  match replica.events.find? fun row ↦
      row.remoteRevisionId = revisionId ∧ row.entityId = entityId with
  | none => .ok none
  | some row => do
    let value ← present (Canonical.parse scope.platform row.body) .canonical
    let event ← readEvent scope (if (value.get? "sequence").isSome then .pull else .push) value
    ensure (event.revisionId == revisionId && event.entityId == entityId) invalidLedger
    return some event.parentRevisionIds

/-- The most revisions that `advance` meets. -/
def maxAncestry : Nat := 16384

/-- `ledger::advance`. -/
def advance (replica : Replica) (incoming : Event) : Except Failure Replica :=
  let moved := replica.setRemoteHead incoming.entityId incoming.revisionId
  match replica.remoteHead incoming.entityId with
  | none => .ok moved
  | some head =>
    if head = incoming.revisionId then .ok replica
    else if head ∈ incoming.parentRevisionIds then .ok moved
    else
      match AncestorWalk.walk (recordedParents scope replica incoming.entityId)
          incoming.revisionId maxAncestry [] [head] with
      | .found => .ok replica
      -- An explicitly skipped ancestor does not prove a rewind is safe.
      | .unrecorded => .ok replica
      | .exceeded => .error (.precondition "the remote sync ancestry exceeds its bound")
      | .failed failure => .error failure
      | .exhausted => .ok moved

/-- Write a receipt, or other evidence, over an unfinished push. -/
def Replica.finish (replica : Replica) (state : EventState) (receipt : Json) (eventId : String) :
    Replica :=
  { replica with
    events := replica.events.map fun row ↦
      if row.eventId = eventId ∧ row.direction = .push ∧
          (row.state = .pending ∨ row.state = .failed) then
        { row with state, receipt := some receipt }
      else row }

/-- Write the first receipt of a push; an accepted one advances the remote head. -/
def writeFirstReceipt (replica : Replica) (receipt : Json) (event : Event) (eventId : String) :
    Except Failure Replica := do
  let state ← present ((receipt.index "state").asString? >>= EventState.ofReceipt) invalidLedger
  let content ← encoded scope.platform receipt
  let settled := replica.finish state content eventId
  ensure (replica.events.any fun row ↦ row.eventId = eventId ∧ row.direction = .push ∧
      (row.state = .pending ∨ row.state = .failed))
    invalidLedger
  if state = .accepted then advance scope settled event else .ok settled

/-- `ledger::record_receipt`. -/
def recordReceipt (replica : Replica) (receipt : Json) : Except Failure Replica := do
  ensure (receiptSchema receipt) .schema
  let eventId ← present (receipt.index "event_id").asString? invalidLedger
  let held ← recorded scope replica eventId
  let event ← Event.push scope.platform held.request scope.account
  validateReceipt receipt event
  ensure (held.state != .failed || receipt.index "state" == .string "accepted") invalidLedger
  match held.receipt with
  | some previous => do
    ensure (previous.sameValue receipt) conflictingLedger
    return replica
  | none => writeFirstReceipt scope replica receipt event eventId

/-! ### The history of an entity -/

/-- `push::invalid`. -/
def invalidPush : Failure :=
  .precondition
    "the private push does not match its retained local graph and account history"

structure Entry where
  event : Event
  stored : Pending
deriving DecidableEq, Repr

def entryOf (stored : Pending) : Except Failure Entry := do
  let event ← present (Event.parse stored.request) invalidPush
  return { event, stored }

def entriesOf : List Pending → Except Failure (List Entry)
  | [] => .ok []
  | stored :: rows => do
    let entry ← entryOf stored
    let entries ← entriesOf rows
    return entry :: entries

/-- The remote head is the revision of an accepted entry. -/
def headAccepted (entries : List Entry) (head : Option String) : Bool :=
  head.all fun revision ↦
    entries.any fun entry ↦ entry.event.revisionId = revision ∧ entry.stored.state = .accepted

/-- `History::load`. -/
def loadHistory (replica : Replica) (entityId : String) :
    Except Failure (List Entry × Option String) := do
  let rows ← history scope replica entityId
  let entries ← entriesOf rows
  let head := replica.remoteHead entityId
  ensure (headAccepted entries head) invalidPush
  ensure ((entries.filter fun entry ↦ entry.stored.state = .pending).length ≤ 1) invalidPush
  return (entries, head)

/-! ### The recorded head -/

/-- The incoming event takes over the recorded head of its entity. -/
def moves (replica : Replica) (incoming : Event) : Bool :=
  match replica.remoteHead incoming.entityId with
  | none => true
  | some head =>
    head != incoming.revisionId &&
      (decide (head ∈ incoming.parentRevisionIds) ||
        match AncestorWalk.walk (recordedParents scope replica incoming.entityId)
            incoming.revisionId maxAncestry [] [head] with
        | .exhausted => true
        | _ => false)

end Operations

namespace Replica

variable (replica : Replica) (entityId revisionId : String)

@[simp] theorem remoteHead_setRemoteHead :
    (replica.setRemoteHead entityId revisionId).remoteHead entityId = some revisionId :=
  AList.lookup_insert _

theorem remoteHead_setRemoteHead_of_ne {other : String} (hother : other ≠ entityId) :
    (replica.setRemoteHead entityId revisionId).remoteHead other = replica.remoteHead other :=
  AList.lookup_insert_ne hother

end Replica

/-! ### What decides a move -/

/-- What the search for ancestors reads of a row. -/
def EventRow.record (row : EventRow) : String × String × Json :=
  (row.remoteRevisionId, row.entityId, row.body)

variable {incoming : Event}

section Records

variable {scope : Scope} {replica other : Replica}

/-- Only the revisions, entities and requests of the rows matter to the recorded parents. -/
theorem recordedParents_congr {entityId revisionId : String} (h : (replica.events.find? fun row ↦
        row.remoteRevisionId = revisionId ∧ row.entityId = entityId).map EventRow.record =
      (other.events.find? fun row ↦
        row.remoteRevisionId = revisionId ∧ row.entityId = entityId).map EventRow.record) :
    recordedParents scope replica entityId revisionId =
      recordedParents scope other entityId revisionId := by
  unfold recordedParents
  revert h
  generalize replica.events.find? _ = left
  generalize other.events.find? _ = right
  intro h
  cases left with
  | none =>
    cases right with
    | none => rfl
    | some row => cases h
  | some row =>
    cases right with
    | none => cases h
    | some row' =>
      have hbody : row.body = row'.body := by
        have hrecord : row.record = row'.record := Option.some.inj h
        exact congrArg (fun record ↦ record.2.2) hrecord
      simp only [hbody]

/-- The move is decided by the head and by the records of the other revisions. -/
theorem moves_congr
    (hhead : replica.remoteHead incoming.entityId = other.remoteHead incoming.entityId)
    (hrecords : ∀ revisionId, revisionId ≠ incoming.revisionId →
      recordedParents scope replica incoming.entityId revisionId =
        recordedParents scope other incoming.entityId revisionId) :
    moves scope replica incoming = moves scope other incoming := by
  unfold moves
  rw [hhead]
  cases other.remoteHead incoming.entityId with
  | none => rfl
  | some head => simp only [AncestorWalk.walk_congr incoming.revisionId hrecords]

/-- Writing a receipt leaves the recorded parents alone. -/
theorem recordedParents_finish (state : EventState) (receipt : Json)
    (eventId entityId revisionId : String) :
    recordedParents scope (replica.finish state receipt eventId) entityId revisionId =
      recordedParents scope replica entityId revisionId := by
  refine recordedParents_congr ?_
  rw [Replica.finish, List.find?_map, Option.map_map]
  have hfind : (replica.events.find? ((fun row ↦
      decide (row.remoteRevisionId = revisionId ∧ row.entityId = entityId)) ∘ fun row ↦
        if row.eventId = eventId ∧ row.direction = .push ∧
            (row.state = .pending ∨ row.state = .failed) then
          { row with state, receipt := some receipt }
        else row)) = replica.events.find? fun row ↦
      decide (row.remoteRevisionId = revisionId ∧ row.entityId = entityId) := by
    congr 1
    ext row
    simp only [Function.comp_apply]
    split_ifs <;> rfl
  rw [hfind]
  congr 1
  ext row : 1
  simp only [Function.comp_apply]
  split_ifs <;> rfl

/-- A new row is a record of its own revision only. -/
theorem recordedParents_append {row : EventRow} {entityId revisionId : String}
    (hevents : other.events = replica.events ++ [row])
    (hrevision : revisionId ≠ row.remoteRevisionId) :
    recordedParents scope other entityId revisionId =
      recordedParents scope replica entityId revisionId := by
  refine recordedParents_congr ?_
  rw [hevents, List.find?_append]
  simp [Ne.symm hrevision]

end Records

/-! ### What the operations can do -/

section Cases

variable {scope : Scope} {replica settled : Replica}

/-- A row that was read is the event of its request, and its receipt is that of its state. -/
structure ReadsAs (scope : Scope) (row : EventRow) (held : Pending) (event : Event) : Prop where
  parses : Canonical.parse scope.platform row.body = some held.request
  reads : readEvent scope row.direction held.request = .ok event
  eventId : event.eventId = row.eventId
  revisionId : event.revisionId = row.remoteRevisionId
  entityId : event.entityId = row.entityId
  state : held.state = row.state
  unfinished : row.direction = .push → held.receipt = none →
    row.state = .pending ∨ row.state = .failed
  settled : ∀ receipt, held.receipt = some receipt →
    receipt.index "state" = .string row.state.wire

variable {event : Event}

/-- An event that the client read is valid. -/
theorem validate_of_readEvent {direction : Direction} {request : Json}
    (h : readEvent scope direction request = .ok event) :
    Event.parse request = some event ∧
      event.validate scope.platform scope.account = .ok () := by
  cases direction with
  | push => exact (Event.push_eq_ok.mp h).2
  | pull => exact (Event.stream_eq_ok.mp h).2

theorem readReceipt_cases {row : EventRow} {request : Json} {stored receipt : Option Json}
    (h : readReceipt scope row request event stored = .ok receipt) :
    (row.direction = .push → receipt = none → row.state = .pending ∨ row.state = .failed) ∧
      ∀ held, receipt = some held → held.index "state" = .string row.state.wire := by
  unfold readReceipt at h
  split at h
  · next hstate =>
    obtain ⟨_, -, h⟩ := bind_eq_ok.mp h
    obtain rfl : none = receipt := Except.ok.inj h
    exact ⟨fun _ _ ↦ Or.inr hstate, fun held hheld ↦ nomatch hheld⟩
  · cases h
  · next content _ =>
    simp only [bind_eq_ok, ensure_eq_ok, beq_iff_eq] at h
    obtain ⟨_, -, _, hstate, h⟩ := h
    obtain rfl : some content = receipt := Except.ok.inj h
    refine ⟨fun _ hnone ↦ absurd hnone (by simp), ?_⟩
    intro held hheld
    rwa [← Option.some.inj hheld]
  · simp only [bind_eq_ok, ensure_eq_ok, Bool.or_eq_true, beq_iff_eq] at h
    obtain ⟨_, hpending, h⟩ := h
    obtain rfl : none = receipt := Except.ok.inj h
    refine ⟨fun hpush _ ↦ ?_, fun held hheld ↦ nomatch hheld⟩
    rcases hpending with hpending | hpull
    · exact Or.inl hpending
    · cases hpush.symm.trans hpull

/-- Reading a row is checking it against its request and its receipt. -/
theorem readRow_cases {row : EventRow} {held : Pending} (h : readRow scope replica row = .ok held) :
    ∃ event, ReadsAs scope row held event := by
  simp only [readRow, bind_eq_ok, present_eq_ok, ensure_eq_ok, Bool.and_eq_true,
    beq_iff_eq] at h
  obtain ⟨request, hrequest, event, hevent, _, ⟨⟨⟨⟨hid, hrevision⟩, hentity⟩, -⟩, -⟩, _, -, _, -,
    _, -, _, -, receipt, hreceipt, h⟩ := h
  obtain rfl := Except.ok.inj h
  obtain ⟨hunfinished, hsettled⟩ := readReceipt_cases hreceipt
  exact ⟨event,
    { parses := hrequest
      reads := hevent
      eventId := hid
      revisionId := hrevision
      entityId := hentity
      state := rfl
      unfinished := hunfinished
      settled := hsettled }⟩

/-- `advance` keeps the database or moves the recorded head of the entity to the event. -/
theorem advance_cases (h : advance scope replica incoming = .ok settled) :
    settled =
      if moves scope replica incoming then
        replica.setRemoteHead incoming.entityId incoming.revisionId
      else replica := by
  unfold advance at h
  unfold moves
  cases hhead : replica.remoteHead incoming.entityId with
  | none =>
    simp only [hhead, Except.ok.injEq] at h
    simp [h]
  | some head =>
    simp only [hhead] at h
    by_cases hsame : head = incoming.revisionId
    · simp only [hsame, if_true, Except.ok.injEq] at h
      simp [hsame, h]
    rw [if_neg hsame] at h
    by_cases hparent : head ∈ incoming.parentRevisionIds
    · simp only [hparent, if_true, Except.ok.injEq] at h
      simp [hsame, hparent, h]
    rw [if_neg hparent] at h
    split at h <;> simp_all

/-- A push is retained once: what is stored wins, and a new row is the only unfinished push of its
entity, names its stored revision and repeats no event or revision. -/
theorem retain_cases {request : Json} {held : Pending}
    (h : retain scope replica request = .ok (held, settled)) :
    settled = replica ∨
      ∃ event localRevisionId body, Event.push scope.platform request scope.account = .ok event ∧
        localRevision scope replica event = .ok localRevisionId ∧
        encoded scope.platform request = .ok body ∧
        (replica.events.filter fun row ↦
          row.entityId = event.entityId ∧ row.direction = .push ∧ row.state = .pending) = [] ∧
        (∀ row ∈ replica.events, row.eventId ≠ event.eventId ∧
          row.remoteRevisionId ≠ event.revisionId) ∧
        settled = { replica with
          events := replica.events ++ [pushRow event localRevisionId body] } := by
  simp only [retain, bind_eq_ok] at h
  obtain ⟨_, -, event, hevent, _, -, unfinished, hunfinished, h⟩ := h
  cases unfinished with
  | some other =>
    obtain ⟨_, -, h⟩ := bind_eq_ok.mp h
    exact Or.inl (Prod.ext_iff.mp (Except.ok.inj h)).2.symm
  | none =>
    have hnone : (replica.events.filter fun row ↦
        row.entityId = event.entityId ∧ row.direction = .push ∧ row.state = .pending) = [] := by
      obtain ⟨_, -, hunfinished⟩ := bind_eq_ok.mp hunfinished
      split at hunfinished
      · assumption
      · obtain ⟨_, -, hunfinished⟩ := bind_eq_ok.mp hunfinished
        cases hunfinished
      · cases hunfinished
    dsimp only at h
    split at h
    · simp only [retainNew, bind_eq_ok] at h
      obtain ⟨localRevisionId, hlocal, body, hbody, inserted, hinserted, h⟩ := h
      obtain rfl : inserted = settled := (Prod.ext_iff.mp (Except.ok.inj h)).2
      unfold Replica.insertEvent at hinserted
      split_ifs at hinserted with hfresh
      refine Or.inr ⟨event, localRevisionId, body, hevent, hlocal, hbody, hnone, ?_,
        (Except.ok.inj hinserted).symm⟩
      intro row hrow
      constructor
      · intro hid
        exact hfresh (List.any_eq_true.mpr ⟨row, hrow, by simp [pushRow, hid]⟩)
      · intro hrevision
        exact hfresh (List.any_eq_true.mpr ⟨row, hrow, by simp [pushRow, hrevision]⟩)
    · obtain ⟨_, -, h⟩ := bind_eq_ok.mp h
      exact Or.inl (Prod.ext_iff.mp (Except.ok.inj h)).2.symm
    · cases h

/-- The push row that is recorded under an event id. -/
theorem recorded_cases {eventId : String} {held : Pending}
    (h : recorded scope replica eventId = .ok held) :
    ∃ row ∈ replica.events, row.eventId = eventId ∧ row.direction = .push ∧
      ∃ event, ReadsAs scope row held event := by
  simp only [recorded, bind_eq_ok, present_eq_ok] at h
  obtain ⟨_, -, row, hrow, hread⟩ := h
  have hfound := List.find?_some hrow
  simp only [decide_eq_true_eq] at hfound
  exact ⟨row, List.mem_of_find?_eq_some hrow, hfound.1, hfound.2, readRow_cases hread⟩

/-- A receipt repeats the recorded one, or it is written over an unfinished push and offers the
event to the remote head when it accepts it. -/
theorem recordReceipt_cases {receipt : Json}
    (h : recordReceipt scope replica receipt = .ok settled) :
    ∃ row ∈ replica.events, ∃ held event, row.direction = .push ∧
      receipt.index "event_id" = .string row.eventId ∧ ReadsAs scope row held event ∧
      validateReceipt receipt event = .ok () ∧
      ((settled = replica ∧
          ∃ previous, held.receipt = some previous ∧ previous.sameValue receipt = true) ∨
        (row.state = .pending ∨ row.state = .failed) ∧
          ∃ state content,
            (receipt.index "state").asString? >>= EventState.ofReceipt = some state ∧
            let written := replica.finish state content row.eventId
            settled =
              if state = .accepted ∧ moves scope written event then
                written.setRemoteHead event.entityId event.revisionId
              else written) := by
  simp only [recordReceipt, bind_eq_ok, present_eq_ok] at h
  obtain ⟨_, -, eventId, hid, held, hheld, event, hevent, _, hvalid, _, -, h⟩ := h
  obtain ⟨row, hrow, rfl, hpush, other, hreads⟩ := recorded_cases hheld
  have hother := hreads.reads
  rw [hpush] at hother
  obtain rfl : event = other := Except.ok.inj (hevent.symm.trans hother)
  refine ⟨row, hrow, held, event, hpush, ?_, hreads, hvalid, ?_⟩
  · cases hvalue : receipt.index "event_id" with
    | string text =>
      rw [hvalue] at hid
      rw [Option.some.inj hid]
    | null | bool | number | array | object => simp [hvalue, Json.asString?] at hid
  cases hprevious : held.receipt with
  | some previous =>
    rw [hprevious] at h
    obtain ⟨_, hsame, h⟩ := bind_eq_ok.mp h
    exact Or.inl ⟨(Except.ok.inj h).symm, previous, rfl, ensure_eq_ok.mp hsame⟩
  | none =>
    rw [hprevious] at h
    simp only [writeFirstReceipt, bind_eq_ok, present_eq_ok] at h
    obtain ⟨state, hstate, content, -, _, -, h⟩ := h
    refine Or.inr ⟨hreads.unfinished hpush hprevious, state, content, hstate, ?_⟩
    by_cases haccepted : state = .accepted
    · rw [if_pos haccepted] at h
      simp [haccepted, advance_cases h]
    · rw [if_neg haccepted] at h
      simp [haccepted, Except.ok.inj h]

/-- An offer succeeds with the same head and the same records of the other revisions. -/
theorem advance_congr {other : Replica}
    (hhead : replica.remoteHead incoming.entityId = other.remoteHead incoming.entityId)
    (hrecords : ∀ revisionId, revisionId ≠ incoming.revisionId →
      recordedParents scope replica incoming.entityId revisionId =
        recordedParents scope other incoming.entityId revisionId)
    (h : advance scope replica incoming = .ok settled) :
    ∃ kept, advance scope other incoming = .ok kept := by
  unfold advance at h ⊢
  rw [hhead] at h
  cases hother : other.remoteHead incoming.entityId with
  | none => exact ⟨_, rfl⟩
  | some head =>
    simp only [hother, AncestorWalk.walk_congr incoming.revisionId hrecords] at h ⊢
    split_ifs at h ⊢
    · exact ⟨_, rfl⟩
    · exact ⟨_, rfl⟩
    · split at h
      · exact ⟨_, rfl⟩
      · exact ⟨_, rfl⟩
      · cases h
      · cases h
      · exact ⟨_, rfl⟩

/-- The recorded head is the event, or it is no parent of it and descends from it over recorded
events, or from an event that is not recorded. -/
def HeadKeeps (scope : Scope) (replica : Replica) (event : Event) : Prop :=
  ∃ head, replica.remoteHead event.entityId = some head ∧
    (head = event.revisionId ∨
      head ∉ event.parentRevisionIds ∧ ∃ ancestor,
        AncestorWalk.Reaches (recordedParents scope replica event.entityId) head ancestor ∧
          (ancestor = event.revisionId ∨
            recordedParents scope replica event.entityId ancestor = .ok none))

theorem moves_eq_false_iff (h : advance scope replica event = .ok settled) :
    moves scope replica event = false ↔ HeadKeeps scope replica event := by
  unfold moves HeadKeeps
  unfold advance at h
  cases hhead : replica.remoteHead event.entityId with
  | none => simp
  | some head =>
    simp only [hhead] at h
    by_cases hsame : head = event.revisionId
    · simp [hsame]
    rw [if_neg hsame] at h
    by_cases hparent : head ∈ event.parentRevisionIds
    · simp [hsame, hparent]
    rw [if_neg hparent] at h
    simp only [hsame, hparent, Option.some.injEq, exists_eq_left', false_or, not_false_eq_true,
      true_and]
    split at h
    · next hwalk =>
      simp only [hwalk, decide_false, Bool.or_self, Bool.and_false, true_iff]
      exact ⟨event.revisionId, AncestorWalk.walk_found hwalk, Or.inl rfl⟩
    · next hwalk =>
      simp only [hwalk, decide_false, Bool.or_self, Bool.and_false, true_iff]
      obtain ⟨ancestor, hreaches, hnone⟩ := AncestorWalk.walk_unrecorded hwalk
      exact ⟨ancestor, hreaches, Or.inr hnone⟩
    · cases h
    · cases h
    · next hwalk =>
      have hmoves : (head != event.revisionId && (decide False || true)) = true := by
        simpa using hsame
      simp only [hwalk, hmoves, Bool.true_eq_false, false_iff]
      rintro ⟨ancestor, hreaches, hstop⟩
      obtain ⟨hother, parents, hparents⟩ := AncestorWalk.walk_exhausted hwalk hreaches
      rcases hstop with htarget | hnone
      · exact hother htarget
      · cases hparents.symm.trans hnone

/-- A head that is taken over is a parent of the event, or its ancestors are all recorded and none
of them is the event. -/
theorem ancestors_of_moves {head : String} (hhead : replica.remoteHead event.entityId = some head)
    (h : moves scope replica event = true) :
    head ≠ event.revisionId ∧ (head ∈ event.parentRevisionIds ∨ ∀ ancestor,
      AncestorWalk.Reaches (recordedParents scope replica event.entityId) head ancestor →
        ancestor ≠ event.revisionId ∧
          ∃ parents, recordedParents scope replica event.entityId ancestor = .ok (some parents)) := by
  simp only [moves, hhead, Bool.and_eq_true, bne_iff_ne, ne_eq, Bool.or_eq_true,
    decide_eq_true_eq] at h
  obtain ⟨hother, hparent | hwalk⟩ := h
  · exact ⟨hother, Or.inl hparent⟩
  · refine ⟨hother, Or.inr ?_⟩
    intro ancestor hreaches
    split at hwalk
    · next hexhausted => exact AncestorWalk.walk_exhausted hexhausted hreaches
    · cases hwalk

end Cases

end AiStp.Sync.Client
