import AiStp.Library.Separators
import AiStp.Publication.Records
import AiStp.Queue.Engine

/-!
# The ledger of official synchronizations

An official source is synchronized by attempts: one row for each source and trigger key. Every
attempt has an outbox row, and dispatching the outbox row enqueues one job under an idempotency key
that names the source and the trigger. `reconcileDelivery` looks at the attempt that every
schedulable source has for one day and repairs what is missing between the four tables.

A session sees what it has written itself, so each operation takes the tables and returns them.
-/

set_option autoImplicit false

namespace AiStp.Upstream

open Library Publication

/-! ### Errors -/

/-- What ends a transaction of the ledger. -/
inductive Fault where
  | official (code message : String)
  | queue (message : String)
  | integrity
deriving DecidableEq

def invalidSource : String := "invalid_source"

/-! ### Sources -/

def isLower (character : Char) : Bool := 'a' ≤ character && character ≤ 'z'

def isSourceIdRest (character : Char) : Bool :=
  isLower character || character.isDigit || character == '-'

/-- A lower-case letter, then at most 62 lower-case letters, digits and hyphens. -/
def matchesSourceId : List Char → Bool
  | [] => false
  | first :: rest => isLower first && rest.all isSourceIdRest && rest.length ≤ 62

/-- A source identifier that the pattern of identifiers accepts. -/
structure SourceId where
  text : String
  valid : matchesSourceId text.toList = true
deriving DecidableEq

inductive InventoryState where
  | enabled
  | paused
  | transferred
  | removed
deriving DecidableEq

inductive UpdatePolicy where
  | daily
  | pinned
  | disabled
deriving DecidableEq

structure OfficialUpstreamSource where
  stableId : String
  enabled : Bool
  inventoryState : InventoryState
  updatePolicy : UpdatePolicy
deriving DecidableEq

def sourceIsSchedulable (source : OfficialUpstreamSource) : Bool :=
  source.enabled && source.inventoryState == .enabled && source.updatePolicy != .disabled

/-! ### Attempts, outbox rows and jobs -/

inductive SyncState where
  | desired
  | queued
  | resolving
  | unchanged
  | publishing
  | published
  | retryWait
  | deadLettered
  | failedPermanent
  | cancelledTransferred
deriving DecidableEq

/-- Attempt states that a queue outcome never overwrites. -/
def settledAttempt : List SyncState :=
  [.unchanged, .published, .cancelledTransferred, .failedPermanent]

/-- Attempt states that nothing leaves on its own. -/
def terminalAttempts : List SyncState :=
  [.unchanged, .published, .deadLettered, .failedPermanent, .cancelledTransferred]

inductive SyncResult where
  | unchanged
  | publicationStarted
  | failed
deriving DecidableEq

def compatResult : SyncState → SyncResult
  | .unchanged => .unchanged
  | .publishing | .published | .desired | .queued | .resolving => .publicationStarted
  | .retryWait | .deadLettered | .failedPermanent | .cancelledTransferred => .failed

structure OfficialUpstreamSync where
  sourceId : SourceId
  utcDay : String
  triggerKey : String
  result : SyncResult
  state : SyncState
  attemptCount : Nat := 0
  retryAt : Option Queue.Moment := none
  jobId : Option Nat := none
  outboxId : Option Nat := none
  provenance : Option String := none
  errorClass : Option String := none
  planId : Option String := none
  errorCode : Option String := none
deriving DecidableEq

inductive OutboxState where
  | pending
  | dispatched
  | cancelled
deriving DecidableEq

structure OfficialSyncOutbox where
  sourceId : SourceId
  attemptId : Nat
  idempotencyKey : String
  state : OutboxState
  jobId : Option Nat
deriving DecidableEq

def idempotencyKey (sourceId : SourceId) (triggerKey : String) : String :=
  s!"official-upstream-sync:{sourceId.text}:{triggerKey}"

theorem SourceId.colon_notMem (sourceId : SourceId) : ':' ∉ sourceId.text.toList := by
  obtain ⟨text, hvalid⟩ := sourceId
  show ':' ∉ text.toList
  cases hlist : text.toList with
  | nil => simp
  | cons first rest =>
    rw [hlist] at hvalid
    simp only [matchesSourceId, Bool.and_eq_true, List.all_eq_true] at hvalid
    rw [List.mem_cons, not_or]
    constructor
    · intro hcolon
      rw [← hcolon] at hvalid
      exact absurd hvalid.1.1 (by decide)
    · intro hcolon
      exact absurd (hvalid.1.2 ':' hcolon) (by decide)

theorem idempotencyKey_eq (sourceId : SourceId) (triggerKey : String) :
    idempotencyKey sourceId triggerKey =
      "official-upstream-sync:" ++ (sourceId.text ++ (":" ++ triggerKey)) := by
  show "official-upstream-sync:" ++ sourceId.text ++ ":" ++ triggerKey = _
  rw [String.append_assoc, String.append_assoc]

theorem idempotencyKey_inj {sourceId sourceId' : SourceId} {triggerKey triggerKey' : String}
    (h : idempotencyKey sourceId triggerKey = idempotencyKey sourceId' triggerKey') :
    sourceId = sourceId' ∧ triggerKey = triggerKey' := by
  have hlist := congrArg String.toList h
  simp only [idempotencyKey_eq, String.toList_append] at hlist
  obtain ⟨hsource, htrigger⟩ := append_cons_inj sourceId.colon_notMem sourceId'.colon_notMem
    (List.append_cancel_left hlist)
  have htext : sourceId.text = sourceId'.text := String.toList_inj.mp hsource
  constructor
  · cases sourceId
    cases sourceId'
    simpa using htext
  · exact String.toList_inj.mp htrigger

/-- The tables of the ledger, the jobs of its type, and the states of publication plans. -/
structure Database where
  sources : Table SourceId OfficialUpstreamSource
  attempts : Table Nat OfficialUpstreamSync
  outboxes : Table Nat OfficialSyncOutbox
  jobs : Queue.Table
  plans : Table String PlanState
  nextAttempt : Nat
  nextOutbox : Nat

def Database.empty : Database where
  sources := .empty
  attempts := .empty
  outboxes := .empty
  jobs := .empty
  plans := .empty
  nextAttempt := 1
  nextOutbox := 1

/-- The attempt of a source under a trigger key. -/
def Database.attempt? (db : Database) (sourceId : SourceId) (triggerKey : String) :
    Option (Nat × OfficialUpstreamSync) :=
  db.attempts.find? fun _ row ↦ row.sourceId = sourceId ∧ row.triggerKey = triggerKey

/-- The outbox row that an attempt names, where there is one. -/
def Database.outboxOf (db : Database) (attempt : OfficialUpstreamSync) :
    Option (Nat × OfficialSyncOutbox) :=
  attempt.outboxId.bind fun outboxId ↦ (db.outboxes.get? outboxId).map (outboxId, ·)

def Database.rewriteAttempt (db : Database) (attemptId : Nat)
    (write : OfficialUpstreamSync → OfficialUpstreamSync) : Database :=
  { db with attempts := db.attempts.mapRows fun id row ↦ if id = attemptId then write row else row }

def Database.rewriteOutbox (db : Database) (outboxId : Nat)
    (write : OfficialSyncOutbox → OfficialSyncOutbox) : Database :=
  { db with outboxes := db.outboxes.mapRows fun id row ↦ if id = outboxId then write row else row }

/-! ### Creating and dispatching -/

/-- The tables with a new outbox row under the next identity. -/
def Database.addOutbox (db : Database) (outbox : OfficialSyncOutbox) : Database :=
  { db with
    outboxes := db.outboxes.set db.nextOutbox outbox
    nextOutbox := db.nextOutbox + 1 }

/-- A pending outbox row for an attempt; its idempotency key is unique. -/
def newOutbox (db : Database) (sourceId : SourceId) (attemptId : Nat) (triggerKey : String) :
    Except Fault (Database × Nat × OfficialSyncOutbox) :=
  let key := idempotencyKey sourceId triggerKey
  if (db.outboxes.find? fun _ held ↦ held.idempotencyKey = key).isSome then .error .integrity
  else
    let outbox : OfficialSyncOutbox := ⟨sourceId, attemptId, key, .pending, none⟩
    .ok (db.addOutbox outbox, db.nextOutbox, outbox)

/-- A new outbox row, and the attempt pointing to it. -/
def attachOutbox (db : Database) (sourceId : SourceId) (attemptId : Nat) (triggerKey : String) :
    Except Fault (Database × Nat × OfficialSyncOutbox) := do
  let (db, outboxId, outbox) ← newOutbox db sourceId attemptId triggerKey
  return (db.rewriteAttempt attemptId fun row ↦ { row with outboxId := some outboxId },
    outboxId, outbox)

/-- The row of a new attempt. -/
def desiredAttempt (sourceId : SourceId) (triggerKey utcDay provenance : String) :
    OfficialUpstreamSync where
  sourceId := sourceId
  utcDay := utcDay
  triggerKey := triggerKey
  result := .publicationStarted
  state := .desired
  provenance := some provenance

/-- The tables with a new attempt under the next identity. -/
def Database.addAttempt (db : Database) (attempt : OfficialUpstreamSync) : Database :=
  { db with
    attempts := db.attempts.set db.nextAttempt attempt
    nextAttempt := db.nextAttempt + 1 }

/-- Create one desired attempt and its outbox row, or find those that the trigger has. -/
def createAttemptAndOutbox (db : Database) (sourceId : SourceId)
    (triggerKey utcDay provenance : String) :
    Except Fault (Database × Nat × OfficialSyncOutbox) :=
  match db.sources.get? sourceId with
  | none => .error (.official invalidSource "source is missing")
  | some source =>
    if sourceIsSchedulable source = false then
      .error (.official invalidSource "source is not schedulable")
    else
      match db.attempt? sourceId triggerKey with
      | some (attemptId, existing) =>
        match db.outboxOf existing with
        | some (outboxId, outbox) => .ok (db, outboxId, outbox)
        | none => attachOutbox db sourceId attemptId triggerKey
      | none =>
        attachOutbox (db.addAttempt (desiredAttempt sourceId triggerKey utcDay provenance)) sourceId
          db.nextAttempt triggerKey

/-- The request for the job of an outbox row. -/
def OfficialSyncOutbox.request (outbox : OfficialSyncOutbox) : Queue.Request where
  payload := [
    ("source_id", .string outbox.sourceId.text),
    ("attempt_id", .number (.integer outbox.attemptId))]
  idempotencyKey := outbox.idempotencyKey

/-- Insert one job, unless its key is taken, and read the job of the key. -/
def enqueue (jobs : Queue.Table) (request : Queue.Request) (now : Queue.Moment) :
    Except Fault (Queue.Table × Queue.Job) :=
  match jobs.enqueue request now with
  | .error invalid => .error (.queue invalid.message)
  | .ok jobs =>
    match jobs.keyed? request.idempotencyKey request.organizationId with
    | none => .error .integrity
    | some job => .ok (jobs, job)

/-- A waiting attempt is queued under a job. -/
def OfficialUpstreamSync.queue (attempt : OfficialUpstreamSync) (jobId : Nat) :
    OfficialUpstreamSync :=
  if attempt.state = .desired ∨ attempt.state = .retryWait then
    { attempt with state := .queued, result := compatResult .queued, jobId := some jobId }
  else attempt

/-- Insert one idempotent worker job and mark the outbox row dispatched. -/
def dispatchOutbox (db : Database) (outboxId : Nat) (outbox : OfficialSyncOutbox)
    (now : Queue.Moment) : Except Fault (Database × Queue.Job) :=
  match db.sources.get? outbox.sourceId with
  | none => .error (.official invalidSource "source is no longer schedulable")
  | some source =>
    if outbox.state = .cancelled ∨ sourceIsSchedulable source = false then
      .error (.official invalidSource "source is no longer schedulable")
    else
      match db.outboxes.get? outboxId with
      | none => .error (.official invalidSource "outbox is cancelled")
      | some locked =>
        if locked.state = .cancelled then
          .error (.official invalidSource "outbox is cancelled")
        else
          match enqueue db.jobs locked.request now with
          | .error fault => .error fault
          | .ok (jobs, job) =>
            .ok ((({ db with jobs := jobs }).rewriteOutbox outboxId fun row ↦
              { row with jobId := some job.id, state := .dispatched }).rewriteAttempt
                locked.attemptId (·.queue job.id), job)

/-! ### Outcomes of jobs -/

def payloadAttempt (payload : Queue.Payload) : Option Nat :=
  match payload.lookup "attempt_id" with
  | some (.number (.integer (.ofNat attemptId))) => some attemptId
  | _ => none

def payloadSource (payload : Queue.Payload) : Option String :=
  match payload.lookup "source_id" with
  | some (.string sourceId) => some sourceId
  | _ => none

/-- The attempt that the payload of a job names, or the last one of its source that names the job.
Rows are listed in the order of their identities. -/
def Database.attemptOf (db : Database) (job : Queue.Job) : Option (Nat × OfficialUpstreamSync) :=
  match (payloadAttempt job.payload).bind fun id ↦ (db.attempts.get? id).map (id, ·) with
  | some found => some found
  | none =>
    (payloadSource job.payload).bind fun sourceId ↦
      db.attempts.entries.reverse.find? fun entry ↦
        entry.2.sourceId.text = sourceId ∧ entry.2.jobId = some job.id

def OfficialUpstreamSync.deadLetter (attempt : OfficialUpstreamSync) : OfficialUpstreamSync :=
  { attempt with
    state := .deadLettered
    result := .failed
    errorClass := some "exhausted_retry"
    errorCode := some ((attempt.errorCode.filter (· ≠ "")).getD "dead_lettered") }

def OfficialUpstreamSync.awaitRetry (attempt : OfficialUpstreamSync) (job : Queue.Job) :
    OfficialUpstreamSync :=
  { attempt with
    state := .retryWait
    result := .failed
    retryAt := some job.runAfter
    attemptCount := max attempt.attemptCount job.attempts
    errorClass := some "retryable" }

/-- Map a retry or a dead letter of the queue onto the ledger. -/
def recordQueueOutcome (db : Database) (job : Queue.Job) : Database :=
  match db.attemptOf job with
  | none => db
  | some (attemptId, attempt) =>
    if attempt.state ∈ settledAttempt then db
    else
      match job.state with
      | .deadLetter =>
        if attempt.state = .deadLettered then db else db.rewriteAttempt attemptId (·.deadLetter)
      | .retryScheduled => db.rewriteAttempt attemptId (·.awaitRetry job)
      | _ => db

def OfficialUpstreamSync.mark (attempt : OfficialUpstreamSync) (state : SyncState)
    (errorCode errorClass : Option String) : OfficialUpstreamSync :=
  { attempt with
    state := state
    result := compatResult state
    errorCode := errorCode <|> attempt.errorCode
    errorClass := errorClass <|> attempt.errorClass }

/-! ### Reconciliation -/

/-- A moment: its day, its text in manual trigger keys, and its place on the clock. -/
structure Instant where
  utcDay : String
  stamp : String
  clock : Queue.Moment

/-- A pass found an attempt that has not followed its finished job. -/
def reconcilePublication (db : Database) (sourceId : SourceId) (attemptId : Nat)
    (attempt : OfficialUpstreamSync) : Database × List String :=
  if attempt.state = .queued ∨ attempt.state = .resolving ∨ attempt.state = .publishing then
    match attempt.planId.bind db.plans.get? with
    | some .published =>
      (db.rewriteAttempt attemptId (·.mark .published none none),
        [s!"unrecorded_publication:{sourceId.text}"])
    | some .failed | some .cancelled | some .stale =>
      (db.rewriteAttempt attemptId
          (·.mark .failedPermanent (some "failed_validation") (some "permanent")),
        [s!"unrecorded_publication_failure:{sourceId.text}"])
    | _ => (db, [])
  else (db, [])

/-- What a pass does about the job of an attempt. -/
def reconcileJob (db : Database) (sourceId : SourceId) (attemptId : Nat)
    (attempt : OfficialUpstreamSync) (job : Queue.Job) : Database × List String :=
  match job.state with
  | .deadLetter =>
    if attempt.state = .deadLettered ∨ attempt.state = .cancelledTransferred then (db, [])
    else (recordQueueOutcome db job, [s!"unrecorded_dlq:{sourceId.text}"])
  | .succeeded => reconcilePublication db sourceId attemptId attempt
  | _ => (db, [])

/-- A pass dispatches an outbox row and reports the repair. -/
def redispatch (db : Database) (outboxId : Nat) (outbox : OfficialSyncOutbox) (now : Queue.Moment)
    (repair : String) : Except Fault (Database × List String) := do
  let (db, _) ← dispatchOutbox db outboxId outbox now
  return (db, [repair])

/-- What a pass does about the outbox row of an attempt. -/
def reconcileOutbox (db : Database) (sourceId : SourceId) (attemptId : Nat)
    (attempt : OfficialUpstreamSync) (outboxId : Nat) (outbox : OfficialSyncOutbox)
    (now : Queue.Moment) : Except Fault (Database × List String) :=
  if outbox.state = .pending then
    redispatch db outboxId outbox now s!"outbox_without_job:{sourceId.text}"
  else
    match outbox.jobId with
    | none => .ok (db, [])
    | some jobId =>
      match (db.jobs.row? jobId).filter (·.state ≠ .cancelled) with
      | none =>
        let reset := { outbox with state := .pending, jobId := none }
        redispatch (db.rewriteOutbox outboxId fun _ ↦ reset) outboxId reset now
          s!"missing_job:{sourceId.text}"
      | some job => .ok (reconcileJob db sourceId attemptId attempt job)

/-- One source of a pass. -/
def reconcileSource (db : Database) (sourceId : SourceId) (moment : Instant) :
    Except Fault (Database × List String) :=
  match db.attempt? sourceId moment.utcDay with
  | none => do
    let (db, outboxId, outbox) ←
      createAttemptAndOutbox db sourceId moment.utcDay moment.utcDay "reconcile"
    redispatch db outboxId outbox moment.clock s!"due_without_attempt:{sourceId.text}"
  | some (attemptId, attempt) =>
    match db.outboxOf attempt with
    | none => do
      let (db, outboxId, outbox) ← attachOutbox db sourceId attemptId moment.utcDay
      redispatch db outboxId outbox moment.clock s!"attempt_without_outbox:{sourceId.text}"
    | some (outboxId, outbox) =>
      reconcileOutbox db sourceId attemptId attempt outboxId outbox moment.clock

/-- The sources of a pass, one after the other, with the repairs they needed. -/
def reconcileSources (moment : Instant) :
    List SourceId → Database → Except Fault (Database × List String)
  | [], db => .ok (db, [])
  | sourceId :: rest, db => do
    let (db, found) ← reconcileSource db sourceId moment
    let (db, later) ← reconcileSources moment rest db
    return (db, found ++ later)

/-- The identities of the schedulable sources. -/
def Database.schedulable (db : Database) : List SourceId :=
  (db.sources.entries.filter fun entry ↦ sourceIsSchedulable entry.2).map Prod.fst

/-- Repair missing handoffs through ordinary idempotent paths. -/
def reconcileDelivery (db : Database) (moment : Instant) : Except Fault (Database × List String) :=
  reconcileSources moment db.schedulable db

end AiStp.Upstream
