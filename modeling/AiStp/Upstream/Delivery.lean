import AiStp.Upstream.Ledger

/-!
# The life of the ledger

The tables change by transactions of operators, of the scheduler, of the workers and of publication.
`Event` lists them and `step` is what each one commits; a refused transaction changes nothing. An
upstream check reads the network, and what it finds is the `Verdict` of its event.

Between two transactions the tables are `Consistent`: every attempt has its own outbox row, which
is dispatched to a job of its key, and every job belongs to the outbox row that names it. Most
events keep the rows' links as they are (`Kept`); only dispatching adds links (`Launch`).
-/

set_option autoImplicit false

namespace AiStp.Upstream

open Library Publication

/-! ### Operators -/

structure SourceUpsert where
  stableId : String
  enabled : Bool
  updatePolicy : UpdatePolicy

/-- A source that was transferred or removed is not active again. -/
def OfficialUpstreamSource.retired (source : OfficialUpstreamSource) : Bool :=
  source.inventoryState == .transferred || source.inventoryState == .removed

/-- The source that a command describes. -/
def SourceUpsert.source (command : SourceUpsert) : OfficialUpstreamSource where
  stableId := command.stableId
  enabled := command.enabled
  inventoryState := if command.enabled then .enabled else .paused
  updatePolicy := command.updatePolicy

def Database.writeSource (db : Database) (sourceId : SourceId) (source : OfficialUpstreamSource) :
    Database :=
  { db with sources := db.sources.set sourceId source }

/-- Create or update one source. -/
def upsertSource (db : Database) (sourceId : SourceId) (command : SourceUpsert) : Database :=
  match db.sources.get? sourceId with
  | none => db.writeSource sourceId command.source
  | some existing =>
    if existing.retired = true ∨ existing.stableId ≠ command.stableId then db
    else db.writeSource sourceId command.source

/-- Project one entry of the manifest; `foreign` says that another account owns its catalog line. -/
def projectEntry (db : Database) (sourceId : SourceId) (entry : SourceUpsert) (foreign : Bool) :
    Database :=
  let enabled := entry.enabled && entry.updatePolicy != .disabled
  match (db.sources.get? sourceId).filter fun before ↦ foreign && !before.retired with
  | some before =>
    db.writeSource sourceId
      { before with enabled := false, inventoryState := .transferred, updatePolicy := .disabled }
  | none => upsertSource db sourceId { entry with enabled := enabled }

def disableSource (db : Database) (sourceId : SourceId) : Database :=
  match db.sources.get? sourceId with
  | none => db
  | some source =>
    db.writeSource sourceId { source with enabled := false, inventoryState := .paused }

def deleteSource (db : Database) (sourceId : SourceId) : Database :=
  match db.sources.get? sourceId with
  | none => db
  | some source =>
    db.writeSource sourceId { source with enabled := false, inventoryState := .removed }

/-! ### Transfer of a catalog line -/

def OfficialUpstreamSync.cancelTransferred (attempt : OfficialUpstreamSync) :
    OfficialUpstreamSync :=
  { attempt with
    state := .cancelledTransferred
    result := .failed
    errorCode := some "cancelled_transferred"
    errorClass := some "stale_ownership_fence" }

def OfficialSyncOutbox.cancelPending (outbox : OfficialSyncOutbox) : OfficialSyncOutbox :=
  if outbox.state = .pending then { outbox with state := .cancelled } else outbox

/-- Cancel the claimable jobs that meet a condition. -/
def cancelJobs (condition : Queue.Job → Bool) : Queue.Update where
  selected job := decide (job.state ∈ Queue.claimableStates) && condition job
  set job := { job with state := .cancelled }
  keepsId _ := rfl

/-- The job that the cut-off of one attempt cancels. -/
def OfficialUpstreamSync.names (attempt : OfficialUpstreamSync) (job : Queue.Job) : Bool :=
  match attempt.jobId with
  | some jobId => job.id == jobId
  | none => job.idempotencyKey == idempotencyKey attempt.sourceId attempt.triggerKey

/-- Cut off one attempt of a transferred source. -/
def cutAttempt (db : Database) (attemptId : Nat) (attempt : OfficialUpstreamSync) : Database :=
  if attempt.state ∈ terminalAttempts then db
  else
    { db with
      attempts := db.attempts.mapRows fun id row ↦
        if id = attemptId then row.cancelTransferred else row
      outboxes := db.outboxes.mapRows fun id row ↦
        if attempt.outboxId = some id then row.cancelPending else row
      jobs := db.jobs.update (cancelJobs attempt.names) }

/-- Cut off the work of one source. -/
def cutSource (db : Database) (sourceId : SourceId) (source : OfficialUpstreamSource) : Database :=
  let cut := (db.attempts.entries.filter fun entry ↦ entry.2.sourceId = sourceId).foldl
    (fun db entry ↦ cutAttempt db entry.1 entry.2)
    (db.writeSource sourceId
      { source with enabled := false, inventoryState := .transferred, updatePolicy := .disabled })
  { cut with
    outboxes := cut.outboxes.mapRows fun _ row ↦
      if row.sourceId = sourceId then row.cancelPending else row
    jobs := cut.jobs.update
      (cancelJobs fun job ↦ payloadSource job.payload == some sourceId.text) }

/-- What an accepted transfer of a catalog line does with the sources that feed it. -/
def transferCatalogLine (db : Database) (stableId : String) : Database :=
  (db.sources.entries.filter fun entry ↦ entry.2.stableId = stableId).foldl
    (fun db entry ↦ cutSource db entry.1 entry.2) db

/-! ### The scheduler -/

/-- Enqueue one source under a trigger key. -/
def enqueueSource (db : Database) (sourceId : SourceId) (triggerKey provenance : String)
    (moment : Instant) : Except Fault Database := do
  let (db, outboxId, outbox) ←
    createAttemptAndOutbox db sourceId triggerKey moment.utcDay provenance
  let (db, _) ← dispatchOutbox db outboxId outbox moment.clock
  return db

def enqueueSources (triggerKey provenance : String) (moment : Instant) :
    List SourceId → Database → Except Fault Database
  | [], db => .ok db
  | sourceId :: rest, db => do
    let db ← enqueueSource db sourceId triggerKey provenance moment
    enqueueSources triggerKey provenance moment rest db

/-- Enqueue one source, or all that are schedulable, for the day or by hand. -/
def enqueueDaily (db : Database) (moment : Instant) (sourceId : Option SourceId) (force : Bool) :
    Except Fault Database :=
  let triggerKey := if force then "manual:" ++ moment.stamp else moment.utcDay
  let provenance := if force then "manual" else "daily"
  match sourceId with
  | none => enqueueSources triggerKey provenance moment db.schedulable db
  | some sourceId => enqueueSource db sourceId triggerKey provenance moment

/-! ### Workers -/

/-- A statement of the queue on its own. -/
inductive JobEvent where
  | claim (workerId : String) (batch : Nat) (now : Queue.Moment) (locked : List Nat)
      (listed : Nat → Nat)
  | heartbeat (workerId : String) (jobId : Nat) (now : Queue.Moment)
  | markSucceeded (workerId : String) (jobId : Nat)
  | requeueLocked (workerId : String)
  | requeueStale (leaseTimeoutSeconds limit : Nat) (now : Queue.Moment) (locked : List Nat)
      (listed : Nat → Nat)
  | gcTerminalJobs (taken : Queue.Job → Bool)

def JobEvent.apply (jobs : Queue.Table) : JobEvent → Queue.Table
  | claim workerId batch now locked listed => (jobs.claim workerId batch now locked listed).1
  | heartbeat workerId jobId now => jobs.heartbeat workerId jobId now
  | markSucceeded workerId jobId =>
    match jobs.row? jobId with
    | none => jobs
    | some job => (jobs.markSucceeded job (some workerId)).1
  | requeueLocked workerId => jobs.requeueLocked workerId
  | requeueStale leaseTimeoutSeconds limit now locked listed =>
    jobs.requeueStale leaseTimeoutSeconds limit now locked listed
  | gcTerminalJobs taken => jobs.gcTerminalJobs taken

/-- A worker reports a failure, and records what the queue made of it. -/
def failJob (db : Database) (workerId : String) (jobId : Nat) (failure : Queue.Failure)
    (now : Queue.Moment) : Database :=
  match db.jobs.row? jobId with
  | none => db
  | some job =>
    let (jobs, owned) := db.jobs.fail job failure now (some workerId)
    match owned, jobs.row? jobId with
    | true, some failed => recordQueueOutcome { db with jobs := jobs } failed
    | _, _ => { db with jobs := jobs }

/-- A failed job whose attempt does not reflect the state of the queue yet. -/
def Database.unrecorded (db : Database) (job : Queue.Job) : Bool :=
  db.attempts.entries.any fun entry ↦
    decide (entry.2.jobId = some job.id ∧ entry.2.state ∉ settledAttempt ∧
      (job.state = .deadLetter ∧ entry.2.state ≠ .deadLettered ∨
        job.state = .retryScheduled ∧ entry.2.state ≠ .retryWait))

/-- The poll of a worker over failed jobs; the query lists them in an order, up to a limit. -/
def recordOutcomes (db : Database) (listed : List Nat) : Database :=
  ((listed.filterMap db.jobs.row?).filter db.unrecorded).foldl recordQueueOutcome db

/-! ### The check of an upstream -/

/-- How the check of an upstream ends, apart from the failures that a job retries. -/
inductive Verdict where
  | fenced
  | refused (errorCode : String)
  | unchanged
  | publicationStarted (planId : String)
deriving DecidableEq

/-- The attempt row with the outcome of a check. -/
def OfficialUpstreamSync.record (attempt : OfficialUpstreamSync) : Verdict → OfficialUpstreamSync
  | .fenced => attempt.cancelTransferred
  | .refused errorCode =>
    { attempt with
      result := .failed, errorCode := some errorCode, planId := none, state := .failedPermanent
      errorClass := some "permanent" }
  | .unchanged =>
    { attempt with result := .unchanged, errorCode := none, planId := none, state := .unchanged }
  | .publicationStarted planId =>
    { attempt with
      result := .publicationStarted, errorCode := none, planId := some planId
      state := .publishing }

/-- The attempt that a check works for: the one of its payload, or one of the day. -/
def Database.checked (db : Database) (sourceId : SourceId) (attemptId : Option Nat)
    (utcDay : String) : Option (Nat × OfficialUpstreamSync) :=
  match attemptId.bind fun id ↦ (db.attempts.get? id).map (id, ·) with
  | some found => some found
  | none => db.attempts.find? fun _ row ↦ row.sourceId = sourceId ∧ row.utcDay = utcDay

/-- What the check of an upstream commits. A check of a source that is disabled is skipped, and one
that may not change the catalog ends its attempt. -/
def runSync (db : Database) (payload : Queue.Payload) (utcDay : String) (verdict : Verdict) :
    Database :=
  match db.sources.find? fun id _ ↦ payloadSource payload = some id.text with
  | none => db
  | some (sourceId, source) =>
    if source.enabled = false then db
    else
      let found := db.checked sourceId (payloadAttempt payload) utcDay
      let fenced := source.inventoryState ≠ .enabled ∨ verdict = .fenced
      match found with
      | some (attemptId, _) =>
        db.rewriteAttempt attemptId (·.record (if fenced then .fenced else verdict))
      | none =>
        if fenced then db
        else
          let fresh := { desiredAttempt sourceId utcDay utcDay "" with provenance := none }
          db.addAttempt (fresh.record verdict)

/-! ### Publication -/

/-- What a plan that ended leaves in the attempts that started it; `refusal` is the error code of
the check that refused it. -/
def OfficialUpstreamSync.follow (attempt : OfficialUpstreamSync) (refusal : String) :
    PlanState → OfficialUpstreamSync
  | .published => { attempt with state := .published, result := .publicationStarted }
  | .failed =>
    { attempt with
      state := .failedPermanent
      result := .failed
      errorCode := some refusal
      errorClass := some "permanent" }
  | _ => attempt

/-- A plan takes a state; publishing it and refusing it reaches the attempts that name it. -/
def movePlan (db : Database) (planId : String) (state : PlanState) (refusal : String) : Database :=
  { db with
    plans := db.plans.set planId state
    attempts := db.attempts.mapRows fun _ row ↦
      if row.planId = some planId then row.follow refusal state else row }

/-! ### Events -/

inductive Event where
  | upsertSource (sourceId : SourceId) (command : SourceUpsert)
  | projectEntry (sourceId : SourceId) (entry : SourceUpsert) (foreign : Bool)
  | disableSource (sourceId : SourceId)
  | deleteSource (sourceId : SourceId)
  | transferCatalogLine (stableId : String)
  | enqueueDaily (moment : Instant) (sourceId : Option SourceId) (force : Bool)
  | reconcileDelivery (moment : Instant)
  | job (event : JobEvent)
  | failJob (workerId : String) (jobId : Nat) (failure : Queue.Failure) (now : Queue.Moment)
  | recordOutcomes (listed : List Nat)
  | runSync (jobId : Nat) (utcDay : String) (verdict : Verdict)
  | movePlan (planId : String) (state : PlanState) (refusal : String)

/-- The tables after a transaction. -/
def step (db : Database) : Event → Database
  | .upsertSource sourceId command => upsertSource db sourceId command
  | .projectEntry sourceId entry foreign => projectEntry db sourceId entry foreign
  | .disableSource sourceId => disableSource db sourceId
  | .deleteSource sourceId => deleteSource db sourceId
  | .transferCatalogLine stableId => transferCatalogLine db stableId
  | .enqueueDaily moment sourceId force => (enqueueDaily db moment sourceId force).toOption.getD db
  | .reconcileDelivery moment => ((reconcileDelivery db moment).toOption.map Prod.fst).getD db
  | .job event => { db with jobs := event.apply db.jobs }
  | .failJob workerId jobId failure now => failJob db workerId jobId failure now
  | .recordOutcomes listed => recordOutcomes db listed
  | .runSync jobId utcDay verdict =>
    match db.jobs.row? jobId with
    | none => db
    | some job => runSync db job.payload utcDay verdict
  | .movePlan planId state refusal => movePlan db planId state refusal

end AiStp.Upstream
