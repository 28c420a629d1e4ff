import AiStp.Upstream.Delivery

/-!
# The links between the tables

`Consistent` is the invariant of the ledger: an attempt and its outbox row name each other, the
outbox row is dispatched to a job, and a job that exists carries the key and the payload of the
outbox row that names it. `Kept` is what all events but dispatching do to the links, which is
nothing, and `Launch` is what dispatching does.
-/

set_option autoImplicit false

namespace AiStp.Upstream

open Library Publication

/-! ### Labels of jobs -/

/-- What a job says about the outbox row it was enqueued for. -/
def label (job : Queue.Job) : String × Option String × Option String × Option Nat :=
  (job.idempotencyKey, job.organizationId, payloadSource job.payload, payloadAttempt job.payload)

theorem lookup_scrubSettledPayload {key : String} (hkey : key ∉ Queue.sensitivePayloadKeys)
    (payload : Queue.Payload) :
    (Queue.scrubSettledPayload payload).lookup key = payload.lookup key := by
  unfold Queue.scrubSettledPayload
  induction payload with
  | nil => rfl
  | cons field payload ih =>
    rw [List.map_cons, List.lookup_cons, List.lookup_cons]
    by_cases hfield : key = field.1
    · have hplain : field.1 ∉ Queue.sensitivePayloadKeys := hfield ▸ hkey
      simp [hfield, hplain]
    · have hbeq : (key == field.1) = false := by simpa using hfield
      simp only [hbeq]
      exact ih

@[simp] theorem payloadSource_scrub (payload : Queue.Payload) :
    payloadSource (Queue.scrubSettledPayload payload) = payloadSource payload := by
  unfold payloadSource
  rw [lookup_scrubSettledPayload (by decide)]

@[simp] theorem payloadAttempt_scrub (payload : Queue.Payload) :
    payloadAttempt (Queue.scrubSettledPayload payload) = payloadAttempt payload := by
  unfold payloadAttempt
  rw [lookup_scrubSettledPayload (by decide)]

theorem label_succeed (job : Queue.Job) : label job.succeed = label job := by
  simp [label, Queue.Job.succeed]

theorem label_fail (job : Queue.Job) (failure : Queue.Failure) (now : Queue.Moment) :
    label (job.fail failure now) = label job := by
  unfold Queue.Job.fail
  split_ifs
  · simp [label]
  · simp [label]

theorem label_reclaim (job : Queue.Job) (now : Queue.Moment) :
    label (job.reclaim now) = label job := by
  unfold Queue.Job.reclaim
  split_ifs
  · simp [label]
  · simp [label]

theorem label_flush (held written : Queue.Job) :
    label (Queue.Job.flush held written held) = label written := by
  simp [label, Queue.Job.flush]

/-- Every job comes from a job of its identity that says the same. -/
structure JobsKept (before after : Queue.Table) : Prop where
  nextId : before.nextId = after.nextId
  origin : ∀ job ∈ after.rows, ∃ old ∈ before.rows, old.id = job.id ∧ label old = label job

variable (jobs : Queue.Table)

theorem JobsKept.refl : JobsKept jobs jobs where
  nextId := rfl
  origin job hjob := ⟨job, hjob, rfl, rfl⟩

theorem JobsKept.trans {first second third : Queue.Table} (hfirst : JobsKept first second)
    (hsecond : JobsKept second third) : JobsKept first third where
  nextId := hfirst.nextId.trans hsecond.nextId
  origin job hjob := by
    obtain ⟨middle, hmiddle, hid, hlabel⟩ := hsecond.origin job hjob
    obtain ⟨old, hold, hid', hlabel'⟩ := hfirst.origin middle hmiddle
    exact ⟨old, hold, hid'.trans hid, hlabel'.trans hlabel⟩

theorem jobsKept_update {jobs : Queue.Table} {statement : Queue.Update}
    (h : ∀ job ∈ jobs.rows, statement.selected job = true → label (statement.set job) = label job) :
    JobsKept jobs (jobs.update statement) where
  nextId := rfl
  origin job hjob := by
    obtain ⟨old, hold, hafter⟩ := List.mem_map.mp hjob
    have hlabel : label (statement.apply old) = label old := by
      unfold Queue.Update.apply
      split_ifs with hselected
      · exact h old hold hselected
      · rfl
    refine ⟨old, hold, ?_, ?_⟩
    · rw [← hafter, statement.apply_id]
    · rw [← hafter, hlabel]

theorem jobsKept_cancelJobs (condition : Queue.Job → Bool) :
    JobsKept jobs (jobs.update (cancelJobs condition)) :=
  jobsKept_update fun _ _ _ ↦ rfl

/-- Settling the job that a table has keeps what it says, if the settled row says the same. -/
theorem jobsKept_settle {jobs : Queue.Table} {job : Queue.Job} {id : Nat}
    (hjob : jobs.row? id = some job) (owner : Option String) {settled : Queue.Job → Queue.Job}
    (hsettled : ∀ row, label (settled row) = label row) :
    JobsKept jobs (jobs.settle job owner settled).1 := by
  unfold Queue.Table.settle
  cases howned : Queue.ownedRunningJob jobs job (owner <|> job.lockedBy) with
  | none => exact .refl jobs
  | some row =>
    have hrow : row = job := by
      unfold Queue.ownedRunningJob at howned
      split at howned
      · split_ifs at howned
        exact (Option.some.inj howned).symm
      · cases howned
    subst hrow
    apply jobsKept_update
    intro current hcurrent hselected
    have hid : current.id = row.id := by simpa [Queue.flushStatement] using hselected
    obtain ⟨hmem, -⟩ := Queue.Table.row?_eq_some.mp hjob
    rw [Queue.Table.eq_of_id hcurrent hmem hid]
    show label (Queue.Job.flush row (settled row) row) = label row
    rw [label_flush, hsettled]

/-- No statement of the queue changes what a job says. -/
theorem jobsKept_apply (event : JobEvent) : JobsKept jobs (event.apply jobs) := by
  cases event with
  | claim workerId batch now locked listed => exact jobsKept_update fun _ _ _ ↦ rfl
  | heartbeat workerId jobId now => exact jobsKept_update fun _ _ _ ↦ rfl
  | markSucceeded workerId jobId =>
    unfold JobEvent.apply
    dsimp only
    cases hjob : jobs.row? jobId with
    | none => exact .refl jobs
    | some job => exact jobsKept_settle hjob (some workerId) label_succeed
  | requeueLocked workerId => exact jobsKept_update fun _ _ _ ↦ rfl
  | requeueStale leaseTimeoutSeconds limit now locked listed =>
    exact jobsKept_update fun job _ _ ↦ label_reclaim job now
  | gcTerminalJobs taken =>
    exact ⟨rfl, fun job hjob ↦ ⟨job, (List.mem_filter.mp hjob).1, rfl, rfl⟩⟩

/-! ### Consistent tables -/

/-- What an attempt says about itself for good. -/
def OfficialUpstreamSync.header (attempt : OfficialUpstreamSync) :
    SourceId × String × Option Nat :=
  (attempt.sourceId, attempt.triggerKey, attempt.outboxId)

def OfficialUpstreamSync.key (attempt : OfficialUpstreamSync) : String :=
  idempotencyKey attempt.sourceId attempt.triggerKey

/-- An attempt with its outbox row, dispatched to a job. -/
structure Filed (db : Database) (attemptId : Nat) (attempt : OfficialUpstreamSync)
    (outboxId jobId : Nat) : Prop where
  held : db.attempts.get? attemptId = some attempt
  points : attempt.outboxId = some outboxId
  outbox : db.outboxes.get? outboxId =
    some ⟨attempt.sourceId, attemptId, attempt.key, .dispatched, some jobId⟩

/-- What a job says when it serves an attempt. -/
def servingLabel (attemptId : Nat) (attempt : OfficialUpstreamSync) :
    String × Option String × Option String × Option Nat :=
  (attempt.key, none, some attempt.sourceId.text, some attemptId)

structure Consistent (db : Database) : Prop where
  filed : ∀ attemptId attempt, db.attempts.get? attemptId = some attempt →
    ∃ outboxId jobId, Filed db attemptId attempt outboxId jobId ∧ jobId < db.jobs.nextId ∧
      ∀ job ∈ db.jobs.rows, job.id = jobId → label job = servingLabel attemptId attempt
  owned : ∀ outboxId outbox, db.outboxes.get? outboxId = some outbox →
    ∃ attempt jobId, Filed db outbox.attemptId attempt outboxId jobId
  single : ∀ first second attempt attempt', db.attempts.get? first = some attempt →
    db.attempts.get? second = some attempt' → attempt.sourceId = attempt'.sourceId →
      attempt.triggerKey = attempt'.triggerKey → first = second
  carried : ∀ job ∈ db.jobs.rows, ∃ attemptId attempt outboxId,
    Filed db attemptId attempt outboxId job.id
  attemptBelow : ∀ attemptId attempt, db.attempts.get? attemptId = some attempt →
    attemptId < db.nextAttempt
  outboxBelow : ∀ outboxId outbox, db.outboxes.get? outboxId = some outbox →
    outboxId < db.nextOutbox

theorem consistent_empty : Consistent .empty where
  filed attemptId attempt h := by cases h
  owned outboxId outbox h := by cases h
  single first second attempt attempt' h := by cases h
  carried job hjob := by cases hjob
  attemptBelow attemptId attempt h := by cases h
  outboxBelow outboxId outbox h := by cases h

variable {attempt : OfficialUpstreamSync} {attemptId : Nat}

namespace Consistent

variable {db : Database}

/-- Attempts of one key are one attempt. -/
theorem eq_of_key (h : Consistent db) {first second : Nat} {attempt' : OfficialUpstreamSync}
    (hfirst : db.attempts.get? first = some attempt)
    (hsecond : db.attempts.get? second = some attempt') (hkey : attempt.key = attempt'.key) :
    first = second ∧ attempt = attempt' := by
  obtain ⟨hsource, htrigger⟩ := idempotencyKey_inj hkey
  have hsame := h.single first second attempt attempt' hfirst hsecond hsource htrigger
  subst hsame
  rw [hfirst] at hsecond
  exact ⟨rfl, Option.some.inj hsecond⟩

/-- An outbox row belongs to the attempt whose key it has. -/
theorem outbox_eq (h : Consistent db) {outboxId : Nat} {outbox : OfficialSyncOutbox}
    (houtbox : db.outboxes.get? outboxId = some outbox) :
    ∃ attempt jobId, Filed db outbox.attemptId attempt outboxId jobId ∧
      outbox = ⟨attempt.sourceId, outbox.attemptId, attempt.key, .dispatched, some jobId⟩ := by
  obtain ⟨attempt, jobId, hfiled⟩ := h.owned outboxId outbox houtbox
  refine ⟨attempt, jobId, hfiled, ?_⟩
  have hrow := hfiled.outbox
  rw [houtbox] at hrow
  exact Option.some.inj hrow

theorem attempt?_eq_some (h : Consistent db) {sourceId : SourceId} {triggerKey : String} :
    db.attempt? sourceId triggerKey = some (attemptId, attempt) ↔
      db.attempts.get? attemptId = some attempt ∧ attempt.sourceId = sourceId ∧
        attempt.triggerKey = triggerKey := by
  constructor
  · intro hfound
    obtain ⟨hget, hcondition⟩ := Table.find?_eq_some hfound
    exact ⟨hget, by simpa using hcondition⟩
  · rintro ⟨hget, hsource, htrigger⟩
    cases hfind : db.attempt? sourceId triggerKey with
    | none =>
      have hfalse := Table.find?_eq_none.mp hfind attemptId attempt hget
      simp [hsource, htrigger] at hfalse
    | some found =>
      obtain ⟨foundId, foundAttempt⟩ := found
      obtain ⟨hfoundGet, hcondition⟩ := Table.find?_eq_some hfind
      have hfound : foundAttempt.sourceId = sourceId ∧ foundAttempt.triggerKey = triggerKey := by
        simpa using hcondition
      have hsame := h.single foundId attemptId foundAttempt attempt hfoundGet hget
        (hfound.1.trans hsource.symm) (hfound.2.trans htrigger.symm)
      subst hsame
      rw [hfoundGet] at hget
      rw [Option.some.inj hget]

end Consistent

theorem attempt?_eq_none {db : Database} {sourceId : SourceId} {triggerKey : String} :
    db.attempt? sourceId triggerKey = none ↔ ∀ attemptId attempt,
      db.attempts.get? attemptId = some attempt → attempt.sourceId = sourceId →
        attempt.triggerKey ≠ triggerKey := by
  unfold Database.attempt?
  rw [Table.find?_eq_none]
  simp

/-! ### Events that keep the links -/

/-- The links stay as they are. -/
structure Kept (before after : Database) : Prop where
  attempts : ∀ attemptId, (after.attempts.get? attemptId).map (·.header) =
    (before.attempts.get? attemptId).map (·.header)
  outboxes : ∀ outboxId, after.outboxes.get? outboxId = before.outboxes.get? outboxId
  jobs : JobsKept before.jobs after.jobs
  nextAttempt : before.nextAttempt = after.nextAttempt
  nextOutbox : before.nextOutbox = after.nextOutbox

namespace Kept

variable {before after : Database}

theorem refl (db : Database) : Kept db db where
  attempts _ := rfl
  outboxes _ := rfl
  jobs := .refl db.jobs
  nextAttempt := rfl
  nextOutbox := rfl

theorem trans {middle : Database} (hfirst : Kept before middle) (hsecond : Kept middle after) :
    Kept before after where
  attempts attemptId := (hsecond.attempts attemptId).trans (hfirst.attempts attemptId)
  outboxes outboxId := (hsecond.outboxes outboxId).trans (hfirst.outboxes outboxId)
  jobs := hfirst.jobs.trans hsecond.jobs
  nextAttempt := hfirst.nextAttempt.trans hsecond.nextAttempt
  nextOutbox := hfirst.nextOutbox.trans hsecond.nextOutbox

/-- An attempt comes from an attempt of its identity and header. -/
theorem origin (h : Kept before after) (hattempt : after.attempts.get? attemptId = some attempt) :
    ∃ old, before.attempts.get? attemptId = some old ∧ old.header = attempt.header := by
  have hmap := h.attempts attemptId
  rw [hattempt] at hmap
  obtain ⟨old, hold, hheader⟩ := Option.map_eq_some_iff.mp hmap.symm
  exact ⟨old, hold, hheader⟩

theorem later (h : Kept before after) (hattempt : before.attempts.get? attemptId = some attempt) :
    ∃ new, after.attempts.get? attemptId = some new ∧ new.header = attempt.header := by
  have hmap := h.attempts attemptId
  rw [hattempt] at hmap
  obtain ⟨new, hnew, hheader⟩ := Option.map_eq_some_iff.mp hmap
  exact ⟨new, hnew, hheader⟩

end Kept

/-- A header determines what the links say about an attempt. -/
theorem filed_of_header {before after : Database} {outboxId jobId : Nat}
    {old new : OfficialUpstreamSync} (h : Filed before attemptId old outboxId jobId)
    (hnew : after.attempts.get? attemptId = some new) (hheader : new.header = old.header)
    (houtbox : after.outboxes.get? outboxId = before.outboxes.get? outboxId) :
    Filed after attemptId new outboxId jobId := by
  obtain ⟨hsource, htrigger, hpoints⟩ : new.sourceId = old.sourceId ∧
      new.triggerKey = old.triggerKey ∧ new.outboxId = old.outboxId := by
    simpa [OfficialUpstreamSync.header] using hheader
  constructor
  · exact hnew
  · rw [hpoints, h.points]
  · rw [houtbox, h.outbox, hsource]
    simp [OfficialUpstreamSync.key, hsource, htrigger]

theorem servingLabel_of_header {old new : OfficialUpstreamSync} (hheader : new.header = old.header)
    (attemptId : Nat) : servingLabel attemptId new = servingLabel attemptId old := by
  obtain ⟨hsource, htrigger, -⟩ : new.sourceId = old.sourceId ∧
      new.triggerKey = old.triggerKey ∧ new.outboxId = old.outboxId := by
    simpa [OfficialUpstreamSync.header] using hheader
  simp [servingLabel, OfficialUpstreamSync.key, hsource, htrigger]

theorem consistent_of_kept {before after : Database} (h : Consistent before)
    (hkept : Kept before after) : Consistent after where
  filed attemptId attempt hattempt := by
    obtain ⟨old, hold, hheader⟩ := hkept.origin hattempt
    obtain ⟨outboxId, jobId, hfiled, hbelow, hserves⟩ := h.filed attemptId old hold
    refine ⟨outboxId, jobId,
      filed_of_header hfiled hattempt hheader.symm (hkept.outboxes outboxId), ?_, ?_⟩
    · rw [← hkept.jobs.nextId]
      exact hbelow
    · intro job hjob hid
      obtain ⟨oldJob, holdJob, hsameId, hlabel⟩ := hkept.jobs.origin job hjob
      rw [← hlabel, hserves oldJob holdJob (hsameId.trans hid)]
      exact (servingLabel_of_header hheader.symm attemptId).symm
  owned outboxId outbox houtbox := by
    rw [hkept.outboxes outboxId] at houtbox
    obtain ⟨old, jobId, hfiled⟩ := h.owned outboxId outbox houtbox
    obtain ⟨new, hnew, hheader⟩ := hkept.later hfiled.held
    exact ⟨new, jobId, filed_of_header hfiled hnew hheader (hkept.outboxes outboxId)⟩
  single first second attempt attempt' hfirst hsecond hsource htrigger := by
    obtain ⟨old, hold, hheader⟩ := hkept.origin hfirst
    obtain ⟨old', hold', hheader'⟩ := hkept.origin hsecond
    simp only [OfficialUpstreamSync.header, Prod.mk.injEq] at hheader hheader'
    apply h.single first second old old' hold hold'
    · rw [hheader.1, hheader'.1, hsource]
    · rw [hheader.2.1, hheader'.2.1, htrigger]
  carried job hjob := by
    obtain ⟨oldJob, holdJob, hsameId, -⟩ := hkept.jobs.origin job hjob
    obtain ⟨attemptId, old, outboxId, hfiled⟩ := h.carried oldJob holdJob
    obtain ⟨new, hnew, hheader⟩ := hkept.later hfiled.held
    rw [hsameId] at hfiled
    exact ⟨attemptId, new, outboxId,
      filed_of_header hfiled hnew hheader (hkept.outboxes outboxId)⟩
  attemptBelow attemptId attempt hattempt := by
    obtain ⟨old, hold, -⟩ := hkept.origin hattempt
    rw [← hkept.nextAttempt]
    exact h.attemptBelow attemptId old hold
  outboxBelow outboxId outbox houtbox := by
    rw [hkept.outboxes outboxId] at houtbox
    rw [← hkept.nextOutbox]
    exact h.outboxBelow outboxId outbox houtbox

end AiStp.Upstream
