import AiStp.Library.Loops
import AiStp.Library.Runs
import AiStp.Upstream.Pass

/-!
# Reconciliation over whole runs

Every transaction keeps the tables consistent, so every reachable state is. In such a state a pass
of the reconciliation cannot fail, and it converges exactly when no schedulable source is stuck and
the attempts that a pass does not look at, those of other trigger keys, are delivered already.
-/

set_option autoImplicit false

namespace AiStp.Upstream

open Library Publication

/-! ### Events that keep the links -/

section Keep

variable {db : Database}

theorem kept_writeSource (db : Database) (sourceId : SourceId) (source : OfficialUpstreamSource) :
    Kept db (db.writeSource sourceId source) where
  attempts _ := rfl
  outboxes _ := rfl
  jobs := .refl db.jobs
  nextAttempt := rfl
  nextOutbox := rfl

theorem kept_upsertSource (db : Database) (sourceId : SourceId) (command : SourceUpsert) :
    Kept db (upsertSource db sourceId command) := by
  unfold upsertSource
  split
  · exact kept_writeSource db sourceId command.source
  · split_ifs
    · exact .refl db
    · exact kept_writeSource db sourceId command.source

theorem kept_projectEntry (db : Database) (sourceId : SourceId) (entry : SourceUpsert)
    (foreign : Bool) : Kept db (projectEntry db sourceId entry foreign) := by
  unfold projectEntry
  dsimp only
  split
  · exact kept_writeSource db sourceId _
  · exact kept_upsertSource db sourceId _

theorem kept_disableSource (db : Database) (sourceId : SourceId) :
    Kept db (disableSource db sourceId) := by
  unfold disableSource
  split
  · exact .refl db
  · exact kept_writeSource db sourceId _

theorem kept_deleteSource (db : Database) (sourceId : SourceId) :
    Kept db (deleteSource db sourceId) := by
  unfold deleteSource
  split
  · exact .refl db
  · exact kept_writeSource db sourceId _

/-- No outbox row of consistent tables is pending. -/
theorem Consistent.cancelPending (h : Consistent db) {outboxId : Nat} {outbox : OfficialSyncOutbox}
    (houtbox : db.outboxes.get? outboxId = some outbox) : outbox.cancelPending = outbox := by
  obtain ⟨attempt, jobId, -, heq⟩ := h.outbox_eq houtbox
  rw [heq]
  rfl

/-- Rewriting outbox rows, at most by cancelling pending ones, changes none of them. -/
theorem Consistent.outboxes_mapRows (h : Consistent db) (condition : Nat → OfficialSyncOutbox → Prop)
    [∀ id row, Decidable (condition id row)] (outboxId : Nat) :
    (db.outboxes.mapRows fun id row ↦
      if condition id row then row.cancelPending else row).get? outboxId =
        db.outboxes.get? outboxId := by
  rw [Table.get?_mapRows]
  cases houtbox : db.outboxes.get? outboxId with
  | none => rfl
  | some outbox =>
    rw [Option.map_some, h.cancelPending houtbox, ite_self]

variable (attempt : OfficialUpstreamSync)

@[simp] theorem header_cancelTransferred : attempt.cancelTransferred.header = attempt.header := rfl

theorem kept_cutAttempt (h : Consistent db) (attemptId : Nat) (attempt : OfficialUpstreamSync) :
    Kept db (cutAttempt db attemptId attempt) := by
  unfold cutAttempt
  split_ifs
  · exact .refl db
  · have hrewrite := kept_rewriteAttempt db attemptId header_cancelTransferred
    exact {
      attempts := hrewrite.attempts
      outboxes := h.outboxes_mapRows fun id _ ↦ attempt.outboxId = some id
      jobs := jobsKept_cancelJobs db.jobs attempt.names
      nextAttempt := rfl
      nextOutbox := rfl }

theorem consistent_cutSource (h : Consistent db) (sourceId : SourceId)
    (source : OfficialUpstreamSource) : Consistent (cutSource db sourceId source) := by
  have hsource := consistent_of_kept h (kept_writeSource db sourceId
    { source with enabled := false, inventoryState := .transferred, updatePolicy := .disabled })
  have hstep : ∀ db (entry : Nat × OfficialUpstreamSync), Consistent db →
      Consistent (cutAttempt db entry.1 entry.2) :=
    fun _ entry hdb ↦ consistent_of_kept hdb (kept_cutAttempt hdb entry.1 entry.2)
  have hcut := Runs.run_invariant hstep _ hsource
    (db.attempts.entries.filter fun entry ↦ entry.2.sourceId = sourceId)
  refine consistent_of_kept hcut ?_
  exact {
    attempts := fun _ ↦ rfl
    outboxes := hcut.outboxes_mapRows fun _ row ↦ row.sourceId = sourceId
    jobs := jobsKept_cancelJobs _ _
    nextAttempt := rfl
    nextOutbox := rfl }

theorem consistent_transferCatalogLine (h : Consistent db) (stableId : String) :
    Consistent (transferCatalogLine db stableId) := by
  have hcut : ∀ db (entry : SourceId × OfficialUpstreamSource), Consistent db →
      Consistent (cutSource db entry.1 entry.2) :=
    fun _ entry hdb ↦ consistent_cutSource hdb entry.1 entry.2
  exact Runs.run_invariant hcut db h _

theorem kept_recordQueueOutcome (db : Database) (job : Queue.Job) :
    Kept db (recordQueueOutcome db job) := by
  unfold recordQueueOutcome
  split
  · exact .refl db
  · next attemptId attempt _ =>
    by_cases hsettled : attempt.state ∈ settledAttempt
    · rw [if_pos hsettled]
      exact .refl db
    · rw [if_neg hsettled]
      split
      · split_ifs
        · exact .refl db
        · exact kept_rewriteAttempt db attemptId header_deadLetter
      · exact kept_rewriteAttempt db attemptId fun row ↦ header_awaitRetry row job
      · exact .refl db

theorem kept_jobs {jobs : Queue.Table} (h : JobsKept db.jobs jobs) :
    Kept db { db with jobs := jobs } where
  attempts _ := rfl
  outboxes _ := rfl
  jobs := h
  nextAttempt := rfl
  nextOutbox := rfl

theorem kept_failJob (db : Database) (workerId : String) (jobId : Nat) (failure : Queue.Failure)
    (now : Queue.Moment) : Kept db (failJob db workerId jobId failure now) := by
  unfold failJob
  cases hjob : db.jobs.row? jobId with
  | none => exact .refl db
  | some job =>
    have hjobs : JobsKept db.jobs (db.jobs.fail job failure now (some workerId)).1 :=
      jobsKept_settle hjob (some workerId) fun row ↦ label_fail row failure now
    dsimp only
    split
    · exact (kept_jobs hjobs).trans (kept_recordQueueOutcome _ _)
    · exact kept_jobs hjobs

theorem consistent_recordOutcomes (h : Consistent db) (listed : List Nat) :
    Consistent (recordOutcomes db listed) :=
  Runs.run_invariant (fun db job hdb ↦ consistent_of_kept hdb (kept_recordQueueOutcome db job))
    db h _

@[simp] theorem header_record (verdict : Verdict) :
    (attempt.record verdict).header = attempt.header := by
  cases verdict <;> rfl

/-- The check of a job works for the attempt that the job serves. -/
theorem kept_runSync (h : Consistent db) {job : Queue.Job} (hjob : job ∈ db.jobs.rows)
    (utcDay : String) (verdict : Verdict) : Kept db (runSync db job.payload utcDay verdict) := by
  obtain ⟨attemptId, attempt, outboxId, hfiled, hlabel⟩ := h.serving hjob
  have hpayload : payloadAttempt job.payload = some attemptId := congrArg (·.2.2.2) hlabel
  have hchecked : ∀ sourceId, db.checked sourceId (payloadAttempt job.payload) utcDay =
      some (attemptId, attempt) := by
    intro sourceId
    unfold Database.checked
    rw [hpayload, Option.bind_some, hfiled.held]
    rfl
  unfold runSync
  split
  · exact .refl db
  · split_ifs
    · exact .refl db
    · dsimp only
      rw [hchecked]
      exact kept_rewriteAttempt db attemptId fun row ↦ header_record row _

@[simp] theorem header_follow (refusal : String) (state : PlanState) :
    (attempt.follow refusal state).header = attempt.header := by
  cases state <;> rfl

theorem kept_movePlan (db : Database) (planId : String) (state : PlanState) (refusal : String) :
    Kept db (movePlan db planId state refusal) where
  attempts attemptId := by
    show ((db.attempts.mapRows _).get? attemptId).map _ = _
    rw [Table.get?_mapRows, Option.map_map]
    congr 1
    ext row : 1
    show (if row.planId = some planId then row.follow refusal state else row).header = row.header
    split_ifs
    · exact header_follow row refusal state
    · rfl
  outboxes _ := rfl
  jobs := .refl db.jobs
  nextAttempt := rfl
  nextOutbox := rfl

end Keep

/-! ### Events that dispatch -/

section Enqueue

variable {db after : Database} {sourceId : SourceId}

variable {moment : Instant}

/-- A source that is enqueued is schedulable. -/
theorem schedules_of_enqueueSource {triggerKey provenance : String}
    (h : enqueueSource db sourceId triggerKey provenance moment = .ok after) :
    db.schedules sourceId := by
  unfold enqueueSource at h
  obtain ⟨created, hcreate, -⟩ := bind_eq_ok.mp h
  unfold createAttemptAndOutbox at hcreate
  split at hcreate
  · cases hcreate
  · next source hsource =>
    split_ifs at hcreate with hrefused
    exact ⟨source, hsource, by simpa using hrefused⟩

theorem consistent_enqueueSource (hconsistent : Consistent db) {triggerKey provenance : String}
    (h : enqueueSource db sourceId triggerKey provenance moment = .ok after) :
    Consistent after := by
  have hschedules := schedules_of_enqueueSource h
  obtain ⟨middle, attemptId, attempt, outboxId, outbox, hcreate, hprepared, hsource, -⟩ :=
    createAttemptAndOutbox_spec hconsistent hschedules triggerKey moment.utcDay provenance
  rw [← hsource] at hschedules
  obtain ⟨last, job, hdispatch, hlaunch⟩ := hprepared.dispatch hconsistent hschedules moment.clock
  unfold enqueueSource at h
  simp only [hcreate, hdispatch, bind, Except.bind, pure, Except.pure, Except.ok.injEq] at h
  rw [← h]
  exact hlaunch.consistent hconsistent

theorem consistent_enqueueSources {triggerKey provenance : String} {sourceIds : List SourceId}
    (hconsistent : Consistent db)
    (h : enqueueSources triggerKey provenance moment sourceIds db = .ok after) :
    Consistent after := by
  induction sourceIds generalizing db with
  | nil =>
    rw [← Except.ok.inj h]
    exact hconsistent
  | cons sourceId rest ih =>
    obtain ⟨middle, hfirst, hrest⟩ := bind_eq_ok.mp h
    exact ih (consistent_enqueueSource hconsistent hfirst) hrest

theorem consistent_enqueueDaily {sourceId : Option SourceId} {force : Bool}
    (hconsistent : Consistent db) (h : enqueueDaily db moment sourceId force = .ok after) :
    Consistent after := by
  unfold enqueueDaily at h
  dsimp only at h
  split at h
  · exact consistent_enqueueSources hconsistent h
  · exact consistent_enqueueSource hconsistent h

/-- The schedulable sources, each once. -/
theorem mem_schedulable : sourceId ∈ db.schedulable ↔ db.schedules sourceId := by
  unfold Database.schedulable Database.schedules
  rw [List.mem_map]
  constructor
  · rintro ⟨⟨id, source⟩, hentry, rfl⟩
    obtain ⟨hmem, hschedulable⟩ := List.mem_filter.mp hentry
    exact ⟨source, Table.mem_entries.mp hmem, hschedulable⟩
  · rintro ⟨source, hsource, hschedulable⟩
    exact ⟨(sourceId, source), List.mem_filter.mpr ⟨Table.mem_entries.mpr hsource, hschedulable⟩,
      rfl⟩

theorem nodup_schedulable (db : Database) : db.schedulable.Nodup :=
  db.sources.unique.sublist (List.filter_sublist.map Prod.fst)

/-- A pass over consistent tables. -/
theorem reconcileDelivery_spec (hconsistent : Consistent db) (moment : Instant) :
    ∃ after repairs, reconcileDelivery db moment = .ok (after, repairs) ∧
      Consistent after ∧ Touches (keysOf db.schedulable moment.utcDay) db after ∧
      (∀ sourceId, db.schedules sourceId → ¬ Stuck db sourceId moment.utcDay →
        Calm after sourceId moment.utcDay) ∧
      ∀ sourceId, db.schedules sourceId → Stuck db sourceId moment.utcDay →
        Stuck after sourceId moment.utcDay ∧ repairs ≠ [] := by
  obtain ⟨after, repairs, hpass, hafter, htouches, hcalm, hstuck⟩ :=
    reconcileSources_spec hconsistent moment (fun _ ↦ mem_schedulable.mp) (nodup_schedulable db)
  refine ⟨after, repairs, hpass, hafter, htouches, ?_, ?_⟩
  · intro sourceId hschedules
    exact hcalm sourceId (mem_schedulable.mpr hschedules)
  · intro sourceId hschedules
    exact hstuck sourceId (mem_schedulable.mpr hschedules)

end Enqueue

/-! ### Runs -/

/-- Every transaction keeps the tables consistent. -/
theorem consistent_step (db : Database) (event : Event) (h : Consistent db) :
    Consistent (step db event) := by
  cases event with
  | upsertSource sourceId command =>
    exact consistent_of_kept h (kept_upsertSource db sourceId command)
  | projectEntry sourceId entry foreign =>
    exact consistent_of_kept h (kept_projectEntry db sourceId entry foreign)
  | disableSource sourceId => exact consistent_of_kept h (kept_disableSource db sourceId)
  | deleteSource sourceId => exact consistent_of_kept h (kept_deleteSource db sourceId)
  | transferCatalogLine stableId => exact consistent_transferCatalogLine h stableId
  | enqueueDaily moment sourceId force =>
    show Consistent ((enqueueDaily db moment sourceId force).toOption.getD db)
    cases henqueue : enqueueDaily db moment sourceId force with
    | error fault => exact h
    | ok after => exact consistent_enqueueDaily h henqueue
  | reconcileDelivery moment =>
    obtain ⟨after, repairs, hpass, hafter, -⟩ := reconcileDelivery_spec h moment
    show Consistent (((reconcileDelivery db moment).toOption.map Prod.fst).getD db)
    rw [hpass]
    exact hafter
  | job event => exact consistent_of_kept h (kept_jobs (jobsKept_apply db.jobs event))
  | failJob workerId jobId failure now =>
    exact consistent_of_kept h (kept_failJob db workerId jobId failure now)
  | recordOutcomes listed => exact consistent_recordOutcomes h listed
  | runSync jobId utcDay verdict =>
    unfold step
    dsimp only
    cases hjob : db.jobs.row? jobId with
    | none => exact h
    | some job =>
      exact consistent_of_kept h (kept_runSync h (Queue.Table.row?_eq_some.mp hjob).1 utcDay verdict)
  | movePlan planId state refusal =>
    exact consistent_of_kept h (kept_movePlan db planId state refusal)

theorem consistent_run (events : List Event) : Consistent (Runs.run step .empty events) :=
  Runs.run_invariant consistent_step .empty consistent_empty events

/-! ### Convergence -/

/-- An attempt that has not ended. -/
def OfficialUpstreamSync.due (attempt : OfficialUpstreamSync) : Prop :=
  attempt.state ∉ terminalAttempts

instance (attempt : OfficialUpstreamSync) : Decidable attempt.due :=
  inferInstanceAs (Decidable (_ ∉ _))

/-- The outbox row of an attempt is dispatched to a job that exists and was not cancelled. -/
def Delivered (db : Database) (attempt : OfficialUpstreamSync) : Prop :=
  ∃ outboxId outbox jobId job, attempt.outboxId = some outboxId ∧
    db.outboxes.get? outboxId = some outbox ∧ outbox.state = .dispatched ∧
    outbox.jobId = some jobId ∧ db.jobs.row? jobId = some job ∧ job.state ≠ .cancelled

/-- After one pass a second one, on the same day, finds nothing to repair, and every due attempt of
a schedulable source is delivered. -/
def Converges (db : Database) (moment : Instant) (clock : Queue.Moment) : Prop :=
  ∃ after repairs, reconcileDelivery db moment = .ok (after, repairs) ∧
    (∃ last, reconcileDelivery after { moment with clock := clock } = .ok (last, [])) ∧
    ∀ attemptId attempt, after.attempts.get? attemptId = some attempt →
      after.schedules attempt.sourceId → attempt.due → Delivered after attempt

/-- No schedulable source is stuck on the day, and due attempts of other trigger keys are
delivered. -/
def Repairable (db : Database) (utcDay : String) : Prop :=
  (∀ sourceId, db.schedules sourceId → ¬ Stuck db sourceId utcDay) ∧
    ∀ attemptId attempt, db.attempts.get? attemptId = some attempt →
      db.schedules attempt.sourceId → attempt.triggerKey ≠ utcDay → attempt.due →
        Delivered db attempt

section Converge

variable {db after : Database} {attemptId : Nat} {attempt : OfficialUpstreamSync}

/-- An attempt of consistent tables is delivered when its job is there and not cancelled. -/
theorem delivered_iff {outboxId jobId : Nat} (hfiled : Filed db attemptId attempt outboxId jobId) :
    Delivered db attempt ↔ ∃ job ∈ db.jobs.rows, job.id = jobId ∧ job.state ≠ .cancelled := by
  constructor
  · rintro ⟨outboxId', outbox, jobId', job, hpoints, houtbox, -, hjobId, hjob, hstate⟩
    have hsame : outboxId' = outboxId := Option.some.inj (hpoints.symm.trans hfiled.points)
    rw [hsame, hfiled.outbox] at houtbox
    rw [← Option.some.inj houtbox] at hjobId
    obtain ⟨hmem, hid⟩ := Queue.Table.row?_eq_some.mp hjob
    exact ⟨job, hmem, hid.trans (Option.some.inj hjobId).symm, hstate⟩
  · rintro ⟨job, hmem, hid, hstate⟩
    exact ⟨outboxId, _, jobId, job, hfiled.points, hfiled.outbox, rfl, rfl,
      Queue.Table.row?_eq_some.mpr ⟨hmem, hid⟩, hstate⟩

/-- A pass does not change whether an attempt of an untouched key is delivered. -/
theorem Touches.delivered {keys : String → Prop} (h : Touches keys db after)
    (hconsistent : Consistent db) {outboxId jobId : Nat}
    (hfiled : Filed db attemptId attempt outboxId jobId) (hkey : ¬ keys attempt.key) :
    Delivered after attempt ↔ Delivered db attempt := by
  obtain ⟨outboxId', jobId', hfiled', hbelow, -⟩ := hconsistent.filed attemptId attempt hfiled.held
  rw [← (hfiled.unique hfiled').2.2] at hbelow
  rw [delivered_iff hfiled, delivered_iff ((h.filed attemptId attempt outboxId jobId hkey).mpr hfiled)]
  constructor
  · rintro ⟨job, hjob, hid, hstate⟩
    exact ⟨job, (h.jobs job (hid ▸ hbelow)).mp hjob, hid, hstate⟩
  · rintro ⟨job, hjob, hid, hstate⟩
    exact ⟨job, (h.jobs job (hid ▸ hbelow)).mpr hjob, hid, hstate⟩

/-- The attempt of a calm source is delivered. -/
theorem Calm.delivered {sourceId : SourceId} {utcDay : String} (h : Calm db sourceId utcDay)
    (hconsistent : Consistent db) (hattempt : db.attempts.get? attemptId = some attempt)
    (hsource : attempt.sourceId = sourceId) (htrigger : attempt.triggerKey = utcDay) :
    Delivered db attempt := by
  obtain ⟨other, row, outboxId, job, hhanded, hquiet⟩ := h
  obtain ⟨rfl, rfl⟩ := hconsistent.eq_of_key hhanded.filed.held hattempt
    (by rw [hhanded.key]; simp [OfficialUpstreamSync.key, hsource, htrigger])
  rw [delivered_iff hhanded.filed]
  refine ⟨job, hhanded.job, rfl, ?_⟩
  intro hcancelled
  simp [Quiet, hcancelled] at hquiet

end Converge

/-- A pass over reachable tables converges exactly when the tables before it are repairable. -/
theorem reconcileDelivery_converges (events : List Event) (moment : Instant)
    (clock : Queue.Moment) :
    Converges (Runs.run step .empty events) moment clock ↔
      Repairable (Runs.run step .empty events) moment.utcDay := by
  have hconsistent := consistent_run events
  generalize Runs.run step Database.empty events = db at hconsistent ⊢
  obtain ⟨after, repairs, hpass, hafter, htouches, hcalm, hstuck⟩ :=
    reconcileDelivery_spec hconsistent moment
  have hschedules : ∀ sourceId, after.schedules sourceId ↔ db.schedules sourceId := by
    intro sourceId
    unfold Database.schedules
    rw [htouches.sources]
  have hkey : ∀ attempt : OfficialUpstreamSync, attempt.triggerKey ≠ moment.utcDay →
      ¬ keysOf db.schedulable moment.utcDay attempt.key := by
    rintro attempt htrigger ⟨sourceId, -, hsame⟩
    exact htrigger (idempotencyKey_inj hsame).2
  constructor
  · rintro ⟨after', repairs', hpass', ⟨last, hsecond⟩, hdelivered⟩
    rw [hpass] at hpass'
    obtain ⟨rfl, rfl⟩ := Prod.mk.inj (Except.ok.inj hpass')
    constructor
    · intro sourceId hsourceId hjammed
      obtain ⟨_, found, hagain, -, -, -, hreported⟩ :=
        reconcileDelivery_spec hafter { moment with clock := clock }
      rw [hsecond] at hagain
      have hempty : found = [] := (Prod.mk.inj (Except.ok.inj hagain)).2.symm
      exact (hreported sourceId ((hschedules sourceId).mpr hsourceId)
        (hstuck sourceId hsourceId hjammed).1).2 hempty
    · intro attemptId attempt hattempt hsourceId htrigger hdue
      obtain ⟨outboxId, jobId, hfiled, -, -⟩ := hconsistent.filed attemptId attempt hattempt
      have hlater := (htouches.filed attemptId attempt outboxId jobId (hkey attempt htrigger)).mpr
        hfiled
      exact (htouches.delivered hconsistent hfiled (hkey attempt htrigger)).mp
        (hdelivered attemptId attempt hlater.held ((hschedules _).mpr hsourceId) hdue)
  · rintro ⟨hfree, hothers⟩
    refine ⟨after, repairs, hpass, ⟨after, ?_⟩, ?_⟩
    · refine reconcileSources_calm hafter fun sourceId hsourceId ↦ ?_
      have hsource := (hschedules sourceId).mp (mem_schedulable.mp hsourceId)
      exact hcalm sourceId hsource (hfree sourceId hsource)
    · intro attemptId attempt hattempt hsourceId hdue
      have hsource := (hschedules attempt.sourceId).mp hsourceId
      by_cases htrigger : attempt.triggerKey = moment.utcDay
      · exact (hcalm attempt.sourceId hsource (hfree attempt.sourceId hsource)).delivered hafter
          hattempt rfl htrigger
      · obtain ⟨outboxId, jobId, hfiled, -, -⟩ := hafter.filed attemptId attempt hattempt
        have hearlier := (htouches.filed attemptId attempt outboxId jobId
          (hkey attempt htrigger)).mp hfiled
        exact (htouches.delivered hconsistent hearlier (hkey attempt htrigger)).mpr
          (hothers attemptId attempt hearlier.held hsource htrigger hdue)

/-- What the second of two passes on one day repairs. -/
def secondRepairs (db : Database) (moment : Instant) : Option (List String) :=
  (reconcileDelivery db moment).toOption.bind fun first ↦
    (reconcileDelivery first.1 moment).toOption.map Prod.snd

/-- A worker claims the job of the day and loses its lease. -/
def lapse (round : Nat) : List Event :=
  [.job (.claim "worker" 1 (round * 1000000000) [] id),
    .job (.requeueStale 900 500 ((round + 1) * 1000000000) [] id)]

def firstDay : Instant := ⟨"2026-01-01", "20260101T000000000000", 0⟩

def skills : SourceId := ⟨"skills", by decide⟩

/-- The fifth worker commits that the upstream is unchanged, and loses its lease before it reports
success: the job is a dead letter and its attempt is settled. -/
def lostSuccess : List Event :=
  [.upsertSource skills ⟨"component-1", true, .daily⟩, .enqueueDaily firstDay none false] ++
    lapse 1 ++ lapse 2 ++ lapse 3 ++ lapse 4 ++
    [.job (.claim "worker" 1 5000000000 [] id), .runSync 1 "2026-01-01" .unchanged,
      .job (.requeueStale 900 500 6000000000 [] id)]

theorem secondRepairs_lostSuccess :
    secondRepairs (Runs.run step .empty lostSuccess) firstDay = some ["unrecorded_dlq:skills"] := by
  decide +kernel

theorem reconcileDelivery_repairs_again :
    ¬ ∀ (events : List Event) (moment : Instant) (clock : Queue.Moment),
      Converges (Runs.run step .empty events) moment clock := by
  intro h
  obtain ⟨after, repairs, hpass, ⟨last, hsecond⟩, -⟩ := h lostSuccess firstDay 0
  have hrepairs := secondRepairs_lostSuccess
  unfold secondRepairs at hrepairs
  rw [hpass] at hrepairs
  have hagain : (reconcileDelivery after firstDay).toOption.map Prod.snd =
    some ["unrecorded_dlq:skills"] := hrepairs
  have hsame : ({ firstDay with clock := 0 } : Instant) = firstDay := rfl
  rw [← hsame, hsecond] at hagain
  simp [Except.toOption] at hagain

/-- In every run a job serves an attempt whose outbox row names it, and no other job is queued for
the source and the trigger of that attempt. -/
theorem jobs_serve_once (events : List Event) : let db := Runs.run step .empty events
    ∀ job ∈ db.jobs.rows, ∃ attemptId attempt outboxId, Filed db attemptId attempt outboxId job.id ∧
      label job = servingLabel attemptId attempt ∧ ∀ other ∈ db.jobs.rows,
        other.idempotencyKey = idempotencyKey attempt.sourceId attempt.triggerKey →
          other.id = job.id := by
  intro db job hjob
  have h : Consistent db := consistent_run events
  obtain ⟨attemptId, attempt, outboxId, hfiled, hlabel⟩ := h.serving hjob
  exact ⟨attemptId, attempt, outboxId, hfiled, hlabel, fun other hother hkey ↦
    h.id_of_key hother hfiled hkey⟩

end AiStp.Upstream
