import AiStp.Upstream.Dispatch

/-!
# One pass of the reconciliation

A source is `Calm` on a day when a pass has nothing to repair for it, and `Stuck` when a pass
repairs it and leaves it as it found it: its job was cancelled, so the queue gives the same job
again, or its job is a dead letter that the settled attempt never shows.

A pass over one source touches the rows of one key only (`Touches`). A source that is not stuck is
calm after it (`reconcileSource_spec`), so a pass over all of them leaves each one calm or stuck.
-/

set_option autoImplicit false

namespace AiStp.Upstream

open Library Publication

/-! ### Calm and stuck sources -/

/-- The attempt of a source under a trigger key, its outbox row and a job that exists. -/
structure Handed (db : Database) (sourceId : SourceId) (triggerKey : String) (attemptId : Nat)
    (attempt : OfficialUpstreamSync) (outboxId : Nat) (job : Queue.Job) : Prop where
  filed : Filed db attemptId attempt outboxId job.id
  sourceId : attempt.sourceId = sourceId
  triggerKey : attempt.triggerKey = triggerKey
  job : job ∈ db.jobs.rows

/-- The states that no pass of the reconciliation moves on. -/
def Jammed (attempt : OfficialUpstreamSync) (job : Queue.Job) : Prop :=
  job.state = .cancelled ∨ job.state = .deadLetter ∧
    (attempt.state = .unchanged ∨ attempt.state = .published ∨ attempt.state = .failedPermanent)

instance (attempt : OfficialUpstreamSync) (job : Queue.Job) : Decidable (Jammed attempt job) :=
  inferInstanceAs (Decidable (_ ∨ _))

/-- The attempt of a source for a day is jammed. -/
def Stuck (db : Database) (sourceId : SourceId) (utcDay : String) : Prop :=
  ∃ attemptId attempt outboxId job, Handed db sourceId utcDay attemptId attempt outboxId job ∧
    Jammed attempt job

/-- An attempt that waits for a publication which has not ended. -/
def Database.awaits (db : Database) (attempt : OfficialUpstreamSync) : Prop :=
  attempt.state = .queued ∨ attempt.state = .resolving ∨ attempt.state = .publishing →
    ∀ state, attempt.planId.bind db.plans.get? = some state → state.terminal = false

/-- The states that a pass has nothing to repair in. -/
def Quiet (db : Database) (attempt : OfficialUpstreamSync) (job : Queue.Job) : Prop :=
  match job.state with
  | .cancelled => False
  | .deadLetter => attempt.state = .deadLettered ∨ attempt.state = .cancelledTransferred
  | .succeeded => db.awaits attempt
  | _ => True

def Calm (db : Database) (sourceId : SourceId) (utcDay : String) : Prop :=
  ∃ attemptId attempt outboxId job, Handed db sourceId utcDay attemptId attempt outboxId job ∧
    Quiet db attempt job

/-- Quiet states are not jammed. -/
theorem Quiet.not_jammed {db : Database} {attempt : OfficialUpstreamSync} {job : Queue.Job}
    (h : Quiet db attempt job) : ¬ Jammed attempt job := by
  rintro (hcancelled | ⟨hdead, hstate⟩)
  · simp [Quiet, hcancelled] at h
  · rw [Quiet, hdead] at h
    rcases h with hstate' | hstate'
    · simp [hstate'] at hstate
    · simp [hstate'] at hstate

variable {moment : Instant}

section Rows

variable {db : Database} {sourceId : SourceId} {utcDay : String} {attemptId outboxId : Nat}
  {attempt : OfficialUpstreamSync} {job : Queue.Job}

section

variable (h : Handed db sourceId utcDay attemptId attempt outboxId job)
include h

theorem Handed.key : attempt.key = idempotencyKey sourceId utcDay := by
  simp [OfficialUpstreamSync.key, h.sourceId, h.triggerKey]

theorem Handed.row : db.jobs.row? job.id = some job :=
  Queue.Table.row?_eq_some.mpr ⟨h.job, rfl⟩

theorem Handed.serves (hconsistent : Consistent db) :
    label job = servingLabel attemptId attempt := by
  obtain ⟨outboxId', jobId', hfiled', -, hserves⟩ :=
    hconsistent.filed attemptId attempt h.filed.held
  exact hserves job h.job (h.filed.unique hfiled').2.2

end

/-- A source has one attempt for a day, with one job. -/
theorem Handed.unique {attemptId' outboxId' : Nat} {attempt' : OfficialUpstreamSync}
    {job' : Queue.Job} (hconsistent : Consistent db)
    (h : Handed db sourceId utcDay attemptId attempt outboxId job)
    (h' : Handed db sourceId utcDay attemptId' attempt' outboxId' job') :
    attempt = attempt' ∧ job = job' := by
  obtain ⟨rfl, -⟩ := hconsistent.eq_of_key h.filed.held h'.filed.held (h.key.trans h'.key.symm)
  obtain ⟨hattempt, -, hid⟩ := h.filed.unique h'.filed
  exact ⟨hattempt, Queue.Table.eq_of_id h.job h'.job hid⟩

/-- What a pass does for a source whose attempt has a job. -/
theorem reconcileSource_handed (h : Handed db sourceId utcDay attemptId attempt outboxId job)
    (hconsistent : Consistent db) (hday : moment.utcDay = utcDay)
    (hstate : job.state ≠ .cancelled) :
    reconcileSource db sourceId moment = .ok (reconcileJob db sourceId attemptId attempt job) := by
  have hattempt : db.attempt? sourceId moment.utcDay = some (attemptId, attempt) := by
    rw [hday]
    exact hconsistent.attempt?_eq_some.mpr ⟨h.filed.held, h.sourceId, h.triggerKey⟩
  unfold reconcileSource
  rw [hattempt]
  dsimp only
  rw [h.filed.outboxOf]
  dsimp only
  unfold reconcileOutbox
  rw [if_neg (by nofun)]
  dsimp only
  rw [h.row, Option.filter_some, if_pos (by simpa using hstate)]

/-- A pass leaves a calm source alone. -/
theorem reconcileSource_calm (hconsistent : Consistent db)
    (hcalm : Calm db sourceId moment.utcDay) :
    reconcileSource db sourceId moment = .ok (db, []) := by
  obtain ⟨attemptId, attempt, outboxId, job, hhanded, hquiet⟩ := hcalm
  have hstate : job.state ≠ .cancelled := by
    intro hcancelled
    simp [Quiet, hcancelled] at hquiet
  rw [reconcileSource_handed hhanded hconsistent rfl hstate]
  unfold reconcileJob
  unfold Quiet at hquiet
  cases hjob : job.state with
  | deadLetter =>
    rw [hjob] at hquiet
    dsimp only
    rw [if_pos hquiet]
  | succeeded =>
    rw [hjob] at hquiet
    dsimp only
    unfold reconcilePublication
    split_ifs with hwaiting
    · have hopen := hquiet hwaiting
      cases hplan : attempt.planId.bind db.plans.get? with
      | none => rfl
      | some state =>
        have hterminal := hopen state hplan
        cases state <;> simp_all [PlanState.terminal]
    · rfl
  | queued => rfl
  | running => rfl
  | retryScheduled => rfl
  | cancelled => exact absurd hjob hstate

end Rows

/-! ### What a pass touches -/

/-- Rows of other keys, and the jobs that exist, are as before. -/
structure Touches (keys : String → Prop) (before after : Database) : Prop where
  sources : after.sources = before.sources
  plans : after.plans = before.plans
  filed : ∀ attemptId attempt outboxId jobId, ¬ keys attempt.key →
    (Filed after attemptId attempt outboxId jobId ↔ Filed before attemptId attempt outboxId jobId)
  jobs : ∀ job : Queue.Job, job.id < before.jobs.nextId →
    (job ∈ after.jobs.rows ↔ job ∈ before.jobs.rows)
  nextId : before.jobs.nextId ≤ after.jobs.nextId

namespace Touches

variable {keys : String → Prop} {before after : Database}

theorem refl (keys : String → Prop) (db : Database) : Touches keys db db where
  sources := rfl
  plans := rfl
  filed _ _ _ _ _ := Iff.rfl
  jobs _ _ := Iff.rfl
  nextId := le_rfl

theorem trans {middle : Database} {keys' : String → Prop} (hfirst : Touches keys before middle)
    (hsecond : Touches keys' middle after) :
    Touches (fun key ↦ keys key ∨ keys' key) before after where
  sources := hsecond.sources.trans hfirst.sources
  plans := hsecond.plans.trans hfirst.plans
  filed attemptId attempt outboxId jobId hkey := by
    rw [not_or] at hkey
    exact (hsecond.filed attemptId attempt outboxId jobId hkey.2).trans
      (hfirst.filed attemptId attempt outboxId jobId hkey.1)
  jobs job hjob :=
    (hsecond.jobs job (hjob.trans_le hfirst.nextId)).trans (hfirst.jobs job hjob)
  nextId := hfirst.nextId.trans hsecond.nextId

theorem mono {keys' : String → Prop} (h : Touches keys before after)
    (hkeys : ∀ key, keys key → keys' key) : Touches keys' before after where
  sources := h.sources
  plans := h.plans
  filed attemptId attempt outboxId jobId hkey :=
    h.filed attemptId attempt outboxId jobId fun hold ↦ hkey (hkeys _ hold)
  jobs := h.jobs
  nextId := h.nextId

variable {sourceId : SourceId} {utcDay : String} {attemptId outboxId : Nat}
  {attempt : OfficialUpstreamSync} {job : Queue.Job}

section

variable (h : Touches keys before after)
include h

/-- A source whose key is not touched has the attempt and the job it had. -/
theorem handed (hbefore : Consistent before) (hkey : ¬ keys (idempotencyKey sourceId utcDay)) :
    Handed after sourceId utcDay attemptId attempt outboxId job ↔
      Handed before sourceId utcDay attemptId attempt outboxId job := by
  constructor
  · intro hhanded
    have hfiled : Filed before attemptId attempt outboxId job.id :=
      (h.filed attemptId attempt outboxId job.id (by rw [hhanded.key]; exact hkey)).mp
        hhanded.filed
    obtain ⟨outboxId', jobId', hfiled', hbelow, -⟩ :=
      hbefore.filed attemptId attempt hfiled.held
    rw [← (hfiled.unique hfiled').2.2] at hbelow
    exact ⟨hfiled, hhanded.sourceId, hhanded.triggerKey, (h.jobs job hbelow).mp hhanded.job⟩
  · intro hhanded
    have hfiled : Filed after attemptId attempt outboxId job.id :=
      (h.filed attemptId attempt outboxId job.id (by rw [hhanded.key]; exact hkey)).mpr
        hhanded.filed
    exact ⟨hfiled, hhanded.sourceId, hhanded.triggerKey,
      (h.jobs job (before.jobs.below job hhanded.job)).mpr hhanded.job⟩

theorem stuck (hbefore : Consistent before) (hkey : ¬ keys (idempotencyKey sourceId utcDay)) :
    Stuck after sourceId utcDay ↔ Stuck before sourceId utcDay := by
  unfold Stuck
  simp only [h.handed hbefore hkey]

theorem calm (hbefore : Consistent before) (hkey : ¬ keys (idempotencyKey sourceId utcDay)) :
    Calm after sourceId utcDay ↔ Calm before sourceId utcDay := by
  unfold Calm Quiet Database.awaits
  simp only [h.handed hbefore hkey, h.plans]

end

end Touches

theorem Launch.touches {before after : Database} {attemptId outboxId : Nat}
    {attempt : OfficialUpstreamSync} {job : Queue.Job}
    (h : Launch before after attemptId attempt outboxId job) (hconsistent : Consistent before) :
    Touches (· = attempt.key) before after where
  sources := h.sources
  plans := h.plans
  filed other row otherOutbox jobId hkey := by
    by_cases hother : other = attemptId
    · subst hother
      constructor
      · intro hfiled
        exact absurd (congrArg OfficialUpstreamSync.key (hfiled.unique h.filed).1) hkey
      · intro hfiled
        cases h.place with
        | filed old _ hold hheader _ _ =>
          exact absurd ((congrArg OfficialUpstreamSync.key (hfiled.unique hold).1).trans
            (key_of_header hheader).2.1.symm) hkey
        | fresh hattemptId _ _ _ _ =>
          have hbelow := hconsistent.attemptBelow _ _ hfiled.held
          omega
    · exact h.filed_other hconsistent hother
  jobs row hrow := by
    rw [h.row_cases]
    constructor
    · rintro (hold | rfl)
      · exact hold
      · cases h.supplied with
        | found _ hheld => exact hheld
        | inserted _ hid _ _ _ => omega
    · exact .inl
  nextId := h.nextId_le

/-! ### Rewriting an attempt -/

section Rewrite

variable {db : Database} {attemptId outboxId jobId : Nat} {attempt : OfficialUpstreamSync}
  {write : OfficialUpstreamSync → OfficialUpstreamSync}

theorem get?_rewriteAttempt (db : Database) (attemptId id : Nat)
    (write : OfficialUpstreamSync → OfficialUpstreamSync) :
    (db.rewriteAttempt attemptId write).attempts.get? id =
      (db.attempts.get? id).map fun row ↦ if id = attemptId then write row else row :=
  Table.get?_mapRows

/-- A write that keeps headers keeps the links. -/
theorem kept_rewriteAttempt (db : Database) (attemptId : Nat)
    (hwrite : ∀ row, (write row).header = row.header) :
    Kept db (db.rewriteAttempt attemptId write) where
  attempts id := by
    rw [get?_rewriteAttempt, Option.map_map]
    congr 1
    ext row : 1
    show (if id = attemptId then write row else row).header = row.header
    split_ifs
    · exact hwrite row
    · rfl
  outboxes _ := rfl
  jobs := .refl db.jobs
  nextAttempt := rfl
  nextOutbox := rfl

theorem filed_rewriteAttempt (hwrite : ∀ row, (write row).header = row.header)
    (h : Filed db attemptId attempt outboxId jobId) :
    Filed (db.rewriteAttempt attemptId write) attemptId (write attempt) outboxId jobId := by
  refine filed_of_header h ?_ (hwrite attempt) rfl
  rw [get?_rewriteAttempt, h.held, Option.map_some, if_pos rfl]

theorem touches_rewriteAttempt (hwrite : ∀ row, (write row).header = row.header)
    (h : Filed db attemptId attempt outboxId jobId) :
    Touches (· = attempt.key) db (db.rewriteAttempt attemptId write) where
  sources := rfl
  plans := rfl
  filed other row otherOutbox otherJob hkey := by
    by_cases hother : other = attemptId
    · subst hother
      constructor
      · intro hfiled
        have hrow : row = write attempt :=
          (hfiled.unique (filed_rewriteAttempt hwrite h)).1
        rw [hrow, (key_of_header (hwrite attempt)).2.1] at hkey
        exact absurd rfl hkey
      · intro hfiled
        exact absurd (congrArg OfficialUpstreamSync.key (hfiled.unique h).1) hkey
    · have hget : (db.rewriteAttempt attemptId write).attempts.get? other =
          db.attempts.get? other := by
        rw [get?_rewriteAttempt]
        simp [hother]
      exact ⟨fun hfiled ↦ ⟨hget ▸ hfiled.held, hfiled.points, hfiled.outbox⟩,
        fun hfiled ↦ ⟨hget.trans hfiled.held, hfiled.points, hfiled.outbox⟩⟩
  jobs _ _ := Iff.rfl
  nextId := le_rfl

@[simp] theorem header_deadLetter (attempt : OfficialUpstreamSync) :
    attempt.deadLetter.header = attempt.header := rfl

@[simp] theorem header_awaitRetry (attempt : OfficialUpstreamSync) (job : Queue.Job) :
    (attempt.awaitRetry job).header = attempt.header := rfl

@[simp] theorem header_mark (attempt : OfficialUpstreamSync) (state : SyncState)
    (errorCode errorClass : Option String) :
    (attempt.mark state errorCode errorClass).header = attempt.header := rfl

end Rewrite

/-! ### One source -/

/-- What a pass over one source makes of it. -/
structure Passed (before after : Database) (sourceId : SourceId) (utcDay : String)
    (repairs : List String) : Prop where
  consistent : Consistent after
  touches : Touches (· = idempotencyKey sourceId utcDay) before after
  calm : ¬ Stuck before sourceId utcDay → Calm after sourceId utcDay
  stuck : Stuck before sourceId utcDay → Stuck after sourceId utcDay ∧ repairs ≠ []

section Source

variable {db : Database} {sourceId : SourceId} {utcDay : String} {attemptId outboxId jobId : Nat}
  {attempt : OfficialUpstreamSync} {job : Queue.Job}

section

variable (hconsistent : Consistent db)
include hconsistent

variable (h : Handed db sourceId utcDay attemptId attempt outboxId job)

include h in
theorem Passed.of_quiet (hquiet : Quiet db attempt job) :
    Passed db db sourceId utcDay [] where
  consistent := hconsistent
  touches := .refl _ db
  calm _ := ⟨attemptId, attempt, outboxId, job, h, hquiet⟩
  stuck hstuck := by
    obtain ⟨_, _, _, _, hhanded, hjammed⟩ := hstuck
    obtain ⟨rfl, rfl⟩ := hhanded.unique hconsistent h
    exact absurd hjammed hquiet.not_jammed

include h in
/-- Rewriting an attempt to a quiet state passes its source. -/
theorem Passed.of_rewrite {write : OfficialUpstreamSync → OfficialUpstreamSync}
    (hwrite : ∀ row, (write row).header = row.header) (hquiet : Quiet db (write attempt) job)
    (hfree : ¬ Jammed attempt job) (repairs : List String) :
    Passed db (db.rewriteAttempt attemptId write) sourceId utcDay repairs where
  consistent := consistent_of_kept hconsistent (kept_rewriteAttempt db attemptId hwrite)
  touches := by
    rw [← h.key]
    exact touches_rewriteAttempt hwrite h.filed
  calm _ := by
    have hheader : (write attempt).sourceId = attempt.sourceId ∧
        (write attempt).triggerKey = attempt.triggerKey := by
      have hsame := hwrite attempt
      simp only [OfficialUpstreamSync.header, Prod.mk.injEq] at hsame
      exact ⟨hsame.1, hsame.2.1⟩
    exact ⟨attemptId, write attempt, outboxId, job,
      ⟨filed_rewriteAttempt hwrite h.filed, hheader.1.trans h.sourceId,
        hheader.2.trans h.triggerKey, h.job⟩, hquiet⟩
  stuck hstuck := by
    obtain ⟨_, _, _, _, hhanded, hjammed⟩ := hstuck
    obtain ⟨rfl, rfl⟩ := hhanded.unique hconsistent h
    exact absurd hjammed hfree

include h in
/-- Recording a dead letter reaches the attempt that the job serves. -/
theorem recordQueueOutcome_handed : db.attemptOf job = some (attemptId, attempt) := by
  have hpayload : payloadAttempt job.payload = some attemptId :=
    congrArg (·.2.2.2) (h.serves hconsistent)
  unfold Database.attemptOf
  rw [hpayload, Option.bind_some, h.filed.held]
  rfl

include h in
theorem reconcilePublication_passed (hstate : job.state = .succeeded) :
    Passed db (reconcilePublication db sourceId attemptId attempt).1 sourceId utcDay
      (reconcilePublication db sourceId attemptId attempt).2 := by
  have hfree : ¬ Jammed attempt job := by simp [Jammed, hstate]
  have hquiet : db.awaits attempt → Quiet db attempt job := by
    intro hawaits
    unfold Quiet
    rw [hstate]
    exact hawaits
  unfold reconcilePublication
  split_ifs with hwaiting
  · split
    · -- The plan is published.
      refine .of_rewrite hconsistent h (fun row ↦ header_mark row _ _ _) ?_ hfree _
      unfold Quiet
      rw [hstate]
      intro hother
      simp [OfficialUpstreamSync.mark] at hother
    all_goals try
      -- The plan failed, was cancelled or is stale.
      refine .of_rewrite hconsistent h (fun row ↦ header_mark row _ _ _) ?_ hfree _
      unfold Quiet
      rw [hstate]
      intro hother
      simp [OfficialUpstreamSync.mark] at hother
    -- The plan is open, or there is none.
    refine .of_quiet hconsistent h (hquiet ?_)
    intro _ state hplan
    cases state <;> simp_all [PlanState.terminal]
  · exact .of_quiet hconsistent h (hquiet fun hother ↦ absurd hother hwaiting)

include h in
theorem reconcileJob_passed (hstate : job.state ≠ .cancelled) :
    Passed db (reconcileJob db sourceId attemptId attempt job).1 sourceId utcDay
      (reconcileJob db sourceId attemptId attempt job).2 := by
  unfold reconcileJob
  cases hjob : job.state with
  | deadLetter =>
    dsimp only
    split_ifs with hrecorded
    · refine .of_quiet hconsistent h ?_
      unfold Quiet
      rw [hjob]
      exact hrecorded
    · rw [not_or] at hrecorded
      unfold recordQueueOutcome
      rw [recordQueueOutcome_handed hconsistent h]
      dsimp only
      by_cases hsettled : attempt.state ∈ settledAttempt
      · -- A settled attempt is reported and stays as it is.
        rw [if_pos hsettled]
        have hjammed : Jammed attempt job := by
          refine .inr ⟨hjob, ?_⟩
          simp only [settledAttempt, List.mem_cons, List.not_mem_nil, or_false] at hsettled
          tauto
        have hstuck : Stuck db sourceId utcDay :=
          ⟨attemptId, attempt, outboxId, job, h, hjammed⟩
        exact ⟨hconsistent, .refl _ db, fun hfree ↦ absurd hstuck hfree,
          fun _ ↦ ⟨hstuck, by simp⟩⟩
      · rw [if_neg hsettled, hjob]
        dsimp only
        rw [if_neg hrecorded.1]
        refine .of_rewrite hconsistent h header_deadLetter ?_ ?_ _
        · unfold Quiet
          rw [hjob]
          exact .inl rfl
        · rintro (hcancelled | ⟨-, hstates⟩)
          · exact hstate hcancelled
          · simp only [settledAttempt, List.mem_cons, List.not_mem_nil, or_false] at hsettled
            tauto
  | succeeded => exact reconcilePublication_passed hconsistent h hjob
  | queued => exact .of_quiet hconsistent h (by simp [Quiet, hjob])
  | running => exact .of_quiet hconsistent h (by simp [Quiet, hjob])
  | retryScheduled => exact .of_quiet hconsistent h (by simp [Quiet, hjob])
  | cancelled => exact absurd hjob hstate

end

/-- A launch hands the attempt to its job. -/
theorem Launch.handed {before after : Database}
    (h : Launch before after attemptId attempt outboxId job) :
    Handed after attempt.sourceId attempt.triggerKey attemptId attempt outboxId job :=
  ⟨h.filed, rfl, rfl, h.row_cases.mpr (.inr rfl)⟩

/-- A source that gets a new job is calm. -/
theorem Launch.calm {before after : Database}
    (h : Launch before after attemptId attempt outboxId job) (hnew : job ∉ before.jobs.rows) :
    Calm after attempt.sourceId attempt.triggerKey := by
  refine ⟨attemptId, attempt, outboxId, job, h.handed, ?_⟩
  cases h.supplied with
  | found _ hheld => exact absurd hheld hnew
  | inserted _ _ _ hstate _ => simp [Quiet, hstate]

/-- A source without an attempt for the day gets one. -/
theorem reconcileSource_due (hconsistent : Consistent db) (hschedules : db.schedules sourceId)
    (hnone : db.attempt? sourceId moment.utcDay = none) :
    ∃ after repairs, reconcileSource db sourceId moment = .ok (after, repairs) ∧
      Passed db after sourceId moment.utcDay repairs := by
  obtain ⟨middle, attemptId, attempt, outboxId, outbox, hcreate, hprepared, hsource, htrigger⟩ :=
    createAttemptAndOutbox_spec hconsistent hschedules moment.utcDay moment.utcDay "reconcile"
  rw [← hsource] at hschedules
  obtain ⟨after, job, hdispatch, hlaunch⟩ :=
    hprepared.dispatch hconsistent hschedules moment.clock
  have hheader := header_queue attempt job.id
  simp only [OfficialUpstreamSync.header, Prod.mk.injEq] at hheader
  have hkey : (attempt.queue job.id).key = idempotencyKey sourceId moment.utcDay := by
    simp [OfficialUpstreamSync.key, hheader, hsource, htrigger]
  have hnew : job ∉ db.jobs.rows := by
    intro hheld
    obtain ⟨other, row, otherOutbox, hfiled, hlabel⟩ := hconsistent.serving hheld
    have hrow : row.key = idempotencyKey sourceId moment.utcDay := by
      rw [← hkey, ← (key_of_label hlabel).1, (key_of_label hlaunch.serves).1]
    obtain ⟨hrowSource, hrowTrigger⟩ := idempotencyKey_inj hrow
    exact attempt?_eq_none.mp hnone other row hfiled.held hrowSource hrowTrigger
  refine ⟨after, [s!"due_without_attempt:{sourceId.text}"], ?_, hlaunch.consistent hconsistent,
    ?_, ?_, ?_⟩
  · unfold reconcileSource redispatch
    rw [hnone]
    simp only [hcreate, hdispatch, bind, Except.bind, pure, Except.pure]
  · rw [← hkey]
    exact hlaunch.touches hconsistent
  · intro _
    have hcalm := hlaunch.calm hnew
    rw [hheader.1, hheader.2.1, hsource, htrigger] at hcalm
    exact hcalm
  · rintro ⟨other, row, _, _, hhanded, -⟩
    exact absurd hhanded.triggerKey
      (attempt?_eq_none.mp hnone other row hhanded.filed.held hhanded.sourceId)

/-- A source whose job is gone or cancelled is dispatched again. -/
theorem reconcileSource_missing (hconsistent : Consistent db)
    (hschedules : db.schedules attempt.sourceId)
    (hfiled : Filed db attemptId attempt outboxId jobId) (moment : Instant)
    (htrigger : attempt.triggerKey = moment.utcDay)
    (hmissing : (db.jobs.row? jobId).filter (·.state ≠ .cancelled) = none) :
    ∃ after repairs, reconcileSource db attempt.sourceId moment = .ok (after, repairs) ∧
      Passed db after attempt.sourceId moment.utcDay repairs := by
  obtain ⟨reset, hreset⟩ : ∃ reset : OfficialSyncOutbox,
      reset = ⟨attempt.sourceId, attemptId, attempt.key, .pending, none⟩ := ⟨_, rfl⟩
  obtain ⟨after, job, hdispatch, hlaunch⟩ :=
    (prepared_reset hfiled hreset).dispatch hconsistent hschedules moment.clock
  have hheader := header_queue attempt job.id
  simp only [OfficialUpstreamSync.header, Prod.mk.injEq] at hheader
  have hattempt : db.attempt? attempt.sourceId moment.utcDay = some (attemptId, attempt) :=
    hconsistent.attempt?_eq_some.mpr ⟨hfiled.held, rfl, htrigger⟩
  have hkey : (attempt.queue job.id).key = attempt.key := by
    simp [OfficialUpstreamSync.key, hheader]
  have hjobKey : job.idempotencyKey = attempt.key :=
    (key_of_label hlaunch.serves).1.trans hkey
  have hrow : job ∈ db.jobs.rows → db.jobs.row? jobId = some job := fun hheld ↦
    Queue.Table.row?_eq_some.mpr ⟨hheld, hconsistent.id_of_key hheld hfiled hjobKey⟩
  refine ⟨after, [s!"missing_job:{attempt.sourceId.text}"], ?_, hlaunch.consistent hconsistent,
    ?_, ?_, ?_⟩
  · unfold reconcileSource
    rw [hattempt]
    dsimp only
    rw [hfiled.outboxOf]
    dsimp only
    unfold reconcileOutbox
    rw [if_neg (by simp)]
    dsimp only
    rw [hmissing, ← hreset]
    unfold redispatch
    simp only [hdispatch, bind, Except.bind, pure, Except.pure]
  · have htouches := hlaunch.touches hconsistent
    rw [hkey] at htouches
    unfold OfficialUpstreamSync.key at htouches
    rw [htrigger] at htouches
    exact htouches
  · intro hfree
    have hnew : job ∉ db.jobs.rows := by
      intro hheld
      have hcancelled : job.state = .cancelled := by
        rw [hrow hheld, Option.filter_some] at hmissing
        by_contra hother
        rw [if_pos (by simpa using hother)] at hmissing
        cases hmissing
      refine hfree ⟨attemptId, attempt, outboxId, job, ⟨?_, rfl, htrigger, hheld⟩, .inl hcancelled⟩
      rw [hconsistent.id_of_key hheld hfiled hjobKey]
      exact hfiled
    have hcalm := hlaunch.calm hnew
    rw [hheader.1, hheader.2.1, htrigger] at hcalm
    exact hcalm
  · rintro ⟨other, row, otherOutbox, old, hhanded, hjammed⟩
    refine ⟨?_, by simp⟩
    obtain ⟨rfl, rfl⟩ := hconsistent.eq_of_key hhanded.filed.held hfiled.held
      (by simp [OfficialUpstreamSync.key, hhanded.sourceId, hhanded.triggerKey, htrigger])
    have hid : old.id = jobId := (hhanded.filed.unique hfiled).2.2
    have hold : db.jobs.row? jobId = some old := Queue.Table.row?_eq_some.mpr ⟨hhanded.job, hid⟩
    have hcancelled : old.state = .cancelled := by
      rw [hold, Option.filter_some] at hmissing
      by_contra hother
      rw [if_pos (by simpa using hother)] at hmissing
      cases hmissing
    -- The queue still has the cancelled job under the key, so it gives that job again.
    have hsame : job = old := by
      cases hlaunch.supplied with
      | found _ hheld => exact Option.some.inj ((hrow hheld).symm.trans hold)
      | inserted _ _ _ _ hfresh =>
        obtain ⟨holdKey, horganization⟩ := key_of_label (hhanded.serves hconsistent)
        exact absurd (holdKey.trans hjobKey.symm) (hfresh old hhanded.job horganization)
    have hafter := hlaunch.handed
    rw [hheader.1, hheader.2.1, htrigger] at hafter
    exact ⟨other, _, outboxId, job, hafter, .inl (by rw [hsame, hcancelled])⟩

/-- A pass handles every schedulable source without a fault. -/
theorem reconcileSource_spec (hconsistent : Consistent db) (hschedules : db.schedules sourceId)
    (moment : Instant) :
    ∃ after repairs, reconcileSource db sourceId moment = .ok (after, repairs) ∧
      Passed db after sourceId moment.utcDay repairs := by
  cases hattempt : db.attempt? sourceId moment.utcDay with
  | none => exact reconcileSource_due hconsistent hschedules hattempt
  | some found =>
    obtain ⟨attemptId, attempt⟩ := found
    obtain ⟨hget, rfl, htrigger⟩ := hconsistent.attempt?_eq_some.mp hattempt
    obtain ⟨outboxId, jobId, hfiled, -, -⟩ := hconsistent.filed attemptId attempt hget
    cases hlive : (db.jobs.row? jobId).filter (·.state ≠ .cancelled) with
    | none => exact reconcileSource_missing hconsistent hschedules hfiled moment htrigger hlive
    | some job =>
      obtain ⟨hrow, hstate⟩ := Option.filter_eq_some_iff.mp hlive
      obtain ⟨hjob, rfl⟩ := Queue.Table.row?_eq_some.mp hrow
      have hhanded : Handed db attempt.sourceId moment.utcDay attemptId attempt outboxId job :=
        ⟨hfiled, rfl, htrigger, hjob⟩
      have hother : job.state ≠ .cancelled := by simpa using hstate
      exact ⟨_, _, reconcileSource_handed hhanded hconsistent rfl hother,
        reconcileJob_passed hconsistent hhanded hother⟩

end Source

/-! ### All sources -/

/-- The keys of some sources for a day. -/
def keysOf (sourceIds : List SourceId) (utcDay key : String) : Prop :=
  ∃ sourceId ∈ sourceIds, key = idempotencyKey sourceId utcDay

variable {sourceIds : List SourceId}

theorem not_keysOf {utcDay : String} {sourceId : SourceId} (h : sourceId ∉ sourceIds) :
    ¬ keysOf sourceIds utcDay (idempotencyKey sourceId utcDay) := by
  rintro ⟨other, hother, hkey⟩
  rw [(idempotencyKey_inj hkey).1] at h
  exact h hother

/-- A pass over calm sources does nothing. -/
theorem reconcileSources_calm {db : Database} (hconsistent : Consistent db)
    (h : ∀ sourceId ∈ sourceIds, Calm db sourceId moment.utcDay) :
    reconcileSources moment sourceIds db = .ok (db, []) := by
  induction sourceIds with
  | nil => rfl
  | cons sourceId rest ih =>
    have hrest := ih fun other hother ↦ h other (List.mem_cons_of_mem sourceId hother)
    unfold reconcileSources
    rw [reconcileSource_calm hconsistent (h sourceId List.mem_cons_self)]
    simp only [bind, Except.bind, hrest, pure, Except.pure, List.append_nil]

/-- A pass leaves every source that is not stuck calm, and the others stuck and reported. -/
theorem reconcileSources_spec {db : Database} (hconsistent : Consistent db) (moment : Instant)
    (hschedules : ∀ sourceId ∈ sourceIds, db.schedules sourceId) (hdistinct : sourceIds.Nodup) :
    ∃ after repairs, reconcileSources moment sourceIds db = .ok (after, repairs) ∧
      Consistent after ∧ Touches (keysOf sourceIds moment.utcDay) db after ∧
      (∀ sourceId ∈ sourceIds, ¬ Stuck db sourceId moment.utcDay →
        Calm after sourceId moment.utcDay) ∧
      ∀ sourceId ∈ sourceIds, Stuck db sourceId moment.utcDay →
        Stuck after sourceId moment.utcDay ∧ repairs ≠ [] := by
  induction sourceIds generalizing db with
  | nil =>
    exact ⟨db, [], rfl, hconsistent, .refl _ db, by simp, by simp⟩
  | cons sourceId rest ih =>
    obtain ⟨hfresh, hrestDistinct⟩ := List.nodup_cons.mp hdistinct
    obtain ⟨middle, found, hfirst, hpassed⟩ :=
      reconcileSource_spec hconsistent (hschedules sourceId List.mem_cons_self) moment
    have hmiddleSchedules : ∀ other ∈ rest, middle.schedules other := by
      intro other hother
      unfold Database.schedules
      rw [hpassed.touches.sources]
      exact hschedules other (List.mem_cons_of_mem sourceId hother)
    obtain ⟨after, later, hrest, hafter, htouches, hcalm, hstuck⟩ :=
      ih hpassed.consistent hmiddleSchedules hrestDistinct
    have hothers : ∀ other ∈ rest, ¬ idempotencyKey other moment.utcDay =
        idempotencyKey sourceId moment.utcDay := by
      intro other hother hkey
      rw [(idempotencyKey_inj hkey).1] at hother
      exact hfresh hother
    refine ⟨after, found ++ later, ?_, hafter, ?_, ?_, ?_⟩
    · unfold reconcileSources
      simp only [hfirst, hrest, bind, Except.bind, pure, Except.pure]
    · refine (hpassed.touches.trans htouches).mono ?_
      rintro key (hkey | ⟨other, hother, hkey⟩)
      · exact ⟨sourceId, List.mem_cons_self, hkey⟩
      · exact ⟨other, List.mem_cons_of_mem sourceId hother, hkey⟩
    · intro other hother hfree
      rcases List.mem_cons.mp hother with rfl | hother
      · exact (htouches.calm hpassed.consistent (not_keysOf hfresh)).mpr (hpassed.calm hfree)
      · refine hcalm other hother fun hstuckMiddle ↦ hfree ?_
        exact (hpassed.touches.stuck hconsistent (hothers other hother)).mp hstuckMiddle
    · intro other hother hstuckBefore
      rcases List.mem_cons.mp hother with rfl | hother
      · obtain ⟨hstuckMiddle, hfound⟩ := hpassed.stuck hstuckBefore
        refine ⟨(htouches.stuck hpassed.consistent (not_keysOf hfresh)).mpr hstuckMiddle, ?_⟩
        simp [hfound]
      · have hstuckMiddle : Stuck middle other moment.utcDay :=
          (hpassed.touches.stuck hconsistent (hothers other hother)).mpr hstuckBefore
        obtain ⟨hstuckAfter, hlater⟩ := hstuck other hother hstuckMiddle
        exact ⟨hstuckAfter, by simp [hlater]⟩

end AiStp.Upstream
