import AiStp.Queue.Workers

/-!
# Leases

A row that runs is locked by its owner, and no other row is (`State.Locked`). This holds whatever a
settling session writes, because such a session always clears the lock; it needs every cancel to
write over a row that is still pending (`StillPending`).

The leases themselves need more. The ownership check of a settling session reads the object that the
session loaded. A requeue and a claim that come between the load and the locking read leave that
object as it was, and the settle then writes over the attempt of the new owner. `leases_safe` is
about the runs in which this does not happen: whenever the check passes on the loaded object, the
row runs under the same worker (`StillRuns`).
-/

set_option autoImplicit false

namespace AiStp.Queue

open Library Runs

/-! ### Locks -/

/-- The lock columns are set exactly while the job runs. -/
structure Job.LocksRunning (job : Job) : Prop where
  owner : job.lockedBy.isSome ↔ job.state = .running
  moment : job.lockedAt.isSome ↔ job.state = .running

/-- The row that a client is about to cancel is pending, or another cancel was first. -/
def StillPending (state : State) (client : String) : Prop :=
  ∀ held ∈ state.cancelling client, ∀ row ∈ state.table.rows, row.id = held.id →
    row.state ∈ claimableStates ∨ row.state = .cancelled

instance (state : State) (client : String) : Decidable (StillPending state client) :=
  inferInstanceAs (Decidable (∀ held ∈ state.cancelling client, _))

def CancelsPending (state : State) : Action → Prop
  | .cancelWrite client => StillPending state client
  | _ => True

structure State.Locked (state : State) : Prop where
  rows : ∀ row ∈ state.table.rows, row.LocksRunning
  held : ∀ worker lease held, state.workers worker = .settling lease held → held.LocksRunning
  cancelling : ∀ client held, state.cancelling client = some held → held.state ∈ claimableStates

theorem State.Locked.initial : State.initial.Locked where
  rows := by simp [State.initial, Table.empty]
  held := by simp [State.initial]
  cancelling := by simp [State.initial]

section Flush

variable {held written row : Job} {worker : String}

/-- A session that changes the state of what it loaded writes its state. -/
theorem flush_state (h : written.state ≠ held.state) :
    (Job.flush held written row).state = written.state :=
  flushed_of_ne h row.state

/-- A session that releases a lock clears it, whoever holds it in the table. -/
theorem flush_released (hheld : held.LocksRunning) (howned : held.runsUnder worker)
    (hby : written.lockedBy = none) (hat : written.lockedAt = none) :
    (Job.flush held written row).lockedBy = none ∧
      (Job.flush held written row).lockedAt = none := by
  have hmoment : held.lockedAt ≠ none :=
    Option.isSome_iff_ne_none.mp (hheld.moment.mpr howned.1)
  constructor
  · show flushed held.lockedBy written.lockedBy row.lockedBy = none
    rw [flushed_of_ne (by simp [hby, howned.2]), hby]
  · show flushed held.lockedAt written.lockedAt row.lockedAt = none
    rw [flushed_of_ne (by simpa [hat] using hmoment.symm), hat]

theorem flush_locksRunning (hheld : held.LocksRunning) (howned : held.runsUnder worker)
    (hstate : written.state ≠ .running) (hby : written.lockedBy = none)
    (hat : written.lockedAt = none) : (Job.flush held written row).LocksRunning := by
  obtain ⟨hflushedBy, hflushedAt⟩ : (Job.flush held written row).lockedBy = none ∧
      (Job.flush held written row).lockedAt = none := flush_released hheld howned hby hat
  have hflushed : (Job.flush held written row).state ≠ .running := by
    rw [flush_state (by rwa [howned.1])]
    exact hstate
  constructor
  · simp [hflushedBy, hflushed]
  · simp [hflushedAt, hflushed]

end Flush

theorem fail_not_running (job : Job) (failure : Failure) (now : Moment) :
    (job.fail failure now).state ≠ .running := by
  rw [Job.fail_state]
  split_ifs <;> simp

theorem reclaim_not_running (job : Job) (now : Moment) : (job.reclaim now).state ≠ .running := by
  rw [Job.reclaim_state]
  split_ifs <;> simp

theorem not_running_of_claimable {job : Job} (h : job.state ∈ claimableStates) :
    job.state ≠ .running := by
  intro hrunning
  simp [hrunning, claimableStates] at h

/-- The write of a cancel touches the state of the row only. -/
theorem flush_cancelled {held : Job} (hclaimable : held.state ∈ claimableStates) (row : Job) :
    Job.flush held { held with state := .cancelled } row = { row with state := .cancelled } := by
  have hne : JobState.cancelled ≠ held.state := by
    intro hsame
    simp [← hsame, claimableStates] at hclaimable
  simp [Job.flush, flushed_of_ne hne]

variable {state : State} {action : Action}

theorem Change.locksRunning {row next : Job} (hstate : state.Locked)
    (hmeet : CancelsPending state action) (hrow : row ∈ state.table.rows)
    (hchange : Change state action row next) : next.LocksRunning := by
  have hlocks := hstate.rows row hrow
  cases hchange with
  | kept => exact hlocks
  | claimed hidle htaken hdue => exact ⟨by simp [Job.claim], by simp [Job.claim]⟩
  | @succeeded worker lease held _ hsettling howned hid =>
    exact flush_locksRunning (hstate.held worker lease held hsettling) howned (by simp [Job.succeed])
      rfl rfl
  | @failed worker failure now lease held _ hsettling howned hid =>
    exact flush_locksRunning (hstate.held worker lease held hsettling) howned
      (fail_not_running held failure now) (by simp) (by simp)
  | extended hruns => exact ⟨hlocks.owner, by simp [hruns.1]⟩
  | @reclaimed _ _ now _ _ _ hexpired =>
    have hnot := reclaim_not_running row now
    exact ⟨by simp [hnot], by simp [hnot]⟩
  | requeued hruns => exact ⟨by simp, by simp⟩
  | @cancelled client held _ hheld hid =>
    have hpending : row.state ≠ .running := by
      rcases hmeet held hheld row hrow hid with hclaimable | hcancelled
      · exact not_running_of_claimable hclaimable
      · simp [hcancelled]
    rw [flush_cancelled (hstate.cancelling _ _ hheld) row]
    exact ⟨by simpa [hpending] using hlocks.owner, by simpa [hpending] using hlocks.moment⟩

variable {lease : Nat}

/-- A job object that a worker settles was a row of the table. -/
theorem settling_step {worker : String} {held : Job}
    (h : (step state action).workers worker = .settling lease held) :
    state.workers worker = .settling lease held ∨
      action = .load worker ∧ held ∈ state.table.rows := by
  rcases workers_step state action worker with
    hsame | hidle | ⟨_, row, haction, hrow, -, hnext⟩ | ⟨_, _, _, _, _, _, _, _, _, hnext⟩
  · exact .inl (hsame ▸ h)
  · rw [hidle] at h
    exact nomatch h
  · rw [hnext, WorkerState.settling.injEq] at h
    rw [← h.2]
    exact .inr ⟨haction, hrow⟩
  · rw [hnext] at h
    exact nomatch h

theorem State.Locked.step (hstate : state.Locked) (hmeet : CancelsPending state action) :
    (step state action).Locked where
  rows := by
    intro next hnext
    rcases mem_step hnext with ⟨row, hrow, -, hchange⟩ | ⟨request, payload, now, -, rfl⟩
    · exact hchange.locksRunning hstate hmeet hrow
    · exact ⟨by simp [Request.row], by simp [Request.row]⟩
  held := by
    intro worker lease held hsettling
    rcases settling_step hsettling with hbefore | ⟨-, hrow⟩
    · exact hstate.held worker lease held hbefore
    · exact hstate.rows held hrow
  cancelling := by
    intro client held hheld
    rcases cancelling_step hheld with hbefore | ⟨-, hclaimable⟩
    · exact hstate.cancelling client held hbefore
    · exact hclaimable

/-! ### Attempts -/

/-- The row that a worker is about to settle runs under it, if the object it loaded does. -/
def StillRuns (state : State) (worker : String) : Prop :=
  ∀ held ∈ state.held? worker, held.runsUnder worker →
    ∀ row ∈ state.table.rows, row.id = held.id → row.runsUnder worker

instance (state : State) (worker : String) : Decidable (StillRuns state worker) :=
  inferInstanceAs (Decidable (∀ held ∈ state.held? worker, _))

/-- No write comes from an object whose row has moved on, and a job is allowed one attempt. -/
def Fresh (state : State) : Action → Prop
  | .enqueue request _ => 1 ≤ request.maxAttempts
  | .succeed worker => StillRuns state worker
  | .fail worker _ _ => StillRuns state worker
  | .cancelWrite client => StillPending state client
  | _ => True

instance (state : State) : ∀ action, Decidable (CancelsPending state action)
  | .cancelWrite client => inferInstanceAs (Decidable (StillPending state client))
  | .enqueue .. | .succeed _ | .fail .. | .claim .. | .load _ | .abandon _ | .heartbeat ..
  | .requeueStale .. | .requeueLocked _ | .cancelRead .. => inferInstanceAs (Decidable True)

instance (state : State) : ∀ action, Decidable (Fresh state action)
  | .enqueue request _ => inferInstanceAs (Decidable (1 ≤ request.maxAttempts))
  | .succeed worker => inferInstanceAs (Decidable (StillRuns state worker))
  | .fail worker _ _ => inferInstanceAs (Decidable (StillRuns state worker))
  | .cancelWrite client => inferInstanceAs (Decidable (StillPending state client))
  | .claim .. | .load _ | .abandon _ | .heartbeat .. | .requeueStale .. | .requeueLocked _
  | .cancelRead .. => inferInstanceAs (Decidable True)

theorem Fresh.cancelsPending (h : Fresh state action) : CancelsPending state action := by
  cases action with
  | cancelWrite client => exact h
  | _ => trivial

/-- The worker is at the job under the lease of that number. -/
def State.atJob (state : State) (worker : String) (jobId lease : Nat) : Prop :=
  match state.workers worker with
  | .idle => False
  | .handling handled number => handled = jobId ∧ number = lease
  | .settling number held => held.id = jobId ∧ number = lease

structure State.Sound (state : State) : Prop where
  locked : state.Locked
  attempts : ∀ row ∈ state.table.rows, row.state ∉ terminalStates →
    (row.attempts : Int) < row.maxAttempts
  lease : ∀ worker jobId lease, state.atJob worker jobId lease →
    ∀ row ∈ state.table.rows, row.id = jobId → row.runsUnder worker → state.leases jobId = lease
  held : ∀ worker lease held, state.workers worker = .settling lease held →
    ∀ row ∈ state.table.rows, row.id = held.id → row.runsUnder worker →
      held = { row with lockedAt := held.lockedAt }

theorem State.Sound.initial : State.initial.Sound where
  locked := .initial
  attempts := by simp [State.initial, Table.empty]
  lease := by simp [State.initial, Table.empty]
  held := by simp [State.initial, Table.empty]

/-- A row that runs under a worker after a step did so before it, with its lease extended at most,
or the worker was idle and claimed it. -/
theorem Change.of_runsUnder {row next : Job} {worker : String} (hstate : state.Locked)
    (hchange : Change state action row next) (hnext : next.runsUnder worker) :
    row.runsUnder worker ∧ next = { row with lockedAt := next.lockedAt } ∨
      state.workers worker = .idle := by
  cases hchange with
  | kept => exact .inl ⟨hnext, rfl⟩
  | @claimed other _ now _ _ _ hidle htaken hdue =>
    have hsame : other = worker := Option.some.inj hnext.2
    exact .inr (hsame ▸ hidle)
  | succeeded hsettling howned hid =>
    have hflushed := hnext.1
    rw [flush_state (by simp [Job.succeed, howned.1])] at hflushed
    exact absurd hflushed (by simp [Job.succeed])
  | @failed other failure now lease held _ hsettling howned hid =>
    have hnot := fail_not_running held failure now
    have hflushed := hnext.1
    rw [flush_state (by rwa [howned.1])] at hflushed
    exact absurd hflushed hnot
  | extended hruns => exact .inl ⟨hnext, rfl⟩
  | @reclaimed _ _ now _ _ _ hexpired => exact absurd hnext.1 (reclaim_not_running row now)
  | requeued hruns => exact absurd hnext.1 (by simp)
  | cancelled hheld hid =>
    rw [flush_cancelled (hstate.cancelling _ _ hheld) row] at hnext
    exact absurd hnext.1 (by simp)

/-- A fresh settle finds the attempt that it loaded. -/
theorem State.Sound.settled (hstate : state.Sound) {worker : String} {held row : Job}
    (hruns : StillRuns state worker) (hsettling : state.workers worker = .settling lease held)
    (howned : held.runsUnder worker) (hrow : row ∈ state.table.rows) (hid : row.id = held.id) :
    row.runsUnder worker ∧ held = { row with lockedAt := held.lockedAt } := by
  have hrow' := hruns held (State.held?_of_settling hsettling) howned row hrow hid
  exact ⟨hrow', hstate.held worker lease held hsettling row hrow hid hrow'⟩

section FlushFailure

variable (held row : Job) (failure : Failure) (now : Moment)

theorem flush_fail_attempts :
    (Job.flush held (held.fail failure now) row).attempts = held.attempts + 1 := by
  show flushed held.attempts (held.fail failure now).attempts row.attempts = held.attempts + 1
  rw [Job.fail_attempts, flushed_of_ne (by omega)]

theorem flush_fail_maxAttempts :
    (Job.flush held (held.fail failure now) row).maxAttempts = row.maxAttempts := by
  show flushed held.maxAttempts (held.fail failure now).maxAttempts row.maxAttempts = _
  rw [Job.fail_maxAttempts, flushed_self]

end FlushFailure

theorem not_terminal_of_running {job : Job} (h : job.state = .running) :
    job.state ∉ terminalStates := by
  simp [h, terminalStates]

theorem not_terminal_of_claimable {job : Job} (h : job.state ∈ claimableStates) :
    job.state ∉ terminalStates := by
  intro hterminal
  simp only [claimableStates, terminalStates, List.mem_cons, List.not_mem_nil, or_false] at h hterminal
  rcases h with h | h <;> simp [h] at hterminal

theorem Change.attempts {row next : Job} (hstate : state.Sound) (hfresh : Fresh state action)
    (hrow : row ∈ state.table.rows) (hchange : Change state action row next)
    (hnext : next.state ∉ terminalStates) : (next.attempts : Int) < next.maxAttempts := by
  have hbelow := hstate.attempts row hrow
  cases hchange with
  | kept => exact hbelow hnext
  | claimed hidle htaken hdue => exact hbelow (not_terminal_of_claimable hdue.1)
  | succeeded hsettling howned hid =>
    rw [flush_state (by simp [Job.succeed, howned.1])] at hnext
    exact absurd hnext (by simp [Job.succeed, terminalStates])
  | @failed worker failure now lease held _ hsettling howned hid =>
    have hheld := (hstate.settled hfresh hsettling howned hrow hid).2
    rw [flush_state (by simpa [howned.1] using fail_not_running held failure now),
      Job.fail_state] at hnext
    split_ifs at hnext with hdead
    · exact absurd hnext (by simp [terminalStates])
    · have hleft : ¬ held.exhausted := fun hexhausted ↦ hdead (.inr hexhausted)
      have hsame : held.maxAttempts = row.maxAttempts := by rw [hheld]
      rw [flush_fail_attempts, flush_fail_maxAttempts, ← hsame]
      simpa [Job.exhausted] using hleft
  | extended hruns => exact hbelow hnext
  | @reclaimed _ _ now _ _ _ hexpired =>
    rw [Job.reclaim_state] at hnext
    split_ifs at hnext with hexhausted
    · exact absurd hnext (by simp [terminalStates])
    · simp only [Job.exhausted, not_le] at hexhausted
      simpa using hexhausted
  | requeued hruns => exact hbelow (not_terminal_of_running hruns.1)
  | cancelled hheld hid =>
    rw [flush_cancelled (hstate.locked.cancelling _ _ hheld) row] at hnext
    exact absurd hnext (by simp [terminalStates])

/-- A worker that is at a job after a step was so before it, or the step gave it the lease. -/
theorem at_step {worker : String} {jobId : Nat} (h : (step state action).atJob worker jobId lease) :
    state.atJob worker jobId lease ∨ (step state action).leases jobId = lease := by
  unfold State.atJob at h ⊢
  rcases workers_step state action worker with
    hsame | hidle | ⟨_, row, -, -, hbefore, hnext⟩ | ⟨_, _, _, _, job, -, -, -, hleases, hnext⟩
  · left
    rwa [hsame] at h
  · simp [hidle] at h
  · left
    simpa [hnext, hbefore] using h
  · right
    simp only [hnext] at h
    rw [← h.1, hleases, h.2]

/-- Nobody claims a row that runs. -/
theorem leases_of_running {row : Job} (hrow : row ∈ state.table.rows)
    (hrunning : row.state = .running) (action : Action) :
    (step state action).leases row.id = state.leases row.id := by
  rcases leases_step state action row.id with
    hsame | ⟨_, batchSize, now, locked, listed, job, -, -, hjobs, hid⟩
  · exact hsame
  · have hjob : job ∈ state.claimable batchSize now locked listed := by simp [hjobs]
    obtain ⟨hmem, hdue⟩ := mem_claimed hjob
    have hsame : job = row := Table.eq_of_id hmem hrow hid
    exact absurd hrunning (not_running_of_claimable (hsame ▸ hdue.1))

theorem State.atJob.not_idle {worker : String} {jobId : Nat} (h : state.atJob worker jobId lease) :
    state.workers worker ≠ .idle := by
  intro hidle
  simp [State.atJob, hidle] at h

theorem State.Sound.step (hstate : state.Sound) (hfresh : Fresh state action) :
    (step state action).Sound where
  locked := hstate.locked.step hfresh.cancelsPending
  attempts := by
    intro next hnext hopen
    rcases mem_step hnext with ⟨row, hrow, -, hchange⟩ | ⟨request, payload, now, rfl, rfl⟩
    · exact hchange.attempts hstate hfresh hrow hopen
    · show ((0 : Nat) : Int) < request.maxAttempts
      have hone : 1 ≤ request.maxAttempts := hfresh
      omega
  lease := by
    intro worker jobId lease hat next hnext hid hruns
    rcases mem_step hnext with ⟨row, hrow, hsame, hchange⟩ | ⟨request, payload, now, rfl, rfl⟩
    · rcases at_step hat with hbefore | hlease
      · rcases hchange.of_runsUnder hstate.locked hruns with ⟨hrowRuns, -⟩ | hidle
        · have hrowId : row.id = jobId := hsame ▸ hid
          rw [← hrowId, leases_of_running hrow hrowRuns.1 action, hrowId]
          exact hstate.lease worker jobId lease hbefore row hrow hrowId hrowRuns
        · exact absurd hidle hbefore.not_idle
      · exact hlease
    · exact absurd hruns.1 (by simp [Request.row])
  held := by
    intro worker lease held hsettling next hnext hid hruns
    rcases settling_step hsettling with hbefore | ⟨haction, hrow⟩
    · rcases mem_step hnext with ⟨row, hrow, hsame, hchange⟩ | ⟨request, payload, now, rfl, rfl⟩
      · rcases hchange.of_runsUnder hstate.locked hruns with ⟨hrowRuns, hextended⟩ | hidle
        · have hheld := hstate.held worker lease held hbefore row hrow (hsame ▸ hid) hrowRuns
          rw [hextended]
          exact hheld
        · rw [hidle] at hbefore
          exact nomatch hbefore
      · exact absurd hruns.1 (by simp [Request.row])
    · rw [haction, step_table state (.load worker) (by simp)] at hnext
      have hmem : next ∈ (state.table.update .idle).rows := hnext
      rw [Table.update_idle] at hmem
      rw [Table.eq_of_id hmem hrow hid]

/-! ### What the settles of a run do -/

/-- Attempts are counted up, and a terminal state is kept. -/
def Settled (before after : Table) : Prop :=
  ∀ row ∈ before.rows, ∃ next ∈ after.rows, next.id = row.id ∧ row.attempts ≤ next.attempts ∧
    (row.state ∈ terminalStates → next.state = row.state)

theorem Settled.refl (table : Table) : Settled table table :=
  fun row hrow ↦ ⟨row, hrow, rfl, le_rfl, fun _ ↦ rfl⟩

theorem Settled.trans {first middle last : Table} (hfirst : Settled first middle)
    (hlast : Settled middle last) : Settled first last := by
  intro row hrow
  obtain ⟨next, hnext, hid, hattempts, hstate⟩ := hfirst row hrow
  obtain ⟨final, hfinal, hid', hattempts', hstate'⟩ := hlast next hnext
  refine ⟨final, hfinal, hid'.trans hid, hattempts.trans hattempts', fun hterminal ↦ ?_⟩
  have hkept := hstate hterminal
  exact (hstate' (hkept ▸ hterminal)).trans hkept

theorem Change.settled {row next : Job} (hstate : state.Sound) (hfresh : Fresh state action)
    (hrow : row ∈ state.table.rows) (hchange : Change state action row next) :
    row.attempts ≤ next.attempts ∧ (row.state ∈ terminalStates → next.state = row.state) := by
  cases hchange with
  | kept => exact ⟨le_rfl, fun _ ↦ rfl⟩
  | claimed hidle htaken hdue =>
    exact ⟨le_rfl, fun hterminal ↦ absurd hterminal (not_terminal_of_claimable hdue.1)⟩
  | @succeeded worker lease held _ hsettling howned hid =>
    have hruns := (hstate.settled hfresh hsettling howned hrow hid).1
    refine ⟨?_, fun hterminal ↦ absurd hterminal (not_terminal_of_running hruns.1)⟩
    show row.attempts ≤ flushed held.attempts held.attempts row.attempts
    rw [flushed_self]
  | @failed worker failure now lease held _ hsettling howned hid =>
    obtain ⟨hruns, hheld⟩ := hstate.settled hfresh hsettling howned hrow hid
    refine ⟨?_, fun hterminal ↦ absurd hterminal (not_terminal_of_running hruns.1)⟩
    have hsame : held.attempts = row.attempts := by rw [hheld]
    rw [flush_fail_attempts, hsame]
    omega
  | extended hruns => exact ⟨le_rfl, fun _ ↦ rfl⟩
  | reclaimed hexpired =>
    have hrunning := (mem_expired hexpired).2.1
    exact ⟨by simp, fun hterminal ↦ absurd hterminal (not_terminal_of_running hrunning)⟩
  | requeued hruns =>
    exact ⟨le_rfl, fun hterminal ↦ absurd hterminal (not_terminal_of_running hruns.1)⟩
  | @cancelled client held _ hheld hid =>
    rw [flush_cancelled (hstate.locked.cancelling _ _ hheld) row]
    refine ⟨le_rfl, fun hterminal ↦ ?_⟩
    rcases hfresh held hheld row hrow hid with hclaimable | hcancelled
    · exact absurd hterminal (not_terminal_of_claimable hclaimable)
    · exact hcancelled.symm

theorem settled_step (hstate : state.Sound) (hfresh : Fresh state action) :
    Settled state.table (step state action).table := by
  intro row hrow
  obtain ⟨next, hnext, hid, hchange⟩ := exists_mem_step hrow action
  exact ⟨next, hnext, hid, hchange.settled hstate hfresh hrow⟩

/-- The worker holds the lease of the attempt: it is at the job under the last lease that was given
out, and the row runs under it. -/
def State.Holds (state : State) (worker : String) (jobId : Nat) : Prop :=
  ∃ lease, state.atJob worker jobId lease ∧ state.leases jobId = lease ∧
    ∃ row ∈ state.table.rows, row.id = jobId ∧ row.runsUnder worker

def Settles (worker : String) : Action → Prop
  | .succeed settler => settler = worker
  | .fail settler _ _ => settler = worker
  | _ => False

theorem Change.holds {row next : Job} {worker : String} (hstate : state.Sound)
    (hfresh : Fresh state action) (hsettles : Settles worker action) (hrow : row ∈ state.table.rows)
    (hchange : Change state action row next) (hne : next ≠ row) : state.Holds worker row.id := by
  have hholds : ∀ {lease held}, state.workers worker = .settling lease held →
      held.runsUnder worker → row.id = held.id → StillRuns state worker →
      state.Holds worker row.id := by
    intro lease held hsettling howned hid hruns
    have hrowRuns := hruns held (State.held?_of_settling hsettling) howned row hrow hid
    have hat : state.atJob worker row.id lease := by simp [State.atJob, hsettling, hid]
    exact ⟨lease, hat, hstate.lease worker row.id lease hat row hrow rfl hrowRuns,
      row, hrow, rfl, hrowRuns⟩
  cases hchange with
  | kept => exact absurd rfl hne
  | succeeded hsettling howned hid =>
    subst hsettles
    exact hholds hsettling howned hid hfresh
  | failed hsettling howned hid =>
    subst hsettles
    exact hholds hsettling howned hid hfresh
  | claimed => exact hsettles.elim
  | extended => exact hsettles.elim
  | reclaimed => exact hsettles.elim
  | requeued => exact hsettles.elim
  | cancelled => exact hsettles.elim

theorem State.atJob.unique {worker : String} {jobId other number : Nat}
    (h : state.atJob worker jobId lease) (h' : state.atJob worker other number) :
    jobId = other ∧ lease = number := by
  unfold State.atJob at h h'
  split at h
  · exact h.elim
  · next hhandling =>
    simp only [hhandling] at h'
    exact ⟨h.1.symm.trans h'.1, h.2.symm.trans h'.2⟩
  · next hsettling =>
    simp only [hsettling] at h'
    exact ⟨h.1.symm.trans h'.1, h.2.symm.trans h'.2⟩

/-- A worker whose job was claimed again settles nothing. -/
theorem settle_superseded {worker : String} {jobId : Nat} (hstate : state.Sound)
    (hfresh : Fresh state action) (hsettles : Settles worker action)
    (hat : state.atJob worker jobId lease) (hlease : state.leases jobId ≠ lease) :
    (step state action).table.rows = state.table.rows := by
  have hidle : ∀ request now, action ≠ .enqueue request now := by
    rintro request now rfl
    exact hsettles.elim
  rw [step_table state action hidle]
  show state.table.rows.map (state.statement action).apply = state.table.rows
  refine (List.map_congr_left fun row hrow ↦ ?_).trans (List.map_id state.table.rows)
  by_contra hne
  obtain ⟨number, hnumber, hgiven, -⟩ :=
    (change_apply hrow action).holds hstate hfresh hsettles hrow hne
  obtain ⟨rfl, rfl⟩ := hat.unique hnumber
  exact hlease hgiven

theorem sound_of_fresh {actions : List Action} (hmeet : StepsMeet step Fresh .initial actions) :
    (run step .initial actions).Sound :=
  run_invariant_of_stepsMeet (fun _ _ ↦ State.Sound.step) State.initial State.Sound.initial actions
    hmeet

/-- The state before a step of a fresh run is sound, and the step is fresh. -/
theorem fresh_at {actions before : List Action} (hmeet : StepsMeet step Fresh .initial actions)
    (hextends : before ++ [action] <+: actions) :
    (run step .initial before).Sound ∧ Fresh (run step .initial before) action := by
  obtain ⟨rest, rfl⟩ := hextends
  obtain ⟨hfirst, -⟩ := stepsMeet_append.mp hmeet
  obtain ⟨hbefore, haction⟩ := stepsMeet_append.mp hfirst
  exact ⟨sound_of_fresh hbefore, haction.1⟩

/-- In a run whose writes are all fresh, a row is locked exactly while it runs, a pending row has an
attempt left, attempts never decrease, terminal states are never left, and a settle changes a row
only if its worker holds the lease of the attempt. A worker whose job was claimed again changes
nothing. -/
theorem leases_safe (actions : List Action) (hmeet : StepsMeet step Fresh .initial actions) :
    (∀ row ∈ (run step .initial actions).table.rows,
      (row.lockedBy.isSome ↔ row.state = .running) ∧
      (row.lockedAt.isSome ↔ row.state = .running) ∧
      (row.state ∈ claimableStates → (row.attempts : Int) < row.maxAttempts)) ∧
    (∀ first second, actions = first ++ second →
      Settled (run step .initial first).table (run step .initial actions).table) ∧
    (∀ before action worker, before ++ [action] <+: actions → Settles worker action →
      (∀ row ∈ (run step .initial before).table.rows,
        ∀ next ∈ (run step .initial (before ++ [action])).table.rows,
        next.id = row.id → next ≠ row → (run step .initial before).Holds worker row.id) ∧
      (∀ jobId lease, (run step .initial before).atJob worker jobId lease →
        (run step .initial before).leases jobId ≠ lease →
        (run step .initial (before ++ [action])).table.rows =
          (run step .initial before).table.rows)) := by
  refine ⟨?_, ?_, ?_⟩
  · intro row hrow
    have hsound := sound_of_fresh hmeet
    have hlocks := hsound.locked.rows row hrow
    exact ⟨hlocks.owner, hlocks.moment,
      fun hpending ↦ hsound.attempts row hrow (not_terminal_of_claimable hpending)⟩
  · rintro first second rfl
    obtain ⟨hfirst, hsecond⟩ := stepsMeet_append.mp hmeet
    rw [run_append]
    exact run_related_of_stepsMeet
      (fun before after : State ↦ Settled before.table after.table)
      (fun state ↦ Settled.refl state.table) Settled.trans (fun _ _ ↦ State.Sound.step)
      (fun _ _ ↦ settled_step) _ (sound_of_fresh hfirst) second hsecond
  · intro before action worker hextends hsettles
    obtain ⟨hsound, hfresh⟩ := fresh_at hmeet hextends
    have hstep : run step .initial (before ++ [action]) =
        step (run step .initial before) action := by simp [run_append]
    rw [hstep]
    constructor
    · intro row hrow next hnext hid hne
      obtain ⟨other, hother, hotherId, hchange⟩ := exists_mem_step hrow action
      have hsame : other = next := Table.eq_of_id hother hnext (hotherId.trans hid.symm)
      exact (hsame ▸ hchange).holds hsound hfresh hsettles hrow hne
    · intro jobId lease hat hlease
      exact settle_superseded hsound hfresh hsettles hat hlease

/-- A fresh run in which a lease expires and the job is claimed again: the first worker finds the
job taken when it loads it, and the second one settles it. -/
def reclaimed : List Action := [
  .enqueue { payload := [], idempotencyKey := "seo-build" } 0,
  .claim "first" 1 0 [] id,
  .requeueStale defaultLeaseTimeoutSeconds requeueStaleBatchLimit (microseconds 901) [] id,
  .claim "second" 1 (microseconds 901) [] id,
  .load "first",
  .succeed "first",
  .load "second",
  .succeed "second"]

theorem leases_safe_reclaimed :
    StepsMeet step Fresh .initial reclaimed ∧
      ∀ row ∈ (run step .initial reclaimed).table.rows,
        row.lockedBy.isSome ↔ row.state = .running := by
  have hmeet : StepsMeet step Fresh .initial reclaimed := by decide
  exact ⟨hmeet, fun row hrow ↦ ((leases_safe reclaimed hmeet).1 row hrow).1⟩

/-- The first worker loads the job that it runs, and loses its lease before it settles it. -/
def takeover : List Action := [
  .enqueue { payload := [], idempotencyKey := "seo-build" } 0,
  .claim "first" 1 0 [] id,
  .load "first",
  .requeueStale defaultLeaseTimeoutSeconds requeueStaleBatchLimit (microseconds 901) [] id,
  .claim "second" 1 (microseconds 901) [] id]

theorem stale_settle_lands :
    ∃ row ∈ (run step .initial takeover).table.rows,
      ∃ next ∈ (run step .initial (takeover ++ [.succeed "first"])).table.rows,
      next.id = row.id ∧ row.runsUnder "second" ∧ next.state = .succeeded ∧
        ¬ (run step .initial takeover).Holds "first" row.id := by
  have hsecond : ∀ row ∈ (run step .initial takeover).table.rows, row.lockedBy = some "second" := by
    decide
  have hlanded : ∃ row ∈ (run step .initial takeover).table.rows,
      ∃ next ∈ (run step .initial (takeover ++ [.succeed "first"])).table.rows,
      next.id = row.id ∧ row.runsUnder "second" ∧ next.state = .succeeded := by
    decide
  obtain ⟨row, hrow, next, hnext, hid, hruns, hstate⟩ := hlanded
  refine ⟨row, hrow, next, hnext, hid, hruns, hstate, ?_⟩
  rintro ⟨lease, -, -, held, hheld, -, hheldRuns⟩
  have hfirst : some "first" = some "second" := hheldRuns.2.symm.trans (hsecond held hheld)
  simp at hfirst

end AiStp.Queue
