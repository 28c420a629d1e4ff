import AiStp.Queue.Engine
import AiStp.Library.Runs

/-!
# Workers and clients of one queue

The state is the table with what every worker and every cancelling client is at. A worker claims at
most one job when it is idle, runs the handler, loads the row in a status session and settles it
there, or breaks off at any point and is idle again (`abandon`: an error of the infrastructure, or
the process starting anew). Heartbeats and both ways of requeueing may come at any moment. A cancel
is a read and a write that other steps may come between.

`State.leases` counts the claims of each job: it names the lease of an attempt and no operation
reads it. `Change` lists what a step can do to a row.
-/

set_option autoImplicit false

namespace AiStp.Queue

open Library Runs

/-! ### The machine -/

/-- What a worker is at: the handler of a job under a lease, or the session that loaded its row. -/
inductive WorkerState where
  | idle
  | handling (jobId lease : Nat)
  | settling (lease : Nat) (held : Job)

structure State where
  table : Table
  workers : String → WorkerState
  cancelling : String → Option Job
  leases : Nat → Nat

/-- The object that the status session of a worker holds. -/
def State.held? (state : State) (worker : String) : Option Job :=
  match state.workers worker with
  | .settling _ held => some held
  | _ => none

variable {worker : String}

theorem State.held?_of_settling {state : State} {lease : Nat} {held : Job}
    (h : state.workers worker = .settling lease held) : state.held? worker = some held := by
  simp [State.held?, h]

theorem State.settling_of_held? {state : State} {held : Job} (h : state.held? worker = some held) :
    ∃ lease, state.workers worker = .settling lease held := by
  unfold State.held? at h
  split at h
  · next lease found hsettling => exact ⟨lease, Option.some.inj h ▸ hsettling⟩
  · exact nomatch h

def State.initial : State where
  table := .empty
  workers _ := .idle
  cancelling _ := none
  leases _ := 0

inductive Action where
  | enqueue (request : Request) (now : Moment)
  | claim (worker : String) (batchSize : Nat) (now : Moment) (locked : List Nat)
      (listed : Nat → Nat)
  | load (worker : String)
  | succeed (worker : String)
  | fail (worker : String) (failure : Failure) (now : Moment)
  | abandon (worker : String)
  | heartbeat (worker : String) (jobId : Nat) (now : Moment)
  | requeueStale (leaseTimeoutSeconds limit : Nat) (now : Moment) (locked : List Nat)
      (listed : Nat → Nat)
  | requeueLocked (worker : String)
  | cancelRead (client idempotencyKey : String) (organizationId : Option String)
  | cancelWrite (client : String)

/-- A worker owns at most one job that is not finished, whatever its batch size. -/
def State.claimable (state : State) (batchSize : Nat) (now : Moment) (locked : List Nat)
    (listed : Nat → Nat) : List Job :=
  state.table.claimed (min batchSize 1) now locked listed

def State.enqueue (state : State) (request : Request) (now : Moment) : State :=
  match state.table.enqueue request now with
  | .error _ => state
  | .ok table => { state with table := table }

/-- A worker takes the job that its claim returned, under a new lease. -/
def State.take (state : State) (worker : String) : List Job → State
  | [] => state
  | job :: _ =>
    let lease := state.leases job.id + 1
    { state with
      workers := Function.update state.workers worker (.handling job.id lease)
      leases := Function.update state.leases job.id lease }

def State.claim (state : State) (worker : String) (batchSize : Nat) (now : Moment)
    (locked : List Nat) (listed : Nat → Nat) : State :=
  match state.workers worker with
  | .idle =>
    let claimed := state.table.claim worker (min batchSize 1) now locked listed
    { state with table := claimed.1 }.take worker claimed.2
  | _ => state

def State.load (state : State) (worker : String) : State :=
  match state.workers worker with
  | .handling jobId lease =>
    let next := match state.table.row? jobId with
      | none => .idle
      | some row => .settling lease row
    { state with workers := Function.update state.workers worker next }
  | _ => state

/-- The status session of a worker settles the object that it holds. -/
def State.settle (state : State) (worker : String) (settled : Job → Table × Bool) : State :=
  match state.workers worker with
  | .settling _ held =>
    { state with
      table := (settled held).1
      workers := Function.update state.workers worker .idle }
  | _ => state

def State.cancelRead (state : State) (client idempotencyKey : String)
    (organizationId : Option String) : State :=
  { state with
    cancelling := Function.update state.cancelling client
      (state.table.cancelRead idempotencyKey organizationId) }

def State.cancelWrite (state : State) (client : String) : State :=
  match state.cancelling client with
  | none => state
  | some held =>
    { state with
      table := state.table.cancelWrite held
      cancelling := Function.update state.cancelling client none }

def step (state : State) : Action → State
  | .enqueue request now => state.enqueue request now
  | .claim worker batchSize now locked listed => state.claim worker batchSize now locked listed
  | .load worker => state.load worker
  | .succeed worker => state.settle worker (state.table.markSucceeded · (some worker))
  | .fail worker failure now => state.settle worker (state.table.fail · failure now (some worker))
  | .abandon worker => { state with workers := Function.update state.workers worker .idle }
  | .heartbeat worker jobId now =>
    { state with table := state.table.heartbeat worker jobId now }
  | .requeueStale leaseTimeoutSeconds limit now locked listed =>
    { state with table := state.table.requeueStale leaseTimeoutSeconds limit now locked listed }
  | .requeueLocked worker =>
    { state with
      table := state.table.requeueLocked worker
      workers := Function.update state.workers worker .idle }
  | .cancelRead client idempotencyKey organizationId =>
    state.cancelRead client idempotencyKey organizationId
  | .cancelWrite client => state.cancelWrite client

/-! ### What a step does to the table -/

/-- The update statement of a settling session that writes over the object it holds. -/
def State.settleStatement (state : State) (worker : String) (written : Job → Job) : Update :=
  match state.workers worker with
  | .settling _ held =>
    match ownedRunningJob state.table held (some worker) with
    | some row => flushStatement row (written row)
    | none => .idle
  | _ => .idle

/-- The update statement that a step sends to the table. -/
def State.statement (state : State) : Action → Update
  | .claim worker batchSize now locked listed =>
    match state.workers worker with
    | .idle => claimStatement (state.claimable batchSize now locked listed) worker now
    | _ => .idle
  | .succeed worker => state.settleStatement worker Job.succeed
  | .fail worker failure now => state.settleStatement worker (·.fail failure now)
  | .heartbeat worker jobId now => heartbeatStatement worker jobId now
  | .requeueStale leaseTimeoutSeconds limit now locked listed =>
    reclaimStatement (state.table.expired leaseTimeoutSeconds limit now locked listed) now
  | .requeueLocked worker => requeueStatement worker
  | .cancelWrite client =>
    match state.cancelling client with
    | some held => flushStatement held { held with state := .cancelled }
    | none => .idle
  | _ => .idle

variable {row : Job}

theorem ownedRunningJob_eq_some {table : Table} {held : Job} :
    ownedRunningJob table held (some worker) = some row ↔
      (table.row? held.id).isSome ∧ held.runsUnder worker ∧ row = held := by
  unfold ownedRunningJob Job.runsUnder
  cases hrow : table.row? held.id with
  | none => simp
  | some found =>
    by_cases hstate : held.state = .running
    · by_cases howner : held.lockedBy = some worker
      · simp [hstate, howner, eq_comm]
      · simp [hstate, howner]
    · simp [hstate]

theorem settle_table (state : State) (worker : String) (settled : Job → Job) :
    (state.settle worker (state.table.settle · (some worker) settled)).table =
      state.table.update (state.settleStatement worker settled) := by
  unfold State.settle State.settleStatement
  split
  · show (match ownedRunningJob state.table _ (some worker) with
      | none => (state.table, false)
      | some row => (state.table.update (flushStatement row (settled row)), true)).1 = _
    split
    · next hrow => simp [hrow]
    · next row hrow => simp [hrow]
  · simp

@[simp] theorem take_table (state : State) (worker : String) (jobs : List Job) :
    (state.take worker jobs).table = state.table := by
  cases jobs with
  | nil => rfl
  | cons job rest => rfl

@[simp] theorem take_cancelling (state : State) (worker : String) (jobs : List Job) :
    (state.take worker jobs).cancelling = state.cancelling := by
  cases jobs with
  | nil => rfl
  | cons job rest => rfl

theorem claim_table (state : State) (worker : String) (batchSize : Nat) (now : Moment)
    (locked : List Nat) (listed : Nat → Nat) :
    (state.claim worker batchSize now locked listed).table =
      state.table.update (state.statement (.claim worker batchSize now locked listed)) := by
  simp only [State.claim, State.statement]
  split
  · rw [take_table]
    rfl
  · rw [Table.update_idle]

theorem step_table (state : State) (action : Action)
    (haction : ∀ request now, action ≠ .enqueue request now) :
    (step state action).table = state.table.update (state.statement action) := by
  cases action with
  | enqueue request now => exact absurd rfl (haction request now)
  | claim worker batchSize now locked listed => exact claim_table state worker batchSize now locked listed
  | load worker =>
    show (state.load worker).table = state.table.update .idle
    rw [Table.update_idle]
    unfold State.load
    split
    · rfl
    · rfl
  | succeed worker => exact settle_table state worker Job.succeed
  | fail worker failure now => exact settle_table state worker (·.fail failure now)
  | abandon worker => exact (Table.update_idle _).symm
  | heartbeat worker jobId now => rfl
  | requeueStale leaseTimeoutSeconds limit now locked listed => rfl
  | requeueLocked worker => rfl
  | cancelRead client idempotencyKey organizationId => exact (Table.update_idle _).symm
  | cancelWrite client =>
    simp only [step, State.cancelWrite, State.statement]
    split
    · next hnone => simp [hnone]
    · next held hheld => simp [hheld, Table.cancelWrite]

/-! ### What a step does to a row -/

/-- What one step can do to a row that the table has before it. -/
inductive Change (state : State) : Action → Job → Job → Prop
  | kept (action : Action) (row : Job) : Change state action row row
  | claimed {worker : String} {batchSize : Nat} {now : Moment} {locked : List Nat}
      {listed : Nat → Nat} {row : Job} (hidle : state.workers worker = .idle)
      (htaken : state.claimable batchSize now locked listed = [row]) (hdue : row.due now) :
      Change state (.claim worker batchSize now locked listed) row (row.claim worker now)
  | succeeded {worker : String} {lease : Nat} {held row : Job}
      (hsettling : state.workers worker = .settling lease held) (howned : held.runsUnder worker)
      (hid : row.id = held.id) :
      Change state (.succeed worker) row (Job.flush held held.succeed row)
  | failed {worker : String} {failure : Failure} {now : Moment} {lease : Nat} {held row : Job}
      (hsettling : state.workers worker = .settling lease held) (howned : held.runsUnder worker)
      (hid : row.id = held.id) :
      Change state (.fail worker failure now) row (Job.flush held (held.fail failure now) row)
  | extended {worker : String} {jobId : Nat} {now : Moment} {row : Job}
      (hruns : row.runsUnder worker) :
      Change state (.heartbeat worker jobId now) row { row with lockedAt := some now }
  | reclaimed {leaseTimeoutSeconds limit : Nat} {now : Moment} {locked : List Nat}
      {listed : Nat → Nat} {row : Job}
      (hexpired : row ∈ state.table.expired leaseTimeoutSeconds limit now locked listed) :
      Change state (.requeueStale leaseTimeoutSeconds limit now locked listed) row
        (row.reclaim now)
  | requeued {worker : String} {row : Job} (hruns : row.runsUnder worker) :
      Change state (.requeueLocked worker) row
        { row with state := .queued, lockedBy := none, lockedAt := none }
  | cancelled {client : String} {held row : Job} (hheld : state.cancelling client = some held)
      (hid : row.id = held.id) :
      Change state (.cancelWrite client) row
        (Job.flush held { held with state := .cancelled } row)

section Claiming

variable {state : State} {batchSize : Nat} {now : Moment} {locked : List Nat}
  {listed : Nat → Nat} {job : Job}

theorem mem_claimed {table : Table} {batch : Nat} (h : job ∈ table.claimed batch now locked listed) :
    job ∈ table.rows ∧ job.due now := by
  have hmem := List.mem_of_mem_take h
  rw [List.mem_insertionSort, List.mem_filter] at hmem
  have hdue := of_decide_eq_true hmem.2
  exact ⟨hmem.1, hdue.1⟩

theorem claimable_of_mem (h : job ∈ state.claimable batchSize now locked listed) :
    state.claimable batchSize now locked listed = [job] := by
  have hlength : (state.claimable batchSize now locked listed).length ≤ 1 := by
    refine (List.length_take_le _ _).trans ?_
    omega
  match hjobs : state.claimable batchSize now locked listed with
  | [] => simp [hjobs] at h
  | [taken] =>
    rw [hjobs, List.mem_singleton] at h
    rw [h]
  | first :: second :: rest => simp [hjobs] at hlength

theorem claimable_of_id (hjob : job ∈ state.table.rows)
    (h : job.id ∈ (state.claimable batchSize now locked listed).map (·.id)) :
    state.claimable batchSize now locked listed = [job] ∧ job.due now := by
  obtain ⟨taken, htaken, hid⟩ := List.mem_map.mp h
  have hmem := mem_claimed htaken
  have hsame : taken = job := Table.eq_of_id hmem.1 hjob hid
  rw [← hsame]
  exact ⟨claimable_of_mem htaken, hmem.2⟩

end Claiming

theorem mem_expired {table : Table} {leaseTimeoutSeconds limit : Nat} {now : Moment}
    {locked : List Nat} {listed : Nat → Nat} {job : Job}
    (h : job ∈ table.expired leaseTimeoutSeconds limit now locked listed) :
    job ∈ table.rows ∧ job.stale (now - microseconds leaseTimeoutSeconds) := by
  have hmem := List.mem_of_mem_take h
  rw [List.mem_insertionSort, List.mem_filter] at hmem
  have hstale := of_decide_eq_true hmem.2
  exact ⟨hmem.1, hstale.1⟩

variable {action : Action}

/-- A statement changes the rows it selects only. -/
theorem Change.of_selected {state : State} {statement : Update}
    (h : statement.selected row = true → Change state action row (statement.set row)) :
    Change state action row (statement.apply row) := by
  unfold Update.apply
  split_ifs with hselected
  · exact h hselected
  · exact .kept action row

theorem change_settle {state : State} {settled : Job → Job} (row : Job)
    (hchange : ∀ {lease : Nat} {held : Job}, state.workers worker = .settling lease held →
      held.runsUnder worker → row.id = held.id →
      Change state action row (Job.flush held (settled held) row)) :
    Change state action row ((state.settleStatement worker settled).apply row) := by
  unfold State.settleStatement
  split
  · next lease held hsettling =>
    split
    · next found hfound =>
      obtain ⟨-, howned, rfl⟩ := ownedRunningJob_eq_some.mp hfound
      exact .of_selected fun hid ↦ hchange hsettling howned (of_decide_eq_true hid)
    · exact .kept action row
  · exact .kept action row

theorem change_apply {state : State} (hrow : row ∈ state.table.rows) (action : Action) :
    Change state action row ((state.statement action).apply row) := by
  cases action with
  | enqueue request now => exact .kept _ row
  | claim worker batchSize now locked listed =>
    simp only [State.statement]
    split
    · next hidle =>
      refine .of_selected fun hselected ↦ ?_
      obtain ⟨htaken, hdue⟩ := claimable_of_id hrow (of_decide_eq_true hselected)
      exact .claimed hidle htaken hdue
    · exact .kept _ row
  | load worker => exact .kept _ row
  | succeed worker => exact change_settle row .succeeded
  | fail worker failure now => exact change_settle row .failed
  | abandon worker => exact .kept _ row
  | heartbeat worker jobId now =>
    exact .of_selected fun hselected ↦ .extended (of_decide_eq_true hselected).2
  | requeueStale leaseTimeoutSeconds limit now locked listed =>
    refine .of_selected fun hselected ↦ ?_
    obtain ⟨taken, htaken, hid⟩ := List.mem_map.mp (of_decide_eq_true hselected)
    have hsame : taken = row := Table.eq_of_id (mem_expired htaken).1 hrow hid
    exact .reclaimed (hsame ▸ htaken)
  | requeueLocked worker =>
    exact .of_selected fun hselected ↦ .requeued (of_decide_eq_true hselected)
  | cancelRead client idempotencyKey organizationId => exact .kept _ row
  | cancelWrite client =>
    simp only [State.statement]
    split
    · next held hheld =>
      exact .of_selected fun hselected ↦ .cancelled hheld (of_decide_eq_true hselected)
    · exact .kept _ row

theorem enqueue_rows (state : State) (request : Request) (now : Moment) :
    (step state (.enqueue request now)).table = state.table ∨
      ∃ payload, (step state (.enqueue request now)).table.rows =
        state.table.rows ++ [request.row payload state.table.nextId now] := by
  simp only [step, State.enqueue]
  split
  · exact .inl rfl
  · next next hnext => exact Table.enqueue_eq_ok hnext

theorem mem_apply {state : State} (hrow : row ∈ state.table.rows)
    (haction : ∀ request now, action ≠ .enqueue request now) :
    (state.statement action).apply row ∈ (step state action).table.rows := by
  rw [step_table state action haction]
  exact List.mem_map_of_mem hrow

/-- A row before a step is a row after it, changed as the step may. -/
theorem exists_mem_step {state : State} (hrow : row ∈ state.table.rows) (action : Action) :
    ∃ next ∈ (step state action).table.rows, next.id = row.id ∧ Change state action row next := by
  by_cases haction : ∃ request now, action = .enqueue request now
  · obtain ⟨request, now, rfl⟩ := haction
    refine ⟨row, ?_, rfl, .kept _ row⟩
    rcases enqueue_rows state request now with hsame | ⟨payload, hrows⟩
    · rwa [hsame]
    · rw [hrows]
      exact List.mem_append_left _ hrow
  · exact ⟨(state.statement action).apply row,
      mem_apply hrow fun request now h ↦ haction ⟨request, now, h⟩, by simp,
      change_apply hrow action⟩

/-- A row after a step is a row before it, changed as the step may, or it was enqueued. -/
theorem mem_step {state : State} {next : Job} (hnext : next ∈ (step state action).table.rows) :
    (∃ row ∈ state.table.rows, next.id = row.id ∧ Change state action row next) ∨
      ∃ request payload now, action = .enqueue request now ∧
        next = request.row payload state.table.nextId now := by
  by_cases haction : ∃ request now, action = .enqueue request now
  · obtain ⟨request, now, rfl⟩ := haction
    rcases enqueue_rows state request now with hsame | ⟨payload, hrows⟩
    · rw [hsame] at hnext
      exact .inl ⟨next, hnext, rfl, .kept _ next⟩
    · rw [hrows, List.mem_append, List.mem_singleton] at hnext
      rcases hnext with hold | hnew
      · exact .inl ⟨next, hold, rfl, .kept _ next⟩
      · exact .inr ⟨request, payload, now, rfl, hnew⟩
  · rw [step_table state action fun request now h ↦ haction ⟨request, now, h⟩] at hnext
    obtain ⟨row, hrow, rfl⟩ := List.mem_map.mp hnext
    exact .inl ⟨row, hrow, by simp, change_apply hrow action⟩

/-! ### What a step does to a worker -/

theorem enqueue_workers (state : State) (request : Request) (now : Moment) :
    (state.enqueue request now).workers = state.workers := by
  unfold State.enqueue
  split
  · rfl
  · rfl

theorem update_idle_cases (workers : String → WorkerState) (other worker : String) :
    Function.update workers other .idle worker = workers worker ∨
      Function.update workers other .idle worker = .idle := by
  by_cases hworker : worker = other
  · subst hworker
    simp
  · simp [hworker]

theorem settle_workers (state : State) (other worker : String) (settled : Job → Table × Bool) :
    (state.settle other settled).workers worker = state.workers worker ∨
      (state.settle other settled).workers worker = .idle := by
  unfold State.settle
  split
  · exact update_idle_cases _ _ _
  · exact .inl rfl

theorem take_cases (state : State) (worker : String) (jobs : List Job) :
    (state.take worker jobs).workers = state.workers ∧
      (state.take worker jobs).leases = state.leases ∨
    ∃ job ∈ jobs,
      (state.take worker jobs).workers =
        Function.update state.workers worker (.handling job.id (state.leases job.id + 1)) ∧
      (state.take worker jobs).leases =
        Function.update state.leases job.id (state.leases job.id + 1) := by
  cases jobs with
  | nil => exact .inl ⟨rfl, rfl⟩
  | cons job rest => exact .inr ⟨job, List.mem_cons_self, rfl, rfl⟩

theorem claim_cases (state : State) (worker : String) (batchSize : Nat) (now : Moment)
    (locked : List Nat) (listed : Nat → Nat) :
    (state.claim worker batchSize now locked listed).workers = state.workers ∧
      (state.claim worker batchSize now locked listed).leases = state.leases ∨
    ∃ job, state.workers worker = .idle ∧
      state.claimable batchSize now locked listed = [job] ∧
      (state.claim worker batchSize now locked listed).workers =
        Function.update state.workers worker (.handling job.id (state.leases job.id + 1)) ∧
      (state.claim worker batchSize now locked listed).leases =
        Function.update state.leases job.id (state.leases job.id + 1) := by
  unfold State.claim
  split
  · next hidle =>
    have htake := take_cases
      { state with table := (state.table.claim worker (min batchSize 1) now locked listed).1 }
      worker (state.claimable batchSize now locked listed)
    rcases htake with hnone | ⟨job, hjob, htaken⟩
    · exact .inl hnone
    · exact .inr ⟨job, hidle, claimable_of_mem hjob, htaken⟩
  · exact .inl ⟨rfl, rfl⟩

theorem workers_step (state : State) (action : Action) (worker : String) :
    (step state action).workers worker = state.workers worker ∨
    (step state action).workers worker = .idle ∨
    (∃ lease row, action = .load worker ∧ row ∈ state.table.rows ∧
      state.workers worker = .handling row.id lease ∧
      (step state action).workers worker = .settling lease row) ∨
    (∃ batchSize now locked listed job, action = .claim worker batchSize now locked listed ∧
      state.workers worker = .idle ∧
      state.claimable batchSize now locked listed = [job] ∧
      (step state action).leases job.id = state.leases job.id + 1 ∧
      (step state action).workers worker = .handling job.id (state.leases job.id + 1)) := by
  cases action with
  | enqueue request now =>
    left
    exact congrFun (enqueue_workers state request now) worker
  | claim other batchSize now locked listed =>
    rcases claim_cases state other batchSize now locked listed with
      ⟨hworkers, -⟩ | ⟨job, hidle, hone, hworkers, hleases⟩
    · exact .inl (congrFun hworkers worker)
    · by_cases hworker : worker = other
      · subst hworker
        refine .inr (.inr (.inr ⟨batchSize, now, locked, listed, job, rfl, hidle, hone, ?_, ?_⟩))
        · show (state.claim worker batchSize now locked listed).leases job.id = _
          rw [hleases, Function.update_self]
        · show (state.claim worker batchSize now locked listed).workers worker = _
          rw [hworkers, Function.update_self]
      · left
        show (state.claim other batchSize now locked listed).workers worker = _
        rw [hworkers, Function.update_of_ne hworker]
  | load other =>
    by_cases hworker : worker = other
    · subst hworker
      simp only [step, State.load]
      split
      · next jobId lease hhandling =>
        simp only [Function.update_self]
        cases hrow : state.table.row? jobId with
        | none => exact .inr (.inl rfl)
        | some row =>
          obtain ⟨hmem, hid⟩ := Table.row?_eq_some.mp hrow
          rw [← hid] at hhandling
          exact .inr (.inr (.inl ⟨lease, row, trivial, hmem, hhandling, rfl⟩))
      · exact .inl rfl
    · left
      simp only [step, State.load]
      split
      · exact Function.update_of_ne hworker _ _
      · rfl
  | succeed other => exact or_assoc.mp (.inl (settle_workers state other worker _))
  | fail other failure now => exact or_assoc.mp (.inl (settle_workers state other worker _))
  | abandon other => exact or_assoc.mp (.inl (update_idle_cases state.workers other worker))
  | heartbeat other jobId now => exact .inl rfl
  | requeueStale leaseTimeoutSeconds limit now locked listed => exact .inl rfl
  | requeueLocked other => exact or_assoc.mp (.inl (update_idle_cases state.workers other worker))
  | cancelRead client idempotencyKey organizationId => exact .inl rfl
  | cancelWrite client =>
    left
    simp only [step, State.cancelWrite]
    split
    · rfl
    · rfl

theorem step_leases {state : State} (haction : ∀ worker batchSize now locked listed,
      action ≠ .claim worker batchSize now locked listed) :
    (step state action).leases = state.leases := by
  cases action with
  | claim worker batchSize now locked listed =>
    exact absurd rfl (haction worker batchSize now locked listed)
  | enqueue request now => simp only [step, State.enqueue]; split <;> rfl
  | load worker => simp only [step, State.load]; split <;> rfl
  | succeed worker => simp only [step, State.settle]; split <;> rfl
  | fail worker failure now => simp only [step, State.settle]; split <;> rfl
  | cancelWrite client => simp only [step, State.cancelWrite]; split <;> rfl
  | _ => rfl

theorem leases_step (state : State) (action : Action) (jobId : Nat) :
    (step state action).leases jobId = state.leases jobId ∨
    (∃ worker batchSize now locked listed job, action = .claim worker batchSize now locked listed ∧
      state.workers worker = .idle ∧ state.claimable batchSize now locked listed = [job] ∧
      job.id = jobId) := by
  by_cases haction : ∃ worker batchSize now locked listed,
      action = .claim worker batchSize now locked listed
  · obtain ⟨worker, batchSize, now, locked, listed, rfl⟩ := haction
    rcases claim_cases state worker batchSize now locked listed with
      ⟨-, hleases⟩ | ⟨job, hidle, hone, -, hleases⟩
    · exact .inl (congrFun hleases jobId)
    · have hstep : (step state (.claim worker batchSize now locked listed)).leases jobId =
          Function.update state.leases job.id (state.leases job.id + 1) jobId :=
        congrFun hleases jobId
      by_cases hid : job.id = jobId
      · exact .inr ⟨worker, batchSize, now, locked, listed, job, rfl, hidle, hone, hid⟩
      · left
        rw [hstep, Function.update_of_ne (Ne.symm hid)]
  · left
    rw [step_leases fun worker batchSize now locked listed h ↦
      haction ⟨worker, batchSize, now, locked, listed, h⟩]

theorem cancelling_step {state : State} {client : String} {held : Job}
    (h : (step state action).cancelling client = some held) :
    state.cancelling client = some held ∨
      held ∈ state.table.rows ∧ held.state ∈ claimableStates := by
  cases action with
  | cancelRead other idempotencyKey organizationId =>
    simp only [step, State.cancelRead, Function.update_apply] at h
    split_ifs at h
    · rw [Table.cancelRead, Option.filter_eq_some_iff] at h
      exact .inr ⟨List.mem_of_find?_eq_some h.1, of_decide_eq_true h.2⟩
    · exact .inl h
  | cancelWrite other =>
    left
    simp only [step, State.cancelWrite] at h
    split at h
    · exact h
    · simp only [Function.update_apply] at h
      split_ifs at h
      exact h
  | enqueue request now => left; simp only [step, State.enqueue] at h; split at h <;> exact h
  | claim worker batchSize now locked listed =>
    left
    rw [← h]
    simp only [step, State.claim]
    split
    · rw [take_cancelling]
    · rfl
  | load worker => left; simp only [step, State.load] at h; split at h <;> exact h
  | succeed worker => left; simp only [step, State.settle] at h; split at h <;> exact h
  | fail worker failure now => left; simp only [step, State.settle] at h; split at h <;> exact h
  | _ => exact .inl h

end AiStp.Queue
