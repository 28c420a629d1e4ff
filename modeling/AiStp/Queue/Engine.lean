import AiStp.Corporate.Records
import AiStp.Queue.Job

/-!
# The operations of the queue

Each operation is one statement, or one group of statements under row locks, on the table of jobs.
The rows that other transactions hold locked are an argument of the operations that skip them, and
so is the order in which the database lists rows that the query does not order.

The settling operations work on an object that the session of the worker has loaded before. The
locking read of `ownedRunningJob` finds that object in the session and does not refresh it, so the
ownership check reads what was loaded (`held`), and the flush writes the columns that changed over
the row as it stands. `cancel` is a plain read and a later write.
-/

set_option autoImplicit false

namespace AiStp.Queue

open Corporate Library

/-! ### The table -/

/-- The table of jobs, keyed by identities that its sequence gives out in order. -/
structure Table where
  rows : List Job
  nextId : Nat
  distinct : (rows.map (·.id)).Nodup
  below : ∀ job ∈ rows, job.id < nextId

def Table.empty : Table where
  rows := []
  nextId := 1
  distinct := List.nodup_nil
  below := by simp

/-- The row of an identity. -/
def Table.row? (table : Table) (id : Nat) : Option Job :=
  table.rows.find? (·.id = id)

/-- Rows of one identity are one row. -/
theorem Table.eq_of_id {table : Table} {first second : Job} (hfirst : first ∈ table.rows)
    (hsecond : second ∈ table.rows) (hid : first.id = second.id) : first = second :=
  List.inj_on_of_nodup_map table.distinct hfirst hsecond hid

theorem Table.row?_eq_some {table : Table} {id : Nat} {job : Job} :
    table.row? id = some job ↔ job ∈ table.rows ∧ job.id = id := by
  constructor
  · intro h
    exact ⟨List.mem_of_find?_eq_some h, by simpa using List.find?_some h⟩
  · rintro ⟨hmem, hid⟩
    have hsome : (table.row? id).isSome := by
      rw [Table.row?, List.find?_isSome]
      exact ⟨job, hmem, by simpa using hid⟩
    obtain ⟨found, hfound⟩ := Option.isSome_iff_exists.mp hsome
    have hfoundId : found.id = id := by simpa using List.find?_some hfound
    rw [← Table.eq_of_id (List.mem_of_find?_eq_some hfound) hmem (hfoundId.trans hid.symm)]
    exact hfound

/-- A statement that updates the selected rows. -/
structure Update where
  selected : Job → Bool
  set : Job → Job
  keepsId : ∀ job, (set job).id = job.id

/-- What becomes of one row. -/
def Update.apply (statement : Update) (job : Job) : Job :=
  if statement.selected job then statement.set job else job

/-- The statement that selects no row. -/
def Update.idle : Update where
  selected _ := false
  set job := job
  keepsId _ := rfl

@[simp] theorem Update.apply_id (statement : Update) (job : Job) :
    (statement.apply job).id = job.id := by
  unfold Update.apply
  split_ifs
  · exact statement.keepsId job
  · rfl

@[simp] theorem Update.idle_apply (job : Job) : Update.idle.apply job = job := rfl

theorem Update.ids_map (statement : Update) (rows : List Job) :
    (rows.map statement.apply).map (·.id) = rows.map (·.id) := by
  rw [List.map_map]
  exact List.map_congr_left fun job _ ↦ statement.apply_id job

def Table.update (table : Table) (statement : Update) : Table where
  rows := table.rows.map statement.apply
  nextId := table.nextId
  distinct := by
    rw [statement.ids_map]
    exact table.distinct
  below := by simpa using table.below

@[simp] theorem Table.update_idle (table : Table) : table.update .idle = table := by
  simp [Table.update, show Update.idle.apply = id from funext fun _ ↦ rfl]

/-- The table with a row inserted under the next identity of the sequence. -/
def Table.insert (table : Table) (row : Nat → Job) (hrow : ∀ id, (row id).id = id) : Table where
  rows := table.rows ++ [row table.nextId]
  nextId := table.nextId + 1
  distinct := by
    have hfresh : table.nextId ∉ table.rows.map (·.id) := by
      intro hmem
      obtain ⟨job, hjob, hid⟩ := List.mem_map.mp hmem
      exact (table.below job hjob).ne hid
    simpa [List.nodup_append, hrow, table.distinct] using hfresh
  below := by
    intro job hjob
    rcases List.mem_append.mp hjob with hold | hnew
    · exact Nat.lt_succ_of_lt (table.below job hold)
    · rw [List.mem_singleton.mp hnew, hrow]
      exact Nat.lt_succ_self _

/-! ### Enqueueing -/

def tenantEnvelopeKey : String := "_tenant"

def defaultMaxAttempts : Int := 5

def principalText : PrincipalType → String
  | .user => "user"
  | .servicePrincipal => "service_principal"

/-- The arguments of `enqueue`. -/
structure Request where
  payload : Payload
  idempotencyKey : String
  priority : Int := 0
  maxAttempts : Int := defaultMaxAttempts
  runAfter : Option Moment := none
  organizationId : Option String := none
  authorizationRevision : Option Int := none
  principalType : Option PrincipalType := none
  principalId : Option String := none
  requiredPermission : Option String := none
  scopeKind : String := "organization"
  scopeId : Option String := none

structure TenantJobInvalid where
  message : String
deriving DecidableEq

def optionalText : Option String → Json
  | none => .null
  | some text => .string text

/-- Two documents of scalar fields that differ in the order of their fields at most. -/
def sameEnvelope (supplied : Json) (envelope : Payload) : Bool :=
  match supplied with
  | .object fields =>
    fields.length == envelope.length &&
      envelope.all fun field ↦ fields.lookup field.1 == some field.2
  | _ => false

/-- The payload with the value under a key replaced, or added at the end. -/
def Payload.set (payload : Payload) (key : String) (value : Json) : Payload :=
  if payload.any (·.1 == key) then
    payload.map fun field ↦ if field.1 == key then (key, value) else field
  else
    payload ++ [(key, value)]

/-- The envelope of a tenant job, from a complete authorization decision. -/
def Request.envelope? (request : Request) (organization : String) : Option Payload := do
  let revision ← request.authorizationRevision
  guard (1 ≤ revision)
  let principalType ← request.principalType
  let principalId ← request.principalId
  let permission ← request.requiredPermission
  return [
    ("organization_id", .string organization),
    ("authorization_revision", .number (.integer revision)),
    ("principal_type", .string (principalText principalType)),
    ("principal_id", .string principalId),
    ("required_permission", .string permission),
    ("scope_kind", .string request.scopeKind),
    ("scope_id", optionalText request.scopeId)]

/-- The payload that the inserted row carries. -/
def Request.safePayload (request : Request) : Except TenantJobInvalid Payload :=
  match request.organizationId with
  | none =>
    if (request.payload.lookup tenantEnvelopeKey).isSome then
      .error ⟨"global job cannot supply a tenant envelope"⟩
    else
      .ok request.payload
  | some organization =>
    match request.envelope? organization with
    | none => .error ⟨"tenant job requires an authorization decision"⟩
    | some envelope =>
      let supplied := (request.payload.lookup tenantEnvelopeKey).getD .null
      if supplied ≠ .null ∧ sameEnvelope supplied envelope = false then
        .error ⟨"tenant job envelope does not match queue scope"⟩
      else
        .ok (request.payload.set tenantEnvelopeKey (.object envelope))

/-- The row that a request inserts. -/
def Request.row (request : Request) (payload : Payload) (id : Nat) (now : Moment) : Job where
  id := id
  payload := payload
  organizationId := request.organizationId
  state := .queued
  priority := request.priority
  attempts := 0
  maxAttempts := request.maxAttempts
  runAfter := request.runAfter.getD now
  idempotencyKey := request.idempotencyKey
  lockedBy := none
  lockedAt := none
  lastError := none

/-- The job of a tenant, or the global one, under an idempotency key. -/
def Table.keyed? (table : Table) (idempotencyKey : String) (organizationId : Option String) :
    Option Job :=
  table.rows.find? fun job ↦ job.idempotencyKey = idempotencyKey ∧ job.organizationId = organizationId

/-- Insert a job; a duplicate key is a no-op. -/
def Table.enqueue (table : Table) (request : Request) (now : Moment) :
    Except TenantJobInvalid Table := do
  let payload ← request.safePayload
  match table.keyed? request.idempotencyKey request.organizationId with
  | some _ => return table
  | none => return table.insert (request.row payload · now) fun _ ↦ rfl

theorem Table.enqueue_eq_ok {table next : Table} {request : Request} {now : Moment}
    (h : table.enqueue request now = .ok next) :
    next = table ∨
      ∃ payload, next.rows = table.rows ++ [request.row payload table.nextId now] := by
  unfold Table.enqueue at h
  cases hpayload : request.safePayload with
  | error invalid =>
    rw [hpayload] at h
    exact nomatch h
  | ok payload =>
    rw [hpayload] at h
    cases hkeyed : table.keyed? request.idempotencyKey request.organizationId with
    | some job =>
      simp only [hkeyed, bind, Except.bind, pure, Except.pure, Except.ok.injEq] at h
      exact .inl h.symm
    | none =>
      simp only [hkeyed, bind, Except.bind, pure, Except.pure, Except.ok.injEq] at h
      refine .inr ⟨payload, ?_⟩
      rw [← h]
      rfl

/-! ### Claiming -/

/-- A job that may be claimed at a moment. -/
def Job.due (job : Job) (now : Moment) : Prop :=
  job.state ∈ claimableStates ∧ job.runAfter ≤ now

instance (job : Job) (now : Moment) : Decidable (job.due now) :=
  inferInstanceAs (Decidable (_ ∧ _))

/-- Higher priority first, then the earlier due moment, then the order of the database. -/
def claimOrder (listed : Nat → Nat) (first second : Job) : Prop :=
  second.priority < first.priority ∨
    first.priority = second.priority ∧
      (first.runAfter < second.runAfter ∨
        first.runAfter = second.runAfter ∧ listed first.id ≤ listed second.id)

instance (listed : Nat → Nat) : DecidableRel (claimOrder listed) :=
  fun _ _ ↦ inferInstanceAs (Decidable (_ ∨ _))

/-- The rows that a claim takes. -/
def Table.claimed (table : Table) (batch : Nat) (now : Moment) (locked : List Nat)
    (listed : Nat → Nat) : List Job :=
  ((table.rows.filter fun job ↦ job.due now ∧ job.id ∉ locked).insertionSort
    (claimOrder listed)).take batch

def Job.claim (job : Job) (workerId : String) (now : Moment) : Job :=
  { job with state := .running, lockedBy := some workerId, lockedAt := some now }

def claimStatement (jobs : List Job) (workerId : String) (now : Moment) : Update where
  selected job := job.id ∈ jobs.map (·.id)
  set job := job.claim workerId now
  keepsId _ := rfl

/-- Claim up to `batch` due jobs. -/
def Table.claim (table : Table) (workerId : String) (batch : Nat) (now : Moment)
    (locked : List Nat) (listed : Nat → Nat) : Table × List Job :=
  let jobs := table.claimed batch now locked listed
  (table.update (claimStatement jobs workerId now), jobs)

/-! ### Settling -/

/-- The object that the session holds, provided it runs under the expected owner. -/
def ownedRunningJob (table : Table) (held : Job) (lockedBy : Option String) : Option Job :=
  match lockedBy, table.row? held.id with
  | some owner, some _ =>
    if held.state ≠ .running ∨ held.lockedBy ≠ some owner then none else some held
  | _, _ => none

/-- The flush of an object that a session has changed. -/
def flushStatement (held written : Job) : Update where
  selected job := job.id = held.id
  set := Job.flush held written
  keepsId _ := rfl

theorem flushStatement_apply {held job : Job} (h : job.id = held.id) (written : Job) :
    (flushStatement held written).apply job = Job.flush held written job :=
  if_pos (decide_eq_true h)

/-- What both settling operations do with the row they own: write it as settled. -/
def Table.settle (table : Table) (job : Job) (lockedBy : Option String) (settled : Job → Job) :
    Table × Bool :=
  match ownedRunningJob table job (lockedBy <|> job.lockedBy) with
  | none => (table, false)
  | some row => (table.update (flushStatement row (settled row)), true)

def Job.succeed (job : Job) : Job :=
  { job with
    state := .succeeded
    lockedBy := none
    lockedAt := none
    lastError := none
    payload := scrubSettledPayload job.payload }

/-- Move a job to its single success state. -/
def Table.markSucceeded (table : Table) (job : Job) (lockedBy : Option String) : Table × Bool :=
  table.settle job lockedBy Job.succeed

/-- What a handler reported when it failed. -/
structure Failure where
  error : String
  permanent : Bool := false
  notBefore : Option Moment := none

def truncated (length : Nat) (text : String) : String :=
  String.ofList (text.toList.take length)

/-- No attempt is left after the current one. -/
def Job.exhausted (job : Job) : Prop :=
  job.maxAttempts ≤ job.attempts + 1

instance (job : Job) : Decidable job.exhausted := inferInstanceAs (Decidable (_ ≤ _))

/-- The moment of the retry: after the backoff, and not before the moment that the failure named. -/
def retryMoment (attempts : Nat) (notBefore : Option Moment) (now : Moment) : Moment :=
  let runAfter := now + microseconds (backoffSeconds attempts)
  match notBefore with
  | some moment => if runAfter < moment then moment else runAfter
  | none => runAfter

def Job.fail (job : Job) (failure : Failure) (now : Moment) : Job :=
  let released := { job with
    attempts := job.attempts + 1
    lastError := some (truncated 2000 failure.error)
    lockedBy := none
    lockedAt := none }
  if failure.permanent = true ∨ job.exhausted then
    { released with state := .deadLetter, payload := scrubSettledPayload job.payload }
  else
    { released with
      state := .retryScheduled
      runAfter := retryMoment (job.attempts + 1) failure.notBefore now }

section Fail

variable (job : Job) (failure : Failure) (now : Moment)

theorem Job.fail_state : (job.fail failure now).state =
    if failure.permanent = true ∨ job.exhausted then .deadLetter else .retryScheduled := by
  unfold Job.fail
  split_ifs <;> rfl

theorem Job.fail_payload : (job.fail failure now).payload =
    if failure.permanent = true ∨ job.exhausted then scrubSettledPayload job.payload
    else job.payload := by
  unfold Job.fail
  split_ifs <;> rfl

@[simp] theorem Job.fail_attempts : (job.fail failure now).attempts = job.attempts + 1 := by
  unfold Job.fail
  split_ifs <;> rfl

@[simp] theorem Job.fail_maxAttempts : (job.fail failure now).maxAttempts = job.maxAttempts := by
  unfold Job.fail
  split_ifs <;> rfl

@[simp] theorem Job.fail_lockedBy : (job.fail failure now).lockedBy = none := by
  unfold Job.fail
  split_ifs <;> rfl

@[simp] theorem Job.fail_lockedAt : (job.fail failure now).lockedAt = none := by
  unfold Job.fail
  split_ifs <;> rfl

end Fail

/-- Record a failure: schedule a bounded retry or move to dead-letter. -/
def Table.fail (table : Table) (job : Job) (failure : Failure) (now : Moment)
    (lockedBy : Option String) : Table × Bool :=
  table.settle job lockedBy (·.fail failure now)

/-! ### Cancelling -/

/-- The object that a cancel reads and finds claimable. -/
def Table.cancelRead (table : Table) (idempotencyKey : String) (organizationId : Option String) :
    Option Job :=
  (table.keyed? idempotencyKey organizationId).filter (·.state ∈ claimableStates)

/-- The write of a cancel that reports success. -/
def Table.cancelWrite (table : Table) (job : Job) : Table :=
  table.update (flushStatement job { job with state := .cancelled })

/-! ### Leases -/

def Job.runsUnder (job : Job) (workerId : String) : Prop :=
  job.state = .running ∧ job.lockedBy = some workerId

instance (job : Job) (workerId : String) : Decidable (job.runsUnder workerId) :=
  inferInstanceAs (Decidable (_ ∧ _))

def heartbeatStatement (workerId : String) (jobId : Nat) (now : Moment) : Update where
  selected job := job.id = jobId ∧ job.runsUnder workerId
  set job := { job with lockedAt := some now }
  keepsId _ := rfl

/-- Extend one live lease. -/
def Table.heartbeat (table : Table) (workerId : String) (jobId : Nat) (now : Moment) : Table :=
  table.update (heartbeatStatement workerId jobId now)

def requeueStatement (workerId : String) : Update where
  selected job := job.runsUnder workerId
  set job := { job with state := .queued, lockedBy := none, lockedAt := none }
  keepsId _ := rfl

/-- Requeue the jobs still held by a stopping worker. -/
def Table.requeueLocked (table : Table) (workerId : String) : Table :=
  table.update (requeueStatement workerId)

def staleLeaseError : String := "stale worker lease expired"

def requeueStaleBatchLimit : Nat := 500

def defaultLeaseTimeoutSeconds : Nat := 900

/-- A running job whose lease was last extended before the cutoff. -/
def Job.stale (job : Job) (cutoff : Moment) : Prop :=
  job.state = .running ∧ ∃ moment ∈ job.lockedAt, moment ≤ cutoff

instance (job : Job) (cutoff : Moment) : Decidable (job.stale cutoff) :=
  inferInstanceAs (Decidable (_ ∧ _))

/-- The earlier lease first, then the order of the database. -/
def staleOrder (listed : Nat → Nat) (first second : Job) : Prop :=
  first.lockedAt.getD 0 < second.lockedAt.getD 0 ∨
    first.lockedAt.getD 0 = second.lockedAt.getD 0 ∧ listed first.id ≤ listed second.id

instance (listed : Nat → Nat) : DecidableRel (staleOrder listed) :=
  fun _ _ ↦ inferInstanceAs (Decidable (_ ∨ _))

def Job.reclaim (job : Job) (now : Moment) : Job :=
  let released := { job with
    attempts := job.attempts + 1
    runAfter := now
    lockedBy := none
    lockedAt := none
    lastError := some staleLeaseError }
  if job.exhausted then
    { released with state := .deadLetter, payload := scrubSettledPayload job.payload }
  else
    { released with state := .queued }

/-- The rows that a pass over the expired leases takes. -/
def Table.expired (table : Table) (leaseTimeoutSeconds limit : Nat) (now : Moment)
    (locked : List Nat) (listed : Nat → Nat) : List Job :=
  let cutoff := now - microseconds leaseTimeoutSeconds
  ((table.rows.filter fun job ↦ job.stale cutoff ∧ job.id ∉ locked).insertionSort
    (staleOrder listed)).take limit

section Reclaim

variable (job : Job) (now : Moment)

theorem Job.reclaim_id : (job.reclaim now).id = job.id := by
  unfold Job.reclaim
  split_ifs <;> rfl

theorem Job.reclaim_state :
    (job.reclaim now).state = if job.exhausted then .deadLetter else .queued := by
  unfold Job.reclaim
  split_ifs <;> rfl

theorem Job.reclaim_payload : (job.reclaim now).payload =
    if job.exhausted then scrubSettledPayload job.payload else job.payload := by
  unfold Job.reclaim
  split_ifs <;> rfl

@[simp] theorem Job.reclaim_attempts : (job.reclaim now).attempts = job.attempts + 1 := by
  unfold Job.reclaim
  split_ifs <;> rfl

@[simp] theorem Job.reclaim_maxAttempts : (job.reclaim now).maxAttempts = job.maxAttempts := by
  unfold Job.reclaim
  split_ifs <;> rfl

@[simp] theorem Job.reclaim_lockedBy : (job.reclaim now).lockedBy = none := by
  unfold Job.reclaim
  split_ifs <;> rfl

@[simp] theorem Job.reclaim_lockedAt : (job.reclaim now).lockedAt = none := by
  unfold Job.reclaim
  split_ifs <;> rfl

end Reclaim

def reclaimStatement (jobs : List Job) (now : Moment) : Update where
  selected job := job.id ∈ jobs.map (·.id)
  set job := job.reclaim now
  keepsId job := job.reclaim_id now

/-- Reclaim jobs whose worker lease expired. -/
def Table.requeueStale (table : Table) (leaseTimeoutSeconds limit : Nat) (now : Moment)
    (locked : List Nat) (listed : Nat → Nat) : Table :=
  table.update (reclaimStatement (table.expired leaseTimeoutSeconds limit now locked listed) now)

/-! ### Retention -/

/-- Delete terminal rows; which ones the retention window and the batch take is given. -/
def Table.gcTerminalJobs (table : Table) (taken : Job → Bool) : Table where
  rows := table.rows.filter fun job ↦ !(decide (job.state ∈ terminalStates) && taken job)
  nextId := table.nextId
  distinct := table.distinct.sublist (List.filter_sublist.map _)
  below job hjob := table.below job (List.mem_filter.mp hjob).1

end AiStp.Queue
