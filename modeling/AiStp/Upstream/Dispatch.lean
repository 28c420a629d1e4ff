import AiStp.Upstream.Links

/-!
# Dispatching

`enqueue` finds the job of a key or inserts one. Tables that are consistent up to one attempt and
its outbox row (`Prepared`) are dispatched without a fault, and what results is a `Launch`: the
attempt is queued, its outbox row names the job, and every other row is as before. A launch leads
from consistent tables to consistent tables.
-/

set_option autoImplicit false

namespace AiStp.Upstream

open Library Publication

/-! ### What the rows of a job say -/

section Rows

variable {db : Database} {attemptId outboxId jobId : Nat} {attempt : OfficialUpstreamSync}

theorem Filed.unique {attempt' : OfficialUpstreamSync} {outboxId' jobId' : Nat}
    (h : Filed db attemptId attempt outboxId jobId)
    (h' : Filed db attemptId attempt' outboxId' jobId') :
    attempt = attempt' ∧ outboxId = outboxId' ∧ jobId = jobId' := by
  have hattempt : attempt = attempt' := Option.some.inj (h.held.symm.trans h'.held)
  subst hattempt
  have houtbox : outboxId = outboxId' := Option.some.inj (h.points.symm.trans h'.points)
  subst houtbox
  have hrow := Option.some.inj (h.outbox.symm.trans h'.outbox)
  simp only [OfficialSyncOutbox.mk.injEq, Option.some.injEq, true_and] at hrow
  exact ⟨rfl, rfl, hrow⟩

theorem Filed.outboxOf (h : Filed db attemptId attempt outboxId jobId) :
    db.outboxOf attempt =
      some (outboxId, ⟨attempt.sourceId, attemptId, attempt.key, .dispatched, some jobId⟩) := by
  unfold Database.outboxOf
  rw [h.points, Option.bind_some, h.outbox]
  rfl

/-- A job serves the attempt of the outbox row that names it. -/
theorem Consistent.serving (h : Consistent db) {job : Queue.Job} (hjob : job ∈ db.jobs.rows) :
    ∃ attemptId attempt outboxId, Filed db attemptId attempt outboxId job.id ∧
      label job = servingLabel attemptId attempt := by
  obtain ⟨attemptId, attempt, outboxId, hfiled⟩ := h.carried job hjob
  obtain ⟨outboxId', jobId', hfiled', -, hserves⟩ := h.filed attemptId attempt hfiled.held
  obtain ⟨-, -, hid⟩ := hfiled.unique hfiled'
  exact ⟨attemptId, attempt, outboxId, hfiled, hserves job hjob hid⟩

/-- A job with the key of an attempt is the job that the outbox row of the attempt names. -/
theorem Consistent.id_of_key (h : Consistent db) {job : Queue.Job} (hjob : job ∈ db.jobs.rows)
    (hfiled : Filed db attemptId attempt outboxId jobId) (hkey : job.idempotencyKey = attempt.key) :
    job.id = jobId := by
  obtain ⟨attemptId', attempt', outboxId', hfiled', hlabel⟩ := h.serving hjob
  have hkey' : job.idempotencyKey = attempt'.key := congrArg Prod.fst hlabel
  obtain ⟨hsame, -⟩ := h.eq_of_key hfiled'.held hfiled.held (hkey'.symm.trans hkey)
  subst hsame
  exact (hfiled'.unique hfiled).2.2

theorem key_of_label {job : Queue.Job} (h : label job = servingLabel attemptId attempt) :
    job.idempotencyKey = attempt.key ∧ job.organizationId = none :=
  ⟨congrArg Prod.fst h, congrArg (·.2.1) h⟩

end Rows

/-! ### Enqueueing -/

/-- The queue has the job of a request: it was there, or it is new under the next identity. -/
inductive Supplied (before after : Queue.Table) (job : Queue.Job) : Prop where
  | found (same : after = before) (held : job ∈ before.rows)
  | inserted (rows : after.rows = before.rows ++ [job]) (id : job.id = before.nextId)
      (nextId : after.nextId = before.nextId + 1) (state : job.state = .queued)
      (fresh : ∀ old ∈ before.rows, old.organizationId = none →
        old.idempotencyKey ≠ job.idempotencyKey)

theorem keyed?_eq_some {jobs : Queue.Table} {key : String} {organizationId : Option String}
    {job : Queue.Job} (h : jobs.keyed? key organizationId = some job) :
    job ∈ jobs.rows ∧ job.idempotencyKey = key ∧ job.organizationId = organizationId := by
  unfold Queue.Table.keyed? at h
  exact ⟨List.mem_of_find?_eq_some h, by simpa using List.find?_some h⟩

theorem keyed?_eq_none {jobs : Queue.Table} {key : String} {organizationId : Option String} :
    jobs.keyed? key organizationId = none ↔ ∀ job ∈ jobs.rows,
      job.organizationId = organizationId → job.idempotencyKey ≠ key := by
  unfold Queue.Table.keyed?
  rw [List.find?_eq_none]
  constructor
  · intro h job hjob horganization hkey
    exact h job hjob (by simp [horganization, hkey])
  · intro h job hjob hcondition
    have hboth : job.idempotencyKey = key ∧ job.organizationId = organizationId := by
      simpa using hcondition
    exact h job hjob hboth.2 hboth.1

/-- The row that the request of an outbox row inserts. -/
def OfficialSyncOutbox.row (outbox : OfficialSyncOutbox) (id : Nat) (now : Queue.Moment) :
    Queue.Job :=
  outbox.request.row outbox.request.payload id now

theorem label_row (outbox : OfficialSyncOutbox) (id : Nat) (now : Queue.Moment) :
    label (outbox.row id now) =
      (outbox.idempotencyKey, none, some outbox.sourceId.text, some outbox.attemptId) := by
  simp only [label, OfficialSyncOutbox.row, Queue.Request.row, OfficialSyncOutbox.request,
    payloadSource, payloadAttempt]
  rfl

theorem enqueue_eq (jobs : Queue.Table) (outbox : OfficialSyncOutbox) (now : Queue.Moment) :
    enqueue jobs outbox.request now =
      match jobs.keyed? outbox.idempotencyKey none with
      | some job => .ok (jobs, job)
      | none => .ok (jobs.insert (outbox.row · now) fun _ ↦ rfl, outbox.row jobs.nextId now) := by
  have hpayload : outbox.request.safePayload = .ok outbox.request.payload := rfl
  unfold enqueue Queue.Table.enqueue
  rw [hpayload]
  cases hkeyed : jobs.keyed? outbox.idempotencyKey none with
  | some job =>
    have hrequest : jobs.keyed? outbox.request.idempotencyKey outbox.request.organizationId =
      some job := hkeyed
    simp only [bind, Except.bind, hrequest, pure, Except.pure]
  | none =>
    have hrequest : jobs.keyed? outbox.request.idempotencyKey outbox.request.organizationId =
      none := hkeyed
    simp only [bind, Except.bind, hrequest, pure, Except.pure]
    have hrows : (jobs.insert (outbox.row · now) fun _ ↦ rfl).keyed? outbox.idempotencyKey none =
        some (outbox.row jobs.nextId now) := by
      have hnone : jobs.rows.find? (fun job ↦ decide (job.idempotencyKey = outbox.idempotencyKey ∧
        job.organizationId = none)) = none := hkeyed
      show (jobs.rows ++ [outbox.row jobs.nextId now]).find? _ = _
      rw [List.find?_append, hnone]
      have hkey : (outbox.row jobs.nextId now).idempotencyKey = outbox.idempotencyKey := rfl
      have horganization : (outbox.row jobs.nextId now).organizationId = none := rfl
      simp [hkey, horganization]
    have hafter : (jobs.insert (outbox.request.row outbox.request.payload · now)
        fun _ ↦ rfl).keyed? outbox.request.idempotencyKey outbox.request.organizationId =
      some (outbox.row jobs.nextId now) := hrows
    rw [hafter]
    rfl

/-- Where jobs with the key of an outbox row say what its request says, so does the job found or
inserted. -/
theorem enqueue_spec (jobs : Queue.Table) (outbox : OfficialSyncOutbox) (now : Queue.Moment)
    (hserves : ∀ job ∈ jobs.rows, job.idempotencyKey = outbox.idempotencyKey → label job =
      (outbox.idempotencyKey, none, some outbox.sourceId.text, some outbox.attemptId)) :
    ∃ after job, enqueue jobs outbox.request now = .ok (after, job) ∧ Supplied jobs after job ∧
      label job =
        (outbox.idempotencyKey, none, some outbox.sourceId.text, some outbox.attemptId) := by
  rw [enqueue_eq]
  cases hkeyed : jobs.keyed? outbox.idempotencyKey none with
  | some job =>
    obtain ⟨hjob, hkey, -⟩ := keyed?_eq_some hkeyed
    exact ⟨jobs, job, rfl, .found rfl hjob, hserves job hjob hkey⟩
  | none =>
    refine ⟨_, _, rfl, .inserted rfl rfl rfl rfl ?_, label_row outbox jobs.nextId now⟩
    intro old hold horganization
    exact keyed?_eq_none.mp hkeyed old hold horganization

/-! ### Launches -/

/-- The place of an attempt and its outbox row: they are filed, or both are new. -/
inductive Place (before after : Database) (attemptId : Nat) (attempt : OfficialUpstreamSync)
    (outboxId : Nat) : Prop where
  | filed (old : OfficialUpstreamSync) (jobId : Nat)
      (held : Filed before attemptId old outboxId jobId) (header : attempt.header = old.header)
      (nextAttempt : after.nextAttempt = before.nextAttempt)
      (nextOutbox : after.nextOutbox = before.nextOutbox)
  | fresh (attemptId_eq : attemptId = before.nextAttempt) (outboxId_eq : outboxId = before.nextOutbox)
      (nextAttempt : after.nextAttempt = before.nextAttempt + 1)
      (nextOutbox : after.nextOutbox = before.nextOutbox + 1)
      (others : ∀ id other, before.attempts.get? id = some other → other.key ≠ attempt.key)

/-- One attempt and its outbox row are dispatched to a job, and all else is as before. -/
structure Launch (before after : Database) (attemptId : Nat) (attempt : OfficialUpstreamSync)
    (outboxId : Nat) (job : Queue.Job) : Prop where
  sources : after.sources = before.sources
  plans : after.plans = before.plans
  attempts : ∀ id, after.attempts.get? id =
    if id = attemptId then some attempt else before.attempts.get? id
  outboxes : ∀ id, after.outboxes.get? id =
    if id = outboxId then
      some ⟨attempt.sourceId, attemptId, attempt.key, .dispatched, some job.id⟩
    else before.outboxes.get? id
  points : attempt.outboxId = some outboxId
  place : Place before after attemptId attempt outboxId
  supplied : Supplied before.jobs after.jobs job
  serves : label job = servingLabel attemptId attempt

/-- A queued attempt keeps its header. -/
@[simp] theorem header_queue (attempt : OfficialUpstreamSync) (jobId : Nat) :
    (attempt.queue jobId).header = attempt.header := by
  unfold OfficialUpstreamSync.queue
  split_ifs <;> rfl

theorem key_of_header {first second : OfficialUpstreamSync} (h : first.header = second.header) :
    first.sourceId = second.sourceId ∧ first.key = second.key ∧
      first.outboxId = second.outboxId := by
  obtain ⟨hsource, htrigger, hpoints⟩ : first.sourceId = second.sourceId ∧
      first.triggerKey = second.triggerKey ∧ first.outboxId = second.outboxId := by
    simpa [OfficialUpstreamSync.header] using h
  exact ⟨hsource, by simp [OfficialUpstreamSync.key, hsource, htrigger], hpoints⟩

namespace Launch

variable {before after : Database} {attemptId outboxId : Nat} {attempt : OfficialUpstreamSync}
  {job : Queue.Job}

section

variable (h : Launch before after attemptId attempt outboxId job)
include h

theorem filed :
    Filed after attemptId attempt outboxId job.id where
  held := by rw [h.attempts, if_pos rfl]
  points := h.points
  outbox := by rw [h.outboxes, if_pos rfl]

/-- Rows of other attempts are as before. -/
theorem filed_other (hconsistent : Consistent before) {other otherOutbox jobId : Nat}
    {row : OfficialUpstreamSync} (hother : other ≠ attemptId) :
    Filed after other row otherOutbox jobId ↔ Filed before other row otherOutbox jobId := by
  have hattempt : after.attempts.get? other = before.attempts.get? other := by
    rw [h.attempts, if_neg hother]
  have houtbox : otherOutbox ≠ outboxId →
      after.outboxes.get? otherOutbox = before.outboxes.get? otherOutbox := fun hne ↦ by
    rw [h.outboxes, if_neg hne]
  constructor
  · intro hfiled
    have hne : otherOutbox ≠ outboxId := by
      intro hsame
      have hrow := hfiled.outbox
      rw [hsame, h.outboxes, if_pos rfl] at hrow
      exact hother (OfficialSyncOutbox.mk.inj (Option.some.inj hrow)).2.1.symm
    exact ⟨hattempt ▸ hfiled.held, hfiled.points, houtbox hne ▸ hfiled.outbox⟩
  · intro hfiled
    have hne : otherOutbox ≠ outboxId := by
      intro hsame
      cases h.place with
      | filed old jobId' hold _ _ _ =>
        have hrow := hfiled.outbox
        rw [hsame, hold.outbox] at hrow
        exact hother (OfficialSyncOutbox.mk.inj (Option.some.inj hrow)).2.1.symm
      | fresh _ houtboxId _ _ _ =>
        have hbelow := hconsistent.outboxBelow otherOutbox _ hfiled.outbox
        omega
    exact ⟨hattempt.trans hfiled.held, hfiled.points, (houtbox hne).trans hfiled.outbox⟩

/-- Rows of jobs are as before, and the job may be new. -/
theorem row_cases {row : Queue.Job} :
    row ∈ after.jobs.rows ↔ row ∈ before.jobs.rows ∨ row = job := by
  cases h.supplied with
  | found hsame hheld =>
    rw [hsame]
    constructor
    · exact .inl
    · rintro (hrow | rfl)
      · exact hrow
      · exact hheld
  | inserted hrows _ _ _ _ =>
    rw [hrows, List.mem_append, List.mem_singleton]

theorem nextId_le : before.jobs.nextId ≤ after.jobs.nextId := by
  cases h.supplied with
  | found hsame _ => rw [hsame]
  | inserted _ _ hnextId _ _ => omega

theorem id_lt : job.id < after.jobs.nextId := by
  cases h.supplied with
  | found hsame hheld =>
    rw [hsame]
    exact before.jobs.below job hheld
  | inserted _ hid hnextId _ _ => omega

/-- An attempt that is elsewhere under the key of the launched one is the launched one. -/
theorem eq_of_key (hconsistent : Consistent before) {other : Nat} {row : OfficialUpstreamSync}
    (hrow : before.attempts.get? other = some row) (hkey : row.key = attempt.key) :
    other = attemptId := by
  cases h.place with
  | filed old _ hold hheader _ _ =>
    exact (hconsistent.eq_of_key hrow hold.held
      (hkey.trans (key_of_header hheader).2.1)).1
  | fresh _ _ _ _ hothers => exact absurd hkey (hothers other row hrow)

theorem consistent (hconsistent : Consistent before) : Consistent after where
  filed other row hrow := by
    by_cases hother : other = attemptId
    · subst hother
      have hsame : row = attempt := Option.some.inj (hrow.symm.trans h.filed.held)
      subst hsame
      refine ⟨outboxId, job.id, h.filed, h.id_lt, ?_⟩
      intro found hfound hid
      have heq : found = job := Queue.Table.eq_of_id hfound (h.row_cases.mpr (.inr rfl)) hid
      rw [heq, h.serves]
    · rw [h.attempts, if_neg hother] at hrow
      obtain ⟨otherOutbox, jobId, hfiled, hbelow, hserves⟩ := hconsistent.filed other row hrow
      refine ⟨otherOutbox, jobId, (h.filed_other hconsistent hother).mpr hfiled,
        hbelow.trans_le h.nextId_le, ?_⟩
      intro found hfound hid
      rcases h.row_cases.mp hfound with hold | rfl
      · exact hserves found hold hid
      · cases h.supplied with
        | found _ hheld => exact hserves found hheld hid
        | inserted _ hnew _ _ _ => omega
  owned otherOutbox outbox houtbox := by
    by_cases hother : otherOutbox = outboxId
    · subst hother
      rw [h.outboxes, if_pos rfl] at houtbox
      rw [← Option.some.inj houtbox]
      exact ⟨attempt, job.id, h.filed⟩
    · rw [h.outboxes, if_neg hother] at houtbox
      obtain ⟨row, jobId, hfiled⟩ := hconsistent.owned otherOutbox outbox houtbox
      have hne : outbox.attemptId ≠ attemptId := by
        intro hsame
        rw [hsame] at hfiled
        cases h.place with
        | filed old _ hold _ _ _ => exact hother (hfiled.unique hold).2.1
        | fresh hattemptId _ _ _ _ =>
          have hbelow := hconsistent.attemptBelow _ _ hfiled.held
          omega
      exact ⟨row, jobId, (h.filed_other hconsistent hne).mpr hfiled⟩
  single first second row row' hfirst hsecond hsource htrigger := by
    have hkey : row.key = row'.key := by simp [OfficialUpstreamSync.key, hsource, htrigger]
    rw [h.attempts] at hfirst hsecond
    split_ifs at hfirst hsecond with hfirstIs hsecondIs hsecondIs
    · rw [hfirstIs, hsecondIs]
    · have hrow : row = attempt := (Option.some.inj hfirst).symm
      rw [hrow] at hkey
      exact hfirstIs.trans (h.eq_of_key hconsistent hsecond hkey.symm).symm
    · have hrow : row' = attempt := (Option.some.inj hsecond).symm
      rw [hrow] at hkey
      exact (h.eq_of_key hconsistent hfirst hkey).trans hsecondIs.symm
    · exact hconsistent.single first second row row' hfirst hsecond hsource htrigger
  carried found hfound := by
    rcases h.row_cases.mp hfound with hold | rfl
    · obtain ⟨other, row, otherOutbox, hfiled, hlabel⟩ := hconsistent.serving hold
      by_cases hother : other = attemptId
      · subst hother
        obtain ⟨hkey, horganization⟩ := key_of_label hlabel
        cases h.place with
        | fresh hattemptId _ _ _ _ =>
          have hbelow := hconsistent.attemptBelow _ _ hfiled.held
          omega
        | filed old jobId hheld hheader _ _ =>
          obtain ⟨rfl, rfl, hid⟩ := hfiled.unique hheld
          cases h.supplied with
          | found _ hjob =>
            -- The job of the key was there already, so the older row is this job.
            have hjobKey : job.idempotencyKey = row.key :=
              (key_of_label h.serves).1.trans (key_of_header hheader).2.1
            have hsame : job.id = found.id := hconsistent.id_of_key hjob hfiled hjobKey
            exact ⟨other, attempt, otherOutbox, hsame ▸ h.filed⟩
          | inserted _ _ _ _ hfresh =>
            have hne := hfresh found hold horganization
            rw [hkey, (key_of_label h.serves).1, (key_of_header hheader).2.1] at hne
            exact absurd rfl hne
      · exact ⟨other, row, otherOutbox, (h.filed_other hconsistent hother).mpr hfiled⟩
    · exact ⟨attemptId, attempt, outboxId, h.filed⟩
  attemptBelow other row hrow := by
    rw [h.attempts] at hrow
    cases h.place with
    | filed old _ hold _ hnext _ =>
      rw [hnext]
      split_ifs at hrow with hother
      · rw [hother]
        exact hconsistent.attemptBelow attemptId old hold.held
      · exact hconsistent.attemptBelow other row hrow
    | fresh hattemptId _ hnext _ _ =>
      rw [hnext]
      split_ifs at hrow with hother
      · omega
      · exact Nat.lt_succ_of_lt (hconsistent.attemptBelow other row hrow)
  outboxBelow otherOutbox outbox houtbox := by
    rw [h.outboxes] at houtbox
    cases h.place with
    | filed old _ hold _ _ hnext =>
      rw [hnext]
      split_ifs at houtbox with hother
      · rw [hother]
        exact hconsistent.outboxBelow outboxId _ hold.outbox
      · exact hconsistent.outboxBelow otherOutbox outbox houtbox
    | fresh _ houtboxId _ hnext _ =>
      rw [hnext]
      split_ifs at houtbox with hother
      · omega
      · exact Nat.lt_succ_of_lt (hconsistent.outboxBelow otherOutbox outbox houtbox)

end

end Launch

/-! ### Dispatching without a fault -/

/-- Tables that are as consistent ones but for an attempt and its outbox row, before dispatching. -/
structure Prepared (before middle : Database) (attemptId : Nat) (attempt : OfficialUpstreamSync)
    (outboxId : Nat) (outbox : OfficialSyncOutbox) : Prop where
  sources : middle.sources = before.sources
  plans : middle.plans = before.plans
  jobs : middle.jobs = before.jobs
  attempts : ∀ id, middle.attempts.get? id =
    if id = attemptId then some attempt else before.attempts.get? id
  outboxes : ∀ id, middle.outboxes.get? id =
    if id = outboxId then some outbox else before.outboxes.get? id
  points : attempt.outboxId = some outboxId
  sourceId : outbox.sourceId = attempt.sourceId
  attemptId_eq : outbox.attemptId = attemptId
  key : outbox.idempotencyKey = attempt.key
  open_ : outbox.state ≠ .cancelled
  place : Place before middle attemptId attempt outboxId

/-- A source of the tables that may be scheduled. -/
def Database.schedules (db : Database) (sourceId : SourceId) : Prop :=
  ∃ source, db.sources.get? sourceId = some source ∧ sourceIsSchedulable source = true

section Prepare

variable {before middle : Database} {attemptId outboxId : Nat} {attempt : OfficialUpstreamSync}
  {outbox : OfficialSyncOutbox}

/-- A job under the key of a prepared attempt says that it serves the attempt. -/
theorem Prepared.serves (h : Prepared before middle attemptId attempt outboxId outbox)
    (hconsistent : Consistent before) {job : Queue.Job} (hjob : job ∈ before.jobs.rows)
    (hkey : job.idempotencyKey = attempt.key) : label job = servingLabel attemptId attempt := by
  obtain ⟨other, row, otherOutbox, hfiled, hlabel⟩ := hconsistent.serving hjob
  have hrowKey : row.key = attempt.key := (key_of_label hlabel).1.symm.trans hkey
  cases h.place with
  | filed old _ hold hheader _ _ =>
    have hsame := hconsistent.eq_of_key hfiled.held hold.held
      (hrowKey.trans (key_of_header hheader).2.1)
    rw [hlabel, hsame.1, hsame.2]
    exact (servingLabel_of_header hheader attemptId).symm
  | fresh _ _ _ _ hothers => exact absurd hrowKey (hothers other row hfiled.held)

theorem Prepared.dispatch (h : Prepared before middle attemptId attempt outboxId outbox)
    (hconsistent : Consistent before) (hschedules : before.schedules attempt.sourceId)
    (now : Queue.Moment) :
    ∃ after job, dispatchOutbox middle outboxId outbox now = .ok (after, job) ∧
      Launch before after attemptId (attempt.queue job.id) outboxId job := by
  obtain ⟨source, hsource, hschedulable⟩ := hschedules
  have hserving : servingLabel attemptId attempt =
      (outbox.idempotencyKey, none, some outbox.sourceId.text, some outbox.attemptId) := by
    rw [h.key, h.sourceId, h.attemptId_eq]
    rfl
  obtain ⟨jobs, job, henqueue, hsupplied, hlabel⟩ := enqueue_spec before.jobs outbox now (by
    intro job hjob hkey
    rw [← hserving]
    exact h.serves hconsistent hjob (hkey.trans h.key))
  rw [← hserving] at hlabel
  have hlocked : middle.outboxes.get? outboxId = some outbox := by rw [h.outboxes, if_pos rfl]
  have hfound : middle.sources.get? outbox.sourceId = some source := by
    rw [h.sources, h.sourceId, hsource]
  have hstays : ¬ (outbox.state = .cancelled ∨ sourceIsSchedulable source = false) := by
    rw [hschedulable]
    simp [h.open_]
  have hdispatch : dispatchOutbox middle outboxId outbox now =
      .ok ((({ middle with jobs := jobs }).rewriteOutbox outboxId fun row ↦
        { row with jobId := some job.id, state := .dispatched }).rewriteAttempt
          outbox.attemptId (·.queue job.id), job) := by
    unfold dispatchOutbox
    rw [hfound]
    dsimp only
    rw [if_neg hstays, hlocked]
    dsimp only
    rw [if_neg h.open_, h.jobs, henqueue]
  refine ⟨_, job, hdispatch, ?_⟩
  have hheader : (attempt.queue job.id).header = attempt.header := header_queue attempt job.id
  obtain ⟨hsourceId, hkey, hpoints⟩ := key_of_header hheader
  constructor
  · exact h.sources
  · exact h.plans
  · intro id
    show (middle.attempts.mapRows _).get? id = _
    rw [Table.get?_mapRows, h.attempts, h.attemptId_eq]
    by_cases hid : id = attemptId
    · simp [hid]
    · simp [hid]
  · intro id
    show (middle.outboxes.mapRows _).get? id = _
    rw [Table.get?_mapRows, h.outboxes]
    by_cases hid : id = outboxId
    · simp [hid, hsourceId, hkey, ← h.sourceId, ← h.attemptId_eq, ← h.key]
    · simp [hid]
  · rw [hpoints]
    exact h.points
  · cases h.place with
    | filed old jobId hold hsame hnextAttempt hnextOutbox =>
      exact .filed old jobId hold (hheader.trans hsame) hnextAttempt hnextOutbox
    | fresh hattemptId houtboxId hnextAttempt hnextOutbox hothers =>
      refine .fresh hattemptId houtboxId hnextAttempt hnextOutbox ?_
      rw [hkey]
      exact hothers
  · exact hsupplied
  · rw [hlabel]
    exact (servingLabel_of_header hheader attemptId).symm

/-- A filed attempt is prepared as it is. -/
theorem prepared_filed {jobId : Nat} (h : Filed before attemptId attempt outboxId jobId) :
    Prepared before before attemptId attempt outboxId
      ⟨attempt.sourceId, attemptId, attempt.key, .dispatched, some jobId⟩ where
  sources := rfl
  plans := rfl
  jobs := rfl
  attempts id := by
    split_ifs with hid
    · rw [hid, h.held]
    · rfl
  outboxes id := by
    split_ifs with hid
    · rw [hid, h.outbox]
    · rfl
  points := h.points
  sourceId := rfl
  attemptId_eq := rfl
  key := rfl
  open_ := nofun
  place := .filed attempt jobId h rfl rfl rfl

/-- So is one whose outbox row a pass has reset. -/
theorem prepared_reset {jobId : Nat} (h : Filed before attemptId attempt outboxId jobId)
    {reset : OfficialSyncOutbox}
    (hreset : reset = ⟨attempt.sourceId, attemptId, attempt.key, .pending, none⟩) :
    Prepared before (before.rewriteOutbox outboxId fun _ ↦ reset) attemptId attempt outboxId
      reset where
  sources := rfl
  plans := rfl
  jobs := rfl
  attempts := (prepared_filed h).attempts
  outboxes id := by
    show (before.outboxes.mapRows _).get? id = _
    rw [Table.get?_mapRows]
    by_cases hid : id = outboxId
    · simp [hid, h.outbox]
    · simp [hid]
  points := h.points
  sourceId := by rw [hreset]
  attemptId_eq := by rw [hreset]
  key := by rw [hreset]
  open_ := by
    rw [hreset]
    nofun
  place := .filed attempt jobId h rfl rfl rfl

/-- A new attempt gets its outbox row. -/
theorem attachOutbox_fresh (hconsistent : Consistent before) {sourceId : SourceId}
    {triggerKey : String} (attempt : OfficialUpstreamSync) (hsource : attempt.sourceId = sourceId)
    (htrigger : attempt.triggerKey = triggerKey)
    (hnone : before.attempt? sourceId triggerKey = none) :
    ∃ middle outbox, attachOutbox (before.addAttempt attempt) sourceId before.nextAttempt
        triggerKey = .ok (middle, before.nextOutbox, outbox) ∧
      Prepared before middle before.nextAttempt { attempt with outboxId := some before.nextOutbox }
        before.nextOutbox outbox := by
  have hothers : ∀ id other, before.attempts.get? id = some other →
      other.key ≠ idempotencyKey sourceId triggerKey := by
    intro id other hother hkey
    obtain ⟨hsame, hsameTrigger⟩ := idempotencyKey_inj hkey
    exact attempt?_eq_none.mp hnone id other hother hsame hsameTrigger
  have hfree : (before.outboxes.find? fun _ held ↦
      decide (held.idempotencyKey = idempotencyKey sourceId triggerKey)) = none := by
    rw [Table.find?_eq_none]
    intro outboxId outbox houtbox
    obtain ⟨row, jobId, hfiled, heq⟩ := hconsistent.outbox_eq houtbox
    rw [heq]
    simpa using hothers _ row hfiled.held
  obtain ⟨outbox, houtbox⟩ : ∃ outbox : OfficialSyncOutbox, outbox =
    ⟨sourceId, before.nextAttempt, idempotencyKey sourceId triggerKey, .pending, none⟩ := ⟨_, rfl⟩
  have hnew : newOutbox (before.addAttempt attempt) sourceId before.nextAttempt triggerKey =
      .ok ((before.addAttempt attempt).addOutbox outbox, before.nextOutbox, outbox) := by
    have hnotSome : ¬ ((before.addAttempt attempt).outboxes.find? fun _ held ↦
        decide (held.idempotencyKey = idempotencyKey sourceId triggerKey)).isSome = true := by
      show ¬ (before.outboxes.find? _).isSome = true
      rw [hfree]
      simp
    unfold newOutbox
    dsimp only
    rw [if_neg hnotSome, houtbox]
    rfl
  have hkey : attempt.key = idempotencyKey sourceId triggerKey := by
    simp [OfficialUpstreamSync.key, hsource, htrigger]
  refine ⟨((before.addAttempt attempt).addOutbox outbox).rewriteAttempt before.nextAttempt
    fun row ↦ { row with outboxId := some before.nextOutbox }, outbox, ?_, ?_⟩
  · unfold attachOutbox
    rw [hnew]
    rfl
  · constructor
    · rfl
    · rfl
    · rfl
    · intro id
      show ((before.attempts.set before.nextAttempt attempt).mapRows _).get? id = _
      rw [Table.get?_mapRows, Table.get?_set]
      by_cases hid : id = before.nextAttempt
      · simp [hid]
      · simp [hid]
    · intro id
      show (before.outboxes.set before.nextOutbox _).get? id = _
      rw [Table.get?_set]
    · rfl
    · rw [houtbox]
      exact hsource.symm
    · rw [houtbox]
    · rw [houtbox]
      exact hkey.symm
    · rw [houtbox]
      simp
    · refine .fresh rfl rfl rfl rfl ?_
      intro id other hother
      show other.key ≠ attempt.key
      rw [hkey]
      exact hothers id other hother

/-- A schedulable source has, or gets, an attempt with an outbox row that can be dispatched. -/
theorem createAttemptAndOutbox_spec (hconsistent : Consistent before) {sourceId : SourceId}
    (hschedules : before.schedules sourceId) (triggerKey utcDay provenance : String) :
    ∃ middle attemptId attempt outboxId outbox,
      createAttemptAndOutbox before sourceId triggerKey utcDay provenance =
        .ok (middle, outboxId, outbox) ∧
      Prepared before middle attemptId attempt outboxId outbox ∧ attempt.sourceId = sourceId ∧
        attempt.triggerKey = triggerKey := by
  obtain ⟨source, hsource, hschedulable⟩ := hschedules
  unfold createAttemptAndOutbox
  rw [hsource]
  dsimp only
  rw [hschedulable, if_neg (by simp)]
  cases hattempt : before.attempt? sourceId triggerKey with
  | none =>
    obtain ⟨middle, outbox, hattach, hprepared⟩ := attachOutbox_fresh hconsistent
      (desiredAttempt sourceId triggerKey utcDay provenance) rfl rfl hattempt
    exact ⟨middle, _, _, _, outbox, hattach, hprepared, rfl, rfl⟩
  | some found =>
    obtain ⟨attemptId, attempt⟩ := found
    obtain ⟨hget, hsourceId, htrigger⟩ := hconsistent.attempt?_eq_some.mp hattempt
    obtain ⟨outboxId, jobId, hfiled, -, -⟩ := hconsistent.filed attemptId attempt hget
    refine ⟨before, attemptId, attempt, outboxId, _, ?_, prepared_filed hfiled, hsourceId,
      htrigger⟩
    dsimp only
    rw [hfiled.outboxOf]

end Prepare

end AiStp.Upstream
