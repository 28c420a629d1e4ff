import AiStp.Library.Runs
import AiStp.Library.Tables

/-!
# Transactions under row locks

Transactions run side by side over one database. A transaction is a local state that its statements
move on, one at a time: a statement reads what is committed, may take locks, and either goes on,
commits or gives up. Locks last until the transaction ends, and a statement that needs a lock which
another transaction holds waits. What a transaction writes is seen when it commits.

`Keeps` lists what a system of transactions has to show for an invariant of the database together
with what each open transaction relies on: a commit may break neither what it writes nor what the
transactions with other locks rely on. `run_sound` is the induction over runs.
-/

set_option autoImplicit false

namespace AiStp.Library.Transactions

/-- What one statement does. -/
inductive Outcome (Db Lock State : Type*) where
  /-- The transaction goes on, with further locks. -/
  | next (taken : List Lock) (state : State)
  /-- It takes the last locks, writes and ends. -/
  | commit (taken : List Lock) (db : Db)
  /-- It ends and leaves nothing. -/
  | abort

structure Open (Lock State : Type*) where
  state : State
  locks : List Lock

/-- The committed database and the transactions that are open. -/
structure Machine (Db Lock State : Type*) where
  db : Db
  running : Table Nat (Open Lock State)

inductive Action (State Input : Type*) where
  | begin (id : Nat) (state : State)
  | advance (id : Nat) (input : Input)

/-- A system: where transactions may start, and what a statement does. -/
structure System (Db Lock State Input : Type*) where
  starts : Db → State → Bool
  statement : Db → State → Input → Outcome Db Lock State

section Steps

variable {Db Lock State Input : Type*} [DecidableEq Lock]

/-- No other transaction holds one of the locks. -/
def Machine.free (machine : Machine Db Lock State) (id : Nat) (taken : List Lock) : Bool :=
  machine.running.entries.all fun entry ↦ entry.1 = id ∨ taken.all (· ∉ entry.2.locks)

def Machine.ended (machine : Machine Db Lock State) (id : Nat) (db : Db) :
    Machine Db Lock State :=
  ⟨db, machine.running.filter fun other _ ↦ other ≠ id⟩

def advance (machine : Machine Db Lock State) (id : Nat) (current : Open Lock State) :
    Outcome Db Lock State → Machine Db Lock State
  | .next taken state =>
    if machine.free id taken then
      { machine with running := machine.running.update id ⟨state, current.locks ++ taken⟩ }
    else machine
  | .commit taken db => if machine.free id taken then machine.ended id db else machine
  | .abort => machine.ended id machine.db

def step (system : System Db Lock State Input) (machine : Machine Db Lock State) :
    Action State Input → Machine Db Lock State
  | .begin id state =>
    if system.starts machine.db state then
      { machine with running := (machine.running.insert? id ⟨state, []⟩).getD machine.running }
    else machine
  | .advance id input =>
    match machine.running.get? id with
    | none => machine
    | some current =>
      advance machine id current (system.statement machine.db current.state input)

variable {system : System Db Lock State Input} {machine : Machine Db Lock State}

theorem free_iff {id : Nat} {taken : List Lock} : machine.free id taken = true ↔
    ∀ other current, machine.running.get? other = some current → other ≠ id →
      ∀ lock ∈ taken, lock ∉ current.locks := by
  unfold Machine.free
  simp only [List.all_eq_true, decide_eq_true_eq, Prod.forall, Table.mem_entries]
  constructor
  · intro h other current hcurrent hother
    rcases h other current hcurrent with hsame | hfree
    · exact absurd hsame hother
    · exact hfree
  · intro h other current hcurrent
    by_cases hother : other = id
    · exact .inl hother
    · exact .inr (h other current hcurrent hother)

theorem step_begin (system : System Db Lock State Input) (machine : Machine Db Lock State)
    (id : Nat) (state : State) : step system machine (.begin id state) =
      if system.starts machine.db state then
        { machine with
          running := (machine.running.insert? id ⟨state, []⟩).getD machine.running }
      else machine := rfl

theorem step_advance_none {id : Nat} (h : machine.running.get? id = none) (input : Input) :
    step system machine (.advance id input) = machine := by
  unfold step
  simp only [h]

theorem step_advance {id : Nat} {current : Open Lock State}
    (h : machine.running.get? id = some current) (input : Input) :
    step system machine (.advance id input) =
      advance machine id current (system.statement machine.db current.state input) := by
  unfold step
  simp only [h]

omit [DecidableEq Lock] in
theorem get?_ended {id other : Nat} {db : Db} {current : Open Lock State} :
    (machine.ended id db).running.get? other = some current ↔
      machine.running.get? other = some current ∧ other ≠ id := by
  unfold Machine.ended
  rw [Table.get?_filter, Option.filter_eq_some_iff, decide_eq_true_eq]

/-- The database changes when a transaction commits, and only then. -/
theorem step_db (system : System Db Lock State Input) (machine : Machine Db Lock State)
    (action : Action State Input) : (step system machine action).db = machine.db ∨
      ∃ id input current taken, action = .advance id input ∧
        machine.running.get? id = some current ∧ machine.free id taken = true ∧
        system.statement machine.db current.state input =
          .commit taken (step system machine action).db := by
  cases action with
  | begin id state =>
    left
    rw [step_begin]
    split_ifs <;> rfl
  | advance id input =>
    cases hcurrent : machine.running.get? id with
    | none =>
      left
      rw [step_advance_none hcurrent]
    | some current =>
      rw [step_advance hcurrent]
      cases houtcome : system.statement machine.db current.state input with
      | next taken state =>
        left
        simp only [advance]
        split_ifs <;> rfl
      | commit taken db =>
        simp only [advance]
        by_cases hfree : machine.free id taken = true
        · rw [if_pos hfree]
          exact .inr ⟨id, input, current, taken, rfl, hcurrent, hfree, houtcome⟩
        · rw [if_neg hfree]
          exact .inl rfl
      | abort => exact .inl rfl

end Steps

/-! ### Invariants -/

section Invariants

variable {Db Lock State Input : Type*} [DecidableEq Lock]

/-- What is to be shown for an invariant of the database and for what the open transactions rely
on. -/
structure Keeps (system : System Db Lock State Input) (Invariant : Db → Prop)
    (Relies : Db → List Lock → State → Prop) : Prop where
  start : ∀ db state, Invariant db → system.starts db state = true → Relies db [] state
  next : ∀ db locks state input taken after, Invariant db → Relies db locks state →
    system.statement db state input = .next taken after → Relies db (locks ++ taken) after
  commit : ∀ db locks state input taken after, Invariant db → Relies db locks state →
    system.statement db state input = .commit taken after → Invariant after
  others : ∀ db locks state input taken after, Invariant db → Relies db locks state →
    system.statement db state input = .commit taken after →
      ∀ otherLocks other, (∀ lock ∈ locks ++ taken, lock ∉ otherLocks) →
        Relies db otherLocks other → Relies after otherLocks other

/-- The invariant holds, every open transaction has what it relies on, and no lock is held twice. -/
structure Sound (Invariant : Db → Prop) (Relies : Db → List Lock → State → Prop)
    (machine : Machine Db Lock State) : Prop where
  invariant : Invariant machine.db
  relies : ∀ id current, machine.running.get? id = some current →
    Relies machine.db current.locks current.state
  exclusive : ∀ id other current held, machine.running.get? id = some current →
    machine.running.get? other = some held → id ≠ other →
      ∀ lock ∈ current.locks, lock ∉ held.locks

variable {system : System Db Lock State Input} {Invariant : Db → Prop}
  {Relies : Db → List Lock → State → Prop} {machine : Machine Db Lock State}

theorem sound_begin (h : Sound Invariant Relies machine) (hkeeps : Keeps system Invariant Relies)
    (id : Nat) (state : State) : Sound Invariant Relies (step system machine (.begin id state)) := by
  rw [step_begin]
  split_ifs with hstarts
  swap
  · exact h
  cases hinsert : machine.running.insert? id ⟨state, []⟩ with
  | none => exact h
  | some running =>
    obtain ⟨hfree, hget⟩ := Table.insert?_eq_some hinsert
    constructor
    · exact h.invariant
    · intro other current hcurrent
      change running.get? other = some current at hcurrent
      rw [hget] at hcurrent
      split_ifs at hcurrent with hother
      · rw [← Option.some.inj hcurrent]
        exact hkeeps.start machine.db state h.invariant hstarts
      · exact h.relies other current hcurrent
    · intro first second current held hcurrent hheld hne lock hlock
      change running.get? first = some current at hcurrent
      change running.get? second = some held at hheld
      rw [hget] at hcurrent hheld
      split_ifs at hcurrent with hfirst
      · rw [← Option.some.inj hcurrent] at hlock
        cases hlock
      · split_ifs at hheld with hsecond
        · rw [← Option.some.inj hheld]
          exact List.not_mem_nil
        · exact h.exclusive first second current held hcurrent hheld hne lock hlock

/-- A transaction that goes on. -/
theorem sound_next (h : Sound Invariant Relies machine) (hkeeps : Keeps system Invariant Relies)
    {id : Nat} {input : Input} {current : Open Lock State} {taken : List Lock} {state : State}
    (hcurrent : machine.running.get? id = some current) (hfree : machine.free id taken = true)
    (hstatement : system.statement machine.db current.state input = .next taken state) :
    Sound Invariant Relies
      { machine with running := machine.running.update id ⟨state, current.locks ++ taken⟩ } := by
  have hget : ∀ other, (machine.running.update id ⟨state, current.locks ++ taken⟩).get? other =
      if other = id then some ⟨state, current.locks ++ taken⟩ else machine.running.get? other := by
    intro other
    rw [Table.get?_update, hcurrent]
    rfl
  have hnone : ∀ other held, machine.running.get? other = some held → other ≠ id →
      ∀ lock ∈ current.locks ++ taken, lock ∉ held.locks := by
    intro other held hheld hother lock hlock
    rcases List.mem_append.mp hlock with hlock | hlock
    · exact h.exclusive id other current held hcurrent hheld hother.symm lock hlock
    · exact free_iff.mp hfree other held hheld hother lock hlock
  constructor
  · exact h.invariant
  · intro other held hheld
    change (machine.running.update id _).get? other = some held at hheld
    rw [hget] at hheld
    split_ifs at hheld with hother
    · rw [← Option.some.inj hheld]
      exact hkeeps.next machine.db current.locks current.state input taken state h.invariant
        (h.relies id current hcurrent) hstatement
    · exact h.relies other held hheld
  · intro first second one two hone htwo hne lock hlock
    change (machine.running.update id _).get? first = some one at hone
    change (machine.running.update id _).get? second = some two at htwo
    rw [hget] at hone htwo
    split_ifs at hone with hfirst
    · split_ifs at htwo with hsecond
      · exact absurd (hfirst.trans hsecond.symm) hne
      · rw [← Option.some.inj hone] at hlock
        exact hnone second two htwo hsecond lock hlock
    · split_ifs at htwo with hsecond
      · rw [← Option.some.inj htwo]
        intro hheld
        exact hnone first one hone hfirst lock hheld hlock
      · exact h.exclusive first second one two hone htwo hne lock hlock

omit [DecidableEq Lock] in
/-- A transaction that ends leaves the others as they are. -/
theorem sound_ended (h : Sound Invariant Relies machine) {id : Nat} {db : Db}
    (hinvariant : Invariant db)
    (hothers : ∀ other held, machine.running.get? other = some held → other ≠ id →
      Relies db held.locks held.state) : Sound Invariant Relies (machine.ended id db) := by
  constructor
  · exact hinvariant
  · intro other held hheld
    obtain ⟨hrunning, hother⟩ := get?_ended.mp hheld
    exact hothers other held hrunning hother
  · intro first second one two hone htwo hne lock hlock
    exact h.exclusive first second one two (get?_ended.mp hone).1 (get?_ended.mp htwo).1 hne lock
      hlock

theorem step_sound (hkeeps : Keeps system Invariant Relies) (machine : Machine Db Lock State)
    (action : Action State Input) (h : Sound Invariant Relies machine) :
    Sound Invariant Relies (step system machine action) := by
  cases action with
  | begin id state => exact sound_begin h hkeeps id state
  | advance id input =>
    cases hcurrent : machine.running.get? id with
    | none =>
      rw [step_advance_none hcurrent]
      exact h
    | some current =>
      rw [step_advance hcurrent]
      have hrelies := h.relies id current hcurrent
      cases hstatement : system.statement machine.db current.state input with
      | next taken state =>
        simp only [advance]
        split_ifs with hfree
        · exact sound_next h hkeeps hcurrent hfree hstatement
        · exact h
      | commit taken db =>
        simp only [advance]
        split_ifs with hfree
        swap
        · exact h
        apply sound_ended h
        · exact hkeeps.commit machine.db current.locks current.state input taken db h.invariant
            hrelies hstatement
        · intro other held hheld hother
          apply hkeeps.others machine.db current.locks current.state input taken db h.invariant
            hrelies hstatement
          · intro lock hlock
            rcases List.mem_append.mp hlock with hlock | hlock
            · exact h.exclusive id other current held hcurrent hheld hother.symm lock hlock
            · exact free_iff.mp hfree other held hheld hother lock hlock
          · exact h.relies other held hheld
      | abort =>
        exact sound_ended h h.invariant fun other held hheld _ ↦ h.relies other held hheld

/-- In every state of every run. -/
theorem run_sound (hkeeps : Keeps system Invariant Relies) (machine : Machine Db Lock State)
    (h : Sound Invariant Relies machine) (actions : List (Action State Input)) :
    Sound Invariant Relies (Runs.run (step system) machine actions) :=
  Runs.run_invariant (step_sound hkeeps) machine h actions

omit [DecidableEq Lock] in
/-- A database that no transaction has opened yet. -/
theorem sound_idle {db : Db} (h : Invariant db) : Sound Invariant Relies ⟨db, .empty⟩ where
  invariant := h
  relies := fun _ _ hcurrent ↦ nomatch hcurrent
  exclusive := fun _ _ _ _ hcurrent ↦ nomatch hcurrent

end Invariants

end AiStp.Library.Transactions
