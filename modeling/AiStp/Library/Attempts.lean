import Mathlib.Logic.Basic

/-!
# Computations that keep what they wrote

An attempt reads and writes a state and may fail; what it wrote before it failed stays written. A
caller that handles the failure goes on from there, unless it rolls the state back (`atomically`).
An attempt is careful for some failures if it has written nothing when it fails with one of them. A
computation that only reads before a careful one is careful (`Reading.bind_careful`), and so is one
that never fails in that way (`FailsOnly.careful`).
-/

set_option autoImplicit false

namespace AiStp.Library

def Attempt (State Error Value : Type) : Type := State → Except Error Value × State

namespace Attempt

variable {State Error Value Result : Type}

instance : Monad (Attempt State Error) where
  pure := fun value state ↦ (.ok value, state)
  bind := fun first next state ↦
    match first state with
    | (.ok value, middle) => next value middle
    | (.error error, middle) => (.error error, middle)

/-- Goes on only if the condition holds. -/
def check (condition : State → Bool) (error : Error) : Attempt State Error Unit :=
  fun state ↦ if condition state then (.ok (), state) else (.error error, state)

/-- Goes on with what it reads. -/
def fetch (read : State → Option Value) (error : Error) : Attempt State Error Value :=
  fun state ↦
    match read state with
    | some value => (.ok value, state)
    | none => (.error error, state)

/-- Writes, unless the write is refused. -/
def write (change : State → Option State) (error : Error) : Attempt State Error Unit :=
  fun state ↦
    match change state with
    | some after => (.ok (), after)
    | none => (.error error, state)

/-- Nothing is written if it fails. -/
def atomically (attempt : Attempt State Error Value) : Attempt State Error Value :=
  fun state ↦
    match attempt state with
    | (.ok value, after) => (.ok value, after)
    | (.error error, _) => (.error error, state)

/-- Takes the items one after another. -/
def forEach {Item : Type} (body : Item → Attempt State Error Unit) :
    List Item → Attempt State Error Unit
  | [] => pure ()
  | item :: items => do
    body item
    forEach body items

/-! ### What an attempt has done -/

section Results

variable {first : Attempt State Error Value} {next : Value → Attempt State Error Result}
  {state after : State} {error : Error}

theorem bind_eq (first : Attempt State Error Value) (next : Value → Attempt State Error Result)
    (state : State) : (first >>= next) state =
      match first state with
      | (.ok value, middle) => next value middle
      | (.error error, middle) => (.error error, middle) := rfl

theorem bind_eq_ok {result : Result} : (first >>= next) state = (.ok result, after) ↔
    ∃ value middle, first state = (.ok value, middle) ∧ next value middle = (.ok result, after) := by
  rw [bind_eq]
  cases hfirst : first state with
  | mk outcome middle =>
    cases outcome with
    | error error => simp
    | ok value => simp [and_assoc]

theorem bind_eq_error : (first >>= next) state = (.error error, after) ↔
    first state = (.error error, after) ∨
      ∃ value middle, first state = (.ok value, middle) ∧
        next value middle = (.error error, after) := by
  rw [bind_eq]
  cases hfirst : first state with
  | mk outcome middle =>
    cases outcome with
    | error error => simp
    | ok value => simp [and_assoc]

@[simp] theorem pure_eq_ok {value result : Value} :
    (pure value : Attempt State Error Value) state = (.ok result, after) ↔
      value = result ∧ state = after := by
  show (Except.ok value, state) = _ ↔ _
  simp

@[simp] theorem check_eq_ok {condition : State → Bool} {value : Unit} :
    check condition error state = (.ok value, after) ↔ condition state = true ∧ state = after := by
  unfold check
  split <;> simp [*]

@[simp] theorem fetch_eq_ok {read : State → Option Value} {value : Value} :
    fetch read error state = (.ok value, after) ↔ read state = some value ∧ state = after := by
  unfold fetch
  split <;> simp [*]

@[simp] theorem write_eq_ok {change : State → Option State} {value : Unit} :
    write change error state = (.ok value, after) ↔ change state = some after := by
  unfold write
  split <;> simp [*]

theorem atomically_eq_ok {value : Value} :
    atomically first state = (.ok value, after) ↔ first state = (.ok value, after) := by
  unfold atomically
  split <;> simp [*]

theorem atomically_eq_error (h : atomically first state = (.error error, after)) :
    after = state := by
  unfold atomically at h
  split at h
  · cases (Prod.mk.inj h).1
  · exact (Prod.mk.inj h).2.symm

end Results

/-- What the body keeps, the loop keeps; the relation may speak of the items that are done. -/
theorem forEach_eq_ok {Item : Type} {body : Item → Attempt State Error Unit} {items : List Item}
    {state after : State} {value : Unit} (Related : List Item → State → State → Prop)
    (hnil : ∀ state, Related [] state state)
    (hcons : ∀ item items state middle after, body item state = (.ok (), middle) →
      Related items middle after → Related (item :: items) state after)
    (h : forEach body items state = (.ok value, after)) : Related items state after := by
  induction items generalizing state with
  | nil =>
    obtain ⟨-, rfl⟩ := pure_eq_ok.mp h
    exact hnil state
  | cons item items ih =>
    obtain ⟨done, middle, hbody, hrest⟩ := bind_eq_ok.mp h
    exact hcons item items state middle after hbody (ih hrest)

/-! ### Attempts that write nothing when they fail -/

/-- The state is only read. -/
def Reading (attempt : Attempt State Error Value) : Prop := ∀ state, (attempt state).2 = state

/-- Nothing is written before the failures. -/
def Careful (failures : Error → Prop) (attempt : Attempt State Error Value) : Prop :=
  ∀ state error after, failures error → attempt state = (.error error, after) → after = state

def FailsOnly (error : Error) (attempt : Attempt State Error Value) : Prop :=
  ∀ state failure after, attempt state = (.error failure, after) → failure = error

theorem Reading.state_eq {attempt : Attempt State Error Value} (h : Reading attempt)
    {state after : State} {outcome : Except Error Value} (hrun : attempt state = (outcome, after)) :
    after = state := by
  have hstate := h state
  rw [hrun] at hstate
  exact hstate

theorem reading_check (condition : State → Bool) (error : Error) :
    Reading (check condition error) := by
  intro state
  unfold check
  split <;> rfl

theorem reading_fetch (read : State → Option Value) (error : Error) :
    Reading (fetch read error) := by
  intro state
  unfold fetch
  split <;> rfl

theorem Reading.pure (value : Value) : Reading (pure value : Attempt State Error Value) :=
  fun _ ↦ rfl

theorem Reading.bind {first : Attempt State Error Value}
    {next : Value → Attempt State Error Result} (hfirst : Reading first)
    (hnext : ∀ value, Reading (next value)) : Reading (first >>= next) := by
  intro state
  rw [bind_eq]
  have hstate := hfirst state
  cases hrun : first state with
  | mk outcome middle =>
    rw [hrun] at hstate
    change middle = state at hstate
    subst hstate
    cases outcome with
    | error error => rfl
    | ok value => exact hnext value middle

theorem failsOnly_write (change : State → Option State) (error : Error) :
    FailsOnly error (write change error) := by
  intro state failure after h
  unfold write at h
  split at h
  · cases (Prod.mk.inj h).1
  · exact (Except.error.inj (Prod.mk.inj h).1).symm

theorem FailsOnly.pure (error : Error) (value : Value) :
    FailsOnly error (pure value : Attempt State Error Value) := by
  intro state failure after h
  cases (Prod.mk.inj h).1

theorem FailsOnly.bind {error : Error} {first : Attempt State Error Value}
    {next : Value → Attempt State Error Result} (hfirst : FailsOnly error first)
    (hnext : ∀ value, FailsOnly error (next value)) : FailsOnly error (first >>= next) := by
  intro state failure after h
  rcases bind_eq_error.mp h with hfailed | ⟨value, middle, -, hfailed⟩
  · exact hfirst state failure after hfailed
  · exact hnext value middle failure after hfailed

theorem failsOnly_forEach {Item : Type} {error : Error} {body : Item → Attempt State Error Unit}
    (hbody : ∀ item, FailsOnly error (body item)) (items : List Item) :
    FailsOnly error (forEach body items) := by
  induction items with
  | nil => exact FailsOnly.pure error ()
  | cons item items ih => exact (hbody item).bind fun _ ↦ ih

theorem FailsOnly.careful {error : Error} {failures : Error → Prop}
    {attempt : Attempt State Error Value} (h : FailsOnly error attempt) (hother : ¬ failures error) :
    Careful failures attempt := by
  intro state failure after hfailure hrun
  rw [h state failure after hrun] at hfailure
  exact absurd hfailure hother

theorem Reading.bind_careful {failures : Error → Prop} {first : Attempt State Error Value}
    {next : Value → Attempt State Error Result} (hfirst : Reading first)
    (hnext : ∀ value, Careful failures (next value)) : Careful failures (first >>= next) := by
  intro state error after hfailure h
  rcases bind_eq_error.mp h with hfailed | ⟨value, middle, hrun, hfailed⟩
  · exact hfirst.state_eq hfailed
  · rw [hfirst.state_eq hrun] at hfailed
    exact hnext value state error after hfailure hfailed

end Attempt

end AiStp.Library
