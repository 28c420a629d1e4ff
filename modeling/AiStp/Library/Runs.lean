import Mathlib.Logic.Relation

/-!
# Runs of a deterministic machine

A machine is a step function on states; a run is the fold of the step over a list of actions. The
two rules here are the only inductions over runs: an invariant of one step holds along the run
(`run_invariant`), and a preorder that every step respects relates the two ends of a run
(`run_related`). `StepsMeet` says that every step of a run meets a condition on the state before it
and the action taken: `run_invariant_of_stepsMeet` is the invariant rule for such runs, and
`stepsMeet_iff` reads an exact condition as a statement about every moment of a run.
-/

set_option autoImplicit false

namespace AiStp.Library.Runs

variable {State Action : Type*}

/-- The state reached from `state` by taking the actions in order. -/
def run (step : State → Action → State) (state : State) (actions : List Action) : State :=
  actions.foldl step state

section Equations

variable (step : State → Action → State) (state : State)

@[simp] theorem run_nil : run step state [] = state := rfl

@[simp] theorem run_cons (action : Action) (actions : List Action) :
    run step state (action :: actions) = run step (step state action) actions := rfl

theorem run_append (first second : List Action) :
    run step state (first ++ second) = run step (run step state first) second := by
  simp [run]

end Equations

/-- A property kept by every step is kept by every run. -/
theorem run_invariant {step : State → Action → State} {motive : State → Prop}
    (hstep : ∀ state action, motive state → motive (step state action)) (state : State)
    (hstate : motive state) (actions : List Action) : motive (run step state actions) := by
  induction actions generalizing state with
  | nil => exact hstate
  | cons action actions ih => exact ih (step state action) (hstep state action hstate)

/-- A preorder respected by every step relates the ends of every run. -/
theorem run_related {step : State → Action → State} (Related : State → State → Prop)
    (hrefl : ∀ state, Related state state)
    (htrans : ∀ {first middle last}, Related first middle → Related middle last →
      Related first last) (hstep : ∀ state action, Related state (step state action))
    (state : State) (actions : List Action) : Related state (run step state actions) := by
  induction actions generalizing state with
  | nil => exact hrefl state
  | cons action actions ih => exact htrans (hstep state action) (ih _)

/-- Every step of the run meets a condition on the state before it and the action taken. -/
def StepsMeet (step : State → Action → State) (Condition : State → Action → Prop) :
    State → List Action → Prop
  | _, [] => True
  | state, action :: actions =>
    Condition state action ∧ StepsMeet step Condition (step state action) actions

instance StepsMeet.decidable (step : State → Action → State)
    (Condition : State → Action → Prop) [∀ state action, Decidable (Condition state action)] :
    ∀ state actions, Decidable (StepsMeet step Condition state actions)
  | _, [] => inferInstanceAs (Decidable True)
  | state, action :: actions =>
    have := StepsMeet.decidable step Condition (step state action) actions
    inferInstanceAs (Decidable (_ ∧ _))

variable {Condition : State → Action → Prop}

/-- An invariant kept by the steps that meet a condition is kept by the runs whose steps all
meet it. -/
theorem run_invariant_of_stepsMeet {step : State → Action → State} {motive : State → Prop}
    (hstep : ∀ state action, motive state → Condition state action → motive (step state action))
    (state : State) (hstate : motive state) (actions : List Action)
    (hmeet : StepsMeet step Condition state actions) : motive (run step state actions) := by
  induction actions generalizing state with
  | nil => exact hstate
  | cons action actions ih =>
    obtain ⟨hcondition, hrest⟩ := hmeet
    exact ih (step state action) (hstep state action hstate hcondition) hrest

/-- A preorder respected by the steps that meet a condition relates the ends of the runs whose steps
all meet it. -/
theorem run_related_of_stepsMeet {step : State → Action → State} {Invariant : State → Prop}
    (Related : State → State → Prop) (hrefl : ∀ state, Related state state)
    (htrans : ∀ {first middle last}, Related first middle → Related middle last →
      Related first last) (hinvariant : ∀ state action, Invariant state → Condition state action →
      Invariant (step state action))
    (hstep : ∀ state action, Invariant state → Condition state action →
      Related state (step state action)) (state : State) (hstate : Invariant state)
    (actions : List Action) (hmeet : StepsMeet step Condition state actions) :
    Related state (run step state actions) := by
  induction actions generalizing state with
  | nil => exact hrefl state
  | cons action actions ih =>
    obtain ⟨hcondition, hrest⟩ := hmeet
    exact htrans (hstep state action hstate hcondition)
      (ih _ (hinvariant state action hstate hcondition) hrest)

/-- A condition on the actions alone. -/
theorem stepsMeet_of_forall {step : State → Action → State} {Allowed : Action → Prop}
    {state : State} {actions : List Action} (h : ∀ action ∈ actions, Allowed action) :
    StepsMeet step (fun _ ↦ Allowed) state actions := by
  induction actions generalizing state with
  | nil => trivial
  | cons action actions ih =>
    exact ⟨h action (by simp), ih fun later hlater ↦ h later (by simp [hlater])⟩

theorem stepsMeet_append {step : State → Action → State} {state : State}
    {first second : List Action} :
    StepsMeet step Condition state (first ++ second) ↔
      StepsMeet step Condition state first ∧
        StepsMeet step Condition (run step state first) second := by
  induction first generalizing state with
  | nil => simp [StepsMeet]
  | cons action first ih => simp [StepsMeet, ih, and_assoc]

/-- Where a condition decides whether a step keeps an invariant, the steps of a run all meet it
exactly when the invariant holds at every moment of the run. -/
theorem stepsMeet_iff {step : State → Action → State} {Invariant : State → Prop}
    (hstep : ∀ state action, Invariant state →
      (Condition state action ↔ Invariant (step state action))) (state : State)
    (hstate : Invariant state) (actions : List Action) :
    StepsMeet step Condition state actions ↔
      ∀ before, before <+: actions → Invariant (run step state before) := by
  induction actions generalizing state with
  | nil =>
    constructor
    · intro _ before hbefore
      rw [List.prefix_nil.mp hbefore]
      exact hstate
    · intro _
      trivial
  | cons action actions ih =>
    constructor
    · rintro ⟨hcondition, hrest⟩ before hbefore
      have hnext : Invariant (step state action) := (hstep state action hstate).mp hcondition
      cases before with
      | nil => exact hstate
      | cons first before =>
        obtain ⟨rfl, htail⟩ := List.cons_prefix_cons.mp hbefore
        exact (ih (step state first) hnext).mp hrest before htail
    · intro h
      have hnext : Invariant (step state action) := h [action] (by simp)
      refine ⟨(hstep state action hstate).mpr hnext, (ih _ hnext).mpr ?_⟩
      intro before hbefore
      exact h (action :: before) (List.cons_prefix_cons.mpr ⟨rfl, hbefore⟩)

end AiStp.Library.Runs
