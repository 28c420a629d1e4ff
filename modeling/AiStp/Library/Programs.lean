import Mathlib.Data.List.Induction
import Mathlib.Logic.Relation

/-!
# Programs with durable steps

A program reads a durable state and changes it step by step, until it answers or refuses. Its run
keeps every state that was durable on the way, so a crash leaves one of them. `Meets` is the
judgment about one run: what every passed state satisfies, what holds with the answer, and, where it
is total, that the program answers. There is one rule for each way to build a program.
-/

set_option autoImplicit false

namespace AiStp.Library

variable {State Answer Next Item : Type}

structure Run (State Answer : Type) where
  /-- The states that were durable after the start, oldest first. -/
  passed : List State
  /-- There is no answer where the program refused. -/
  answer : Option Answer

/-- The state in which a run ends. -/
def Run.last (run : Run State Answer) (start : State) : State :=
  run.passed.getLastD start

def Program (State Answer : Type) := State → Run State Answer

namespace Program

/-! ### Building programs -/

def done (answer : Answer) : Program State Answer := fun _ ↦ ⟨[], some answer⟩

def andThen (program : Program State Answer) (next : Answer → Program State Next) :
    Program State Next := fun start ↦
  let first := program start
  match first.answer with
  | none => ⟨first.passed, none⟩
  | some answer =>
    let second := next answer (first.last start)
    ⟨first.passed ++ second.passed, second.answer⟩

instance : Monad (Program State) where
  pure := done
  bind := andThen

/-- Read the state, or refuse it. -/
def look (observe : State → Option Answer) : Program State Answer :=
  fun start ↦ ⟨[], observe start⟩

/-- Change the state in one durable step. -/
def act (change : State → Option State) : Program State Unit := fun start ↦
  match change start with
  | none => ⟨[], none⟩
  | some next => ⟨[next], some ()⟩

def need (condition : Prop) [Decidable condition] : Program State Unit :=
  fun _ ↦ ⟨[], if condition then some () else none⟩

def refuse : Program State Answer := fun _ ↦ ⟨[], none⟩

def forEach (body : Item → Program State Unit) : List Item → Program State Unit
  | [] => pure ()
  | item :: items => do
    body item
    forEach body items

/-! ### The judgment -/

/-- What one run of a program does. A total judgment says that the program answers. -/
structure Meets (total : Prop) (program : Program State Answer) (start : State)
    (Durable : State → Prop) (Answered : Answer → State → Prop) : Prop where
  passed : ∀ state ∈ (program start).passed, Durable state
  answered : ∀ answer, (program start).answer = some answer →
    Answered answer ((program start).last start)
  answers : total → (program start).answer.isSome

variable {program : Program State Answer} {next : Answer → Program State Next}

section Rules

variable {total : Prop} {start : State} {Durable : State → Prop}
  {Answered : Answer → State → Prop}

theorem last_append (first second : List State) (start : State) :
    (first ++ second).getLastD start = second.getLastD (first.getLastD start) := by
  cases second using List.reverseRecOn with
  | nil => simp
  | append_singleton second state _ => simp [← List.append_assoc]

namespace Meets

theorem mono {Durable' : State → Prop} {Answered' : Answer → State → Prop}
    (h : Meets total program start Durable Answered)
    (hdurable : ∀ state, Durable state → Durable' state)
    (hanswered : ∀ answer state, Answered answer state → Answered' answer state) :
    Meets total program start Durable' Answered' where
  passed state hstate := hdurable state (h.passed state hstate)
  answered answer hanswer := hanswered answer _ (h.answered answer hanswer)
  answers := h.answers

protected theorem pure {answer : Answer} (h : Answered answer start) :
    Meets total (pure answer) start Durable Answered where
  passed := by intro state hstate; cases hstate
  answered := by
    intro given hgiven
    have hsame : answer = given := by injection hgiven
    exact hsame ▸ h
  answers _ := rfl

variable {Finally : Next → State → Prop}

protected theorem bind {Between : Answer → State → Prop}
    (hfirst : Meets total program start Durable Between)
    (hnext : ∀ answer state, Between answer state → Meets total (next answer) state Durable Finally) :
    Meets total (program >>= next) start Durable Finally := by
  have hbind : (program >>= next) start = andThen program next start := rfl
  cases hanswer : (program start).answer with
  | none =>
    have hrun : (program >>= next) start = ⟨(program start).passed, none⟩ := by
      simp [hbind, andThen, hanswer]
    constructor
    · intro state hstate
      rw [hrun] at hstate
      exact hfirst.passed state hstate
    · intro answer hgiven
      rw [hrun] at hgiven
      cases hgiven
    · intro htotal
      have := hfirst.answers htotal
      simp [hanswer] at this
  | some answer =>
    have hsecond := hnext answer _ (hfirst.answered answer hanswer)
    have hrun : (program >>= next) start =
        ⟨(program start).passed ++ (next answer ((program start).last start)).passed,
          (next answer ((program start).last start)).answer⟩ := by
      simp [hbind, andThen, hanswer]
    constructor
    · intro state hstate
      rw [hrun, List.mem_append] at hstate
      exact hstate.elim (hfirst.passed state) (hsecond.passed state)
    · intro given hgiven
      rw [hrun] at hgiven ⊢
      have hlast := hsecond.answered given hgiven
      unfold Run.last at hlast ⊢
      rwa [last_append]
    · intro htotal
      rw [hrun]
      exact hsecond.answers htotal

variable {observe : State → Option Answer}

/-- A reading that may refuse, in a partial judgment. -/
theorem look (hanswers : total → (observe start).isSome)
    (h : ∀ answer, observe start = some answer → Answered answer start) :
    Meets total (look observe) start Durable Answered where
  passed := by intro state hstate; cases hstate
  answered answer hanswer := h answer hanswer
  answers := hanswers

theorem look_some {answer : Answer} (hobserve : observe start = some answer)
    (h : Answered answer start) : Meets total (Program.look observe) start Durable Answered := by
  refine look (fun _ ↦ by simp [hobserve]) ?_
  intro given hgiven
  have hsame : answer = given := by simpa [hobserve] using hgiven
  exact hsame ▸ h

theorem act {change : State → Option State} {Answered : Unit → State → Prop}
    (hanswers : total → (change start).isSome)
    (h : ∀ next, change start = some next → Durable next ∧ Answered () next) :
    Meets total (act change) start Durable Answered := by
  cases hchange : change start with
  | none =>
    have hrun : Program.act change start = ⟨[], none⟩ := by simp [Program.act, hchange]
    constructor
    · intro state hstate
      rw [hrun] at hstate
      cases hstate
    · intro answer hanswer
      rw [hrun] at hanswer
      cases hanswer
    · intro htotal
      have := hanswers htotal
      simp [hchange] at this
  | some next =>
    obtain ⟨hdurable, hanswered⟩ := h next hchange
    have hrun : Program.act change start = ⟨[next], some ()⟩ := by simp [Program.act, hchange]
    constructor
    · intro state hstate
      rw [hrun] at hstate
      rw [List.mem_singleton.mp hstate]
      exact hdurable
    · intro answer _
      rw [hrun]
      exact hanswered
    · intro _
      rw [hrun]
      rfl

theorem need {condition : Prop} [Decidable condition] {Answered : Unit → State → Prop}
    (hanswers : total → condition) (h : condition → Answered () start) :
    Meets total (need condition) start Durable Answered where
  passed := by intro state hstate; cases hstate
  answered := by
    intro answer hanswer
    by_cases hcondition : condition
    · exact h hcondition
    · simp [Program.need, hcondition] at hanswer
  answers htotal := by simp [Program.need, hanswers htotal]

theorem refuse (htotal : ¬ total) : Meets total refuse start Durable Answered where
  passed := by intro state hstate; cases hstate
  answered := by intro answer hanswer; cases hanswer
  answers h := absurd h htotal

/-! Rules for a reading or a check that a program goes on from. -/

theorem look_bind (hanswers : total → (observe start).isSome)
    (h : ∀ answer, observe start = some answer → Meets total (next answer) start Durable Finally) :
    Meets total (Program.look observe >>= next) start Durable Finally := by
  have hlook : Meets total (Program.look observe) start Durable
      fun answer state ↦ observe start = some answer ∧ state = start :=
    look hanswers fun answer hanswer ↦ ⟨hanswer, rfl⟩
  refine hlook.bind ?_
  rintro answer state ⟨hanswer, rfl⟩
  exact h answer hanswer

theorem need_bind {condition : Prop} [Decidable condition] {next : Unit → Program State Next}
    (hanswers : total → condition) (h : condition → Meets total (next ()) start Durable Finally) :
    Meets total (Program.need condition >>= next) start Durable Finally := by
  have hneed : Meets total (Program.need condition) start Durable
      fun _ state ↦ condition ∧ state = start :=
    need hanswers fun hcondition ↦ ⟨hcondition, rfl⟩
  refine hneed.bind ?_
  rintro answer state ⟨hcondition, rfl⟩
  exact h hcondition

/-- A loop keeps an invariant that may speak of the items that are done. -/
theorem forEach {body : Item → Program State Unit} (Invariant : List Item → State → Prop)
    {items : List Item} (hstart : Invariant [] start)
    (hbody : ∀ before item after, items = before ++ item :: after →
      ∀ state, Invariant before state →
        Meets total (body item) state Durable fun _ ↦ Invariant (before ++ [item])) :
    Meets total (forEach body items) start Durable fun _ ↦ Invariant items := by
  suffices hrest : ∀ (rest before : List Item) (state : State), items = before ++ rest →
      Invariant before state →
      Meets total (Program.forEach body rest) state Durable fun _ ↦ Invariant items from
    hrest items [] start rfl hstart
  intro rest
  induction rest with
  | nil =>
    intro before state hitems hstate
    have hall : items = before := by simpa using hitems
    exact Meets.pure (hall ▸ hstate)
  | cons item rest ih =>
    intro before state hitems hstate
    refine (hbody before item rest hitems state hstate).bind ?_
    intro _ next hnext
    exact ih (before ++ [item]) next (by simp [hitems]) hnext

end Meets

/-! ### The states that are passed -/

end Rules

/-! ### Programs in two phases -/

/-- Wherever the run stops, all states that it passed are of the first phase, or the last one is of
the second. -/
def Tracks (program : Program State Answer) (start : State) (First Second : State → Prop) : Prop :=
  ∀ visited, visited <+: (program start).passed →
    (∀ state ∈ visited, First state) ∨ Second (visited.getLastD start)

namespace Tracks

variable {total : Prop} {start : State} {First Second : State → Prop}

theorem of_first {Answered : Answer → State → Prop} (h : Meets total program start First Answered) :
    Tracks program start First Second :=
  fun _ hvisited ↦ .inl fun state hstate ↦ h.passed state (hvisited.subset hstate)

theorem of_second (Answered : Answer → State → Prop)
    (h : Meets total program start Second Answered) : Tracks program start First Second := by
  intro visited hvisited
  cases visited using List.reverseRecOn with
  | nil => left; simp
  | append_singleton visited state _ =>
    right
    simpa using h.passed state (hvisited.subset (by simp))

protected theorem bind {Between : Answer → State → Prop}
    (hfirst : Meets total program start First Between)
    (hnext : ∀ answer state, Between answer state → Tracks (next answer) state First Second) :
    Tracks (program >>= next) start First Second := by
  intro visited hvisited
  have hbind : (program >>= next) start = andThen program next start := rfl
  cases hanswer : (program start).answer with
  | none =>
    have hpassed : ((program >>= next) start).passed = (program start).passed := by
      simp [hbind, andThen, hanswer]
    rw [hpassed] at hvisited
    exact .inl fun state hstate ↦ hfirst.passed state (hvisited.subset hstate)
  | some answer =>
    have hpassed : ((program >>= next) start).passed = (program start).passed ++
        (next answer ((program start).last start)).passed := by
      simp [hbind, andThen, hanswer]
    rw [hpassed] at hvisited
    rcases List.prefix_or_prefix_of_prefix hvisited (List.prefix_append _ _) with hearly | hlate
    · exact .inl fun state hstate ↦ hfirst.passed state (hearly.subset hstate)
    · obtain ⟨later, rfl⟩ := hlate
      have hlater := (List.prefix_append_right_inj _).mp hvisited
      rcases hnext answer _ (hfirst.answered answer hanswer) later hlater with hall | hlast
      · left
        intro state hstate
        exact (List.mem_append.mp hstate).elim (hfirst.passed state) (hall state)
      · right
        rwa [last_append]

end Tracks

end Program

end AiStp.Library
