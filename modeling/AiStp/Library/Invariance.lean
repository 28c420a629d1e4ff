import AiStp.Library.Programs

/-!
# Programs that keep an invariant

A program keeps an invariant when every state that it passes has it, from any state that has it. A
program is put together from steps, so there is one rule for each way to put them together, and no
rule asks in which state the program is.
-/

set_option autoImplicit false

namespace AiStp.Library.Program

variable {State Answer Next Item : Type} {Invariant : State → Prop}

def Keeps (Invariant : State → Prop) (program : Program State Answer) : Prop :=
  ∀ state, Invariant state →
    Meets False program state Invariant fun _ next ↦ Invariant next

namespace Keeps

protected theorem pure (answer : Answer) :
    Keeps Invariant (pure answer : Program State Answer) :=
  fun _ h ↦ Meets.pure h

protected theorem bind {program : Program State Answer} {next : Answer → Program State Next}
    (h : Keeps Invariant program) (hnext : ∀ answer, Keeps Invariant (next answer)) :
    Keeps Invariant (program >>= next) :=
  fun state hstate ↦ (h state hstate).bind fun answer later hlater ↦ hnext answer later hlater

theorem look (observe : State → Option Answer) : Keeps Invariant (Program.look observe) :=
  fun _ h ↦ Meets.look False.elim fun _ _ ↦ h

theorem act {change : State → Option State}
    (h : ∀ state next, Invariant state → change state = some next → Invariant next) :
    Keeps Invariant (Program.act change) :=
  fun state hstate ↦ Meets.act False.elim fun next hnext ↦
    ⟨h state next hstate hnext, h state next hstate hnext⟩

theorem need (condition : Prop) [Decidable condition] :
    Keeps Invariant (Program.need condition : Program State Unit) :=
  fun _ h ↦ Meets.need False.elim fun _ ↦ h

theorem need_bind {condition : Prop} [Decidable condition] {next : Unit → Program State Next}
    (hnext : condition → Keeps Invariant (next ())) :
    Keeps Invariant (Program.need condition >>= next) :=
  fun state h ↦ Meets.need_bind False.elim fun hcondition ↦ hnext hcondition state h

theorem refuse : Keeps Invariant (Program.refuse : Program State Answer) :=
  fun _ _ ↦ Meets.refuse not_false

theorem forEach {body : Item → Program State Unit} (h : ∀ item, Keeps Invariant (body item))
    (items : List Item) : Keeps Invariant (Program.forEach body items) := by
  induction items with
  | nil => exact Keeps.pure ()
  | cons item items ih => exact (h item).bind fun _ ↦ ih

end Keeps

end AiStp.Library.Program
