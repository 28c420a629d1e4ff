import Mathlib.Logic.Function.Basic
import Mathlib.Logic.Relation

/-!
# Redirects

A node may redirect to another one. A chain of redirects ends in a node that does not. When such a
node is made to redirect to another such node, no cycle arises and every chain still ends.
-/

set_option autoImplicit false

namespace AiStp.Library.Redirects

open Relation

variable {Node : Type*} [DecidableEq Node] {next : Node → Option Node} {source target : Node}

/-- One redirect. -/
def Leads (next : Node → Option Node) (first second : Node) : Prop := next first = some second

def Acyclic (next : Node → Option Node) : Prop := ∀ node, ¬ TransGen (Leads next) node node

/-- The chain of a node ends in a node that does not redirect. -/
def Ends (next : Node → Option Node) (node last : Node) : Prop :=
  ReflTransGen (Leads next) node last ∧ next last = none

theorem leads_update (hsource : next source = none) {first second : Node}
    (h : Leads next first second) :
    Leads (Function.update next source (some target)) first second := by
  have hne : first ≠ source := by
    rintro rfl
    exact nomatch hsource.symm.trans h
  rw [Leads, Function.update_of_ne hne]
  exact h

/-- A chain with the new redirect was a chain before, or comes by the source to the target. -/
theorem transGen_update (htarget : next target = none) (hne : source ≠ target)
    {first second : Node}
    (h : TransGen (Leads (Function.update next source (some target))) first second) :
    TransGen (Leads next) first second ∨
      ReflTransGen (Leads next) first source ∧ second = target := by
  have hstep {node after : Node} (hafter : Leads (Function.update next source (some target)) node
      after) : node = source ∧ after = target ∨ Leads next node after := by
    by_cases hnode : node = source
    · rw [Leads, hnode, Function.update_self] at hafter
      exact .inl ⟨hnode, (Option.some.inj hafter).symm⟩
    · rw [Leads, Function.update_of_ne hnode] at hafter
      exact .inr hafter
  induction h with
  | single hlast =>
    rcases hstep hlast with ⟨rfl, hafter⟩ | hold
    · exact .inr ⟨.refl, hafter⟩
    · exact .inl (.single hold)
  | tail _ hlast ih =>
    rcases hstep hlast with ⟨rfl, hafter⟩ | hold
    · rcases ih with hbefore | ⟨-, hsame⟩
      · exact .inr ⟨hbefore.to_reflTransGen, hafter⟩
      · exact absurd hsame hne
    · rcases ih with hbefore | ⟨-, rfl⟩
      · exact .inl (hbefore.tail hold)
      · exact nomatch htarget.symm.trans hold

theorem Acyclic.update (h : Acyclic next) (htarget : next target = none) (hne : source ≠ target) :
    Acyclic (Function.update next source (some target)) := by
  intro node hcycle
  rcases transGen_update htarget hne hcycle with hbefore | ⟨hreaches, rfl⟩
  · exact h node hbefore
  · rcases ReflTransGen.cases_head hreaches with hsame | ⟨after, hafter, -⟩
    · exact hne hsame.symm
    · exact nomatch htarget.symm.trans hafter

theorem Ends.update (hsource : next source = none) (htarget : next target = none)
    (hne : source ≠ target) {node last : Node} (h : Ends next node last) :
    Ends (Function.update next source (some target)) node (if last = source then target else last) := by
  have hchain : ReflTransGen (Leads (Function.update next source (some target))) node last :=
    ReflTransGen.mono (fun _ _ hleads ↦ leads_update hsource hleads) _ _ h.1
  by_cases hlast : last = source
  · rw [if_pos hlast]
    refine ⟨hchain.tail ?_, by rw [Function.update_of_ne hne.symm, htarget]⟩
    rw [hlast, Leads, Function.update_self]
  · rw [if_neg hlast]
    exact ⟨hchain, by rw [Function.update_of_ne hlast, h.2]⟩

end AiStp.Library.Redirects
