import Mathlib.Data.List.Forall2
import Mathlib.Data.List.Induction

/-!
# Loops that stop at the first failure

A computation in `Except` that succeeds has succeeded at every step (`bind_eq_ok`). A loop over a
list is a fold, or a map, in `Option` or in `Except`. What its body keeps, a finished loop keeps; an
invariant may speak of the items that are done.
-/

set_option autoImplicit false

namespace AiStp.Library

variable {Item State Result : Type*}

/-- The two steps of a computation that succeeded. -/
theorem bind_eq_ok {Error : Type*} {First Second : Type} {first : Except Error First}
    {next : First → Except Error Second} {result : Second} :
    (first >>= next) = .ok result ↔ ∃ value, first = .ok value ∧ next value = .ok result := by
  cases first with
  | error error => simp [bind, Except.bind]
  | ok value => simp [bind, Except.bind]

/-- A loop that stops at an error and does not has done the body at every item. -/
theorem forM_eq_ok {Error : Type*} {Item : Type} {body : Item → Except Error Unit}
    {items : List Item} {value : Unit} (h : items.forM body = .ok value) :
    ∀ item ∈ items, body item = .ok () := by
  induction items with
  | nil =>
    intro item hitem
    cases hitem
  | cons first items ih =>
    change (body first >>= fun _ ↦ items.forM body) = .ok value at h
    obtain ⟨_, hfirst, hrest⟩ := bind_eq_ok.mp h
    intro item hitem
    rcases List.mem_cons.mp hitem with rfl | hitem
    · exact hfirst
    · exact ih hrest item hitem

variable {body : State → Item → Option State} {items : List Item}

theorem foldlM_done_invariant (Invariant : List Item → State → Prop) {first last : State}
    (hrun : items.foldlM body first = some last) (hfirst : Invariant [] first)
    (hbody : ∀ done item state next, done ++ [item] <+: items → Invariant done state →
      body state item = some next → Invariant (done ++ [item]) next) : Invariant items last := by
  induction items using List.reverseRecOn generalizing last with
  | nil =>
    have hlast : first = last := by simpa using hrun
    exact hlast ▸ hfirst
  | append_singleton items item ih =>
    rw [List.foldlM_append, Option.bind_eq_bind, Option.bind_eq_some_iff] at hrun
    obtain ⟨state, hprevious, hnext⟩ := hrun
    have hinvariant : Invariant items state := by
      apply ih hprevious
      intro done later current next hpart
      exact hbody done later current next (hpart.trans (List.prefix_append items [item]))
    refine hbody items item state last List.prefix_rfl hinvariant ?_
    simpa using hnext

/-- The same for a loop that stops at an error. -/
theorem foldlM_ok_invariant {Error : Type*} (Invariant : List Item → State → Prop)
    {body : State → Item → Except Error State} {first last : State}
    (hrun : items.foldlM body first = .ok last) (hfirst : Invariant [] first)
    (hbody : ∀ done item state next, done ++ [item] <+: items → Invariant done state →
      body state item = .ok next → Invariant (done ++ [item]) next) : Invariant items last := by
  have hoption : ∀ (items : List Item) (first : State), items.foldlM body first = .ok last →
      items.foldlM (fun state item ↦ (body state item).toOption) first = some last := by
    intro items
    induction items with
    | nil =>
      intro first hrun
      have hlast : first = last := Except.ok.inj hrun
      rw [hlast]
      rfl
    | cons item items ih =>
      intro first hrun
      rw [List.foldlM_cons] at hrun ⊢
      cases hitem : body first item with
      | error error =>
        rw [hitem] at hrun
        exact nomatch hrun
      | ok next =>
        rw [hitem] at hrun
        exact ih next hrun
  refine foldlM_done_invariant Invariant (hoption items first hrun) hfirst ?_
  intro done item state next hpart hdone hnext
  refine hbody done item state next hpart hdone ?_
  cases hitem : body state item with
  | error error =>
    rw [hitem] at hnext
    exact nomatch hnext
  | ok other =>
    rw [hitem] at hnext
    exact congrArg Except.ok (Option.some.inj hnext)

theorem foldlM_invariant (Invariant : State → Prop) {first last : State}
    (hrun : items.foldlM body first = some last) (hfirst : Invariant first)
    (hbody : ∀ item ∈ items, ∀ state next, Invariant state → body state item = some next →
      Invariant next) : Invariant last := by
  refine foldlM_done_invariant (fun _ ↦ Invariant) hrun hfirst ?_
  intro done item state next hpart
  exact hbody item (hpart.subset (by simp)) state next

/-- What the body does at one item of a finished loop and later rounds keep, holds at the end. -/
theorem foldlM_reached (Reached : State → Prop) {first last : State} {item : Item}
    (hrun : items.foldlM body first = some last) (hitem : item ∈ items)
    (hreach : ∀ state next, body state item = some next → Reached next)
    (hkeep : ∀ later ∈ items, ∀ state next, Reached state → body state later = some next →
      Reached next) : Reached last := by
  refine foldlM_done_invariant (fun done state ↦ item ∈ done → Reached state) hrun (by simp) ?_
    hitem
  intro done later state next hpart hdone hnext hmem
  rcases List.mem_append.mp hmem with hold | hnew
  · exact hkeep later (hpart.subset (by simp)) state next (hdone hold) hnext
  · rw [List.mem_singleton.mp hnew] at hreach
    exact hreach state next hnext

theorem mapM_forall₂ {body : Item → Option Result} {results : List Result}
    (hrun : items.mapM body = some results) :
    List.Forall₂ (fun item result ↦ body item = some result) items results := by
  induction items generalizing results with
  | nil =>
    have hresults : [] = results := by simpa using hrun
    exact hresults ▸ .nil
  | cons item items ih =>
    rw [List.mapM_cons, Option.bind_eq_bind, Option.bind_eq_some_iff] at hrun
    obtain ⟨result, hresult, hrest⟩ := hrun
    rw [Option.bind_eq_bind, Option.bind_eq_some_iff] at hrest
    obtain ⟨others, hothers, hall⟩ := hrest
    have hresults : result :: others = results := by simpa using hall
    exact hresults ▸ .cons hresult (ih hothers)

end AiStp.Library
