import Mathlib.Data.List.Basic
import Mathlib.Logic.Relation

/-!
# Bounded search among ancestors

A record of parents is looked up by key: the lookup may fail, the key may be unrecorded, or it has
a list of parents. The search starts from one key with an explicit stack and stops at the target,
at an unrecorded key, at a failed lookup, or when more than `limit` keys were met; otherwise it
exhausts the ancestors.

`walk_exhausted` is the contract: an exhausted search has met every ancestor, all of them recorded
and none of them the target. `walk_found` and `walk_unrecorded` say what stopped the others.
-/

set_option autoImplicit false

namespace AiStp.Library.AncestorWalk

open Relation

variable {Key Failure : Type*}

/-- How a search ends. -/
inductive Outcome (Failure : Type*) where
  | found
  | unrecorded
  | exceeded
  | failed (failure : Failure)
  | exhausted

/-- `parent` is recorded as a parent of `child`. -/
def Link (lookup : Key → Except Failure (Option (List Key))) (child parent : Key) : Prop :=
  ∃ parents, lookup child = .ok (some parents) ∧ parent ∈ parents

/-- `ancestor` is `descendant` itself or is reached from it along recorded parents. -/
def Reaches (lookup : Key → Except Failure (Option (List Key))) (descendant ancestor : Key) :
    Prop :=
  ReflTransGen (Link lookup) descendant ancestor

section Walk

variable [DecidableEq Key] (lookup : Key → Except Failure (Option (List Key))) (target : Key)

/-- The search with the keys met so far; the first argument bounds how many more may be met. -/
def walk : Nat → List Key → List Key → Outcome Failure
  | 0, seen, stack =>
    match stack.dropWhile (· ∈ seen) with
    | [] => .exhausted
    | key :: _ => if key = target then .found else .exceeded
  | limit + 1, seen, stack =>
    match stack.dropWhile (· ∈ seen) with
    | [] => .exhausted
    | key :: rest =>
      if key = target then .found
      else
        match lookup key with
        | .error failure => .failed failure
        | .ok none => .unrecorded
        | .ok (some parents) => walk limit (key :: seen) (parents.reverse ++ rest)

/-- The parents of the target itself are never looked up. -/
theorem walk_congr {lookup lookup' : Key → Except Failure (Option (List Key))}
    (h : ∀ key, key ≠ target → lookup key = lookup' key) (limit : Nat) (seen stack : List Key) :
    walk lookup target limit seen stack = walk lookup' target limit seen stack := by
  induction limit generalizing seen stack with
  | zero => rfl
  | succ limit ih =>
    unfold walk
    split
    · rfl
    · next key rest _ =>
      by_cases htarget : key = target
      · rw [if_pos htarget, if_pos htarget]
      · rw [if_neg htarget, if_neg htarget, h key htarget]
        split
        · rfl
        · rfl
        · exact ih _ _

end Walk

section Contract

variable [DecidableEq Key] {lookup : Key → Except Failure (Option (List Key))} {target : Key}

/-- The keys met so far are recorded, none is the target, and their parents are met or waiting. -/
def Covered (lookup : Key → Except Failure (Option (List Key))) (target : Key)
    (seen waiting : List Key) : Prop :=
  ∀ key ∈ seen, key ≠ target ∧ ∃ parents, lookup key = .ok (some parents) ∧
    ∀ parent ∈ parents, parent ∈ seen ∨ parent ∈ waiting

/-- Dropping the keys already met from the stack loses none that is not met. -/
theorem mem_of_dropWhile {seen stack : List Key} {key : Key} (hkey : key ∈ stack) :
    key ∈ seen ∨ key ∈ stack.dropWhile (· ∈ seen) := by
  induction stack with
  | nil => cases hkey
  | cons first stack ih =>
    by_cases hfirst : first ∈ seen
    · rw [List.dropWhile_cons_of_pos (by simpa using hfirst)]
      rcases List.mem_cons.mp hkey with rfl | hkey
      · exact Or.inl hfirst
      · exact ih hkey
    · rw [List.dropWhile_cons_of_neg (by simpa using hfirst)]
      exact Or.inr hkey

theorem Covered.dropWhile {seen stack : List Key} (h : Covered lookup target seen stack) :
    Covered lookup target seen (stack.dropWhile (· ∈ seen)) := by
  intro key hkey
  obtain ⟨hother, parents, hparents, hcovered⟩ := h key hkey
  refine ⟨hother, parents, hparents, ?_⟩
  intro parent hparent
  rcases hcovered parent hparent with hseen | hwaiting
  · exact Or.inl hseen
  · exact mem_of_dropWhile hwaiting

omit [DecidableEq Key] in
/-- Meeting a recorded key puts its parents on the stack. -/
theorem Covered.meet {seen rest parents : List Key} {key : Key}
    (h : Covered lookup target seen (key :: rest)) (hother : key ≠ target)
    (hparents : lookup key = .ok (some parents)) :
    Covered lookup target (key :: seen) (parents.reverse ++ rest) := by
  intro met hmet
  rcases List.mem_cons.mp hmet with rfl | hmet
  · refine ⟨hother, parents, hparents, ?_⟩
    intro parent hparent
    exact Or.inr (List.mem_append_left _ (List.mem_reverse.mpr hparent))
  · obtain ⟨hmetOther, metParents, hmetParents, hcovered⟩ := h met hmet
    refine ⟨hmetOther, metParents, hmetParents, ?_⟩
    intro parent hparent
    rcases hcovered parent hparent with hseen | hwaiting
    · exact Or.inl (List.mem_cons_of_mem _ hseen)
    · rcases List.mem_cons.mp hwaiting with rfl | hrest
      · exact Or.inl List.mem_cons_self
      · exact Or.inr (List.mem_append_right _ hrest)

private theorem covers_of_drained {seen stack : List Key}
    (hcovered : Covered lookup target seen stack) (hempty : stack.dropWhile (· ∈ seen) = []) :
    (∀ key, key ∈ seen ∨ key ∈ stack → key ∈ seen) ∧ Covered lookup target seen [] := by
  refine ⟨?_, hempty ▸ hcovered.dropWhile⟩
  rintro key (hkey | hkey)
  · exact hkey
  · rcases mem_of_dropWhile hkey with hseen | hwaiting
    · exact hseen
    · rw [hempty] at hwaiting
      cases hwaiting

variable {limit : Nat}

private theorem walk_covers {seen stack : List Key} (hcovered : Covered lookup target seen stack)
    (h : walk lookup target limit seen stack = .exhausted) :
    ∃ met, (∀ key, key ∈ seen ∨ key ∈ stack → key ∈ met) ∧ Covered lookup target met [] := by
  induction limit generalizing seen stack with
  | zero =>
    rw [walk] at h
    split at h
    · next hempty => exact ⟨seen, covers_of_drained hcovered hempty⟩
    · split_ifs at h
  | succ limit ih =>
    rw [walk] at h
    split at h
    · next hempty => exact ⟨seen, covers_of_drained hcovered hempty⟩
    · next key rest hstack =>
      split_ifs at h with htarget
      split at h
      · cases h
      · cases h
      · next parents hparents =>
        have hwaiting : Covered lookup target seen (key :: rest) :=
          hstack ▸ hcovered.dropWhile
        obtain ⟨met, hmet, hclosed⟩ := ih (hwaiting.meet htarget hparents) h
        refine ⟨met, ?_, hclosed⟩
        rintro other (hother | hother)
        · exact hmet other (Or.inl (List.mem_cons_of_mem _ hother))
        · rcases mem_of_dropWhile hother with hseen | hdropped
          · exact hmet other (Or.inl (List.mem_cons_of_mem _ hseen))
          · rw [hstack] at hdropped
            rcases List.mem_cons.mp hdropped with rfl | hrest
            · exact hmet other (Or.inl List.mem_cons_self)
            · exact hmet other (Or.inr (List.mem_append_right _ hrest))

variable {start : Key}

/-- An exhausted search met every ancestor: all are recorded and none is the target. -/
theorem walk_exhausted (h : walk lookup target limit [] [start] = .exhausted) {ancestor : Key}
    (hancestor : Reaches lookup start ancestor) :
    ancestor ≠ target ∧ ∃ parents, lookup ancestor = .ok (some parents) := by
  have hnothing : Covered lookup target [] [start] := by
    intro key hkey
    cases hkey
  obtain ⟨met, hmet, hclosed⟩ := walk_covers hnothing h
  have hreached : ancestor ∈ met := by
    induction hancestor with
    | refl => exact hmet start (Or.inr List.mem_cons_self)
    | tail _ hlink ih =>
      obtain ⟨parents, hparents, hparent⟩ := hlink
      obtain ⟨-, held, hheld, hcovered⟩ := hclosed _ ih
      obtain rfl : held = parents := Option.some.inj (Except.ok.inj (hheld.symm.trans hparents))
      rcases hcovered _ hparent with hseen | hwaiting
      · exact hseen
      · cases hwaiting
  obtain ⟨hother, parents, hparents, -⟩ := hclosed ancestor hreached
  exact ⟨hother, parents, hparents⟩

/-- What the end of a search from `start` says of its ancestors. -/
def Stopped (lookup : Key → Except Failure (Option (List Key))) (target start : Key) :
    Outcome Failure → Prop
  | .found => Reaches lookup start target
  | .unrecorded => ∃ ancestor, Reaches lookup start ancestor ∧ lookup ancestor = .ok none
  | _ => True

private theorem walk_stopped {seen stack : List Key}
    (hstack : ∀ key ∈ stack, Reaches lookup start key) :
    Stopped lookup target start (walk lookup target limit seen stack) := by
  induction limit generalizing seen stack with
  | zero =>
    rw [walk]
    split
    · trivial
    · next key rest hdropped =>
      have hkey : key ∈ stack :=
        (List.dropWhile_sublist _).subset (hdropped ▸ List.mem_cons_self)
      split_ifs with htarget
      · exact htarget ▸ hstack key hkey
      · trivial
  | succ limit ih =>
    rw [walk]
    split
    · trivial
    · next key rest hdropped =>
      have hsubset : ∀ other ∈ key :: rest, other ∈ stack := by
        intro other hother
        exact (List.dropWhile_sublist _).subset (hdropped ▸ hother)
      have hkey : Reaches lookup start key := hstack key (hsubset key List.mem_cons_self)
      split_ifs with htarget
      · exact htarget ▸ hkey
      split
      · trivial
      · next hlookup => exact ⟨key, hkey, hlookup⟩
      · next parents hparents =>
        refine ih ?_
        intro other hother
        rcases List.mem_append.mp hother with hparent | hrest
        · exact ReflTransGen.tail hkey ⟨parents, hparents, List.mem_reverse.mp hparent⟩
        · exact hstack other (hsubset other (List.mem_cons_of_mem _ hrest))

theorem walk_stopped_from (lookup : Key → Except Failure (Option (List Key))) (target start : Key)
    (limit : Nat) : Stopped lookup target start (walk lookup target limit [] [start]) := by
  refine walk_stopped ?_
  intro key hkey
  rw [List.mem_singleton.mp hkey]
  exact ReflTransGen.refl

theorem walk_found (h : walk lookup target limit [] [start] = .found) :
    Reaches lookup start target := by
  have hstopped := walk_stopped_from lookup target start limit
  rwa [h] at hstopped

theorem walk_unrecorded (h : walk lookup target limit [] [start] = .unrecorded) :
    ∃ ancestor, Reaches lookup start ancestor ∧ lookup ancestor = .ok none := by
  have hstopped := walk_stopped_from lookup target start limit
  rwa [h] at hstopped

end Contract

end AiStp.Library.AncestorWalk
