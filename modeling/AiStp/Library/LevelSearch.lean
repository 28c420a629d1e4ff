import Mathlib.Data.List.Basic

/-!
# Search among parents by levels

`isAncestor` asks whether one key is reached from another along parents, level after level, and
`commonAncestor` widens two searches in turn until one of them meets what the other has seen. Both
give up after a number of levels, so a negative answer says nothing.
-/

set_option autoImplicit false

namespace AiStp.Library.LevelSearch

variable {Key : Type*}

variable [DecidableEq Key] (parents : Key → List Key)

/-- One level of the search: nothing when the ancestor is found, otherwise the keys that are seen
and the next level. -/
def expand (ancestor : Key) : List Key → List Key → List Key → Option (List Key × List Key)
  | seen, next, [] => some (seen, next)
  | seen, next, key :: rest =>
    if key ∈ seen then expand ancestor seen next rest
    else if ancestor ∈ parents key then none
    else
      expand ancestor (key :: seen) (next ++ (parents key).filter (· ∉ key :: seen)) rest

def searchLevels (ancestor : Key) : Nat → List Key → List Key → Bool
  | 0, _, _ => false
  | levels + 1, seen, frontier =>
    match frontier with
    | [] => false
    | key :: rest =>
      match expand parents ancestor seen [] (key :: rest) with
      | none => true
      | some (seen, next) => searchLevels ancestor levels seen next

def isAncestor (levels : Nat) (ancestor descendant : Key) : Bool :=
  ancestor = descendant || searchLevels parents ancestor levels [] [descendant]

/-- One level of one side: the first key that the other side has seen, or the keys that this side
has seen and its next level. -/
def meet (other : List Key) : List Key → List Key → List Key → Key ⊕ (List Key × List Key)
  | seen, next, [] => .inr (seen, next)
  | seen, next, parent :: rest =>
    if parent ∈ other then .inl parent
    else if parent ∈ seen then meet other seen next rest
    else meet other (parent :: seen) (next ++ [parent]) rest

def commonLevels : Nat → List Key → List Key → List Key → List Key → Option Key
  | 0, _, _, _, _ => none
  | levels + 1, leftSeen, rightSeen, left, right =>
    if left = [] ∧ right = [] then none
    else
      match meet rightSeen leftSeen [] (left.flatMap parents) with
      | .inl key => some key
      | .inr (leftSeen, left) =>
        match meet leftSeen rightSeen [] (right.flatMap parents) with
        | .inl key => some key
        | .inr (rightSeen, right) => commonLevels levels leftSeen rightSeen left right

def commonAncestor (levels : Nat) (left right : Key) : Option Key :=
  if left = right then some left
  else commonLevels parents levels [left] [right] [left] [right]

/-! ### What is met -/

section Met

variable {parents} {Left Right : Key → Prop}
  (hleft : ∀ key parent, Left key → parent ∈ parents key → Left parent)
  (hright : ∀ key parent, Right key → parent ∈ parents key → Right parent)

/-- A level of one side holds what the side holds, and meets what the other side holds. -/
theorem meet_cases {other : List Key} (hother : ∀ key ∈ other, Right key) :
    ∀ {seen next level : List Key}, (∀ key ∈ seen, Left key) → (∀ key ∈ next, Left key) →
      (∀ key ∈ level, Left key) →
      (∀ {key}, meet other seen next level = .inl key → Left key ∧ Right key) ∧
      ∀ {after}, meet other seen next level = .inr after →
        (∀ key ∈ after.1, Left key) ∧ ∀ key ∈ after.2, Left key := by
  intro seen next level hseen hnext hlevel
  induction level generalizing seen next with
  | nil =>
    refine ⟨nofun, fun h ↦ ?_⟩
    rw [← Sum.inr.inj h]
    exact ⟨hseen, hnext⟩
  | cons parent rest ih =>
    obtain ⟨hparent, hrest⟩ := List.forall_mem_cons.mp hlevel
    unfold meet
    split_ifs with hmet hold
    · refine ⟨fun h ↦ ?_, nofun⟩
      rw [← Sum.inl.inj h]
      exact ⟨hparent, hother parent hmet⟩
    · exact ih hseen hnext hrest
    · refine ih (List.forall_mem_cons.mpr ⟨hparent, hseen⟩) ?_ hrest
      exact List.forall_mem_append.mpr ⟨hnext, List.forall_mem_singleton.mpr hparent⟩

include hleft hright in
theorem commonLevels_held {levels : Nat} {leftSeen rightSeen left right : List Key} {key : Key}
    (hleftSeen : ∀ key ∈ leftSeen, Left key) (hrightSeen : ∀ key ∈ rightSeen, Right key)
    (hl : ∀ key ∈ left, Left key) (hr : ∀ key ∈ right, Right key)
    (h : commonLevels parents levels leftSeen rightSeen left right = some key) :
    Left key ∧ Right key := by
  induction levels generalizing leftSeen rightSeen left right with
  | zero => cases h
  | succ levels ih =>
    unfold commonLevels at h
    split_ifs at h with hend
    have hleftLevel : ∀ parent ∈ left.flatMap parents, Left parent := by
      intro parent hmem
      obtain ⟨child, hchild, hparent⟩ := List.mem_flatMap.mp hmem
      exact hleft child parent (hl child hchild) hparent
    have hrightLevel : ∀ parent ∈ right.flatMap parents, Right parent := by
      intro parent hmem
      obtain ⟨child, hchild, hparent⟩ := List.mem_flatMap.mp hmem
      exact hright child parent (hr child hchild) hparent
    have hfirst := meet_cases hrightSeen hleftSeen (List.forall_mem_nil _) hleftLevel
    split at h
    · next met hmet =>
      rw [← Option.some.inj h]
      exact hfirst.1 hmet
    · next leftSeen left hmet =>
      obtain ⟨hleftSeen, hl⟩ := hfirst.2 hmet
      have hsecond := meet_cases hleftSeen hrightSeen (List.forall_mem_nil _) hrightLevel
      split at h
      · next met hmet =>
        rw [← Option.some.inj h]
        exact (hsecond.1 hmet).symm
      · next rightSeen right hmet =>
        obtain ⟨hrightSeen, hr⟩ := hsecond.2 hmet
        exact ih hleftSeen hrightSeen hl hr h

include hleft hright in
/-- What two searches meet is held by both sides, if the sides hold the parents of what they hold. -/
theorem commonAncestor_held {levels : Nat} {left right key : Key} (hl : Left left)
    (hr : Right right) (h : commonAncestor parents levels left right = some key) :
    Left key ∧ Right key := by
  unfold commonAncestor at h
  split_ifs at h with hsame
  · rw [← Option.some.inj h]
    exact ⟨hl, hsame ▸ hr⟩
  · have hl' := List.forall_mem_singleton.mpr hl
    have hr' := List.forall_mem_singleton.mpr hr
    exact commonLevels_held hleft hright hl' hr' hl' hr' h

end Met

end AiStp.Library.LevelSearch
