import AiStp.Library.Grouping

/-!
# Pages after a key

Items that no two of which share a key are listed by key. A page is the first items after a key, and
the key of its last item leads to the next page while more items follow. The pages that are obtained
in this way are those of the whole list, in order (`follow_eq`).
-/

set_option autoImplicit false

namespace AiStp.Library.Keyset

variable {Item Key : Type*} [LinearOrder Key] (key : Item → Key)

/-- The items by key. -/
def listed (items : List Item) : List Item :=
  items.insertionSort fun first second ↦ key first ≤ key second

/-- The items after a key; all of them without one. -/
def following (after : Option Key) (items : List Item) : List Item :=
  items.filter fun item ↦ after.all (· < key item)

/-- The first items, and the key of the last of them when there are more. -/
def page (size : Nat) (items : List Item) : List Item × Option Key :=
  (items.take size,
    if size < items.length then (items.take size).getLast?.map key else none)

/-- The pages from a key on. -/
def follow (size : Nat) (items : List Item) : Nat → Option Key → List (List Item)
  | 0, _ => []
  | fuel + 1, after =>
    let found := page key size (following key after (listed key items))
    found.1 :: match found.2 with
      | none => []
      | some next => follow size items fuel (some next)

/-- A list cut into pieces. -/
def pieces (size : Nat) (items : List Item) : Nat → List (List Item)
  | 0 => []
  | fuel + 1 => items.take size ::
      if size < items.length then pieces size (items.drop size) fuel else []

variable {key} {size : Nat} {items : List Item}

/-- Items with keys of their own. -/
def Distinct (key : Item → Key) (items : List Item) : Prop :=
  (items.map key).Nodup

omit [LinearOrder Key] in
theorem Distinct.eq_of_key (h : Distinct key items) {first second : Item} (hfirst : first ∈ items)
    (hsecond : second ∈ items) (hsame : key first = key second) : first = second :=
  List.inj_on_of_nodup_map h hfirst hsecond hsame

omit [LinearOrder Key] in
theorem Distinct.filter (h : Distinct key items) (keep : Item → Bool) :
    Distinct key (items.filter keep) :=
  h.sublist (List.filter_sublist.map key)

theorem listed_perm (items : List Item) : (listed key items).Perm items :=
  List.perm_insertionSort _ items

theorem listed_nodup (h : Distinct key items) : (listed key items).Nodup :=
  (listed_perm items).nodup_iff.mpr h.of_map

/-- Later items have greater keys. -/
theorem listed_pairwise (h : Distinct key items) :
    (listed key items).Pairwise fun first second ↦ key first < key second := by
  let order : Item → Item → Prop := fun first second ↦ key first ≤ key second
  have : Std.Total order := ⟨fun first second ↦ le_total (key first) (key second)⟩
  have : IsTrans Item order := ⟨fun _ _ _ hfirst hsecond ↦ le_trans hfirst hsecond⟩
  have hsorted : (listed key items).Pairwise order := List.pairwise_insertionSort order items
  have hkeys : ((listed key items).map key).Nodup := h.perm ((listed_perm items).map key).symm
  have hne := List.pairwise_map.mp hkeys
  exact (hsorted.and hne).imp fun hpair ↦ lt_of_le_of_ne hpair.1 hpair.2

/-- What is kept of a list is listed in the same order. -/
theorem listed_filter (h : Distinct key items) (keep : Item → Bool) :
    listed key (items.filter keep) = (listed key items).filter keep := by
  have hsorted := (listed_pairwise h).sublist (List.filter_sublist (p := keep))
  refine List.Perm.eq_of_pairwise ?_ ((listed_pairwise (h.filter keep)).imp le_of_lt)
    (hsorted.imp le_of_lt) ?_
  · intro first second hfirst hsecond hle hge
    have hmem : ∀ item ∈ listed key (items.filter keep), item ∈ items := fun item hitem ↦
      (List.mem_filter.mp ((listed_perm _).mem_iff.mp hitem)).1
    have hkept : second ∈ items :=
      (listed_perm items).mem_iff.mp (List.mem_filter.mp hsecond).1
    exact h.eq_of_key (hmem first hfirst) hkept (le_antisymm hle hge)
  · exact (listed_perm _).trans ((listed_perm items).filter keep).symm

/-- What follows the last item of a front is the rest. -/
theorem following_last {front rest : List Item} {last : Item}
    (h : (front ++ last :: rest).Pairwise fun first second ↦ key first < key second) :
    following key (some (key last)) (front ++ last :: rest) = rest := by
  obtain ⟨-, hrest, hfront⟩ := List.pairwise_append.mp h
  obtain ⟨hlast, -⟩ := List.pairwise_cons.mp hrest
  have hbefore : front.filter (fun item ↦ decide (key last < key item)) = [] := by
    rw [List.filter_eq_nil_iff]
    intro item hitem
    rw [decide_eq_true_eq]
    exact (hfront item hitem last List.mem_cons_self).not_gt
  have hafter : rest.filter (fun item ↦ decide (key last < key item)) = rest := by
    rw [List.filter_eq_self]
    intro item hitem
    rw [decide_eq_true_eq]
    exact hlast item hitem
  have hself : decide (key last < key last) = false := decide_eq_false (lt_irrefl _)
  simp only [following, Option.all_some, List.filter_append, List.filter_cons, hbefore, hafter,
    hself, Bool.false_eq_true, if_false, List.nil_append]

theorem following_none : following key none items = items := by
  simp [following]

/-- Following the keys cuts the rest of the list into pieces. -/
theorem follow_rest (hsize : 0 < size) (hitems : Distinct key items) (fuel : Nat)
    {front rest : List Item} {after : Option Key} (hlisted : listed key items = front ++ rest)
    (hafter : following key after (listed key items) = rest) :
    follow key size items fuel after = pieces size rest fuel := by
  induction fuel generalizing front rest after with
  | zero => rfl
  | succ fuel ih =>
    rw [follow, pieces, hafter, page]
    dsimp only
    by_cases hmore : size < rest.length
    · rw [if_pos hmore, if_pos hmore]
      have hne : rest.take size ≠ [] := by
        intro hnil
        rw [List.take_eq_nil_iff] at hnil
        obtain hzero | rfl := hnil
        · omega
        · simp at hmore
      have hsplit : front ++ rest = (front ++ (rest.take size).dropLast) ++
          (rest.take size).getLast hne :: rest.drop size := by
        rw [List.append_assoc, ← List.singleton_append,
          ← List.append_assoc (rest.take size).dropLast, List.dropLast_append_getLast,
          List.take_append_drop]
      have hpairwise := listed_pairwise hitems
      rw [hlisted, hsplit] at hpairwise
      have hnext := following_last hpairwise
      rw [← hsplit, ← hlisted] at hnext
      rw [List.getLast?_eq_some_getLast hne, Option.map_some]
      dsimp only
      have hfront : listed key items = (front ++ rest.take size) ++ rest.drop size := by
        rw [hlisted, List.append_assoc, List.take_append_drop]
      rw [ih hfront hnext]
    · rw [if_neg hmore, if_neg hmore]

theorem follow_eq (hsize : 0 < size) (hitems : Distinct key items) (fuel : Nat) :
    follow key size items fuel none = pieces size (listed key items) fuel :=
  follow_rest hsize hitems fuel (List.nil_append _).symm following_none

/-! ### Pieces -/

theorem flatten_pieces (hsize : 0 < size) {fuel : Nat} (hfuel : items.length < fuel) :
    (pieces size items fuel).flatten = items := by
  induction fuel generalizing items with
  | zero => omega
  | succ fuel ih =>
    rw [pieces, List.flatten_cons]
    by_cases hmore : size < items.length
    · rw [if_pos hmore, ih (by rw [List.length_drop]; omega), List.take_append_drop]
    · rw [if_neg hmore, List.flatten_nil, List.append_nil, List.take_of_length_le (not_lt.mp hmore)]

/-- More steps than there are items change nothing. -/
theorem pieces_enough (hsize : 0 < size) {fuel more : Nat} (hfuel : items.length < fuel)
    (hmore : items.length < more) : pieces size items fuel = pieces size items more := by
  induction fuel generalizing items more with
  | zero => omega
  | succ fuel ih =>
    cases more with
    | zero => omega
    | succ more =>
      rw [pieces, pieces]
      by_cases hlong : size < items.length
      · have hdrop : (items.drop size).length < fuel ∧ (items.drop size).length < more := by
          rw [List.length_drop]
          omega
        rw [if_pos hlong, if_pos hlong, ih hdrop.1 hdrop.2]
      · rw [if_neg hlong, if_neg hlong]

/-- The pieces by number. -/
theorem getElem?_pieces {fuel index : Nat} {piece : List Item}
    (h : (pieces size items fuel)[index]? = some piece) :
    piece = (items.drop (index * size)).take size := by
  induction fuel generalizing items index with
  | zero => simp [pieces] at h
  | succ fuel ih =>
    rw [pieces] at h
    cases index with
    | zero => simpa using h.symm
    | succ index =>
      rw [List.getElem?_cons_succ] at h
      split_ifs at h with hmore
      · rw [ih h, List.drop_drop, Nat.succ_mul, Nat.add_comm size]
      · simp at h

theorem pieces_eq_map (size : Nat) (items : List Item) (fuel : Nat) :
    pieces size items fuel = (List.range (pieces size items fuel).length).map
      fun index ↦ (items.drop (index * size)).take size := by
  refine List.ext_getElem? fun index ↦ ?_
  rw [List.getElem?_map]
  cases hpiece : (pieces size items fuel)[index]? with
  | none =>
    have hlength := List.getElem?_eq_none_iff.mp hpiece
    rw [List.getElem?_eq_none (by rw [List.length_range]; exact hlength), Option.map_none]
  | some piece =>
    obtain ⟨hlength, -⟩ := List.getElem?_eq_some_iff.mp hpiece
    rw [List.getElem?_range hlength, Option.map_some, getElem?_pieces hpiece]

end AiStp.Library.Keyset
