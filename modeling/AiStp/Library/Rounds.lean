import AiStp.Library.Distances
import AiStp.Library.ParentLog
import Mathlib.Data.Set.Finite.List

/-!
# Ordering by rounds

Entries name other entries of the list that they need. A round takes every entry that needs nothing
that is left, and forgets it in the needs of the others. When no entry is left, all entries stand
after what they need. When a round finds none, what is left goes round in a circle.
-/

set_option autoImplicit false

namespace AiStp.Library.Rounds

open ParentLog

variable {Key : Type} [DecidableEq Key]

/-- The keys of the entries that need nothing. -/
def ready (remaining : List (Key × List Key)) : List Key :=
  (remaining.filter fun entry ↦ entry.2 = []).map Prod.fst

/-- What a round leaves. -/
def next (remaining : List (Key × List Key)) : List (Key × List Key) :=
  (remaining.filter fun entry ↦ entry.1 ∉ ready remaining).map fun entry ↦
    (entry.1, entry.2.filter fun need ↦ need ∉ ready remaining)

/-- The keys in the order of the rounds, and those that are left. -/
def rounds : ℕ → List (Key × List Key) → List Key → List Key × List Key
  | 0, remaining, order => (order, remaining.map Prod.fst)
  | fuel + 1, remaining, order =>
    if remaining = [] then (order, [])
    else if ready remaining = [] then (order, remaining.map Prod.fst)
    else rounds fuel (next remaining) (order ++ ready remaining)

def ordered (entries : List (Key × List Key)) : List Key × List Key :=
  rounds entries.length entries []

/-! ### What the rounds keep -/

/-- What an entry needs. -/
def needsOf (entries : List (Key × List Key)) (key : Key) : List Key :=
  (entries.lookup key).getD []

/-- The entries that are not in the order, with the needs that are not. -/
def without (entries : List (Key × List Key)) (order : List Key) : List (Key × List Key) :=
  (entries.filter fun entry ↦ entry.1 ∉ order).map fun entry ↦
    (entry.1, entry.2.filter fun need ↦ need ∉ order)

/-- An order so far: entries, each once, after what they need. -/
structure Sorted (entries : List (Key × List Key)) (order : List Key) : Prop where
  nodup : order.Nodup
  keys : ∀ key ∈ order, key ∈ entries.map Prod.fst
  needs : ParentsFirst id (needsOf entries) order

variable {entries : List (Key × List Key)} {order : List Key}

theorem mem_ready_without (hnodup : (entries.map Prod.fst).Nodup) {key : Key} :
    key ∈ ready (without entries order) ↔
      key ∉ order ∧ key ∈ entries.map Prod.fst ∧ ∀ need ∈ needsOf entries key, need ∈ order := by
  have hneeds {needs : List Key} (hmem : (key, needs) ∈ entries) : needsOf entries key = needs := by
    rw [needsOf, (Distances.lookup_eq_some_iff_mem hnodup).mpr hmem]
    rfl
  simp only [ready, without, List.mem_map, List.mem_filter, decide_eq_true_eq, Prod.exists,
    Prod.mk.injEq]
  constructor
  · rintro ⟨_, needs, ⟨⟨_, held, ⟨hmem, hnot⟩, rfl, rfl⟩, hnil⟩, rfl⟩
    refine ⟨hnot, ⟨_, held, hmem, rfl⟩, fun need hneed ↦ ?_⟩
    by_contra hother
    rw [hneeds hmem] at hneed
    have hfilter : need ∈ held.filter fun need ↦ need ∉ order :=
      List.mem_filter.mpr ⟨hneed, by simpa using hother⟩
    rw [hnil] at hfilter
    cases hfilter
  · rintro ⟨hnot, ⟨_, held, hmem, rfl⟩, hall⟩
    rw [hneeds hmem] at hall
    refine ⟨_, [], ⟨⟨_, held, ⟨hmem, hnot⟩, rfl, ?_⟩, rfl⟩, rfl⟩
    rw [List.filter_eq_nil_iff]
    intro need hneed
    simpa using hall need hneed

theorem next_without : next (without entries order) =
    without entries (order ++ ready (without entries order)) := by
  rw [next]
  generalize ready (without entries order) = taken
  simp only [without, List.filter_map, List.map_map, List.filter_filter]
  congr 1
  · funext entry
    simp only [Function.comp_apply, List.filter_filter]
    congr 1
    refine List.filter_congr fun need _ ↦ ?_
    simp [Bool.and_comm]
  · refine List.filter_congr fun entry _ ↦ ?_
    simp [Bool.and_comm]

theorem Sorted.nil : Sorted entries [] :=
  ⟨.nil, by simp, parentsFirst_nil⟩

theorem Sorted.round (hnodup : (entries.map Prod.fst).Nodup) (h : Sorted entries order) :
    Sorted entries (order ++ ready (without entries order)) := by
  refine ⟨List.nodup_append.mpr ⟨h.nodup, ?_, ?_⟩, ?_, ?_⟩
  · refine List.Nodup.sublist ?_ hnodup
    rw [ready, without, List.filter_map, List.map_map, List.filter_filter]
    exact (List.filter_sublist).map Prod.fst
  · rintro key hkey _ hready rfl
    exact ((mem_ready_without hnodup).mp hready).1 hkey
  · intro key hkey
    rcases List.mem_append.mp hkey with hkey | hready
    · exact h.keys key hkey
    · exact ((mem_ready_without hnodup).mp hready).2.1
  · refine h.needs.append fun before key after hsplit need hneed ↦ .inl ?_
    have hready : key ∈ ready (without entries order) := by simp [hsplit]
    rw [List.map_id]
    exact ((mem_ready_without hnodup).mp hready).2.2 need hneed

theorem length_next {remaining : List (Key × List Key)} (h : ready remaining ≠ []) :
    (next remaining).length < remaining.length := by
  obtain ⟨key, hkey⟩ := List.exists_mem_of_ne_nil _ h
  obtain ⟨entry, hentry, rfl⟩ := List.mem_map.mp hkey
  rw [next, List.length_map]
  refine List.length_filter_lt_length_iff_exists.mpr ⟨entry, (List.mem_filter.mp hentry).1, ?_⟩
  simpa using hkey

/-- What the rounds end with: an order, and what is left when a round finds nothing. -/
theorem rounds_spec (hnodup : (entries.map Prod.fst).Nodup) {fuel : ℕ}
    (h : Sorted entries order) (hfuel : (without entries order).length ≤ fuel) :
    ∃ final, Sorted entries final ∧ ready (without entries final) = [] ∧
      rounds fuel (without entries order) order =
        (final, (without entries final).map Prod.fst) := by
  induction fuel generalizing order with
  | zero =>
    have hnil : without entries order = [] := List.length_eq_zero_iff.mp (Nat.le_zero.mp hfuel)
    exact ⟨order, h, by rw [hnil]; rfl, rfl⟩
  | succ fuel ih =>
    rw [rounds]
    by_cases hnil : without entries order = []
    · rw [if_pos hnil]
      exact ⟨order, h, by rw [hnil]; rfl, by rw [hnil]; rfl⟩
    · rw [if_neg hnil]
      by_cases hready : ready (without entries order) = []
      · rw [if_pos hready]
        exact ⟨order, h, hready, rfl⟩
      · rw [if_neg hready, next_without]
        refine ih (h.round hnodup) ?_
        have hlength := length_next hready
        rw [next_without] at hlength
        omega

/-- An entry needs another one, directly or through others. -/
def Circular (entries : List (Key × List Key)) : Prop :=
  ∃ key, Relation.TransGen (fun child need ↦ need ∈ needsOf entries child) key key

/-- The order of the rounds has every entry once and after what it needs, unless entries need each
other in a circle. -/
theorem ordered_spec (hnodup : (entries.map Prod.fst).Nodup)
    (hclosed : ∀ key, ∀ need ∈ needsOf entries key, need ∈ entries.map Prod.fst) :
    Sorted entries (ordered entries).1 ∧
      ((ordered entries).2 = [] ↔ ¬Circular entries) ∧
      ((ordered entries).2 = [] → ∀ key, key ∈ (ordered entries).1 ↔ key ∈ entries.map Prod.fst) := by
  have hstart : without entries [] = entries := by simp [without]
  have hlength : (without entries []).length ≤ entries.length := by rw [hstart]
  obtain ⟨final, hsorted, hready, hfinal⟩ := rounds_spec hnodup Sorted.nil hlength
  rw [hstart] at hfinal
  rw [ordered, hfinal]
  have hleft : ∀ key, key ∈ (without entries final).map Prod.fst ↔
      key ∈ entries.map Prod.fst ∧ key ∉ final := by
    intro key
    simp only [without, List.map_map, List.mem_map, List.mem_filter, decide_eq_true_eq,
      Function.comp_apply]
    constructor
    · rintro ⟨entry, ⟨hmem, hnot⟩, rfl⟩
      exact ⟨⟨entry, hmem, rfl⟩, hnot⟩
    · rintro ⟨⟨entry, hmem, rfl⟩, hnot⟩
      exact ⟨entry, ⟨hmem, hnot⟩, rfl⟩
  have hall (hnil : (without entries final).map Prod.fst = []) (key : Key) :
      key ∈ final ↔ key ∈ entries.map Prod.fst := by
    refine ⟨hsorted.keys key, fun hkey ↦ ?_⟩
    by_contra hnot
    have hmem := (hleft key).mpr ⟨hkey, hnot⟩
    rw [hnil] at hmem
    cases hmem
  refine ⟨hsorted, ⟨fun hnil ↦ ?_, fun hacyclic ↦ ?_⟩, hall⟩
  · rintro ⟨key, hcircle⟩
    have hlink {child need : Key} (hneed : need ∈ needsOf entries child) :
        Link id (needsOf entries) final child need := by
      refine ⟨child, (hall hnil child).mpr ?_, rfl, hneed⟩
      by_contra hnot
      have hlookup : entries.lookup child = none := by
        rw [List.lookup_eq_none_iff]
        intro entry hentry
        have hne : child ≠ entry.1 := fun hsame ↦ hnot (hsame ▸ List.mem_map_of_mem hentry)
        simpa using hne
      rw [needsOf, hlookup] at hneed
      cases hneed
    exact not_properAncestor_self hsorted.needs (by simpa using hsorted.nodup) key
      (Relation.TransGen.mono (fun _ _ hneed ↦ hlink hneed) key key hcircle)
  · by_contra hne
    obtain ⟨start, hstart⟩ := List.exists_mem_of_ne_nil _ hne
    let Left := { key // key ∈ (without entries final).map Prod.fst }
    let Needed (need child : Left) : Prop :=
      Relation.TransGen (fun child need ↦ need ∈ needsOf entries child) child.1 need.1
    have : Finite Left := ((without entries final).map Prod.fst).finite_toSet.to_subtype
    have : IsTrans Left Needed := ⟨fun _ _ _ hfirst hsecond ↦ hsecond.trans hfirst⟩
    have : Std.Irrefl Needed := ⟨fun key hcircle ↦ hacyclic ⟨key.1, hcircle⟩⟩
    obtain ⟨least, -, hleast⟩ := (Finite.wellFounded_of_trans_of_irrefl Needed).has_min Set.univ
      ⟨⟨start, hstart⟩, trivial⟩
    obtain ⟨hkey, hnot⟩ := (hleft least.1).mp least.2
    have hmissing : ∃ need ∈ needsOf entries least.1, need ∉ final := by
      by_contra hnone
      have hmem : least.1 ∈ ready (without entries final) := (mem_ready_without hnodup).mpr
        ⟨hnot, hkey, fun need hneed ↦ not_not.mp fun hother ↦ hnone ⟨need, hneed, hother⟩⟩
      rw [hready] at hmem
      cases hmem
    obtain ⟨need, hneed, hother⟩ := hmissing
    exact hleast ⟨need, (hleft need).mpr ⟨hclosed _ need hneed, hother⟩⟩ trivial
      (Relation.TransGen.single hneed)

end AiStp.Library.Rounds
