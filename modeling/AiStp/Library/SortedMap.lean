import AiStp.Library.TextOrder
import Mathlib.Data.List.Sort

/-!
# Maps ordered by key

A map from texts is the list of its entries in the order of their keys. `insert` replaces the value
of a key or adds it in its place, and `remove` drops a key.
-/

set_option autoImplicit false

namespace AiStp.Library

variable {Value : Type*}

abbrev SortedMap (Value : Type*) := List (String × Value)

namespace SortedMap

def remove (map : SortedMap Value) (key : String) : SortedMap Value :=
  map.filter (·.1 ≠ key)

def insert (map : SortedMap Value) (key : String) (value : Value) : SortedMap Value :=
  (map.remove key).orderedInsert (fun first second ↦ first.1 ≤ second.1) (key, value)

def get? (map : SortedMap Value) (key : String) : Option Value :=
  map.lookup key

variable {key : String}

@[simp] theorem mem_remove {map : SortedMap Value} {entry : String × Value} :
    entry ∈ map.remove key ↔ entry ∈ map ∧ entry.1 ≠ key := by
  simp [remove]

variable {value : Value}

@[simp] theorem mem_insert {map : SortedMap Value} {entry : String × Value} :
    entry ∈ map.insert key value ↔ entry = (key, value) ∨ entry ∈ map ∧ entry.1 ≠ key := by
  simp [insert, List.mem_orderedInsert]

/-- The keys that have a value. -/
def keys (map : SortedMap Value) : List String :=
  map.map (·.1)

theorem mem_keys {map : SortedMap Value} : key ∈ map.keys ↔ ∃ entry ∈ map, entry.1 = key := by
  simp [keys]

theorem mem_keys_insert {map : SortedMap Value} {added : String} :
    key ∈ (map.insert added value).keys ↔ key = added ∨ key ∈ map.keys := by
  by_cases hadded : key = added
  · subst hadded
    simp only [mem_keys, mem_insert, true_or, iff_true]
    exact ⟨(key, value), .inl rfl, rfl⟩
  · simp only [mem_keys, mem_insert, hadded, false_or]
    constructor
    · rintro ⟨entry, rfl | ⟨hentry, -⟩, hkey⟩
      · exact absurd hkey.symm hadded
      · exact ⟨entry, hentry, hkey⟩
    · rintro ⟨entry, hentry, rfl⟩
      exact ⟨entry, .inr ⟨hentry, hadded⟩, rfl⟩

theorem get?_eq_none {map : SortedMap Value} : map.get? key = none ↔ key ∉ map.keys := by
  simp only [get?, List.lookup_eq_none_iff, mem_keys]
  grind

theorem get?_remove {map : SortedMap Value} {other : String} :
    (map.remove key).get? other = if other = key then none else map.get? other := by
  induction map with
  | nil => simp [remove, get?]
  | cons entry map ih =>
    obtain ⟨name, value⟩ := entry
    unfold remove get? at ih ⊢
    rw [List.filter_cons, List.lookup_cons]
    by_cases hname : name = key
    · have hsplit : (other == name) = decide (other = key) := by
        rw [hname]
        exact Bool.eq_iff_iff.mpr (by simp)
      simp only [hname, ne_eq, not_true_eq_false, decide_false, Bool.false_eq_true, if_false, ih]
      grind
    · simp only [hname, ne_eq, not_false_eq_true, decide_true, if_true, List.lookup_cons]
      grind

private theorem lookup_orderedInsert {map : SortedMap Value} {other : String}
    (hkey : key ∉ map.keys) :
    (map.orderedInsert (fun first second ↦ first.1 ≤ second.1) (key, value)).lookup other =
      if other = key then some value else map.lookup other := by
  induction map with
  | nil =>
    rw [List.orderedInsert_nil, List.lookup_cons]
    grind
  | cons entry map ih =>
    obtain ⟨name, held⟩ := entry
    have hrest : key ∉ keys map := fun hmem ↦ hkey (by simp [keys] at hmem ⊢; exact .inr hmem)
    have hname : name ≠ key := fun hsame ↦ hkey (by simp [keys, hsame])
    rw [List.orderedInsert_cons]
    split_ifs
    all_goals
      rw [List.lookup_cons]
      grind

theorem get?_insert {map : SortedMap Value} {other : String} :
    (map.insert key value).get? other = if other = key then some value else map.get? other := by
  have hkey : key ∉ (map.remove key).keys := by simp [mem_keys]
  unfold insert
  rw [get?, lookup_orderedInsert hkey]
  split_ifs with hother
  · rfl
  · rw [show (map.remove key).lookup other = (map.remove key).get? other from rfl, get?_remove,
      if_neg hother]

theorem insert_ne_nil (map : SortedMap Value) (key : String) (value : Value) :
    map.insert key value ≠ [] := by
  have hmem : (key, value) ∈ map.insert key value := by simp
  exact List.ne_nil_of_mem hmem

end SortedMap

end AiStp.Library
