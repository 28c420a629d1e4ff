import AiStp.Library.Tables
import Mathlib.Data.Finset.Card
import Mathlib.Data.List.Sort

/-!
# Grouping

Items come with keys. A loop may keep something under each key and fold every item into what its key
has (`tally`), or the items of a key may be grouped first and each group summed up (`grouped`). Both
read, under a key, the items of that key in their order: `get?_tally` and `get?_written`. What
depends on a table alone is listed by key, and two tables that read alike are listed alike.
-/

set_option autoImplicit false

namespace AiStp.Library.Grouping

variable {Key Item State : Type*} [DecidableEq Key]

/-- The items of a key. -/
def itemsOf (pairs : List (Key × Item)) (key : Key) : List Item :=
  (pairs.filter (·.1 = key)).map Prod.snd

@[simp] theorem itemsOf_nil (key : Key) : itemsOf ([] : List (Key × Item)) key = [] := rfl

theorem itemsOf_cons (pair : Key × Item) (pairs : List (Key × Item)) (key : Key) :
    itemsOf (pair :: pairs) key =
      if pair.1 = key then pair.2 :: itemsOf pairs key else itemsOf pairs key := by
  rw [itemsOf, List.filter_cons]
  by_cases hkey : pair.1 = key
  · simp [hkey, itemsOf]
  · simp [hkey, itemsOf]

theorem itemsOf_eq_nil {pairs : List (Key × Item)} {key : Key} :
    itemsOf pairs key = [] ↔ key ∉ pairs.map Prod.fst := by
  rw [itemsOf, List.map_eq_nil_iff, List.filter_eq_nil_iff, List.mem_map, not_exists]
  refine forall_congr' fun pair ↦ ?_
  simp

theorem itemsOf_perm {first second : List (Key × Item)} (h : first.Perm second) (key : Key) :
    (itemsOf first key).Perm (itemsOf second key) :=
  (h.filter _).map _

/-! ### A loop -/

/-- What a loop over the pairs keeps under each key. -/
def tally (step : Option State → Item → State) (pairs : List (Key × Item)) : Table Key State :=
  pairs.foldl (fun table pair ↦ table.set pair.1 (step (table.get? pair.1) pair.2)) .empty

theorem get?_tally (step : Option State → Item → State) (pairs : List (Key × Item)) (key : Key) :
    (tally step pairs).get? key =
      (itemsOf pairs key).foldl (fun state item ↦ some (step state item)) none := by
  have hfold : ∀ table : Table Key State,
      (pairs.foldl (fun table pair ↦ table.set pair.1 (step (table.get? pair.1) pair.2))
        table).get? key =
      (itemsOf pairs key).foldl (fun state item ↦ some (step state item)) (table.get? key) := by
    induction pairs with
    | nil => exact fun table ↦ rfl
    | cons pair pairs ih =>
      intro table
      rw [List.foldl_cons, ih, itemsOf_cons, Table.get?_set]
      by_cases hkey : pair.1 = key
      · simp [hkey]
      · simp [hkey, Ne.symm hkey]
  exact hfold .empty

/-! ### Groups -/

/-- The keys with what each group sums up to. -/
def grouped (aggregate : List Item → State) (pairs : List (Key × Item)) : List (Key × State) :=
  (pairs.map Prod.fst).dedup.map fun key ↦ (key, aggregate (itemsOf pairs key))

/-- Rows written into a table one after another. -/
def written (rows : List (Key × State)) (table : Table Key State) : Table Key State :=
  rows.foldl (fun table row ↦ table.set row.1 row.2) table

theorem get?_written_of_notMem {rows : List (Key × State)} {table : Table Key State} {key : Key}
    (h : key ∉ rows.map Prod.fst) : (written rows table).get? key = table.get? key := by
  induction rows generalizing table with
  | nil => rfl
  | cons row rows ih =>
    rw [List.map_cons, List.mem_cons, not_or] at h
    rw [written, List.foldl_cons, ← written, ih h.2, Table.get?_set, if_neg h.1]

theorem get?_written {rows : List (Key × State)} {table : Table Key State} {key : Key}
    {state : State} (hnodup : (rows.map Prod.fst).Nodup) (h : (key, state) ∈ rows) :
    (written rows table).get? key = some state := by
  induction rows generalizing table with
  | nil => cases h
  | cons row rows ih =>
    rw [List.map_cons, List.nodup_cons] at hnodup
    rw [written, List.foldl_cons, ← written]
    rcases List.mem_cons.mp h with rfl | h
    · rw [get?_written_of_notMem hnodup.1, Table.get?_set, if_pos rfl]
    · exact ih hnodup.2 h

theorem keys_grouped (aggregate : List Item → State) (pairs : List (Key × Item)) :
    (grouped aggregate pairs).map Prod.fst = (pairs.map Prod.fst).dedup := by
  rw [grouped, List.map_map]
  exact List.map_id _

/-- A group is read under its key, and nothing is added under other keys. -/
theorem get?_written_grouped (aggregate : List Item → State) (pairs : List (Key × Item))
    (table : Table Key State) (key : Key) :
    (written (grouped aggregate pairs) table).get? key =
      if itemsOf pairs key = [] then table.get? key else some (aggregate (itemsOf pairs key)) := by
  split_ifs with hnone
  · refine get?_written_of_notMem ?_
    rw [keys_grouped, List.mem_dedup]
    exact itemsOf_eq_nil.mp hnone
  · refine get?_written (by rw [keys_grouped]; exact List.nodup_dedup _) ?_
    rw [itemsOf_eq_nil, not_not] at hnone
    exact List.mem_map.mpr ⟨key, List.mem_dedup.mpr hnone, rfl⟩

/-! ### What a group sums up to -/

/-- Counting the items one by one. -/
theorem foldl_count (items : List Item) (count : Option Nat) :
    items.foldl (fun count _ ↦ some (count.getD 0 + 1)) count =
      if items = [] then count else some (count.getD 0 + items.length) := by
  induction items generalizing count with
  | nil => simp
  | cons item items ih =>
    rw [List.foldl_cons, ih]
    by_cases hitems : items = []
    · simp [hitems]
    · simp only [hitems, if_false, Option.getD_some, reduceCtorEq, List.length_cons]
      congr 1
      omega

/-- Collecting a value of each item. -/
theorem foldl_collect {Value : Type*} [DecidableEq Value] (value : Item → Value)
    (items : List Item) (values : Option (Finset Value)) :
    items.foldl (fun values item ↦ some (insert (value item) (values.getD ∅))) values =
      if items = [] then values else some (values.getD ∅ ∪ (items.map value).toFinset) := by
  induction items generalizing values with
  | nil => simp
  | cons item items ih =>
    rw [List.foldl_cons, ih]
    by_cases hitems : items = []
    · rw [hitems, if_pos rfl, if_neg (List.cons_ne_nil _ _), List.map_cons, List.map_nil,
        List.toFinset_cons, List.toFinset_nil]
      congr 1
      ext other
      simp only [Finset.mem_union, Finset.mem_insert, Finset.notMem_empty]
      tauto
    · simp only [hitems, if_false, Option.getD_some, reduceCtorEq, List.map_cons,
        List.toFinset_cons]
      congr 1
      ext other
      simp only [Finset.mem_union, Finset.mem_insert]
      tauto

/-- The greater of a value that may be held and another one. -/
def later {Value : Type*} [LinearOrder Value] (held : Option Value) (value : Value) : Value :=
  match held with
  | none => value
  | some held => if held < value then value else held

theorem later_some {Value : Type*} [LinearOrder Value] (held value : Value) :
    later (some held) value = max held value := by
  unfold later
  dsimp only
  split_ifs with hlt
  · rw [max_eq_right hlt.le]
  · rw [max_eq_left (not_lt.mp hlt)]

theorem foldl_later_some {Value : Type*} [LinearOrder Value] (value : Item → Value)
    (items : List Item) (held : Value) :
    items.foldl (fun latest item ↦ some (later latest (value item))) (some held) =
      some ((items.map value).foldl max held) := by
  induction items generalizing held with
  | nil => rfl
  | cons item items ih => rw [List.foldl_cons, later_some, ih, List.map_cons, List.foldl_cons]

/-- Keeping the greatest value of the items. -/
theorem foldl_later {Value : Type*} [LinearOrder Value] (value : Item → Value)
    (items : List Item) :
    items.foldl (fun latest item ↦ some (later latest (value item))) none =
      (items.map value).max? := by
  cases items with
  | nil => rfl
  | cons item items => exact foldl_later_some value items (value item)

/-- Groups summed up by the database, and a loop whose result for a key is worked out at the end,
read alike when they do for the items of one key, in any order. -/
theorem get?_written_eq_tally {Sum : Type*} (aggregate : List Item → Sum)
    (step : Option State → Item → State) (finish : State → Sum) {first second : List (Key × Item)}
    (hperm : first.Perm second)
    (haggregate : ∀ items others, items.Perm others → aggregate items = aggregate others)
    (hstep : ∀ items, items ≠ [] →
      (items.foldl (fun state item ↦ some (step state item)) none).map finish =
        some (aggregate items)) (key : Key) :
    (written (grouped aggregate first) .empty).get? key =
      ((tally step second).get? key).map finish := by
  have hitems := itemsOf_perm hperm key
  rw [get?_written_grouped, get?_tally]
  by_cases hnone : itemsOf second key = []
  · rw [hnone] at hitems
    rw [hnone, hitems.eq_nil, if_pos rfl]
    rfl
  · have hsome : itemsOf first key ≠ [] := fun hnil ↦ hnone (hnil ▸ hitems).nil_eq.symm
    rw [if_neg hsome, hstep _ hnone, haggregate _ _ hitems]

/-- A table of what is computed from each entry. -/
def mapped {Value : Type*} (compute : Key → State → Value) (table : Table Key State) :
    Table Key Value :=
  ⟨table.entries.map fun entry ↦ (entry.1, compute entry.1 entry.2), by
    rw [List.map_map]
    exact table.unique⟩

theorem get?_mapped {Value : Type*} (compute : Key → State → Value) (table : Table Key State)
    (key : Key) : (mapped compute table).get? key = (table.get? key).map (compute key) := by
  refine Option.ext fun value ↦ ?_
  rw [← Table.mem_entries, Option.map_eq_some_iff]
  show (key, value) ∈ table.entries.map _ ↔ _
  rw [List.mem_map]
  constructor
  · rintro ⟨⟨other, state⟩, hentry, hsame⟩
    obtain ⟨rfl, rfl⟩ := Prod.mk.inj hsame
    exact ⟨state, Table.mem_entries.mp hentry, rfl⟩
  · rintro ⟨state, hstate, rfl⟩
    exact ⟨(key, state), Table.mem_entries.mpr hstate, rfl⟩

/-! ### Listing by key -/

/-- Lists of the same distinct items are sorted alike by a rank that no two of them share. -/
theorem insertionSort_congr {Rank : Type*} [LinearOrder Rank] {rank : Item → Rank}
    {first second : List Item} (hperm : first.Perm second)
    (hrank : ∀ left ∈ first, ∀ right ∈ first, rank left = rank right → left = right) :
    first.insertionSort (fun left right ↦ rank left ≤ rank right) =
      second.insertionSort fun left right ↦ rank left ≤ rank right := by
  let order : Item → Item → Prop := fun left right ↦ rank left ≤ rank right
  have : Std.Total order := ⟨fun left right ↦ le_total (rank left) (rank right)⟩
  have : IsTrans Item order := ⟨fun _ _ _ hfirst hsecond ↦ le_trans hfirst hsecond⟩
  refine List.Perm.eq_of_pairwise ?_ (List.pairwise_insertionSort order first)
    (List.pairwise_insertionSort order second)
    (((List.perm_insertionSort order first).trans hperm).trans
      (List.perm_insertionSort order second).symm)
  intro left right hleft hright hle hge
  replace hleft := (List.mem_insertionSort order).mp hleft
  replace hright := (List.mem_insertionSort order).mp hright
  exact hrank left hleft right (hperm.mem_iff.mpr hright) (le_antisymm hle hge)

/-- Two tables that read alike have the same entries. -/
theorem entries_perm {first second : Table Key State}
    (h : ∀ key, first.get? key = second.get? key) : first.entries.Perm second.entries := by
  refine (List.perm_ext_iff_of_nodup first.unique.of_map second.unique.of_map).mpr ?_
  rintro ⟨key, state⟩
  rw [Table.mem_entries, Table.mem_entries, h]

/-- The entries of a table in the order of a rank of their keys. -/
def listed {Rank : Type*} [LinearOrder Rank] (rank : Key → Rank) (table : Table Key State) :
    List (Key × State) :=
  table.entries.insertionSort fun first second ↦ rank first.1 ≤ rank second.1

theorem listed_congr {Rank : Type*} [LinearOrder Rank] {rank : Key → Rank}
    (hrank : Function.Injective rank) {first second : Table Key State}
    (h : ∀ key, first.get? key = second.get? key) : listed rank first = listed rank second := by
  refine insertionSort_congr (entries_perm h) ?_
  intro left hleft right hright hsame
  exact List.inj_on_of_nodup_map first.unique hleft hright (hrank hsame)

end AiStp.Library.Grouping
