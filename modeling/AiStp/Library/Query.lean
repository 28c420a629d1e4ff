import Mathlib.Data.Finset.Union

/-!
# Queries over lists of rows

A table is a list of rows. `join` pairs the rows of two tables that a condition relates, `select`
reads a column of the rows that meet a condition, and `group` collects the values of each key in a
map of sets, row after row. The lemmas say which values each of them, and a set that is built in a
loop over rows, contains.
-/

set_option autoImplicit false

namespace AiStp.Library.Query

variable {Left Right Row Key Value : Type*}

/-- The pairs of rows that the condition relates. -/
def join (lefts : List Left) (rights : List Right) (on : Left → Right → Bool) :
    List (Left × Right) :=
  lefts.flatMap fun left ↦ (rights.filter (on left)).map (left, ·)

@[simp] theorem mem_join {lefts : List Left} {rights : List Right} {on : Left → Right → Bool}
    {left : Left} {right : Right} :
    (left, right) ∈ join lefts rights on ↔ left ∈ lefts ∧ right ∈ rights ∧ on left right := by
  simp [join]

/-- A column of the rows that meet the condition. -/
def select (rows : List Row) (condition : Row → Bool) (column : Row → Value) : List Value :=
  (rows.filter condition).map column

variable {value : Value} {rows : List Row} {column : Row → Value}

@[simp] theorem mem_select {condition : Row → Bool} :
    value ∈ select rows condition column ↔ ∃ row ∈ rows, condition row ∧ column row = value := by
  simp [select, and_assoc]

variable [DecidableEq Key] [DecidableEq Value]

/-- The sets of values under each key after the rows are added to those at the start. -/
def group (start : Key → Finset Value) (rows : List (Key × Value)) : Key → Finset Value :=
  rows.foldl (fun groups row ↦ Function.update groups row.1 (insert row.2 (groups row.1))) start

@[simp] theorem mem_group {start : Key → Finset Value} {rows : List (Key × Value)} {key : Key} :
    value ∈ group start rows key ↔ value ∈ start key ∨ (key, value) ∈ rows := by
  induction rows generalizing start with
  | nil => simp [group]
  | cons row rows ih =>
    show value ∈ group _ rows key ↔ _
    rw [ih, List.mem_cons]
    by_cases hkey : key = row.1
    · subst hkey
      simp [Prod.ext_iff, or_assoc, or_left_comm]
    · simp [hkey, Prod.ext_iff]

/-- What a map of groups holds under a key is what the query of that key alone finds. -/
theorem mem_group_select {condition conditionAt : Row → Bool} {pair : Row → Key × Value} {key : Key}
    (hpair : ∀ row, (pair row).2 = column row)
    (hcondition : ∀ row, conditionAt row = true ↔ condition row = true ∧ (pair row).1 = key) :
    value ∈ group (fun _ ↦ ∅) (select rows condition pair) key ↔
      value ∈ select rows conditionAt column := by
  simp only [mem_group, mem_select, Finset.notMem_empty, false_or]
  constructor
  · rintro ⟨row, hrow, hmeets, hsame⟩
    have hkey : (pair row).1 = key := congrArg Prod.fst hsame
    have hvalue : (pair row).2 = value := congrArg Prod.snd hsame
    exact ⟨row, hrow, (hcondition row).mpr ⟨hmeets, hkey⟩, (hpair row).symm.trans hvalue⟩
  · rintro ⟨row, hrow, hmeets, hvalue⟩
    obtain ⟨hfound, hkey⟩ := (hcondition row).mp hmeets
    exact ⟨row, hrow, hfound, Prod.ext hkey ((hpair row).trans hvalue)⟩

theorem mem_foldl_union {start : Finset Value} {values : Row → Finset Value} :
    value ∈ rows.foldl (fun found row ↦ found ∪ values row) start ↔
      value ∈ start ∨ ∃ row ∈ rows, value ∈ values row := by
  induction rows generalizing start with
  | nil => simp
  | cons row rows ih => simp [ih, or_assoc]

theorem mem_foldl_insert {start : Finset Value} :
    value ∈ rows.foldl (fun found row ↦ insert (column row) found) start ↔
      value ∈ start ∨ ∃ row ∈ rows, column row = value := by
  induction rows generalizing start with
  | nil => simp
  | cons row rows ih => simp [ih, or_assoc, or_left_comm, eq_comm]

end AiStp.Library.Query
