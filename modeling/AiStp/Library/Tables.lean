import Mathlib.Data.List.Basic

/-!
# Tables

A table holds rows under primary keys, and no key twice. `insert?` adds a row under a key that is
free, `update` overwrites the row of a key that is taken, and `set` does either; `filter` drops rows
and `mapRows` rewrites all of them. What a table holds is what `get?` reads: the other lemmas say
what it reads after each operation. `Keeps` relates two tables when every row stays under its key,
changed only as a relation allows.
-/

set_option autoImplicit false

namespace AiStp.Library

structure Table (Key Row : Type*) where
  entries : List (Key × Row)
  unique : (entries.map Prod.fst).Nodup

namespace Table

variable {Key Row : Type*}

def empty : Table Key Row := ⟨[], List.nodup_nil⟩

variable [DecidableEq Key]

def get? (table : Table Key Row) (key : Key) : Option Row :=
  table.entries.lookup key

/-- The table with a new row, unless its key is taken. -/
def insert? (table : Table Key Row) (key : Key) (row : Row) : Option (Table Key Row) :=
  if hkey : key ∈ table.entries.map Prod.fst then none
  else
    some ⟨table.entries ++ [(key, row)], by
      rw [List.map_append, List.nodup_append]
      refine ⟨table.unique, by simp, ?_⟩
      intro held hheld added hadded hsame
      have hname : added = key := by simpa using hadded
      rw [hsame, hname] at hheld
      exact hkey hheld⟩

/-- The table with another row under a key that is taken. -/
def update (table : Table Key Row) (key : Key) (row : Row) : Table Key Row :=
  ⟨table.entries.map fun entry ↦ if entry.1 = key then (key, row) else entry, by
    have hkeys : (table.entries.map fun entry ↦ if entry.1 = key then (key, row) else entry).map
        Prod.fst = table.entries.map Prod.fst := by
      rw [List.map_map]
      apply List.map_congr_left
      intro entry _
      show (if entry.1 = key then (key, row) else entry).1 = entry.1
      split_ifs with hentry
      · exact hentry.symm
      · rfl
    rw [hkeys]
    exact table.unique⟩

/-- The table with a row under a key, whether the key is taken or not. -/
def set (table : Table Key Row) (key : Key) (row : Row) : Table Key Row :=
  (table.insert? key row).getD (table.update key row)

/-- The table without the rows that fail a condition. -/
def filter (table : Table Key Row) (keep : Key → Row → Bool) : Table Key Row :=
  ⟨table.entries.filter fun entry ↦ keep entry.1 entry.2,
    table.unique.sublist (List.filter_sublist.map Prod.fst)⟩

/-- The table with every row rewritten under its key. -/
def mapRows (table : Table Key Row) (write : Key → Row → Row) : Table Key Row :=
  ⟨table.entries.map fun entry ↦ (entry.1, write entry.1 entry.2), by
    rw [List.map_map]
    exact table.unique⟩

/-- The first entry that meets a condition. -/
def find? (table : Table Key Row) (condition : Key → Row → Bool) : Option (Key × Row) :=
  table.entries.find? fun entry ↦ condition entry.1 entry.2

/-! ### Reading -/

variable {table : Table Key Row} {key : Key} {row : Row}

theorem mem_entries : (key, row) ∈ table.entries ↔ table.get? key = some row := by
  obtain ⟨entries, hunique⟩ := table
  unfold get?
  induction entries with
  | nil => simp
  | cons entry entries ih =>
    obtain ⟨held, other⟩ := entry
    rw [List.map_cons, List.nodup_cons] at hunique
    rw [List.mem_cons, List.lookup_cons]
    by_cases hkey : key = held
    · subst hkey
      have habsent : (key, row) ∉ entries := fun hmem ↦
        hunique.1 (List.mem_map.mpr ⟨(key, row), hmem, rfl⟩)
      simp [habsent, eq_comm]
    · have hbeq : (key == held) = false := by simpa using hkey
      simp [hbeq, hkey, ih hunique.2]

theorem get?_eq_none : table.get? key = none ↔ key ∉ table.entries.map Prod.fst := by
  unfold get?
  rw [List.lookup_eq_none_iff]
  constructor
  · intro h hmem
    obtain ⟨entry, hentry, hkey⟩ := List.mem_map.mp hmem
    have hother := h entry hentry
    rw [hkey] at hother
    simp at hother
  · intro h entry hentry
    rw [bne_iff_ne]
    intro hkey
    exact h (List.mem_map.mpr ⟨entry, hentry, hkey.symm⟩)

theorem find?_eq_some {condition : Key → Row → Bool} (h : table.find? condition = some (key, row)) :
    table.get? key = some row ∧ condition key row = true := by
  unfold find? at h
  exact ⟨mem_entries.mp (List.mem_of_find?_eq_some h), by simpa using List.find?_some h⟩

theorem find?_eq_none {condition : Key → Row → Bool} :
    table.find? condition = none ↔
      ∀ key row, table.get? key = some row → condition key row = false := by
  unfold find?
  rw [List.find?_eq_none]
  constructor
  · intro h key row hrow
    simpa using h (key, row) (mem_entries.mpr hrow)
  · rintro h ⟨key, row⟩ hentry
    simpa using h key row (mem_entries.mp hentry)

/-! ### Writing -/

theorem entries_of_insert? {after : Table Key Row} (h : table.insert? key row = some after) :
    after.entries = table.entries ++ [(key, row)] := by
  unfold insert? at h
  split_ifs at h
  rw [← Option.some.inj h]

theorem insert?_eq_some {after : Table Key Row} (h : table.insert? key row = some after) :
    table.get? key = none ∧
      ∀ other, after.get? other = if other = key then some row else table.get? other := by
  unfold insert? at h
  split_ifs at h with hkey
  have hafter := Option.some.inj h
  refine ⟨get?_eq_none.mpr hkey, ?_⟩
  intro other
  rw [← hafter]
  show (table.entries ++ [(key, row)]).lookup other = _
  rw [List.lookup_append]
  by_cases hother : other = key
  · subst hother
    have hnone : table.entries.lookup other = none := get?_eq_none.mpr hkey
    simp [hnone]
  · have hbeq : (other == key) = false := by simpa using hother
    rw [if_neg hother, show [(key, row)].lookup other = none by simp [List.lookup_cons, hbeq]]
    exact Option.or_none

theorem get?_update {other : Key} :
    (table.update key row).get? other =
      if other = key then (table.get? key).map fun _ ↦ row else table.get? other := by
  have hmem : ∀ held : Row, (table.update key row).get? other = some held ↔
      (if other = key then (table.get? key).map fun _ ↦ row else table.get? other) = some held := by
    intro held
    rw [← mem_entries]
    show (other, held) ∈ table.entries.map _ ↔ _
    rw [List.mem_map]
    constructor
    · rintro ⟨⟨name, value⟩, hentry, hsame⟩
      have hvalue := mem_entries.mp hentry
      by_cases hname : name = key
      · rw [if_pos hname] at hsame
        obtain ⟨rfl, rfl⟩ := Prod.mk.inj hsame
        subst hname
        rw [if_pos rfl, hvalue]
        rfl
      · rw [if_neg hname] at hsame
        obtain ⟨rfl, rfl⟩ := Prod.mk.inj hsame
        rw [if_neg hname]
        exact hvalue
    · intro h
      by_cases hother : other = key
      · subst hother
        rw [if_pos rfl] at h
        obtain ⟨value, hvalue, rfl⟩ := Option.map_eq_some_iff.mp h
        exact ⟨(other, value), mem_entries.mpr hvalue, by rw [if_pos rfl]⟩
      · rw [if_neg hother] at h
        exact ⟨(other, held), mem_entries.mpr h, by rw [if_neg hother]⟩
  exact Option.ext hmem

theorem get?_set {other : Key} :
    (table.set key row).get? other = if other = key then some row else table.get? other := by
  unfold set
  cases hinsert : table.insert? key row with
  | some after => exact (insert?_eq_some hinsert).2 other
  | none =>
    have htaken : table.get? key ≠ none := by
      unfold insert? at hinsert
      split_ifs at hinsert with hkey
      rw [ne_eq, get?_eq_none]
      exact not_not_intro hkey
    obtain ⟨held, hheld⟩ := Option.ne_none_iff_exists'.mp htaken
    show (table.update key row).get? other = _
    rw [get?_update, hheld]
    rfl

theorem get?_update_self {held : Row} (hheld : table.get? key = some held) :
    (table.update key row).get? key = some row := by
  rw [get?_update, if_pos rfl, hheld]
  rfl

theorem get?_update_of_ne {other : Key} (hother : other ≠ key) :
    (table.update key row).get? other = table.get? other := by
  rw [get?_update, if_neg hother]

theorem get?_filter {keep : Key → Row → Bool} :
    (table.filter keep).get? key = (table.get? key).filter (keep key) := by
  apply Option.ext
  intro row
  rw [← mem_entries, Option.filter_eq_some_iff, ← mem_entries]
  exact List.mem_filter

theorem get?_mapRows {write : Key → Row → Row} :
    (table.mapRows write).get? key = (table.get? key).map (write key) := by
  apply Option.ext
  intro row
  rw [← mem_entries, Option.map_eq_some_iff]
  show (key, row) ∈ table.entries.map _ ↔ _
  rw [List.mem_map]
  constructor
  · rintro ⟨⟨name, held⟩, hentry, hsame⟩
    obtain ⟨rfl, rfl⟩ := Prod.mk.inj hsame
    exact ⟨held, mem_entries.mp hentry, rfl⟩
  · rintro ⟨held, hheld, rfl⟩
    exact ⟨(key, held), mem_entries.mpr hheld, rfl⟩

/-! ### Rows that stay -/

/-- Every row stays under its key, changed only as the relation allows. -/
def Keeps (related : Row → Row → Prop) (before after : Table Key Row) : Prop :=
  ∀ key row, before.get? key = some row → ∃ later, after.get? key = some later ∧ related row later

variable {related : Row → Row → Prop}

theorem Keeps.refl (hrefl : ∀ row, related row row) (table : Table Key Row) :
    table.Keeps related table := by
  intro key row hrow
  exact ⟨row, hrow, hrefl row⟩

theorem Keeps.trans (htrans : ∀ first second third, related first second → related second third →
      related first third) {first second third : Table Key Row}
    (hfirst : first.Keeps related second) (hsecond : second.Keeps related third) :
    first.Keeps related third := by
  intro key row hrow
  obtain ⟨middle, hmiddle, hrelated⟩ := hfirst key row hrow
  obtain ⟨later, hlater, hrelated'⟩ := hsecond key middle hmiddle
  exact ⟨later, hlater, htrans row middle later hrelated hrelated'⟩

variable {before : Table Key Row}

theorem keeps_insert? (hrefl : ∀ row, related row row) {after : Table Key Row}
    (h : before.insert? key row = some after) : before.Keeps related after := by
  obtain ⟨hfree, hget⟩ := insert?_eq_some h
  intro other held hheld
  have hother : other ≠ key := by
    intro hsame
    rw [hsame, hfree] at hheld
    cases hheld
  exact ⟨held, by rw [hget, if_neg hother, hheld], hrefl held⟩

theorem keeps_update (hrefl : ∀ row, related row row) {held : Row}
    (hheld : before.get? key = some held) (hrelated : related held row) :
    before.Keeps related (before.update key row) := by
  intro other old hold
  by_cases hother : other = key
  · subst hother
    rw [hheld] at hold
    rw [← Option.some.inj hold]
    exact ⟨row, get?_update_self hheld, hrelated⟩
  · exact ⟨old, by rw [get?_update_of_ne hother, hold], hrefl old⟩

theorem keeps_mapRows {write : Key → Row → Row}
    (hrelated : ∀ key row, related row (write key row)) :
    before.Keeps related (before.mapRows write) := by
  intro key row hrow
  exact ⟨write key row, by rw [get?_mapRows, hrow]; rfl, hrelated key row⟩

theorem keeps_set (hall : ∀ first second, related first second) :
    before.Keeps related (before.set key row) := by
  intro other old hold
  rw [get?_set]
  by_cases hother : other = key
  · rw [if_pos hother]
    exact ⟨row, rfl, hall old row⟩
  · rw [if_neg hother]
    exact ⟨old, hold, hall old old⟩

end Table

end AiStp.Library
