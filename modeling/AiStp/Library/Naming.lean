import AiStp.Library.Tables

/-!
# Rows that name a subject

The rows of a table that name a subject are found under their keys (`NamedAt`). A write that adds no
such row leaves every named key one that was named before (`NamesNoMore`), and a deletion of all of
them leaves none (`not_namedAt_filter`).
-/

set_option autoImplicit false

namespace AiStp.Library.Table

variable {Key Row : Type*} [DecidableEq Key]

/-- The row under the key names the subject. -/
def NamedAt (names : Key → Row → Prop) (table : Table Key Row) (key : Key) : Prop :=
  ∃ row, table.get? key = some row ∧ names key row

/-- No key is named that was not named before. -/
def NamesNoMore (names : Key → Row → Prop) (before after : Table Key Row) : Prop :=
  ∀ key, after.NamedAt names key → before.NamedAt names key

variable {names : Key → Row → Prop} {table after : Table Key Row} {key : Key} {row : Row}

theorem NamesNoMore.refl (names : Key → Row → Prop) (table : Table Key Row) :
    NamesNoMore names table table := fun _ ↦ id

theorem NamesNoMore.trans {last : Table Key Row} (hfirst : NamesNoMore names table after)
    (hsecond : NamesNoMore names after last) : NamesNoMore names table last :=
  fun key hkey ↦ hfirst key (hsecond key hkey)

/-- A row that names the subject only if the row in its place did. -/
theorem namesNoMore_set (hrow : names key row → table.NamedAt names key) :
    NamesNoMore names table (table.set key row) := by
  intro other ⟨held, hheld, hnames⟩
  rw [get?_set] at hheld
  by_cases hother : other = key
  · rw [if_pos hother] at hheld
    subst hother
    exact hrow (Option.some.inj hheld ▸ hnames)
  · rw [if_neg hother] at hheld
    exact ⟨held, hheld, hnames⟩

theorem namesNoMore_insert? (hrow : ¬ names key row) (h : table.insert? key row = some after) :
    NamesNoMore names table after := by
  intro other ⟨held, hheld, hnames⟩
  rw [(insert?_eq_some h).2] at hheld
  by_cases hother : other = key
  · rw [if_pos hother] at hheld
    subst hother
    exact absurd (Option.some.inj hheld ▸ hnames) hrow
  · rw [if_neg hother] at hheld
    exact ⟨held, hheld, hnames⟩

theorem namesNoMore_filter (keep : Key → Row → Bool) :
    NamesNoMore names table (table.filter keep) := by
  intro other ⟨held, hheld, hnames⟩
  rw [get?_filter, Option.filter_eq_some_iff] at hheld
  exact ⟨held, hheld.1, hnames⟩

theorem namesNoMore_mapRows {write : Key → Row → Row}
    (hwrite : ∀ key row, names key (write key row) → names key row) :
    NamesNoMore names table (table.mapRows write) := by
  intro other ⟨held, hheld, hnames⟩
  rw [get?_mapRows, Option.map_eq_some_iff] at hheld
  obtain ⟨first, hfirst, rfl⟩ := hheld
  exact ⟨first, hfirst, hwrite other first hnames⟩

/-- Without the rows that name the subject no key is named. -/
theorem not_namedAt_filter {keep : Key → Row → Bool}
    (hkeep : ∀ key row, keep key row = true → ¬ names key row) :
    ¬ (table.filter keep).NamedAt names key := by
  intro ⟨held, hheld, hnames⟩
  rw [get?_filter, Option.filter_eq_some_iff] at hheld
  exact hkeep key held hheld.2 hnames

end AiStp.Library.Table
