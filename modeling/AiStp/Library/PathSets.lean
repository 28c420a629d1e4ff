import AiStp.Library.Separators
import Mathlib

/-!
# Sets of paths and the neighbours in their order

A path is a list of parts, and `fold` forgets the spelling of a part. Paths are in the order of
their folded texts, with a separator between the parts. The paths below one folded directory stand
next to each other in that order, whatever items sort before the separator, so paths that spell
their shared directories like their neighbours spell them all alike.
-/

set_option autoImplicit false

namespace AiStp.Library.PathSets

/-! ### The order of texts -/

section Texts

variable {Item : Type*} [LinearOrder Item]

theorem cons_le_cons {item other : Item} {items others : List Item} :
    item :: items ≤ other :: others ↔ item < other ∨ item = other ∧ items ≤ others := by
  rw [le_iff_lt_or_eq, le_iff_lt_or_eq, List.cons_lt_cons_iff, List.cons.injEq, and_or_left,
    or_assoc]

/-- The lists with one beginning are an interval. -/
theorem prefix_between {start first middle last : List Item} (hfirst : start <+: first)
    (hlast : start <+: last) (hlow : first ≤ middle) (hhigh : middle ≤ last) :
    start <+: middle := by
  induction start generalizing first middle last with
  | nil => exact List.nil_prefix
  | cons item start ih =>
    obtain ⟨first, rfl⟩ := hfirst
    obtain ⟨last, rfl⟩ := hlast
    cases middle with
    | nil => exact absurd hlow (by simp)
    | cons other middle =>
      rw [List.cons_append, cons_le_cons] at hlow hhigh
      have hsame : item = other := by
        rcases hlow with hlow | ⟨hlow, -⟩
        · rcases hhigh with hhigh | ⟨hhigh, -⟩
          · exact absurd (hlow.trans hhigh) (lt_irrefl item)
          · exact hhigh.symm
        · exact hlow
      subst hsame
      have hlow' : start ++ first ≤ middle := by simpa using hlow
      have hhigh' : middle ≤ start ++ last := by simpa using hhigh
      exact List.cons_prefix_cons.mpr
        ⟨rfl, ih (List.prefix_append _ _) (List.prefix_append _ _) hlow' hhigh'⟩

variable {separator : Item}

/-- A text begins with the text of a directory exactly if its parts begin with the parts of the
directory and go on. -/
theorem prefix_intercalate {directory parts : List (List Item)} (hdirectory : directory ≠ [])
    (hfree : ∀ part ∈ directory, separator ∉ part) (hfree' : ∀ part ∈ parts, separator ∉ part) :
    [separator].intercalate directory ++ [separator] <+: [separator].intercalate parts ↔
      ∃ rest, rest ≠ [] ∧ parts = directory ++ rest := by
  induction directory generalizing parts with
  | nil => exact absurd rfl hdirectory
  | cons part directory ih =>
    have hpart : separator ∉ part := hfree part List.mem_cons_self
    cases parts with
    | nil => simp
    | cons other parts =>
      have hother : separator ∉ other := hfree' other List.mem_cons_self
      cases parts with
      | nil =>
        rw [List.intercalate_singleton]
        constructor
        · intro hbegins
          refine absurd (hbegins.subset ?_) hother
          simp
        · rintro ⟨rest, hrest, hparts⟩
          have hlength := congrArg List.length hparts
          have hpositive := List.length_pos_of_ne_nil hrest
          simp only [List.length_cons, List.length_nil, List.length_append] at hlength
          omega
      | cons next parts =>
        have hrest : ∀ part ∈ next :: parts, separator ∉ part :=
          fun part hmem ↦ hfree' part (List.mem_cons_of_mem other hmem)
        have htext : [separator].intercalate (other :: next :: parts) =
            other ++ separator :: [separator].intercalate (next :: parts) := by
          rw [List.intercalate_cons_cons, List.append_assoc, List.singleton_append]
        rw [htext]
        cases directory with
        | nil =>
          rw [List.intercalate_singleton]
          constructor
          · rintro ⟨tail, htail⟩
            rw [List.append_assoc, List.singleton_append] at htail
            obtain ⟨rfl, -⟩ := append_cons_inj hpart hother htail
            exact ⟨next :: parts, List.cons_ne_nil _ _, rfl⟩
          · rintro ⟨rest, -, hparts⟩
            obtain ⟨rfl, -⟩ := List.cons.inj hparts
            exact ⟨[separator].intercalate (next :: parts), by simp⟩
        | cons second directory =>
          have hsecond : ∀ part ∈ second :: directory, separator ∉ part :=
            fun part hmem ↦ hfree part (List.mem_cons_of_mem _ hmem)
          rw [List.intercalate_cons_cons, List.append_assoc, List.append_assoc,
            List.singleton_append]
          have hstep := ih (List.cons_ne_nil second directory) hsecond hrest
          constructor
          · rintro ⟨tail, htail⟩
            rw [List.append_assoc, List.cons_append] at htail
            obtain ⟨hfirst, hbehind⟩ := append_cons_inj hpart hother htail
            obtain ⟨rest, hne, hparts⟩ := hstep.mp ⟨tail, hbehind⟩
            exact ⟨rest, hne, by rw [hfirst, hparts]; rfl⟩
          · rintro ⟨rest, hne, hparts⟩
            obtain ⟨hfirst, hbehind⟩ := List.cons.inj hparts
            obtain ⟨tail, htail⟩ := hstep.mpr ⟨rest, hne, hbehind⟩
            exact ⟨tail, by rw [hfirst, ← htail]; simp⟩

end Texts

/-! ### Spelling -/

section Spelling

variable {Part Item : Type*} (fold : Part → List Item)

/-- What two paths share up to folding, they spell alike. -/
def SharedAlike (left right : List Part) : Prop :=
  ∀ count, count ≤ left.length → count ≤ right.length →
    (left.take count).map fold = (right.take count).map fold →
      left.take count = right.take count

/-- The directories that are above both of two paths up to folding are spelled alike in them. -/
def DirectoriesAlike (left right : List Part) : Prop :=
  ∀ count, count < left.length → count < right.length →
    (left.take count).map fold = (right.take count).map fold →
      left.take count = right.take count

/-- Up to folding, the first path is a directory above the second. -/
def Above (directory path : List Part) : Prop :=
  directory.map fold <+: path.map fold ∧ directory.map fold ≠ path.map fold

/-- Paths that can be held together: no two are one path up to folding, none is a directory above
another, and each directory above them has one spelling. -/
structure Apart (paths : List (List Part)) : Prop where
  distinct : (paths.map (List.map fold)).Nodup
  leaves : ∀ path ∈ paths, ∀ other ∈ paths, ¬Above fold path other
  alike : ∀ path ∈ paths, ∀ other ∈ paths, DirectoriesAlike fold path other

variable {fold}

@[simp] theorem sharedAlike_nil_left (right : List Part) : SharedAlike fold [] right := by
  simp [SharedAlike]

@[simp] theorem sharedAlike_nil_right (left : List Part) : SharedAlike fold left [] := by
  simp [SharedAlike]

/-- The parts are compared until two of them differ up to folding. -/
theorem sharedAlike_cons {part other : Part} {left right : List Part} :
    SharedAlike fold (part :: left) (other :: right) ↔
      (fold part = fold other → part = other ∧ SharedAlike fold left right) := by
  constructor
  · intro h hfolds
    have hfirst := h 1 (by simp) (by simp) (by simpa using hfolds)
    have hsame : part = other := by simpa using hfirst
    refine ⟨hsame, fun count hcount hcount' hshared ↦ ?_⟩
    have hnext := h (count + 1) (by simpa using hcount) (by simpa using hcount') (by
      simp only [List.take_succ_cons, List.map_cons, hshared, hsame])
    simpa [hsame] using hnext
  · intro h count hcount hcount' hshared
    cases count with
    | zero => rfl
    | succ count =>
      rw [List.take_succ_cons, List.take_succ_cons]
      rw [List.take_succ_cons, List.take_succ_cons, List.map_cons, List.map_cons] at hshared
      obtain ⟨hfolds, hfolds'⟩ := List.cons.inj hshared
      obtain ⟨hsame, hrest⟩ := h hfolds
      rw [hsame, hrest count (by simpa using hcount) (by simpa using hcount') hfolds']

theorem SharedAlike.directories {left right : List Part} (h : SharedAlike fold left right) :
    DirectoriesAlike fold left right :=
  fun count hleft hright ↦ h count hleft.le hright.le

theorem DirectoriesAlike.symm {left right : List Part} (h : DirectoriesAlike fold left right) :
    DirectoriesAlike fold right left :=
  fun count hright hleft hfolds ↦ (h count hleft hright hfolds.symm).symm

instance : Std.Symm (DirectoriesAlike fold) := ⟨fun _ _ h ↦ h.symm⟩

theorem DirectoriesAlike.refl (path : List Part) : DirectoriesAlike fold path path :=
  fun _ _ _ _ ↦ rfl

/-- Paths of which neither is the other up to folding share directories only, and a path that is
above the other. -/
theorem DirectoriesAlike.shared {left right : List Part} (h : DirectoriesAlike fold left right)
    (hne : left.map fold ≠ right.map fold) (hleft : Above fold left right → left <+: right)
    (hright : Above fold right left → right <+: left) : SharedAlike fold left right := by
  intro count hcount hcount' hfolds
  by_cases hend : count = left.length
  · rw [hend, List.take_length, List.map_take] at hfolds
    have hbegins := hleft ⟨hfolds.symm ▸ List.take_prefix _ _, hne⟩
    rw [hend, List.take_length, ← List.prefix_iff_eq_take]
    exact hbegins
  · by_cases hend' : count = right.length
    · rw [hend', List.take_length, List.map_take] at hfolds
      have hbegins := hright ⟨hfolds ▸ List.take_prefix _ _, hne.symm⟩
      rw [hend', List.take_length, eq_comm, ← List.prefix_iff_eq_take]
      exact hbegins
    · exact h count (by omega) (by omega) hfolds

variable {paths : List (List Part)}

/-- Where the paths between two paths lie below the directories that the two share, paths that
spell what they share like their neighbours spell all directories alike. -/
theorem pairwise_directoriesAlike {B : List Part → List Part → Prop}
    (hbetween : ∀ first middle last count, B first middle → B middle last →
      count < first.length → count < last.length →
      (first.take count).map fold = (last.take count).map fold →
      count < middle.length ∧ (first.take count).map fold = (middle.take count).map fold)
    (hordered : paths.Pairwise B) (hneighbours : paths.IsChain (SharedAlike fold)) :
    paths.Pairwise (DirectoriesAlike fold) := by
  induction paths with
  | nil => exact .nil
  | cons path paths ih =>
    cases paths with
    | nil => exact List.pairwise_singleton _ _
    | cons next paths =>
      rw [List.isChain_cons_cons] at hneighbours
      obtain ⟨hpath, hrest⟩ := List.pairwise_cons.mp hordered
      have htail := ih hrest hneighbours.2
      refine List.pairwise_cons.mpr ⟨?_, htail⟩
      intro other hother
      rcases List.mem_cons.mp hother with rfl | hother
      · exact hneighbours.1.directories
      · -- the directory is above the next path too, which has the spelling of both
        intro count hcount hcount' hfolds
        obtain ⟨hmiddle, hsame⟩ := hbetween path next other count
          (hpath next List.mem_cons_self) ((List.pairwise_cons.mp hrest).1 other hother)
          hcount hcount' hfolds
        have hleft := hneighbours.1 count hcount.le hmiddle.le hsame
        have hright := (List.pairwise_cons.mp htail).1 other hother count hmiddle hcount'
          (hsame.symm.trans hfolds)
        exact hleft.trans hright

/-- Paths that can be held together spell what they share like their neighbours. -/
theorem Apart.neighbours (h : Apart fold paths) : paths.IsChain (SharedAlike fold) := by
  have hpairwise : paths.Pairwise (SharedAlike fold) := by
    have hdistinct := List.pairwise_map.mp h.distinct
    refine hdistinct.imp_of_mem fun hleft hright hne ↦ ?_
    exact (h.alike _ hleft _ hright).shared hne
      (fun habove ↦ absurd habove (h.leaves _ hleft _ hright))
      fun habove ↦ absurd habove (h.leaves _ hright _ hleft)
  exact hpairwise.isChain

theorem Apart.perm {others : List (List Part)} (h : Apart fold paths) (hperm : paths.Perm others) :
    Apart fold others where
  distinct := (hperm.map _).nodup_iff.mp h.distinct
  leaves path hpath other hother := h.leaves path (hperm.mem_iff.mpr hpath) other
    (hperm.mem_iff.mpr hother)
  alike path hpath other hother := h.alike path (hperm.mem_iff.mpr hpath) other
    (hperm.mem_iff.mpr hother)

variable [LinearOrder Item] {separator : Item}

/-- The folded text of a path, by which paths are ordered. -/
def key (fold : Part → List Item) (separator : Item) (path : List Part) : List Item :=
  [separator].intercalate (path.map fold)

/-- A path with a part, and with no separator in the folded parts. -/
def Parted (fold : Part → List Item) (separator : Item) (path : List Part) : Prop :=
  path ≠ [] ∧ ∀ part ∈ path, separator ∉ fold part

theorem key_injective {left right : List Part} (hleft : Parted fold separator left)
    (hright : Parted fold separator right) (h : key fold separator left = key fold separator right) :
    left.map fold = right.map fold := by
  have hfree : ∀ {path : List Part}, Parted fold separator path →
      ([separator].intercalate (path.map fold)).splitOn separator = path.map fold := by
    intro path hpath
    refine List.splitOn_intercalate separator ?_ (by simpa using hpath.1)
    simpa using hpath.2
  rw [← hfree hleft, ← hfree hright]
  exact congrArg (List.splitOn separator) h

/-- A path between two paths of one directory is in the directory. -/
theorem between {first middle last : List Part} {count : ℕ} (hfirst : Parted fold separator first)
    (hmiddle : Parted fold separator middle) (hlast : Parted fold separator last)
    (hlow : key fold separator first ≤ key fold separator middle)
    (hhigh : key fold separator middle ≤ key fold separator last) (hcount : count < first.length)
    (hcount' : count < last.length)
    (hfolds : (first.take count).map fold = (last.take count).map fold) :
    count < middle.length ∧ (first.take count).map fold = (middle.take count).map fold := by
  by_cases hzero : count = 0
  · subst hzero
    exact ⟨List.length_pos_of_ne_nil hmiddle.1, rfl⟩
  · have hfree : ∀ {path : List Part}, Parted fold separator path →
        ∀ part ∈ path.map fold, separator ∉ part := by
      intro path hpath
      simpa using hpath.2
    have hne : (first.take count).map fold ≠ [] := by
      have hpositive : 0 < first.length := by omega
      simp [hzero, List.ne_nil_of_length_pos hpositive]
    have hdirectory : ∀ part ∈ (first.take count).map fold, separator ∉ part := by
      intro part hpart
      rw [List.map_take] at hpart
      exact hfree hfirst part (List.mem_of_mem_take hpart)
    have hbegins : ∀ {path : List Part}, Parted fold separator path → count < path.length →
        (first.take count).map fold = (path.take count).map fold →
        [separator].intercalate ((first.take count).map fold) ++ [separator] <+:
          key fold separator path := by
      intro path hpath hlength hsame
      refine (prefix_intercalate hne hdirectory (hfree hpath)).mpr
        ⟨(path.drop count).map fold, ?_, ?_⟩
      · simpa using hlength
      · rw [hsame, ← List.map_append, List.take_append_drop]
    have hbegins := prefix_between (hbegins hfirst hcount rfl) (hbegins hlast hcount' hfolds) hlow
      hhigh
    obtain ⟨rest, hrest, hparts⟩ :=
      (prefix_intercalate hne hdirectory (hfree hmiddle)).mp hbegins
    have hlength := congrArg List.length hparts
    have hpositive := List.length_pos_of_ne_nil hrest
    simp only [List.length_map, List.length_append, List.length_take] at hlength
    refine ⟨by omega, ?_⟩
    have hfirst : ((first.take count).map fold).length = count := by
      rw [List.length_map, List.length_take]
      omega
    rw [List.map_take (l := middle), hparts, List.take_append_of_le_length hfirst.ge,
      List.take_of_length_le hfirst.le]

/-- In the order of the folded texts it is enough to compare neighbours. -/
theorem alike_of_neighbours (hparted : ∀ path ∈ paths, Parted fold separator path)
    (hordered : paths.Pairwise fun left right ↦ key fold separator left ≤ key fold separator right)
    (hneighbours : paths.IsChain (SharedAlike fold)) :
    ∀ path ∈ paths, ∀ other ∈ paths, DirectoriesAlike fold path other := by
  have hpairwise : paths.Pairwise (DirectoriesAlike fold) := by
    refine pairwise_directoriesAlike (B := fun left right ↦ Parted fold separator left ∧
      Parted fold separator right ∧ key fold separator left ≤ key fold separator right) ?_ ?_
      hneighbours
    · intro first middle last count hfirst hlast hcount hcount' hfolds
      exact between hfirst.1 hfirst.2.1 hlast.2.1 hfirst.2.2 hlast.2.2 hcount hcount' hfolds
    · exact hordered.imp_of_mem fun hleft hright hle ↦ ⟨hparted _ hleft, hparted _ hright, hle⟩
  intro path hpath other hother
  exact hpairwise.forall_of_forall (fun path _ ↦ .refl path) hpath hother

end Spelling

end AiStp.Library.PathSets
