import Mathlib.Data.List.Induction

/-!
# Trees of directories and files

A path is the list of the names that lead from the root of a tree to one of its entries. Whatever a
tree holds lies in a directory of it, so an entry cannot be made before its directory and a
directory goes only once it is empty.
-/

set_option autoImplicit false

namespace AiStp.Library

abbrev Path := List String

inductive TreeEntry (Identity File : Type) where
  | directory (identity : Identity)
  | file (file : File)
  /-- A link, a special file or a file of several names. -/
  | other
deriving DecidableEq

variable {Identity File : Type}

def TreeEntry.isDirectory : TreeEntry Identity File → Bool
  | .directory _ => true
  | _ => false

/-- The entry at a path in a list of entries. -/
def entryOf (entries : List (Path × TreeEntry Identity File)) (path : Path) :
    Option (TreeEntry Identity File) :=
  entries.lookup path

/-- The root is a directory. -/
def isDirectoryOf (entries : List (Path × TreeEntry Identity File)) (path : Path) : Bool :=
  path = [] || (entryOf entries path).any TreeEntry.isDirectory

structure FileTree (Identity File : Type) where
  entries : List (Path × TreeEntry Identity File)
  closed : ∀ path, (entryOf entries path).isSome → isDirectoryOf entries path.dropLast

variable {entries : List (Path × TreeEntry Identity File)} {path : Path}

theorem entryOf_cons {other : Path} {entry : TreeEntry Identity File} :
    entryOf ((path, entry) :: entries) other =
      if other = path then some entry else entryOf entries other := by
  unfold entryOf
  rw [List.lookup_cons]
  by_cases hother : other = path
  · simp [hother]
  · have hbeq : (other == path) = false := beq_false_of_ne hother
    simp [hother, hbeq]

theorem mem_of_entryOf {entry : TreeEntry Identity File} (h : entryOf entries path = some entry) :
    (path, entry) ∈ entries := by
  obtain ⟨before, after, rfl, -⟩ := List.lookup_eq_some_iff.mp h
  simp

theorem entryOf_filter {other : Path} :
    entryOf (entries.filter (·.1 ≠ path)) other =
      if other = path then none else entryOf entries other := by
  induction entries with
  | nil => simp [entryOf]
  | cons entry entries ih =>
    obtain ⟨name, entry⟩ := entry
    by_cases hname : name = path
    · have hskip : List.filter (fun entry ↦ decide (entry.1 ≠ path)) ((name, entry) :: entries) =
          List.filter (fun entry ↦ decide (entry.1 ≠ path)) entries := by simp [hname]
      rw [hskip, ih, entryOf_cons, hname]
      split_ifs <;> rfl
    · have hkeep : List.filter (fun entry ↦ decide (entry.1 ≠ path)) ((name, entry) :: entries) =
          (name, entry) :: List.filter (fun entry ↦ decide (entry.1 ≠ path)) entries := by
        simp [hname]
      rw [hkeep, entryOf_cons, entryOf_cons, ih]
      split_ifs with h₁ h₂
      · exact absurd (h₁.symm.trans h₂) hname
      · rfl
      · rfl
      · rfl

namespace FileTree

def entry (tree : FileTree Identity File) (path : Path) : Option (TreeEntry Identity File) :=
  entryOf tree.entries path

def isDirectory (tree : FileTree Identity File) (path : Path) : Bool :=
  isDirectoryOf tree.entries path

variable {tree : FileTree Identity File}

theorem isDirectory_iff :
    tree.isDirectory path ↔ path = [] ∨ ∃ identity, tree.entry path = some (.directory identity) := by
  unfold isDirectory isDirectoryOf
  rw [Bool.or_eq_true, decide_eq_true_eq, Option.any_eq_true]
  refine or_congr_right ?_
  constructor
  · rintro ⟨entry, hentry, hdirectory⟩
    cases entry with
    | directory identity => exact ⟨identity, hentry⟩
    | file file => cases hdirectory
    | other => cases hdirectory
  · rintro ⟨identity, hentry⟩
    exact ⟨.directory identity, hentry, rfl⟩

theorem isDirectory_dropLast (h : (tree.entry path).isSome) : tree.isDirectory path.dropLast :=
  tree.closed path h

/-- All that leads to an entry is a directory. -/
theorem isDirectory_of_append {before after : Path} (hafter : after ≠ [])
    (h : (tree.entry (before ++ after)).isSome) : tree.isDirectory before := by
  induction after using List.reverseRecOn with
  | nil => exact absurd rfl hafter
  | append_singleton after name ih =>
    have hparent : tree.isDirectory (before ++ after) := by
      have := isDirectory_dropLast h
      rwa [← List.append_assoc, List.dropLast_concat] at this
    by_cases hnil : after = []
    · simpa [hnil] using hparent
    · rcases isDirectory_iff.mp hparent with hroot | ⟨identity, hentry⟩
      · exact absurd (List.append_eq_nil_iff.mp hroot).2 hnil
      · exact ih hnil (by simp [hentry])

/-- Nothing lies below what is not a directory. -/
theorem entry_append_eq_none {before after : Path} (hafter : after ≠ [])
    (h : tree.isDirectory before = false) : tree.entry (before ++ after) = none := by
  by_contra hsome
  have := isDirectory_of_append hafter (Option.isSome_iff_ne_none.mpr hsome)
  rw [h] at this
  cases this

/-! ### Changes -/

/-- Put an entry in a directory, in the place of one that is not a directory. -/
def put (tree : FileTree Identity File) (path : Path) (entry : TreeEntry Identity File) :
    Option (FileTree Identity File) :=
  if h : tree.isDirectory path = false ∧ tree.isDirectory path.dropLast then
    some
      { entries := (path, entry) :: tree.entries
        closed := by
          intro other hother
          obtain ⟨hpath, hparent⟩ := h
          have hold : isDirectoryOf tree.entries other.dropLast := by
            by_cases hsame : other = path
            · exact hsame ▸ hparent
            · rw [entryOf_cons, if_neg hsame] at hother
              exact tree.closed other hother
          have hne : other.dropLast ≠ path := by
            rintro rfl
            exact absurd hold (by simpa [isDirectory] using hpath)
          simpa [isDirectoryOf, entryOf_cons, hne] using hold }
  else none

/-- The entries of a directory. -/
def children (tree : FileTree Identity File) (directory : Path) :
    List (Path × TreeEntry Identity File) :=
  tree.entries.filter fun entry ↦ entry.1 ≠ [] ∧ entry.1.dropLast = directory ∧
    (tree.entry entry.1).isSome

/-- Remove an entry that holds no others. -/
def drop (tree : FileTree Identity File) (path : Path) : Option (FileTree Identity File) :=
  if h : path ≠ [] ∧ (tree.entry path).isSome ∧ tree.children path = [] then
    some
      { entries := tree.entries.filter (·.1 ≠ path)
        closed := by
          intro other hother
          obtain ⟨hroot, -, hempty⟩ := h
          rw [entryOf_filter] at hother
          split_ifs at hother with hsame
          · cases hother
          · have hold := tree.closed other hother
            have hne : other.dropLast ≠ path := by
              intro hparent
              obtain ⟨entry, hentry⟩ := Option.isSome_iff_exists.mp hother
              have hmem : (other, entry) ∈ tree.children path := by
                refine List.mem_filter.mpr ⟨mem_of_entryOf hentry, ?_⟩
                have hnil : other ≠ [] := by
                  rintro rfl
                  exact hroot hparent.symm
                have hsome : (tree.entry other).isSome := hother
                simp [hnil, hparent, hsome]
              rw [hempty] at hmem
              cases hmem
            unfold isDirectoryOf
            rw [entryOf_filter, if_neg hne]
            exact hold }
  else none

/-! ### What a change leaves -/

theorem put_eq_some {next : FileTree Identity File} {entry : TreeEntry Identity File}
    (h : tree.put path entry = some next) :
    tree.isDirectory path = false ∧ tree.isDirectory path.dropLast ∧
      ∀ other, next.entry other = if other = path then some entry else tree.entry other := by
  unfold put at h
  split_ifs at h with hplace
  refine ⟨hplace.1, hplace.2, fun other ↦ ?_⟩
  rw [← Option.some.inj h]
  exact entryOf_cons

theorem put_isSome (entry : TreeEntry Identity File) (hpath : tree.isDirectory path = false)
    (hparent : tree.isDirectory path.dropLast) : ∃ next, tree.put path entry = some next := by
  unfold put
  rw [dif_pos ⟨hpath, hparent⟩]
  exact ⟨_, rfl⟩

theorem drop_eq_some {next : FileTree Identity File} (h : tree.drop path = some next) :
    path ≠ [] ∧ (tree.entry path).isSome ∧ tree.children path = [] ∧
      ∀ other, next.entry other = if other = path then none else tree.entry other := by
  unfold drop at h
  split_ifs at h with hplace
  refine ⟨hplace.1, hplace.2.1, hplace.2.2, fun other ↦ ?_⟩
  rw [← Option.some.inj h]
  exact entryOf_filter

theorem drop_isSome (hpath : path ≠ []) (hentry : (tree.entry path).isSome)
    (hempty : tree.children path = []) : ∃ next, tree.drop path = some next := by
  unfold drop
  rw [dif_pos ⟨hpath, hentry, hempty⟩]
  exact ⟨_, rfl⟩

theorem children_eq_nil {directory : Path} :
    tree.children directory = [] ↔
      ∀ path, path ≠ [] → path.dropLast = directory → tree.entry path = none := by
  unfold children
  rw [List.filter_eq_nil_iff]
  constructor
  · intro h path hpath hparent
    by_contra hsome
    obtain ⟨entry, hentry⟩ := Option.ne_none_iff_exists'.mp hsome
    apply h (path, entry) (mem_of_entryOf hentry)
    simp [hpath, hparent, hentry]
  · intro h entry _
    by_cases hplace : entry.1 ≠ [] ∧ entry.1.dropLast = directory
    · simp [h entry.1 hplace.1 hplace.2]
    · simp only [decide_eq_true_eq]
      exact fun hall ↦ hplace ⟨hall.1, hall.2.1⟩

/-- A file holds nothing. -/
theorem children_of_not_directory (h : tree.isDirectory path = false) :
    tree.children path = [] := by
  rw [children_eq_nil]
  intro other hother hparent
  have hsplit : other = path ++ [other.getLast hother] := by
    rw [← hparent, List.dropLast_concat_getLast]
  rw [hsplit]
  exact entry_append_eq_none (by simp) h

end FileTree

end AiStp.Library
