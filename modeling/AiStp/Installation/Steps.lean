import AiStp.Installation.Files

/-!
# What one step leaves

Each durable step of a publication edits one entry of one tree. There is one rule for each step,
which says what the edit is and when the step does not refuse.
-/

set_option autoImplicit false

namespace AiStp.Installation

open Library

open Custody (Identity Stamp)

open Program

/-- The second world is the first with one entry of one tree edited. -/
def EditAt (base : Base) (path : Path) (entry : Option Entry) (world next : World) : Prop :=
  ∃ tree, next = world.withTree base tree ∧
    ∀ other, tree.entry other = if other = path then entry else (world.tree base).entry other

namespace EditAt

variable {base : Base} {path : Path} {entry : Option Entry} {world next : World}

section

variable (h : EditAt base path entry world next)
include h

theorem store : next.store = world.store := by
  obtain ⟨tree, rfl, -⟩ := h
  simp

theorem entry_eq (other : Path) :
    (next.tree base).entry other = if other = path then entry else (world.tree base).entry other := by
  obtain ⟨tree, rfl, htree⟩ := h
  simp [htree]

theorem entry_self : (next.tree base).entry path = entry := by
  rw [h.entry_eq, if_pos rfl]

theorem entry_ne {other : Path} (hother : other ≠ path) :
    (next.tree base).entry other = (world.tree base).entry other := by
  rw [h.entry_eq, if_neg hother]

/-- The other tree stays as it is. -/
theorem tree_ne {other : Base} (hother : other ≠ base) : next.tree other = world.tree other := by
  obtain ⟨tree, rfl, -⟩ := h
  cases base <;> cases other <;> first | rfl | exact absurd rfl hother

end

theorem root (h : EditAt .control path entry world next) : next.root = world.root := by
  show next.tree .root = world.tree .root
  exact h.tree_ne (by decide)

theorem control (h : EditAt .root path entry world next) : next.control = world.control := by
  show next.tree .control = world.tree .control
  exact h.tree_ne (by decide)

end EditAt

section Steps

variable {system : System} {total : Prop} {base : Base} {path : Path} {world : World}
  {Durable : World → Prop} (After : World → Prop)

private theorem edit_meets {change : World → Tree → Option Tree}
    (hanswers : total → ∃ tree, change world (world.tree base) = some tree)
    (h : ∀ tree, change world (world.tree base) = some tree →
      Durable (world.withTree base tree) ∧ After (world.withTree base tree)) :
    Meets total (edit base change) world Durable fun _ ↦ After := by
  refine Meets.act ?_ ?_
  · intro htotal
    obtain ⟨tree, htree⟩ := hanswers htotal
    simp [htree]
  · intro next hnext
    obtain ⟨tree, htree, rfl⟩ := Option.map_eq_some_iff.mp hnext
    exact h tree htree

theorem editAt_put {entry : Entry} {tree : Tree}
    (h : (world.tree base).put path entry = some tree) :
    EditAt base path (some entry) world (world.withTree base tree) :=
  ⟨tree, rfl, (FileTree.put_eq_some h).2.2⟩

theorem editAt_drop {tree : Tree} (h : (world.tree base).drop path = some tree) :
    EditAt base path none world (world.withTree base tree) :=
  ⟨tree, rfl, (FileTree.drop_eq_some h).2.2.2⟩

theorem not_isDirectory {tree : Tree} (hpath : path ≠ [])
    (h : ∀ identity, tree.entry path ≠ some (.directory identity)) :
    tree.isDirectory path = false := by
  by_contra hdirectory
  rcases FileTree.isDirectory_iff.mp (by simpa using hdirectory) with hroot | ⟨identity, hentry⟩
  · exact hpath hroot
  · exact h identity hentry

private theorem create_meets {made : World → Entry}
    (hanswers : total → (world.tree base).entry path = none ∧ path ≠ [] ∧
      (world.tree base).isDirectory path.dropLast)
    (h : ∀ next, (world.tree base).entry path = none →
      EditAt base path (some (made world)) world next → Durable next ∧ After next) :
    Meets total (edit base fun world tree ↦
      if (tree.entry path).isNone then tree.put path (made world) else none)
      world Durable fun _ ↦ After := by
  refine edit_meets After ?_ ?_
  · intro htotal
    obtain ⟨hnone, hpath, hparent⟩ := hanswers htotal
    simpa [hnone] using FileTree.put_isSome _ (not_isDirectory hpath (by simp [hnone])) hparent
  · intro tree htree
    split_ifs at htree with hnone
    exact h _ (Option.isNone_iff_eq_none.mp hnone) (editAt_put htree)

theorem createDirectory_meets
    (hanswers : total → (world.tree base).entry path = none ∧ path ≠ [] ∧
      (world.tree base).isDirectory path.dropLast)
    (h : ∀ next, (world.tree base).entry path = none →
      EditAt base path (some (.directory (system.allocate world))) world next →
      Durable next ∧ After next) :
    Meets total (createDirectory system base path) world Durable fun _ ↦ After :=
  create_meets After hanswers h

/-- A file just made. -/
def emptyFile (system : System) (world : World) : File :=
  { identity := system.allocate world, bytes := [], mode := 0o600 }

theorem createFile_meets
    (hanswers : total → (world.tree base).entry path = none ∧ path ≠ [] ∧
      (world.tree base).isDirectory path.dropLast)
    (h : ∀ next, (world.tree base).entry path = none →
      EditAt base path (some (.file (emptyFile system world))) world next →
      Durable next ∧ After next) :
    Meets total (createFile system base path) world Durable fun _ ↦ After :=
  create_meets After hanswers h

section

variable (hanswers : total → path ≠ [] ∧ ∃ file, (world.tree base).entry path = some (.file file))
include hanswers

theorem changeFile_meets {change : File → File}
    (h : ∀ file next, (world.tree base).entry path = some (.file file) →
      EditAt base path (some (.file (change file))) world next →
      Durable next ∧ After next) :
    Meets total (changeFile base path change) world Durable fun _ ↦ After := by
  refine edit_meets After ?_ ?_
  · intro htotal
    obtain ⟨hpath, file, hfile⟩ := hanswers htotal
    have hsome : ((world.tree base).entry path).isSome := by simp [hfile]
    simpa [hfile] using FileTree.put_isSome (.file (change file))
      (not_isDirectory hpath (by simp [hfile])) (FileTree.isDirectory_dropLast hsome)
  · intro tree htree
    split at htree
    · next file hfile => exact h file _ hfile (editAt_put htree)
    · cases htree

theorem removeFile_meets (h : ∀ file next, (world.tree base).entry path = some (.file file) →
      EditAt base path none world next → Durable next ∧ After next) :
    Meets total (removeFile base path) world Durable fun _ ↦ After := by
  refine edit_meets After ?_ ?_
  · intro htotal
    obtain ⟨hpath, file, hfile⟩ := hanswers htotal
    have hplain : (world.tree base).isDirectory path = false :=
      not_isDirectory hpath (by simp [hfile])
    have hempty := FileTree.children_of_not_directory hplain
    simpa [hfile] using FileTree.drop_isSome hpath (by simp [hfile]) hempty
  · intro tree htree
    split at htree
    · next file hfile => exact h file _ hfile (editAt_drop htree)
    · cases htree

end

theorem removeDirectory_meets
    (hanswers : total → path ≠ [] ∧ (world.tree base).children path = [] ∧
      ∃ identity, (world.tree base).entry path = some (.directory identity))
    (h : ∀ identity next, (world.tree base).entry path = some (.directory identity) →
      (world.tree base).children path = [] → EditAt base path none world next →
      Durable next ∧ After next) :
    Meets total (removeDirectory base path) world Durable fun _ ↦ After := by
  refine edit_meets After ?_ ?_
  · intro htotal
    obtain ⟨hpath, hempty, identity, hidentity⟩ := hanswers htotal
    simpa [hidentity] using FileTree.drop_isSome hpath (by simp [hidentity]) hempty
  · intro tree htree
    split at htree
    · next identity hidentity =>
      exact h identity _ hidentity (FileTree.drop_eq_some htree).2.2.1 (editAt_drop htree)
    · cases htree

/-- A rename takes the staged entry away and puts it in its place, in one step. -/
theorem rename_meets {name : String}
    (hanswers : total → path ≠ [] ∧ (base = .control → path ≠ [stagingName, name]) ∧
      (∃ file, world.staged name = some (.file file)) ∧
      (world.tree base).isDirectory path.dropLast ∧
      ∀ identity, (world.tree base).entry path ≠ some (.directory identity))
    (h : ∀ entry between next, world.staged name = some entry →
      EditAt .control [stagingName, name] none world between →
      EditAt base path (some entry) between next → Durable next ∧ After next) :
    Meets total (rename base name path) world Durable fun _ ↦ After := by
  unfold rename
  refine Meets.act ?_ ?_
  · intro htotal
    obtain ⟨hpath, hne, ⟨file, hfile⟩, hparent, hplace⟩ := hanswers htotal
    have hstaged : world.control.entry [stagingName, name] = some (.file file) := hfile
    have hplain : world.control.isDirectory [stagingName, name] = false :=
      not_isDirectory (by simp) (by simp [hstaged])
    have hempty := FileTree.children_of_not_directory hplain
    obtain ⟨control, hcontrol⟩ := FileTree.drop_isSome (by simp) (by simp [hstaged]) hempty
    have hedit : EditAt .control [stagingName, name] none world
        (world.withTree .control control) := editAt_drop hcontrol
    obtain ⟨moved, hmoved⟩ : ∃ moved : World, moved = world.withTree .control control := ⟨_, rfl⟩
    rw [← hmoved] at hedit
    have hdirectory : (moved.tree base).isDirectory path.dropLast := by
      rw [FileTree.isDirectory_iff] at hparent ⊢
      refine hparent.imp_right ?_
      rintro ⟨identity, hidentity⟩
      refine ⟨identity, ?_⟩
      cases base with
      | root => rw [hedit.tree_ne (by decide)]; exact hidentity
      | control =>
        rw [hedit.entry_ne, hidentity]
        intro hsame
        rw [hsame] at hidentity
        have : world.control.entry [stagingName, name] = some (.directory identity) := hidentity
        rw [hstaged] at this
        cases this
    have hfree : (moved.tree base).isDirectory path = false := by
      refine not_isDirectory hpath fun identity ↦ ?_
      cases base with
      | root => rw [hedit.tree_ne (by decide)]; exact hplace identity
      | control => rw [hedit.entry_ne (hne rfl)]; exact hplace identity
    obtain ⟨tree, htree⟩ := FileTree.put_isSome (.file file) hfree hdirectory
    simp [hfile, hcontrol, ← hmoved, htree]
  · intro next hnext
    split at hnext
    · next entry hentry =>
      simp only [Option.bind_eq_bind, Option.bind_eq_some_iff] at hnext
      obtain ⟨control, hcontrol, hrest⟩ := hnext
      obtain ⟨tree, htree, hlast⟩ := hrest
      have hsame := Option.some.inj hlast
      subst hsame
      exact h entry _ _ hentry (editAt_drop hcontrol) (editAt_put htree)
    · cases hnext

end Steps

end AiStp.Installation
