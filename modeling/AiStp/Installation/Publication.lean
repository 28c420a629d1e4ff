import AiStp.Installation.Steps

/-!
# What a publication leaves

`publish_meets` is the contract of `publish`. Any state that it passes differs from the first one in
the file of the change, in directories that were missing on the way to it, and in the one staged
file (`Publishing`); and once it answers, the file is as desired. The contract is total under the
conditions of the section: among them that a file left staged by an earlier run opens for writing.
-/

set_option autoImplicit false

namespace AiStp.Installation

open Foundation Library

open Custody (Identity Stamp)

open Program

/-! ### Observations -/

variable {parents : List (Path × Identity)} {tree : Tree}

/-- Where the walk ends early there is no file. -/
theorem entry_of_walk {here rest : Path} (h : walk tree here rest = some (false, parents)) :
    tree.entry (here ++ rest) = none := by
  induction rest generalizing here parents with
  | nil => cases h
  | cons name rest ih =>
    cases rest with
    | nil => simp [walk] at h
    | cons next rest =>
      have hsplit : here ++ name :: next :: rest = (here ++ [name]) ++ next :: rest := by simp
      rw [walk] at h
      rw [hsplit]
      split at h
      · next identity _ =>
        obtain ⟨found, hfound, hlast⟩ := Option.map_eq_some_iff.mp h
        have hfalse : found = (false, found.2) := by
          rw [← (Prod.mk.inj hlast).1]
        exact ih (hfalse ▸ hfound)
      · next hnone =>
        have hplain : tree.isDirectory (here ++ [name]) = false :=
          not_isDirectory (by simp) (by simp [hnone])
        exact FileTree.entry_append_eq_none (by simp) hplain
      · cases h

variable {path : Path}

theorem observeFile_eq_some {system : System} {observed : Observation × Option Content} :
    observeFile system tree path = some observed ↔
      system.validPath path = true ∧ ∃ found parents file,
        walk tree [] path = some (found, parents) ∧ readFile (tree.entry path) = some file ∧
          observed = ({ parents := parents, file := file.map (File.stamp system) },
            file.map File.content) := by
  unfold observeFile
  simp only [Option.bind_eq_bind, Option.bind_eq_some_iff, Option.guard_eq_some', Option.some.injEq,
    Prod.exists]
  constructor
  · rintro ⟨_, hvalid, found, parents, hwalk, file, hfile, rfl⟩
    refine ⟨hvalid, found, parents, file, hwalk, ?_, rfl⟩
    cases found with
    | true => exact hfile
    | false =>
      have hnone : tree.entry path = none := entry_of_walk hwalk
      simpa [hnone] using hfile
  · rintro ⟨hvalid, found, parents, file, hwalk, hfile, rfl⟩
    refine ⟨(), hvalid, found, parents, hwalk, file, ?_, rfl⟩
    cases found with
    | true => exact hfile
    | false =>
      have hnone : tree.entry path = none := entry_of_walk hwalk
      simpa [hnone] using hfile

theorem ne_nil_of_observeFile {system : System} {observed : Observation × Option Content}
    (h : observeFile system tree path = some observed) : path ≠ [] := by
  have hvalid := (observeFile_eq_some.mp h).1
  simp only [System.validPath, Bool.and_eq_true] at hvalid
  exact ne_nil_of_safePath hvalid.1

/-- An entry is the desired file, or is absent as desired. -/
def Holds (entry : Option Entry) : Option Content → Prop
  | none => entry = none
  | some content =>
    ∃ identity, entry = some (.file
      { identity := identity, bytes := content.bytes, mode := content.mode })

variable {entry : Option Entry}

theorem readFile_of_holds {after : Option Content}
    (hvalid : ∀ content ∈ after, content.validate = true) (h : Holds entry after) :
    ∃ file, readFile entry = some file ∧ file.map File.content = after := by
  cases after with
  | none =>
    have hnone : entry = none := h
    exact ⟨none, by rw [hnone]; rfl, rfl⟩
  | some content =>
    obtain ⟨identity, rfl⟩ := h
    have hcontent := hvalid content rfl
    simp only [Content.validate, Bool.and_eq_true, decide_eq_true_eq] at hcontent
    refine ⟨some { identity := identity, bytes := content.bytes, mode := content.mode }, ?_, rfl⟩
    simp [readFile, File.readable, hcontent.1.1, hcontent.2]

theorem sameContent_stamp {system : System} {file : Option File} :
    sameContent system (file.map (File.stamp system)) (file.map File.content) = true := by
  cases file <;> simp [sameContent, File.stamp, File.content]

/-! ### Making the directories -/

/-- Missing directories were made on the way from `here` to the last part of `rest`. -/
structure Made (base : Base) (here rest : Path) (world next : World) : Prop where
  store : next.store = world.store
  tree_ne : ∀ other, other ≠ base → next.tree other = world.tree other
  entry : ∀ path, (next.tree base).entry path = (world.tree base).entry path ∨
    (world.tree base).entry path = none ∧
      (∃ identity, (next.tree base).entry path = some (.directory identity)) ∧
      path ≠ [] ∧ path <+: here ++ rest.dropLast

theorem Made.refl {base : Base} {here rest : Path} {world : World} :
    Made base here rest world world :=
  ⟨rfl, fun _ _ ↦ rfl, fun _ ↦ .inl rfl⟩

variable {next : World}

/-- What is there when directories are made stays. -/
theorem Made.entry_of_some {base : Base} {here rest : Path} {world : World} {entry : Entry}
    (h : Made base here rest world next) (hentry : (world.tree base).entry path = some entry) :
    (next.tree base).entry path = some entry := by
  rcases h.entry path with hsame | ⟨hnone, -, -⟩
  · rw [hsame, hentry]
  · rw [hentry] at hnone
    cases hnone

theorem Made.trans {base : Base} {here rest : Path} {world between : World}
    (hfirst : Made base here rest world between) (hsecond : Made base here rest between next) :
    Made base here rest world next where
  store := hsecond.store.trans hfirst.store
  tree_ne other hother := (hsecond.tree_ne other hother).trans (hfirst.tree_ne other hother)
  entry path := by
    rcases hfirst.entry path with hsame | ⟨hnone, ⟨identity, hmade⟩, hplace⟩
    · rw [← hsame]
      exact hsecond.entry path
    · right
      exact ⟨hnone, ⟨identity, hsecond.entry_of_some hmade⟩, hplace⟩

/-- One directory was made, or it was there. -/
structure Ensured (base : Base) (path : Path) (world next : World) : Prop where
  store : next.store = world.store
  tree_ne : ∀ other, other ≠ base → next.tree other = world.tree other
  entry_ne : ∀ other, other ≠ path → (next.tree base).entry other = (world.tree base).entry other
  entry_self : (next.tree base).entry path = (world.tree base).entry path ∨
    (world.tree base).entry path = none ∧
      ∃ identity, (next.tree base).entry path = some (.directory identity)

theorem ensureDirectory_meets {total : Prop} {system : System} {base : Base} {world : World}
    (hanswers : total → path ≠ [] ∧ (world.tree base).isDirectory path.dropLast ∧
      ∀ entry, (world.tree base).entry path = some entry → entry.isDirectory = true) :
    Meets total (ensureDirectory system base path ((world.tree base).entry path)) world
      (Ensured base path world)
      fun identity next ↦ Ensured base path world next ∧
        (next.tree base).entry path = some (.directory identity) := by
  have hself : Ensured base path world world :=
    ⟨rfl, fun _ _ ↦ rfl, fun _ _ ↦ rfl, .inl rfl⟩
  cases hentry : (world.tree base).entry path with
  | none =>
    have hmade : ∀ next, EditAt base path (some (.directory (system.allocate world))) world next →
        Ensured base path world next := by
      intro next hedit
      refine ⟨hedit.store, fun other hother ↦ hedit.tree_ne hother, fun other hother ↦ ?_, ?_⟩
      · exact hedit.entry_ne hother
      · exact .inr ⟨hentry, _, hedit.entry_self⟩
    have hcreate : Meets total (createDirectory system base path) world
        (Ensured base path world) fun _ next ↦ Ensured base path world next ∧
          ∃ identity, (next.tree base).entry path = some (.directory identity) := by
      refine createDirectory_meets
        (fun next ↦ Ensured base path world next ∧
          ∃ identity, (next.tree base).entry path = some (.directory identity)) ?_ ?_
      · intro htotal
        exact ⟨hentry, (hanswers htotal).1, (hanswers htotal).2.1⟩
      · intro next _ hedit
        exact ⟨hmade next hedit, hmade next hedit, _, hedit.entry_self⟩
    refine hcreate.bind ?_
    rintro _ next ⟨hnext, identity, hidentity⟩
    exact Meets.look_some (by simp only [hidentity]) ⟨hnext, hidentity⟩
  | some entry =>
    cases entry with
    | directory identity => exact Meets.pure ⟨hself, hentry⟩
    | file file =>
      refine Meets.refuse ?_
      intro htotal
      have := (hanswers htotal).2.2 _ hentry
      cases this
    | other =>
      refine Meets.refuse ?_
      intro htotal
      have := (hanswers htotal).2.2 _ hentry
      cases this

/-- Where nothing lies below a directory the walk through it ends early. -/
theorem walk_isSome_of_empty {here rest : Path} (hrest : rest ≠ [])
    (h : ∀ path, path ≠ [] → tree.entry (here ++ path) = none) : (walk tree here rest).isSome := by
  cases rest with
  | nil => exact absurd rfl hrest
  | cons name rest =>
    cases rest with
    | nil => rfl
    | cons next rest =>
      rw [walk, h [name] (by simp)]
      rfl

/-- The walk does not read the entry that it leads to. -/
theorem walk_congr_ne {first second : Tree} {here rest : Path}
    (h : ∀ path, path ≠ here ++ rest → first.entry path = second.entry path) :
    walk first here rest = walk second here rest := by
  induction rest generalizing here with
  | nil => rfl
  | cons name rest ih =>
    cases rest with
    | nil => rfl
    | cons next rest =>
      have hbelow : walk first (here ++ [name]) (next :: rest) =
          walk second (here ++ [name]) (next :: rest) := by
        refine ih fun path hpath ↦ h path ?_
        simpa using hpath
      rw [walk, walk, h (here ++ [name]) (by simp), hbelow]

theorem isDirectory_of_walk {here rest : Path} (hhere : tree.isDirectory here = true)
    (h : walk tree here rest = some (true, parents)) :
    tree.isDirectory (here ++ rest.dropLast) = true := by
  induction rest generalizing here parents with
  | nil => cases h
  | cons name rest ih =>
    cases rest with
    | nil => simpa using hhere
    | cons next rest =>
      rw [walk] at h
      split at h
      · next identity hidentity =>
        obtain ⟨found, hfound, hlast⟩ := Option.map_eq_some_iff.mp h
        have htrue : found = (true, found.2) := by rw [← (Prod.mk.inj hlast).1]
        have hdirectory : tree.isDirectory (here ++ [name]) = true :=
          FileTree.isDirectory_iff.mpr (.inr ⟨identity, hidentity⟩)
        simpa using ih hdirectory (htrue ▸ hfound)
      · cases h
      · cases h

/-- The walk reads only what lies below its start. -/
theorem walk_congr {first second : Tree} {here rest : Path}
    (h : ∀ path, path ≠ [] → first.entry (here ++ path) = second.entry (here ++ path)) :
    walk first here rest = walk second here rest := by
  induction rest generalizing here with
  | nil => rfl
  | cons name rest ih =>
    cases rest with
    | nil => rfl
    | cons next rest =>
      have hbelow : walk first (here ++ [name]) (next :: rest) =
          walk second (here ++ [name]) (next :: rest) := by
        refine ih fun path _ ↦ ?_
        have := h (name :: path) (by simp)
        simpa using this
      rw [walk, walk, h [name] (by simp), hbelow]

theorem makeParents_meets {total : Prop} {system : System} {base : Base} {rest here : Path}
    {world : World} (hanswers : total → (walk (world.tree base) here rest).isSome ∧
      (world.tree base).isDirectory here) :
    Meets total (makeParents system base here rest) world (Made base here rest world)
      fun parents next ↦ Made base here rest world next ∧
        walk (next.tree base) here rest = some (true, parents) := by
  induction rest generalizing here world with
  | nil =>
    refine Meets.refuse fun htotal ↦ ?_
    have := (hanswers htotal).1
    cases this
  | cons name rest ih =>
    cases rest with
    | nil => exact Meets.pure ⟨Made.refl, rfl⟩
    | cons next rest =>
      have hwiden : ∀ {first last : World}, Made base (here ++ [name]) (next :: rest) first last →
          Made base here (name :: next :: rest) first last := by
        intro first last hmade
        refine ⟨hmade.store, hmade.tree_ne, fun path ↦ ?_⟩
        refine (hmade.entry path).imp_right fun hnew ↦ ⟨hnew.1, hnew.2.1, hnew.2.2.1, ?_⟩
        simpa using hnew.2.2.2
      have hensured : ∀ {last : World}, Ensured base (here ++ [name]) world last →
          Made base here (name :: next :: rest) world last := by
        intro last hlast
        refine ⟨hlast.store, hlast.tree_ne, fun path ↦ ?_⟩
        by_cases hpath : path = here ++ [name]
        · subst hpath
          refine hlast.entry_self.imp_right fun hnew ↦ ⟨hnew.1, hnew.2, by simp, ?_⟩
          exact ⟨(next :: rest).dropLast, by simp⟩
        · exact .inl (hlast.entry_ne path hpath)
      rw [makeParents]
      refine Meets.look_bind (fun _ ↦ rfl) ?_
      intro entry hentry
      obtain rfl := Option.some.inj hentry
      have hplace : total → here ++ [name] ≠ [] ∧
          (world.tree base).isDirectory (here ++ [name]).dropLast ∧
          ∀ entry, (world.tree base).entry (here ++ [name]) = some entry →
            entry.isDirectory = true := by
        intro htotal
        obtain ⟨hwalk, hhere⟩ := hanswers htotal
        refine ⟨by simp, by simpa using hhere, fun entry hentry ↦ ?_⟩
        rw [walk, hentry] at hwalk
        cases entry with
        | directory identity => rfl
        | file file => cases hwalk
        | other => cases hwalk
      refine ((ensureDirectory_meets hplace).mono (fun _ ↦ hensured) (fun _ _ h ↦ h)).bind ?_
      rintro identity made ⟨hmade, hidentity⟩
      have hbelow : walk (made.tree base) (here ++ [name]) (next :: rest) =
          walk (world.tree base) (here ++ [name]) (next :: rest) := by
        refine walk_congr fun path hpath ↦ hmade.entry_ne _ ?_
        simpa using hpath
      have hrest : total → (walk (made.tree base) (here ++ [name]) (next :: rest)).isSome ∧
          (made.tree base).isDirectory (here ++ [name]) := by
        intro htotal
        refine ⟨?_, FileTree.isDirectory_iff.mpr (.inr ⟨identity, hidentity⟩)⟩
        rw [hbelow]
        rcases hmade.entry_self with hsame | ⟨hnone, -⟩
        · have hwalk := (hanswers htotal).1
          rw [walk, ← hsame, hidentity] at hwalk
          simpa using hwalk
        · refine walk_isSome_of_empty (by simp) fun path hpath ↦ ?_
          exact FileTree.entry_append_eq_none hpath (not_isDirectory (by simp) (by simp [hnone]))
      have hfirst := hensured hmade
      refine ((ih hrest).mono (fun _ hlast ↦ hfirst.trans (hwiden hlast)) (fun _ _ h ↦ h)).bind ?_
      rintro parents last ⟨hlast, hparents⟩
      refine Meets.pure ⟨hfirst.trans (hwiden hlast), ?_⟩
      rw [walk, hlast.entry_of_some hidentity, hparents]
      rfl

/-- `parent` finds all directories, those that it made among them. -/
theorem parent_meets {total : Prop} {system : System} {base : Base} {create : Bool} {world : World}
    (hanswers : total → ∃ found parents, walk (world.tree base) [] path = some (found, parents) ∧
      (create = false → found = true)) :
    Meets total (parent system base path create) world
      (fun next ↦ Made base [] path world next ∧ create = true)
      fun parents next ↦ Made base [] path world next ∧ (create = false → next = world) ∧
        walk (next.tree base) [] path = some (true, parents) := by
  unfold parent
  cases create with
  | true =>
    refine (makeParents_meets ?_).mono (fun _ h ↦ ⟨h, rfl⟩) ?_
    · intro htotal
      obtain ⟨found, parents, hwalk, -⟩ := hanswers htotal
      exact ⟨by simp [hwalk], FileTree.isDirectory_iff.mpr (.inl rfl)⟩
    · rintro parents next ⟨hmade, hparents⟩
      exact ⟨hmade, by simp, hparents⟩
  | false =>
    refine Meets.look ?_ ?_
    · intro htotal
      obtain ⟨found, parents, hwalk, hfound⟩ := hanswers htotal
      obtain rfl := hfound rfl
      simp [hwalk, guard]
    · intro parents hparents
      simp only [Option.bind_eq_bind, Option.bind_eq_some_iff, Option.guard_eq_some',
        Option.some.injEq, Prod.exists] at hparents
      obtain ⟨found, given, hwalk, _, rfl, rfl⟩ := hparents
      exact ⟨Made.refl, fun _ ↦ rfl, hwalk⟩

/-! ### Staging -/

/-- The access bits of the staged file when it is opened. -/
def stagedMode (world : World) (name : String) : Nat :=
  match world.staged name with
  | some (.file file) => file.mode
  | _ => 0o600

/-- The staged file holds the first bytes of the content, or all of it with its access bits. -/
def Staged (name : String) (content : Content) (mode : Nat) (world : World) : Prop :=
  ∃ file, world.staged name = some (.file file) ∧
    (file.bytes <+: content.bytes ∧ file.mode = mode ∨
      file.bytes = content.bytes ∧ file.mode = content.mode)

/-- Two worlds differ in one staged file only. -/
structure SameButStaged (name : String) (world next : World) : Prop where
  store : next.store = world.store
  root : next.root = world.root
  control : ∀ path, path ≠ [stagingName, name] →
    next.control.entry path = world.control.entry path

theorem SameButStaged.refl {name : String} {world : World} : SameButStaged name world world :=
  ⟨rfl, rfl, fun _ _ ↦ rfl⟩

theorem SameButStaged.edit {name : String} {world between : World}
    (h : SameButStaged name world between)
    (hedit : EditAt .control [stagingName, name] entry between next) :
    SameButStaged name world next where
  store := hedit.store.trans h.store
  root := hedit.root.trans h.root
  control path hpath := (hedit.entry_ne hpath).trans (h.control path hpath)

/-- The staged file while it is written. -/
structure Writing (name : String) (mode : Nat) (bytes : List UInt8) (world next : World) :
    Prop where
  same : SameButStaged name world next
  staged : ∃ identity, next.staged name = some (.file
    { identity := identity, bytes := bytes, mode := mode })

variable {bytes : List UInt8}

theorem Writing.edit {name : String} {mode : Nat} (change : File → File) {file : File}
    {world between : World} (h : SameButStaged name world between)
    (hmode : (change file).mode = mode) (hbytes : (change file).bytes = bytes)
    (hedit : EditAt .control [stagingName, name] (some (.file (change file))) between next) :
    Writing name mode bytes world next where
  same := h.edit hedit
  staged := by
    refine ⟨(change file).identity, ?_⟩
    rw [← hmode, ← hbytes]
    exact hedit.entry_self

variable {content : Content}

theorem Writing.staged_prefix {name : String} {mode : Nat} {world : World}
    (h : Writing name mode bytes world next) (hbytes : bytes <+: content.bytes) :
    Staged name content mode next := by
  obtain ⟨identity, hstaged⟩ := h.staged
  exact ⟨_, hstaged, .inl ⟨hbytes, rfl⟩⟩

/-- What a staged file must be for `stage` to write it. -/
structure Stageable (system : System) (name : String) (content : Content) (world : World) :
    Prop where
  directory : world.control.isDirectory [stagingName] = true
  file : ∀ entry, world.staged name = some entry → ∃ file, entry = .file file ∧
    file.readable = true ∧ file.bytes.length ≤ fileLimit ∧ file.bytes <+: content.bytes ∧
      file.writable = true

theorem openStaged_meets {total : Prop} {system : System} {name : String} {world : World}
    {previous : Option File} (hprevious : readFile (world.staged name) = some previous)
    (hextends : ∀ file ∈ previous, file.bytes <+: content.bytes)
    (hanswers : total → Stageable system name content world) :
    Meets total (openStaged system name previous) world
      (fun next ↦ SameButStaged name world next ∧
        Staged name content (stagedMode world name) next)
      fun _ next ↦ SameButStaged name world next ∧
        ∃ file, next.staged name = some (.file file) ∧ file.mode = stagedMode world name := by
  cases previous with
  | none =>
    have hnone : world.staged name = none := by
      cases hstaged : world.staged name with
      | none => rfl
      | some entry =>
        exfalso
        rw [hstaged] at hprevious
        cases entry with
        | file file =>
          simp only [readFile] at hprevious
          split_ifs at hprevious
          cases hprevious
        | directory identity => cases hprevious
        | other => cases hprevious
    have hmode : stagedMode world name = 0o600 := by rw [stagedMode, hnone]
    refine createFile_meets (fun next ↦ SameButStaged name world next ∧
        ∃ file, next.staged name = some (.file file) ∧ file.mode = stagedMode world name) ?_ ?_
    · intro htotal
      exact ⟨hnone, by simp, (hanswers htotal).directory⟩
    · intro next _ hedit
      have hsame : SameButStaged name world next := SameButStaged.refl.edit hedit
      have hstaged : next.staged name = some (.file (emptyFile system world)) := hedit.entry_self
      refine ⟨⟨hsame, _, hstaged, .inl ⟨?_, ?_⟩⟩, hsame, _, hstaged, ?_⟩
      · exact List.nil_prefix
      · exact hmode.symm
      · exact hmode.symm
  | some file =>
    have hstaged : world.staged name = some (.file file) := by
      unfold readFile at hprevious
      split at hprevious
      · cases hprevious
      · next held hheld =>
        split_ifs at hprevious with hread
        rw [hheld, Option.some.inj (Option.some.inj hprevious)]
      · cases hprevious
    refine Meets.need ?_ ?_
    · intro htotal
      obtain ⟨held, hheld, -, -, -, hwritable⟩ := (hanswers htotal).file _ hstaged
      cases hheld
      exact hwritable
    · intro _
      exact ⟨SameButStaged.refl, file, hstaged, by rw [stagedMode, hstaged]⟩

theorem writeBytes_meets {total : Prop} {name : String} {mode : Nat} {world start : World}
    (hstart : Writing name mode [] world start) :
    Meets total (writeBytes name bytes) start
      (fun next ↦ ∃ count, Writing name mode (bytes.take count) world next)
      fun _ next ↦ Writing name mode bytes world next := by
  have hloop : Meets total (writeBytes name bytes) start
      (fun next ↦ ∃ count, Writing name mode (bytes.take count) world next)
      fun _ next ↦ Writing name mode (bytes.take (List.range bytes.length).length) world next := by
    refine Meets.forEach
      (fun before next ↦ Writing name mode (bytes.take before.length) world next)
      (by simpa using hstart) ?_
    intro before count after hitems state hstate
    have hcount : count = before.length := by
      have hget : (List.range bytes.length)[before.length]? = some count := by simp [hitems]
      have := List.getElem?_eq_some_iff.mp hget
      obtain ⟨hlt, hvalue⟩ := this
      simpa using hvalue.symm
    obtain ⟨identity, hfile⟩ := hstate.staged
    refine changeFile_meets
      (fun next ↦ Writing name mode (bytes.take (before ++ [count]).length) world next) ?_ ?_
    · intro _
      exact ⟨by simp, _, hfile⟩
    · intro file next hheld hedit
      have hsame : file = { identity := identity, bytes := bytes.take before.length, mode := mode } := by
        have : state.control.entry [stagingName, name] = some (.file file) := hheld
        have hboth := this.symm.trans hfile
        simpa using hboth
      subst hsame
      have hwriting : Writing name mode (bytes.take (count + 1)) world next :=
        Writing.edit ({ · with bytes := bytes.take (count + 1) }) hstate.same rfl rfl hedit
      refine ⟨⟨_, hwriting⟩, ?_⟩
      simpa [hcount] using hwriting
  refine hloop.mono (fun _ h ↦ h) ?_
  intro _ next hnext
  simpa using hnext

theorem stage_meets {total : Prop} {system : System} {name : String} {world : World}
    (hanswers : total → Stageable system name content world) :
    Meets total (stage system name content) world
      (fun next ↦ SameButStaged name world next ∧
        Staged name content (stagedMode world name) next)
      fun _ next ↦ SameButStaged name world next ∧ Holds (next.staged name) (some content) := by
  refine Meets.look_bind ?_ ?_
  · intro htotal
    cases hstaged : world.staged name with
    | none => rfl
    | some entry =>
      obtain ⟨file, rfl, hread, hlength, -⟩ := (hanswers htotal).file entry hstaged
      simp [readFile, hread, hlength]
  intro previous hprevious
  refine Meets.need_bind ?_ ?_
  · intro htotal file hfile
    have hstaged := hprevious
    cases hentry : world.staged name with
    | none =>
      rw [hentry] at hprevious
      have : previous = none := (Option.some.inj hprevious).symm
      rw [this] at hfile
      cases hfile
    | some entry =>
      obtain ⟨held, rfl, hread, hlength, hextends, -⟩ := (hanswers htotal).file entry hentry
      rw [hentry, readFile, if_pos ⟨hread, hlength⟩] at hprevious
      have : some held = some file := (Option.some.inj hprevious).trans hfile
      rwa [← Option.some.inj this]
  intro hextends
  refine (openStaged_meets hprevious hextends hanswers).bind ?_
  rintro _ opened ⟨hopened, held, hheld, hmode⟩
  have hshrink : Meets total
      (changeFile .control [stagingName, name] ({ · with bytes := [] })) opened
      (fun next ↦ SameButStaged name world next ∧
        Staged name content (stagedMode world name) next)
      fun _ next ↦ Writing name (stagedMode world name) [] world next := by
    refine changeFile_meets (fun next ↦ Writing name (stagedMode world name) [] world next) ?_ ?_
    · exact fun _ ↦ ⟨by simp, held, hheld⟩
    · intro file next hfile hedit
      have hsame : file = held := by
        have : some (TreeEntry.file file) = some (.file held) := hfile.symm.trans hheld
        simpa using this
      have hwriting : Writing name (stagedMode world name) [] world next :=
        Writing.edit ({ · with bytes := [] }) hopened (by rw [hsame]; exact hmode) rfl hedit
      exact ⟨⟨hwriting.same, hwriting.staged_prefix List.nil_prefix⟩, hwriting⟩
  refine hshrink.bind ?_
  intro _ empty hempty
  refine ((writeBytes_meets hempty).mono ?_ (fun _ _ h ↦ h)).bind ?_
  · rintro next ⟨count, hwriting⟩
    exact ⟨hwriting.same, hwriting.staged_prefix (List.take_prefix _ _)⟩
  intro _ written hwritten
  obtain ⟨identity, hfile⟩ := hwritten.staged
  refine changeFile_meets
    (fun next ↦ SameButStaged name world next ∧ Holds (next.staged name) (some content)) ?_ ?_
  · exact fun _ ↦ ⟨by simp, _, hfile⟩
  · intro file next hheld hedit
    have hsame : file = ⟨identity, content.bytes, stagedMode world name⟩ := by
      have : some (TreeEntry.file file) = some (.file _) := hheld.symm.trans hfile
      simpa using this
    subst hsame
    have hstaged : next.staged name = some (.file ⟨identity, content.bytes, content.mode⟩) :=
      hedit.entry_self
    exact ⟨⟨hwritten.same.edit hedit, _, hstaged, .inr ⟨rfl, rfl⟩⟩, hwritten.same.edit hedit,
      identity, hstaged⟩

/-! ### Publication -/

/-- What a publication may leave where it stops: the file is as it was and its content may be
staged, or the file is as desired and nothing is staged for it. -/
structure Publishing (base : Base) (name : String) (change : Change) (world next : World) :
    Prop where
  store : next.store = world.store
  rootSame : base = .control → next.root = world.root
  control : ∀ path, path ≠ [stagingName, name] → (base = .control → path ≠ change.path) →
    next.control.entry path = world.control.entry path
  root : base = .root → ∀ path, path ≠ change.path →
    next.root.entry path = world.root.entry path ∨
      world.root.entry path = none ∧
        (∃ identity, next.root.entry path = some (.directory identity)) ∧
        path ≠ [] ∧ path <+: change.path.dropLast ∧ change.after.isSome
  file : (next.tree base).entry change.path = (world.tree base).entry change.path ∧
      (next.staged name = world.staged name ∨
        ∃ content, change.after = some content ∧
          Staged name content (stagedMode world name) next) ∨
    Holds ((next.tree base).entry change.path) change.after ∧
      (change.after.isSome → next.staged name = none) ∧
      (change.after = none → next.staged name = world.staged name)

section Publish

variable {system : System} {base : Base} {name : String} {change : Change}

/-- A file of the control directory that is published lies directly in it. -/
def Placed (base : Base) (path : Path) : Prop :=
  path ≠ [] ∧ (base = .control → path = [journalFileName])

theorem ne_prefix_dropLast (hpath : path ≠ []) : ¬ path <+: path.dropLast := by
  intro h
  have hlength := h.length_le
  have hpositive := List.length_pos_iff.mpr hpath
  rw [List.length_dropLast] at hlength
  omega

theorem journal_ne_staged : [journalFileName] ≠ [stagingName, name] := by simp

/-- The directories that are made leave the control tree alone. -/
theorem Made.control {world : World} (hplaced : Placed base path) (h : Made base [] path world next)
    (other : Path) : next.control.entry other = world.control.entry other := by
  cases base with
  | root => rw [show next.control = world.control from h.tree_ne .control (by decide)]
  | control =>
    rcases h.entry other with hsame | ⟨-, -, hne, hextends⟩
    · exact hsame
    · rw [hplaced.2 rfl] at hextends
      exact absurd (List.prefix_nil.mp hextends) hne

theorem Made.staged {world : World} (hplaced : Placed base path)
    (h : Made base [] path world next) : next.staged name = world.staged name :=
  h.control hplaced _

theorem Made.file {world : World} (hplaced : Placed base path) (h : Made base [] path world next) :
    (next.tree base).entry path = (world.tree base).entry path := by
  rcases h.entry path with hsame | ⟨-, -, -, hextends⟩
  · exact hsame
  · exact absurd hextends (ne_prefix_dropLast hplaced.1)

variable (hplaced : Placed base change.path)

include hplaced in
/-- A publication that made directories and staged a part of the content. -/
theorem Publishing.of_staged {world made : World} (hmade : Made base [] change.path world made)
    (hafter : change.after = none → made = world) (hsame : SameButStaged name made next)
    (hstaged : next.staged name = made.staged name ∨ ∃ content, change.after = some content ∧
      Staged name content (stagedMode made name) next) :
    Publishing base name change world next where
  store := hsame.store.trans hmade.store
  rootSame := by
    rintro rfl
    exact hsame.root.trans (hmade.tree_ne .root (by decide))
  control path hpath _ := (hsame.control path hpath).trans (hmade.control hplaced path)
  root := by
    rintro rfl path hpath
    rw [hsame.root]
    refine (hmade.entry path).imp_right fun hnew ↦ ⟨hnew.1, hnew.2.1, hnew.2.2.1, hnew.2.2.2, ?_⟩
    by_contra hnone
    have hworld := hafter (Option.not_isSome_iff_eq_none.mp hnone)
    obtain ⟨hnone, ⟨identity, hidentity⟩, -⟩ := hnew
    rw [hworld, hnone] at hidentity
    cases hidentity
  file := by
    left
    constructor
    · rw [← hmade.file hplaced]
      cases base with
      | root => rw [show next.tree .root = made.tree .root from hsame.root]
      | control =>
        rw [hplaced.2 rfl]
        exact hsame.control _ journal_ne_staged
    · have hmode : stagedMode made name = stagedMode world name := by
        rw [stagedMode, stagedMode, hmade.staged hplaced]
      rw [← hmade.staged hplaced, ← hmode]
      exact hstaged

theorem staged_of_renamed {staged between : World} (hplaced : Placed base path)
    (hgone : EditAt .control [stagingName, name] none staged between)
    (hput : EditAt base path entry between next) : next.staged name = none := by
  cases base with
  | root =>
    rw [World.staged, hput.control]
    exact hgone.entry_self
  | control =>
    have hne : [stagingName, name] ≠ path := by
      rw [hplaced.2 rfl]
      exact journal_ne_staged.symm
    exact (hput.entry_ne hne).trans hgone.entry_self

include hplaced in
/-- A publication that renamed the staged file into its place. -/
theorem Publishing.of_renamed {world made staged between : World} {entry : Entry}
    (hafter : change.after = some content) (hmade : Made base [] change.path world made)
    (hsame : SameButStaged name made staged)
    (hgone : EditAt .control [stagingName, name] none staged between)
    (hput : EditAt base change.path (some entry) between next)
    (hholds : Holds (some entry) (some content)) : Publishing base name change world next where
  store := hput.store.trans (hgone.store.trans (hsame.store.trans hmade.store))
  rootSame := by
    rintro rfl
    rw [hput.root, hgone.root, hsame.root]
    exact hmade.tree_ne .root (by decide)
  control path hpath hother := by
    rw [← hmade.control hplaced, ← hsame.control path hpath]
    have hleft : between.control.entry path = staged.control.entry path := hgone.entry_ne hpath
    rw [← hleft]
    cases base with
    | root => rw [hput.control]
    | control => exact hput.entry_ne (hother rfl)
  root := by
    rintro rfl path hpath
    have hkept : next.root.entry path = made.root.entry path := by
      rw [show next.root.entry path = between.root.entry path from hput.entry_ne hpath, hgone.root,
        hsame.root]
    rw [hkept]
    refine (hmade.entry path).imp_right fun hnew ↦ ⟨hnew.1, hnew.2.1, hnew.2.2.1, hnew.2.2.2, ?_⟩
    simp [hafter]
  file := by
    right
    refine ⟨?_, fun _ ↦ staged_of_renamed hplaced hgone hput, fun hnone ↦ ?_⟩
    · rw [hput.entry_self, hafter]
      exact hholds
    · rw [hafter] at hnone
      cases hnone

include hplaced in
/-- A publication that removed its file. -/
theorem Publishing.of_removed {world : World} (hafter : change.after = none)
    (hgone : EditAt base change.path none world next) :
    Publishing base name change world next where
  store := hgone.store
  rootSame := by
    rintro rfl
    exact hgone.root
  control path hpath hother := by
    cases base with
    | root => rw [hgone.control]
    | control => exact hgone.entry_ne (hother rfl)
  root := by
    rintro rfl path hpath
    exact .inl (hgone.entry_ne hpath)
  file := by
    right
    refine ⟨?_, fun hsome ↦ ?_, fun _ ↦ ?_⟩
    · rw [hgone.entry_self, hafter]
      rfl
    · rw [hafter] at hsome
      cases hsome
    · cases base with
      | root => rw [World.staged, hgone.control]; rfl
      | control =>
        have hne : [stagingName, name] ≠ change.path := by
          rw [hplaced.2 rfl]
          exact journal_ne_staged.symm
        exact hgone.entry_ne hne

/-- What lets a publication succeed: the file is as the change observed it, or as desired already,
and what is staged for it can be written. -/
structure Publishable (system : System) (base : Base) (name : String) (change : Change)
    (world : World) : Prop where
  observed : ∃ now, observeFile system (world.tree base) change.path = some now ∧
    change.before.within now.1 = true ∧
    (sameContent system now.1.file change.after = true ∨ now.1.file = change.before.file)
  stageable : ∀ content, change.after = some content → Stageable system name content world

/-- What the answer of a publication says. -/
def PublishedBy (system : System) (base : Base) (name : String) (change : Change)
    (world next : World) : Prop :=
  next = world ∧ (∃ now, observeFile system (world.tree base) change.path = some now ∧
      sameContent system now.1.file change.after = true) ∨
    Publishing base name change world next ∧
      Holds ((next.tree base).entry change.path) change.after ∧
      (change.after.isSome → next.staged name = none)

include hplaced in
/-- The second observation, before the replacement. -/
theorem observeFile_made {world made staged : World} {now : Observation × Option Content}
    (hnow : observeFile system (world.tree base) change.path = some now)
    (hmade : Made base [] change.path world made)
    (hparents : walk (made.tree base) [] change.path = some (true, parents))
    (hsame : SameButStaged name made staged) :
    ∃ checked, observeFile system (staged.tree base) change.path = some checked ∧
      checked.1.file = now.1.file ∧ checked.1.parents = parents ∧
      readFile ((staged.tree base).entry change.path) =
        readFile ((world.tree base).entry change.path) ∧
      walk (staged.tree base) [] change.path = some (true, parents) := by
  obtain ⟨hvalid, found, before, file, hwalk, hfile, rfl⟩ := observeFile_eq_some.mp hnow
  have hentry : (staged.tree base).entry change.path = (world.tree base).entry change.path := by
    rw [← hmade.file hplaced]
    cases base with
    | root => rw [show staged.tree .root = made.tree .root from hsame.root]
    | control =>
      rw [hplaced.2 rfl]
      exact hsame.control _ journal_ne_staged
  have hstaged : walk (staged.tree base) [] change.path = some (true, parents) := by
    cases base with
    | root => rw [show staged.tree .root = made.tree .root from hsame.root, hparents]
    | control =>
      rw [hplaced.2 rfl] at hparents ⊢
      exact hparents
  refine ⟨_, observeFile_eq_some.mpr ⟨hvalid, true, parents, file, hstaged, ?_, rfl⟩, rfl, rfl, ?_,
    hstaged⟩
  · rw [hentry, hfile]
  · rw [hentry]

include hplaced in
/-- The last observation, after the replacement. -/
theorem observeFile_replaced {staged : World} (hvalid : system.validPath change.path = true)
    (hcontent : ∀ content ∈ change.after, content.validate = true)
    (hwalk : walk (staged.tree base) [] change.path = some (true, parents))
    (hroot : base = .root → ∀ path, path ≠ change.path →
      next.root.entry path = staged.root.entry path)
    (hentry : (next.tree base).entry change.path = entry) (hholds : Holds entry change.after) :
    ∃ after, observeFile system (next.tree base) change.path = some after ∧
      after.1.parents = parents ∧ sameContent system after.1.file change.after = true := by
  obtain ⟨file, hfile, hsame⟩ := readFile_of_holds hcontent hholds
  have hnext : walk (next.tree base) [] change.path = some (true, parents) := by
    cases base with
    | root =>
      rw [← hwalk]
      exact walk_congr_ne fun path hpath ↦ hroot rfl path (by simpa using hpath)
    | control =>
      rw [hplaced.2 rfl] at hwalk ⊢
      exact hwalk
  refine ⟨_, observeFile_eq_some.mpr ⟨hvalid, true, parents, file, hnext, ?_, rfl⟩, rfl, ?_⟩
  · rw [hentry, hfile]
  · rw [← hsame]
    exact sameContent_stamp

variable {total : Prop} {world : World}

include hplaced in
theorem stageAfter_meets {made : World} (hmade : Made base [] change.path world made)
    (hafter : change.after = none → made = world)
    (hanswers : total → ∀ content, change.after = some content → Stageable system name content made) :
    Meets total (stageAfter system name change.after) made (Publishing base name change world)
      fun _ next ↦ SameButStaged name made next ∧
        (∀ content, change.after = some content → Holds (next.staged name) (some content)) ∧
        (change.after = none → next = made) := by
  cases hcontent : change.after with
  | none => exact Meets.pure ⟨SameButStaged.refl, by simp, fun _ ↦ rfl⟩
  | some content =>
    refine (stage_meets fun htotal ↦ hanswers htotal content hcontent).mono ?_ ?_
    · rintro next ⟨hsame, hstaged⟩
      exact Publishing.of_staged hplaced hmade hafter hsame (.inr ⟨content, hcontent, hstaged⟩)
    · rintro _ next ⟨hsame, hholds⟩
      refine ⟨hsame, fun given hgiven ↦ ?_, by simp⟩
      rwa [← Option.some.inj hgiven]

include hplaced in
theorem replace_meets {made staged : World} (hmade : Made base [] change.path world made)
    (hafter : change.after = none → made = world) (hsame : SameButStaged name made staged)
    (hstaged : ∀ content, change.after = some content → Holds (staged.staged name) (some content))
    (hnone : change.after = none → staged = made)
    (hanswers : total → (staged.tree base).isDirectory change.path.dropLast = true ∧
      (∃ file, readFile ((staged.tree base).entry change.path) = some file) ∧
      (change.after = none → (staged.tree base).entry change.path ≠ none)) :
    Meets total (replace base name change.path change.after) staged
      (Publishing base name change world)
      fun _ next ↦ Publishing base name change world next ∧
        Holds ((next.tree base).entry change.path) change.after ∧
        (change.after.isSome → next.staged name = none) ∧
        (base = .root → ∀ path, path ≠ change.path →
          next.root.entry path = staged.root.entry path) := by
  cases hcontent : change.after with
  | none =>
    have hworld : staged = world := (hnone hcontent).trans (hafter hcontent)
    subst hworld
    refine removeFile_meets (fun next ↦ Publishing base name change staged next ∧
      Holds ((next.tree base).entry change.path) none ∧
      ((none : Option Content).isSome → next.staged name = none) ∧
      (base = .root → ∀ path, path ≠ change.path →
        next.root.entry path = staged.root.entry path)) ?_ ?_
    · intro htotal
      obtain ⟨-, ⟨file, hfile⟩, hsome⟩ := hanswers htotal
      refine ⟨hplaced.1, ?_⟩
      cases hentry : (staged.tree base).entry change.path with
      | none => exact absurd hentry (hsome hcontent)
      | some entry =>
        rw [hentry] at hfile
        cases entry with
        | file held => exact ⟨held, rfl⟩
        | directory identity => cases hfile
        | other => cases hfile
    · intro file next _ hedit
      have hpublishing : Publishing base name change staged next :=
        Publishing.of_removed hplaced hcontent hedit
      refine ⟨hpublishing, hpublishing, hedit.entry_self, by simp, ?_⟩
      rintro rfl path hpath
      exact hedit.entry_ne hpath
  | some content =>
    obtain ⟨identity, hfile⟩ := hstaged content hcontent
    refine rename_meets (fun next ↦ Publishing base name change world next ∧
      Holds ((next.tree base).entry change.path) (some content) ∧
      ((some content).isSome → next.staged name = none) ∧
      (base = .root → ∀ path, path ≠ change.path →
        next.root.entry path = staged.root.entry path)) ?_ ?_
    · intro htotal
      obtain ⟨hparent, ⟨file, hread⟩, -⟩ := hanswers htotal
      refine ⟨hplaced.1, ?_, ⟨_, hfile⟩, hparent, ?_⟩
      · intro hbase hpath
        rw [hplaced.2 hbase] at hpath
        exact journal_ne_staged hpath
      · intro other hother
        rw [hother] at hread
        cases hread
    · intro entry between next hentry hgone hput
      have hheld : some entry = some (TreeEntry.file _) := hentry.symm.trans hfile
      have hholds : Holds (some entry) (some content) := ⟨identity, hheld⟩
      have hpublishing : Publishing base name change world next :=
        Publishing.of_renamed hplaced hcontent hmade hsame hgone hput hholds
      refine ⟨hpublishing, hpublishing, ?_, fun _ ↦ staged_of_renamed hplaced hgone hput, ?_⟩
      · rw [hput.entry_self]
        exact hholds
      · rintro rfl path hpath
        rw [show next.root.entry path = between.root.entry path from hput.entry_ne hpath,
          hgone.root]

include hplaced in
theorem publishFrom_meets {now : Observation × Option Content}
    (hcontent : ∀ content ∈ change.after, content.validate = true)
    (hnow : observeFile system (world.tree base) change.path = some now)
    (hdiffers : sameContent system now.1.file change.after = false)
    (hanswers : total → now.1.file = change.before.file ∧
      ∀ content, change.after = some content → Stageable system name content world) :
    Meets total (publishFrom system base name change now.1) world
      (Publishing base name change world)
      fun _ next ↦ Publishing base name change world next ∧
        Holds ((next.tree base).entry change.path) change.after ∧
        (change.after.isSome → next.staged name = none) := by
  obtain ⟨hvalid, found, before, file, hwalk, hfile, rfl⟩ := observeFile_eq_some.mp hnow
  -- a file that is to be removed is there, and so are its directories
  have hpresent : change.after = none → file ≠ none := by
    rintro hnone rfl
    simp [hnone, sameContent] at hdiffers
  have hfound : change.after = none → found = true := by
    intro hnone
    cases found with
    | true => rfl
    | false =>
      have hentry : (world.tree base).entry change.path = none := entry_of_walk hwalk
      rw [hentry] at hfile
      exact absurd (Option.some.inj hfile).symm (hpresent hnone)
  refine Meets.need_bind (fun htotal ↦ (hanswers htotal).1) fun _ ↦ ?_
  have hparent : Meets total (parent system base change.path change.after.isSome) world
      (Publishing base name change world)
      fun parents next ↦ Made base [] change.path world next ∧
        (change.after.isSome = false → next = world) ∧
        walk (next.tree base) [] change.path = some (true, parents) := by
    refine (parent_meets fun _ ↦ ⟨found, before, hwalk, ?_⟩).mono ?_ (fun _ _ h ↦ h)
    · intro hnone
      exact hfound (Option.not_isSome_iff_eq_none.mp (by simp [hnone]))
    · rintro next ⟨hmade, hsome⟩
      refine Publishing.of_staged hplaced hmade ?_ SameButStaged.refl (.inl rfl)
      intro hnone
      simp [hnone] at hsome
  refine hparent.bind ?_
  rintro parents made ⟨hmade, hafter, hparents⟩
  have hmadeWorld : change.after = none → made = world := fun hnone ↦ hafter (by simp [hnone])
  refine (stageAfter_meets hplaced hmade hmadeWorld ?_).bind ?_
  · intro htotal content hsome
    have hstageable := (hanswers htotal).2 content hsome
    constructor
    · have hdirectory := FileTree.isDirectory_iff.mp hstageable.directory
      refine FileTree.isDirectory_iff.mpr (hdirectory.imp_right ?_)
      rintro ⟨identity, hidentity⟩
      exact ⟨identity, (hmade.control hplaced _).trans hidentity⟩
    · intro entry hentry
      exact hstageable.file entry ((hmade.staged hplaced).symm.trans hentry)
  rintro _ staged ⟨hsame, hstaged, hstagedMade⟩
  obtain ⟨checked, hchecked, hcheckedFile, hcheckedParents, hread, hwalkStaged⟩ :=
    observeFile_made hplaced hnow hmade hparents hsame
  refine Meets.look_bind (fun _ ↦ by simp [hchecked]) ?_
  intro observed hobserved
  have hobservedIs : observed = checked.1 := by simpa [hchecked] using hobserved.symm
  subst hobservedIs
  refine Meets.need_bind (fun _ ↦ ⟨hcheckedFile, hcheckedParents⟩) fun _ ↦ ?_
  refine (replace_meets hplaced hmade hmadeWorld hsame hstaged hstagedMade ?_).bind ?_
  · intro _
    refine ⟨?_, ⟨file, hread.trans hfile⟩, ?_⟩
    · have hroot : (staged.tree base).isDirectory [] = true := FileTree.isDirectory_iff.mpr (.inl rfl)
      exact isDirectory_of_walk hroot hwalkStaged
    · intro hnone hentry
      rw [hentry, hfile] at hread
      exact hpresent hnone (Option.some.inj hread).symm
  rintro _ next ⟨hpublishing, hholds, hgone, hroot⟩
  obtain ⟨after, hobserve, hafterParents, hafterSame⟩ :=
    observeFile_replaced hplaced hvalid hcontent hwalkStaged hroot rfl hholds
  refine Meets.look_bind (fun _ ↦ by simp [hobserve]) ?_
  intro last hlast
  have hlastIs : last = after.1 := by simpa [hobserve] using hlast.symm
  subst hlastIs
  exact Meets.need (fun _ ↦ ⟨hafterParents, hafterSame⟩) fun _ ↦ ⟨hpublishing, hholds, hgone⟩

/-- The contract of `publish`. -/
theorem publish_meets (hbase : base = .control → change.path = [journalFileName])
    (hcontent : ∀ content ∈ change.after, content.validate = true)
    (hanswers : total → Publishable system base name change world) :
    Meets total (publish system base name change) world (Publishing base name change world)
      fun _ next ↦ PublishedBy system base name change world next := by
  refine Meets.look_bind ?_ ?_
  · intro htotal
    obtain ⟨now, hnow, -⟩ := (hanswers htotal).observed
    simp [hnow]
  intro observation hobservation
  obtain ⟨now, hnow, rfl⟩ := Option.map_eq_some_iff.mp hobservation
  have hplaced : Placed base change.path := ⟨ne_nil_of_observeFile hnow, hbase⟩
  have hagrees : total → change.before.within now.1 = true ∧
      (sameContent system now.1.file change.after = true ∨ now.1.file = change.before.file) := by
    intro htotal
    obtain ⟨held, hheld, hwithin, hfile⟩ := (hanswers htotal).observed
    rw [hnow] at hheld
    obtain rfl := Option.some.inj hheld
    exact ⟨hwithin, hfile⟩
  refine Meets.need_bind (fun htotal ↦ (hagrees htotal).1) fun _ ↦ ?_
  split_ifs with hsame
  · exact Meets.pure (.inl ⟨rfl, now, hnow, hsame⟩)
  · have hdiffers : sameContent system now.1.file change.after = false := by simpa using hsame
    refine (publishFrom_meets hplaced hcontent hnow hdiffers ?_).mono (fun _ h ↦ h) ?_
    · intro htotal
      refine ⟨(hagrees htotal).2.resolve_left hsame, (hanswers htotal).stageable⟩
    · rintro _ next ⟨hpublishing, hholds, hgone⟩
      exact .inr ⟨hpublishing, hholds, hgone⟩

end Publish

end AiStp.Installation
