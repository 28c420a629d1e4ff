import AiStp.Library.Tables
import AiStp.Projection.Archive

/-!
# The client's projections

The client builds the archive of a scope from the files that it is given (`build`), each of which has
to be a declared one, and verifies an archive by building it again from what it reads (`verify`).
-/

set_option autoImplicit false

namespace AiStp.Projection.Client

open Foundation Library Zip

/-- A file with its bytes and its mode. -/
structure Member where
  path : String
  bytes : Bytes
  mode : Nat
deriving DecidableEq

def limits : Limits where
  entries := 8192
  fileBytes := 64 * 1024 * 1024
  contentBytes := 64 * 1024 * 1024
  archiveBytes := 64 * 1024 * 1024

section Projections

variable (platform : Platform) (libraries : Libraries)

/-- The files by their paths, unless two have the same path. -/
def filesByPath : List Member → Table String Member → Option (Table String Member)
  | [], table => some table
  | file :: files, table => do
    let table ← table.insert? file.path file
    filesByPath files table

/-- A file is the declared one. -/
def matchesMember (member : ProjectedMember) (file : Member) : Bool :=
  file.mode = member.mode && member.contentArtifact.any fun artifact ↦
    artifact.sizeBytes = file.bytes.length ∧ artifact.digest = digestBytes libraries file.bytes

/-- The entries of the declared members, with the files that are left. -/
def memberEntries : List ProjectedMember → Table String Member →
    Option (List Entry × Table String Member)
  | [], contents => some ([], contents)
  | member :: members, contents => do
    guard (validateMember member)
    if member.objectType = .directory then
      let (entries, left) ← memberEntries members contents
      return ({ path := member.path, bytes := [], mode := member.mode, kind := .directory } ::
        entries, left)
    else
      let file ← contents.get? member.path
      guard (matchesMember libraries member file)
      let (entries, left) ← memberEntries members (contents.filter fun path _ ↦ path ≠ member.path)
      return ({ path := member.path, bytes := file.bytes, mode := member.mode, kind := .file } ::
        entries, left)

def buildMembers (members : List ProjectedMember) (files : List Member) : Option Bytes := do
  guard (members ≠ [] ∧ members.length ≤ limits.entries ∧ files.length ≤ limits.entries)
  let contents ← filesByPath files .empty
  let (entries, left) ← memberEntries libraries members contents
  guard (left.entries = [])
  encode platform libraries limits (entries.insertionSort fun left right ↦ left.path ≤ right.path)

def build (scope : ScopeAdaptation) (files : List Member) : Option Bytes := do
  guard (validateScope libraries scope)
  buildMembers platform libraries scope.members files

/-- The files among the entries of an archive. -/
def archiveFiles (entries : List Entry) : List Member :=
  (entries.filter (·.kind = .file)).map fun entry ↦
    { path := entry.path, bytes := entry.bytes, mode := entry.mode }

def verify (reader : ArchiveReader) (scope : ScopeAdaptation) (payload : Bytes) :
    Option (List Member) := do
  guard (validateScope libraries scope)
  guard (payload.length ≤ limits.archiveBytes ∧
    scope.projectionArtifact.sizeBytes = payload.length ∧
    scope.projectionArtifact.digest = digestBytes libraries payload)
  let entries ← decode platform limits libraries reader payload
  let files := archiveFiles entries
  guard (build platform libraries scope files = some payload)
  return files

end Projections

/-! ### The files -/

variable {table : Table String Member}

section Files

theorem entries_of_filesByPath {files : List Member} {after : Table String Member}
    (h : filesByPath files table = some after) :
    after.entries = table.entries ++ files.map fun file ↦ (file.path, file) := by
  induction files generalizing table with
  | nil =>
    rw [← Option.some.inj h]
    simp
  | cons file files ih =>
    simp only [filesByPath, Option.bind_eq_bind, Option.bind_eq_some_iff] at h
    obtain ⟨next, hinsert, hrest⟩ := h
    rw [ih hrest, Table.entries_of_insert? hinsert, List.append_assoc]
    rfl

/-- Files with different paths are held by their paths. -/
theorem filesByPath_of_nodup {files : List Member}
    (hpaths : (table.entries.map Prod.fst ++ files.map (·.path)).Nodup) :
    ∃ after, filesByPath files table = some after := by
  induction files generalizing table with
  | nil => exact ⟨table, rfl⟩
  | cons file files ih =>
    have hfree : file.path ∉ table.entries.map Prod.fst := by
      intro hmem
      exact (List.nodup_append.mp hpaths).2.2 _ hmem _ List.mem_cons_self rfl
    obtain ⟨next, hinsert⟩ : ∃ next, table.insert? file.path file = some next := by
      rw [Table.insert?, dif_neg hfree]
      exact ⟨_, rfl⟩
    have hnext : (next.entries.map Prod.fst ++ files.map (·.path)).Nodup := by
      rw [Table.entries_of_insert? hinsert, List.map_append, List.append_assoc]
      exact hpaths
    obtain ⟨after, hafter⟩ := ih hnext
    refine ⟨after, ?_⟩
    rw [filesByPath, hinsert]
    exact hafter

end Files

/-! ### The entries of members -/

section Members

variable {libraries : Libraries}

def memberKind (member : ProjectedMember) : Kind :=
  if member.objectType = .directory then .directory else .file

/-- The entry of a member with its file. -/
def memberEntry (contents : Table String Member) (member : ProjectedMember) : Entry where
  path := member.path
  bytes := if member.objectType = .directory then []
    else ((contents.get? member.path).map (·.bytes)).getD []
  mode := member.mode
  kind := memberKind member

/-- The declared file is there. -/
def Provides (libraries : Libraries) (contents : Table String Member)
    (member : ProjectedMember) : Prop :=
  validateMember member = true ∧ (member.objectType ≠ .directory →
    ∃ file, contents.get? member.path = some file ∧ matchesMember libraries member file = true)

/-- The files that no member is. -/
def surplus (members : List ProjectedMember) (contents : Table String Member) :
    List (String × Member) :=
  contents.entries.filter fun entry ↦
    members.all fun member ↦ member.objectType = .directory || entry.1 ≠ member.path

variable {contents : Table String Member}

theorem get?_without {path gone : String} (hpath : path ≠ gone) :
    (contents.filter fun key _ ↦ key ≠ gone).get? path = contents.get? path := by
  rw [Table.get?_filter]
  cases contents.get? path with
  | none => rfl
  | some file => simp [hpath]

variable {member : ProjectedMember}

theorem memberEntry_without {gone : String} (hpath : member.path ≠ gone) :
    memberEntry (contents.filter fun key _ ↦ key ≠ gone) member = memberEntry contents member := by
  unfold memberEntry
  rw [get?_without hpath]

theorem provides_without {gone : String} (hpath : member.path ≠ gone) :
    Provides libraries (contents.filter fun key _ ↦ key ≠ gone) member ↔
      Provides libraries contents member := by
  unfold Provides
  rw [get?_without hpath]

variable {members : List ProjectedMember}

/-- The members behind the first have other paths. -/
theorem path_ne_of_nodup {first : ProjectedMember} (hfirst : first.path ∉ members.map (·.path))
    (hmember : member ∈ members) : member.path ≠ first.path :=
  fun hpath ↦ hfirst (hpath ▸ List.mem_map_of_mem hmember)

theorem memberEntries_eq_some {entries : List Entry} {left : Table String Member}
    (hpaths : (members.map (·.path)).Nodup)
    (h : memberEntries libraries members contents = some (entries, left)) :
    (∀ member ∈ members, Provides libraries contents member) ∧
      entries = members.map (memberEntry contents) ∧ left.entries = surplus members contents := by
  induction members generalizing contents entries left with
  | nil =>
    obtain ⟨rfl, rfl⟩ := Prod.mk.inj (Option.some.inj h)
    refine ⟨fun member hmember ↦ (nomatch hmember), rfl, ?_⟩
    simp [surplus]
  | cons first members ih =>
    rw [List.map_cons, List.nodup_cons] at hpaths
    by_cases hkind : first.objectType = .directory
    · simp only [memberEntries, hkind, if_true, Option.bind_eq_bind, Option.bind_eq_some_iff,
        Option.guard_eq_some', Option.pure_def, Option.some.injEq] at h
      obtain ⟨_, hvalid, ⟨rest, others⟩, hrest, heq⟩ := h
      obtain ⟨rfl, rfl⟩ := Prod.mk.inj heq
      obtain ⟨hprovides, rfl, hleft⟩ := ih hpaths.2 hrest
      refine ⟨?_, ?_, ?_⟩
      · rintro member (_ | ⟨_, hmember⟩)
        · exact ⟨hvalid, fun hfile ↦ absurd hkind hfile⟩
        · exact hprovides member hmember
      · simp [memberEntry, memberKind, hkind]
      · rw [hleft, surplus, surplus]
        simp [hkind]
    · simp only [memberEntries, hkind, if_false, Option.bind_eq_bind, Option.bind_eq_some_iff,
        Option.guard_eq_some', Option.pure_def, Option.some.injEq] at h
      obtain ⟨_, hvalid, file, hfile, _, hmatches, ⟨rest, others⟩, hrest, heq⟩ := h
      obtain ⟨rfl, rfl⟩ := Prod.mk.inj heq
      obtain ⟨hprovides, rfl, hleft⟩ := ih hpaths.2 hrest
      refine ⟨?_, ?_, ?_⟩
      · rintro member (_ | ⟨_, hmember⟩)
        · exact ⟨hvalid, fun _ ↦ ⟨file, hfile, hmatches⟩⟩
        · exact (provides_without (path_ne_of_nodup hpaths.1 hmember)).mp
            (hprovides member hmember)
      · rw [List.map_cons]
        congr 1
        · simp [memberEntry, memberKind, hkind, hfile]
        · refine List.map_congr_left fun member hmember ↦ ?_
          exact memberEntry_without (path_ne_of_nodup hpaths.1 hmember)
      · rw [hleft, surplus, surplus, Table.filter, List.filter_filter]
        refine List.filter_congr fun entry _ ↦ ?_
        simp [hkind, Bool.and_comm]

theorem memberEntries_of_provides (hpaths : (members.map (·.path)).Nodup)
    (hprovides : ∀ member ∈ members, Provides libraries contents member) :
    ∃ left, memberEntries libraries members contents =
        some (members.map (memberEntry contents), left) := by
  induction members generalizing contents with
  | nil => exact ⟨contents, rfl⟩
  | cons first members ih =>
    rw [List.map_cons, List.nodup_cons] at hpaths
    have hfirst := hprovides first List.mem_cons_self
    have hothers : ∀ member ∈ members, Provides libraries contents member :=
      fun member hmember ↦ hprovides member (List.mem_cons_of_mem first hmember)
    by_cases hkind : first.objectType = .directory
    · obtain ⟨left, hrest⟩ := ih hpaths.2 hothers
      refine ⟨left, ?_⟩
      simp [memberEntries, hkind, hfirst.1, hrest, memberEntry, memberKind]
    · obtain ⟨file, hfile, hmatches⟩ := hfirst.2 hkind
      obtain ⟨left, hrest⟩ := ih hpaths.2 fun member hmember ↦
        (provides_without (path_ne_of_nodup hpaths.1 hmember)).mpr (hothers member hmember)
      have hsame : members.map (memberEntry (contents.filter fun key _ ↦ key ≠ first.path)) =
          members.map (memberEntry contents) :=
        List.map_congr_left fun member hmember ↦
          memberEntry_without (path_ne_of_nodup hpaths.1 hmember)
      refine ⟨left, ?_⟩
      rw [hsame] at hrest
      simp only [memberEntries, hkind, if_false, hfirst.1, hfile, hmatches, guard_true,
        Option.bind_eq_bind, Option.bind_some, hrest, Option.pure_def, List.map_cons]
      simp [memberEntry, memberKind, hkind, hfile]

end Members

/-! ### What is built -/

section Built

variable {platform : Platform} {libraries : Libraries} {scope : ScopeAdaptation}
  {files : List Member} {payload : Bytes}

/-- The files of a table are found by their paths. -/
theorem get?_of_filesByPath (h : filesByPath files .empty = some table) {path : String}
    {file : Member} : table.get? path = some file ↔ file ∈ files ∧ file.path = path := by
  rw [← Table.mem_entries, entries_of_filesByPath h]
  simp only [Table.empty, List.nil_append, List.mem_map, Prod.mk.injEq]
  constructor
  · rintro ⟨other, hother, hpath, rfl⟩
    exact ⟨hother, hpath⟩
  · rintro ⟨hfile, hpath⟩
    exact ⟨file, hfile, hpath, rfl⟩

/-- A build that succeeds encodes the entries of the members with their files. -/
theorem build_eq_some (hpaths : (scope.members.map (·.path)).Nodup)
    (h : build platform libraries scope files = some payload) :
    validateScope libraries scope = true ∧ ∃ table, filesByPath files .empty = some table ∧
      (∀ member ∈ scope.members, Provides libraries table member) ∧
      encode platform libraries limits ((scope.members.map (memberEntry table)).insertionSort
        fun left right ↦ left.path ≤ right.path) = some payload := by
  unfold build buildMembers at h
  simp only [Option.bind_eq_bind, Option.bind_eq_some_iff, Option.guard_eq_some'] at h
  obtain ⟨_, hvalid, _, _, table, htable, ⟨entries, left⟩, hentries, _, _, hencode⟩ := h
  obtain ⟨hprovides, rfl, -⟩ := memberEntries_eq_some hpaths hentries
  exact ⟨hvalid, table, htable, hprovides, hencode⟩

/-- Files that are there for every declared member, and no others, are built. -/
theorem build_of_provides (hpaths : (scope.members.map (·.path)).Nodup)
    (hvalid : validateScope libraries scope = true)
    (hmembers : scope.members ≠ [] ∧ scope.members.length ≤ limits.entries ∧
      files.length ≤ limits.entries) (htable : filesByPath files .empty = some table)
    (hprovides : ∀ member ∈ scope.members, Provides libraries table member)
    (hsurplus : surplus scope.members table = []) :
    build platform libraries scope files =
      encode platform libraries limits ((scope.members.map (memberEntry table)).insertionSort
        fun left right ↦ left.path ≤ right.path) := by
  obtain ⟨left, hentries⟩ := memberEntries_of_provides hpaths hprovides
  have hleft : left.entries = [] := by
    rw [(memberEntries_eq_some hpaths hentries).2.2, hsurplus]
  have hguard : (guard (scope.members ≠ [] ∧ scope.members.length ≤ limits.entries ∧
      files.length ≤ limits.entries) : Option Unit) = some () :=
    if_pos hmembers
  unfold build buildMembers
  simp only [hvalid, guard_true, Option.bind_eq_bind, Option.pure_def, Option.bind_some, hguard,
    htable, hentries, hleft]

end Built

end AiStp.Projection.Client
