import AiStp.Projection.Client
import AiStp.Projection.Server

/-!
# The two verifiers

Both builders write the same bytes for the same files (`writeArchive_eq_encodeBytes`). The client
takes every archive that the server accepts as long as the declaration is portable (`Portable`):
every path is one that all supported systems can hold, the paths do not clash when their case is
folded, and no list of the declaration repeats an item. The server asks none of this, so it accepts
archives that the client refuses.
-/

set_option autoImplicit false

namespace AiStp.Projection

open Foundation Library Zip

/-! ### Portable declarations -/

/-- The names of the members in the order of the archive. -/
def archiveNames (scope : ScopeAdaptation) : List (String × Kind) :=
  (Server.sortedMembers scope).map fun member ↦ (member.path, Client.memberKind member)

/-- What the client asks of a declaration and the server does not. -/
structure Portable (platform : Platform) (libraries : Libraries) (scope : ScopeAdaptation) :
    Prop where
  safe : ∀ member ∈ scope.members, safePath platform (pathParts member.path) = true
  folded : (scope.members.map (libraries.foldedCase ·.path)).Nodup
  directories : directoriesAgree libraries (archiveNames scope) = true
  leaves : filesAreLeaves libraries (archiveNames scope) = true
  versions : scope.supportedHarnessVersions.Nodup
  spaces : ∀ version ∈ scope.supportedHarnessVersions, ∀ character ∈ version.toList,
    libraries.schemaSpace character = false
  systems : scope.supportedOs.Nodup
  architectures : scope.supportedArch.Nodup
  losses : scope.semanticLosses.Nodup

/-- The files are the declared ones, with their modes and with the contents that the server read. -/
structure Declared (scope : ScopeAdaptation) (contents : Server.Contents)
    (files : List Client.Member) : Prop where
  paths : (files.map (·.path)).Perm ((Server.declaredFiles scope).map (·.path))
  contents : ∀ file ∈ files, contents.get? file.path = some file.bytes
  modes : ∀ file ∈ files, ∃ member ∈ Server.declaredFiles scope,
    member.path = file.path ∧ member.mode = file.mode

/-- The two builders are given the same files. -/
def SameFiles (contents : Server.Contents) (files : List Client.Member) : Prop :=
  ∀ path bytes, contents.get? path = some bytes ↔
    ∃ file ∈ files, file.path = path ∧ file.bytes = bytes

/-! ### The same bytes -/

/-- The entry that the client makes of a member for the contents of the server. -/
def serverEntry (contents : Server.Contents) (member : ProjectedMember) : Entry where
  path := member.path
  bytes := (contents.get? member.path).getD []
  mode := member.mode
  kind := Client.memberKind member

theorem zipEntry_serverEntry (contents : Server.Contents) (member : ProjectedMember) :
    zipEntry (serverEntry contents member) = Server.zipMember contents member := by
  cases htype : member.objectType with
  | file =>
    simp only [zipEntry, serverEntry, Server.zipMember, Client.memberKind, nameBytes,
      Server.memberName, Server.memberKind, htype, Server.utf8, fileType, isAscii, Server.zipDate]
    rfl
  | directory =>
    simp only [zipEntry, serverEntry, Server.zipMember, Client.memberKind, nameBytes,
      Server.memberName, Server.memberKind, htype, Server.utf8, fileType, isAscii, Server.zipDate]
    rfl

/-- The server writes the bytes that the client's writer writes. -/
theorem writeArchive_eq_encodeBytes (scope : ScopeAdaptation) (contents : Server.Contents) :
    Server.writeArchive scope contents =
      encodeBytes ((Server.sortedMembers scope).map (serverEntry contents)) := by
  rw [Server.writeArchive_eq, encodeBytes_eq, List.map_map]
  exact congrArg archive (List.map_congr_left fun member _ ↦
    (zipEntry_serverEntry contents member).symm)

variable {member : ProjectedMember}

section Entries

variable {scope : ScopeAdaptation} {contents : Server.Contents} {libraries : Libraries}

/-- Sorting the entries is sorting the members. -/
theorem sorted_entries (scope : ScopeAdaptation) {entryOf : ProjectedMember → Entry}
    (hpath : ∀ member, (entryOf member).path = member.path) :
    (scope.members.map entryOf).insertionSort (fun left right ↦ left.path ≤ right.path) =
      (Server.sortedMembers scope).map entryOf := by
  symm
  refine List.map_insertionSort _ _ entryOf scope.members ?_
  intro left _ right _
  rw [hpath, hpath]

theorem mem_sortedMembers : member ∈ Server.sortedMembers scope ↔ member ∈ scope.members :=
  List.mem_insertionSort _

theorem eq_of_path {members : List ProjectedMember} (hpaths : (members.map (·.path)).Nodup)
    {first second : ProjectedMember} (hfirst : first ∈ members) (hsecond : second ∈ members)
    (hsame : first.path = second.path) : first = second :=
  List.inj_on_of_nodup_map hpaths hfirst hsecond hsame

/-- A directory has no content. -/
theorem get?_directory (hclosed : Server.Closed libraries scope contents)
    (hpaths : (scope.members.map (·.path)).Nodup) (hmember : member ∈ scope.members)
    (htype : member.objectType = .directory) : contents.get? member.path = none := by
  cases hget : contents.get? member.path with
  | none => rfl
  | some bytes =>
    have hentry := hclosed.declared _ (Table.mem_entries.mpr hget)
    obtain ⟨other, hother, hsame⟩ := List.mem_map.mp hentry
    obtain ⟨hmem, hfile⟩ := List.mem_filter.mp hother
    rw [eq_of_path hpaths hmem hmember hsame, htype] at hfile
    simp at hfile

theorem mem_declaredFiles :
    member ∈ Server.declaredFiles scope ↔
      member ∈ scope.members ∧ member.objectType ≠ .directory := by
  rw [Server.declaredFiles, List.mem_filter]
  cases member.objectType <;> simp

/-- The client makes the same entry of a member if it is given the file that the server has. -/
theorem memberEntry_eq_serverEntry {table : Table String Client.Member}
    (hclosed : Server.Closed libraries scope contents) (hpaths : (scope.members.map (·.path)).Nodup)
    (hsame : ∀ member ∈ scope.members, member.objectType ≠ .directory →
      (table.get? member.path).map (·.bytes) = contents.get? member.path)
    (hmember : member ∈ scope.members) :
    Client.memberEntry table member = serverEntry contents member := by
  unfold Client.memberEntry serverEntry
  by_cases htype : member.objectType = .directory
  · rw [if_pos htype, get?_directory hclosed hpaths hmember htype]
    rfl
  · rw [if_neg htype, hsame member hmember htype]

/-- What the client encodes then are the entries that the server writes. -/
theorem sorted_memberEntries {table : Table String Client.Member}
    (hclosed : Server.Closed libraries scope contents) (hpaths : (scope.members.map (·.path)).Nodup)
    (hsame : ∀ member ∈ scope.members, member.objectType ≠ .directory →
      (table.get? member.path).map (·.bytes) = contents.get? member.path) :
    (scope.members.map (Client.memberEntry table)).insertionSort
        (fun left right ↦ left.path ≤ right.path) =
      (Server.sortedMembers scope).map (serverEntry contents) := by
  rw [sorted_entries scope fun _ ↦ rfl]
  exact List.map_congr_left fun member hmember ↦
    memberEntry_eq_serverEntry hclosed hpaths hsame (mem_sortedMembers.mp hmember)

end Entries

section Builders

variable {platform : Platform} {libraries : Libraries} {scope : ScopeAdaptation}
  {contents : Server.Contents} {files : List Client.Member} {first second : Bytes}

theorem nodup_paths_of_valid (hvalid : scope.valid libraries = true) :
    (scope.members.map (·.path)).Nodup := by
  simp only [ScopeAdaptation.valid, ScopeAdaptation.pathsAreUnique, Bool.and_eq_true,
    decide_eq_true_eq] at hvalid
  exact hvalid.2.1

theorem bytes_of_encode {entries : List Entry}
    (h : encode platform libraries Client.limits entries = some second) :
    encodeBytes entries = second := by
  unfold encode at h
  split_ifs at h
  exact Option.some.inj h

/-- Both builders write the same archive of the same files. -/
theorem builders_agree (hvalid : scope.valid libraries = true) (hfiles : SameFiles contents files)
    (hserver : Server.buildProjection libraries scope contents = some first)
    (hclient : Client.build platform libraries scope files = some second) : first = second := by
  have hpaths := nodup_paths_of_valid hvalid
  obtain ⟨hclosed, rfl⟩ := Server.buildProjection_eq_some.mp hserver
  obtain ⟨-, table, htable, hprovides, hencode⟩ := Client.build_eq_some hpaths hclient
  have hsame : ∀ member ∈ scope.members, member.objectType ≠ .directory →
      (table.get? member.path).map (·.bytes) = contents.get? member.path := by
    intro member hmember htype
    obtain ⟨file, hfile, -⟩ := (hprovides member hmember).2 htype
    obtain ⟨hmem, hpath⟩ := (Client.get?_of_filesByPath htable).mp hfile
    rw [hfile, (hfiles member.path file.bytes).mpr ⟨file, hmem, hpath, rfl⟩]
    rfl
  rw [sorted_memberEntries hclosed hpaths hsame] at hencode
  rw [writeArchive_eq_encodeBytes]
  exact bytes_of_encode hencode

end Builders

/-! ### The client's check of a declaration -/

section Declaration

variable {platform : Platform} {libraries : Libraries} {scope : ScopeAdaptation}

/-- The schema's grammar asks for less than a portable path. -/
theorem schemaProjectionPath_of_safe {path : String} (hpath : relativeProjectionPath path = true)
    (hsafe : safePath platform (pathParts path) = true) : schemaProjectionPath path = true := by
  simp only [relativeProjectionPath, Bool.and_eq_true, decide_eq_true_eq] at hpath
  simp only [safePath, Bool.and_eq_true] at hsafe
  simp only [schemaProjectionPath, Bool.and_eq_true, decide_eq_true_eq]
  refine ⟨⟨⟨hpath.1.1.1, hpath.1.1.2⟩, hpath.2⟩, ?_⟩
  rw [List.all_eq_true]
  intro part hpart
  have hsafePart := List.all_eq_true.mp hsafe.2 part hpart
  simp only [safePart, Bool.and_eq_true, decide_eq_true_eq] at hsafePart
  obtain ⟨⟨⟨⟨⟨⟨⟨hempty, -⟩, hdot⟩, hdots⟩, -⟩, -⟩, -⟩, -⟩ := hsafePart
  simp [hempty, hdot, hdots]

theorem validateMember_of_portable (hvalid : scope.valid libraries = true)
    (hportable : Portable platform libraries scope) (hmember : member ∈ scope.members) :
    validateMember member = true := by
  simp only [ScopeAdaptation.valid, ScopeAdaptation.fields, Bool.and_eq_true,
    List.all_eq_true] at hvalid
  have hfields := hvalid.1.1.1.1.1.2 member hmember
  have hpath : relativeProjectionPath member.path = true := by
    simp only [ProjectedMember.fields, Bool.and_eq_true] at hfields
    exact hfields.1.1.1.1.1.1.1.1
  rw [validateMember, Bool.and_eq_true]
  refine ⟨ProjectedMember.fields_of_path hfields ?_,
    memberInvariants_of_ownershipIsComplete (hvalid.1.2 member hmember)⟩
  exact schemaProjectionPath_of_safe hpath (hportable.safe member hmember)

theorem validateScope_of_portable (hvalid : scope.valid libraries = true)
    (hportable : Portable platform libraries scope) : validateScope libraries scope = true := by
  have hmembers : ∀ member ∈ scope.members, validateMember member = true :=
    fun member hmember ↦ validateMember_of_portable hvalid hportable hmember
  simp only [validateMember, Bool.and_eq_true] at hmembers
  have hfields : scope.fields schemaProjectionPath libraries.schemaSpace = true := by
    simp only [ScopeAdaptation.valid, ScopeAdaptation.fields, Bool.and_eq_true,
      List.all_eq_true] at hvalid ⊢
    obtain ⟨⟨⟨⟨⟨⟨hhead, -⟩, hversions⟩, hreason⟩, hsupport⟩, -⟩, -⟩ := hvalid
    refine ⟨⟨⟨⟨hhead, fun member hmember ↦ (hmembers member hmember).1⟩, ?_⟩, hreason⟩, hsupport⟩
    intro version hversion
    refine ⟨(hversions version hversion).1, fun character hcharacter ↦ ?_⟩
    rw [hportable.spaces version hversion character hcharacter]
    rfl
  simp only [validateScope, scopeSchema, scopeInvariants, Bool.and_eq_true, List.all_eq_true,
    decide_eq_true_eq]
  exact ⟨⟨⟨⟨⟨hfields, hportable.versions⟩, hportable.systems⟩, hportable.architectures⟩,
    hportable.losses⟩, hportable.folded, fun member hmember ↦ (hmembers member hmember).2⟩

end Declaration

/-! ### The client's check of the entries -/

section Checked

variable {platform : Platform} {libraries : Libraries} {scope : ScopeAdaptation}
  {contents : Server.Contents}

theorem usable_limits : Client.limits.Usable :=
  ⟨by decide, by decide, by decide⟩

theorem sum_bytes_le (entries : List Entry) :
    (entries.map (·.bytes.length)).sum ≤ (entries.map entrySize).sum := by
  refine List.sum_le_sum fun entry _ ↦ ?_
  unfold entrySize
  omega

theorem length_sortedMembers (scope : ScopeAdaptation) :
    (Server.sortedMembers scope).length = scope.members.length :=
  (List.perm_insertionSort _ _).length_eq

theorem entryNames_server (scope : ScopeAdaptation) (contents : Server.Contents) :
    entryNames ((Server.sortedMembers scope).map (serverEntry contents)) = archiveNames scope := by
  rw [entryNames, archiveNames, List.map_map]
  rfl

/-- The entries of a portable declaration are valid in an archive that is not too long. -/
theorem validate_of_portable (hvalid : scope.valid libraries = true)
    (hportable : Portable platform libraries scope)
    (hclosed : Server.Closed libraries scope contents)
    (hlength : (Server.writeArchive scope contents).length ≤ maxProjectionBytes) :
    validate platform libraries Client.limits
      ((Server.sortedMembers scope).map (serverEntry contents)) = true := by
  have hcount : ((Server.sortedMembers scope).map (serverEntry contents)).length ≤ 8192 := by
    rw [List.length_map, length_sortedMembers]
    exact hclosed.members
  rw [writeArchive_eq_encodeBytes, length_encodeBytes] at hlength
  have hsize : 22 + (((Server.sortedMembers scope).map (serverEntry contents)).map entrySize).sum ≤
      Client.limits.archiveBytes := hlength
  have hcontent : 0 + (((Server.sortedMembers scope).map (serverEntry contents)).map
      (·.bytes.length)).sum ≤ Client.limits.contentBytes := by
    have hless := sum_bytes_le ((Server.sortedMembers scope).map (serverEntry contents))
    have hsame : Client.limits.contentBytes = Client.limits.archiveBytes := rfl
    omega
  have hentries : ∀ entry ∈ (Server.sortedMembers scope).map (serverEntry contents),
      entry.Portable platform := by
    intro entry hentry
    obtain ⟨member, hmember, rfl⟩ := List.mem_map.mp hentry
    have hmem := mem_sortedMembers.mp hmember
    refine ⟨hportable.safe member hmem, ?_, fun hkind ↦ ?_⟩
    · have hfields := (validateMember_of_portable hvalid hportable hmem)
      simp only [validateMember, ProjectedMember.fields, Bool.and_eq_true,
        decide_eq_true_eq] at hfields
      exact hfields.1.1.1.1.1.1.1.1.2
    · have htype : member.objectType = .directory := by
        by_contra htype
        rw [serverEntry, Client.memberKind, if_neg htype] at hkind
        cases hkind
      rw [serverEntry, get?_directory hclosed (nodup_paths_of_valid hvalid) hmem htype]
      rfl
  have hnames : (((Server.sortedMembers scope).map (serverEntry contents)).map
      (libraries.foldedCase ·.path)).Nodup := by
    rw [List.map_map]
    exact ((List.perm_insertionSort _ _).map _).nodup_iff.mpr hportable.folded
  have hpermit : admitEntries platform libraries Client.limits
      ((Server.sortedMembers scope).map (serverEntry contents)) 0 22 [] = true :=
    admitEntries_of_portable hentries hcontent hsize usable_limits hnames
      fun entry _ ↦ List.not_mem_nil
  simp only [validate, Bool.and_eq_true, decide_eq_true_eq, entryNames_server]
  refine ⟨⟨⟨⟨hcount, ?_⟩, hpermit⟩, hportable.directories⟩, hportable.leaves⟩
  omega

end Checked

/-! ### The client's verifier -/

section Verifiers

variable {platform : Platform} {libraries : Libraries} {scope : ScopeAdaptation}
  {contents : Server.Contents}

/-- The files that the client reads from the archive that the server writes. -/
def readFiles (scope : ScopeAdaptation) (contents : Server.Contents) : List Client.Member :=
  Client.archiveFiles ((Server.sortedMembers scope).map (serverEntry contents))

theorem mem_readFiles {file : Client.Member} :
    file ∈ readFiles scope contents ↔ ∃ member ∈ Server.declaredFiles scope,
      file = ⟨member.path, (contents.get? member.path).getD [], member.mode⟩ := by
  simp only [readFiles, Client.archiveFiles, List.mem_map, List.mem_filter, decide_eq_true_eq]
  constructor
  · rintro ⟨_, ⟨⟨member, hmember, rfl⟩, hkind⟩, rfl⟩
    refine ⟨member, mem_declaredFiles.mpr ⟨mem_sortedMembers.mp hmember, fun htype ↦ ?_⟩, rfl⟩
    rw [serverEntry, Client.memberKind, if_pos htype] at hkind
    cases hkind
  · rintro ⟨member, hmember, rfl⟩
    obtain ⟨hmem, htype⟩ := mem_declaredFiles.mp hmember
    refine ⟨serverEntry contents member, ⟨⟨member, mem_sortedMembers.mpr hmem, rfl⟩, ?_⟩, rfl⟩
    rw [serverEntry, Client.memberKind, if_neg htype]

theorem readFiles_paths (scope : ScopeAdaptation) (contents : Server.Contents) :
    ((readFiles scope contents).map (·.path)).Perm ((Server.declaredFiles scope).map (·.path)) := by
  have hfiles : (readFiles scope contents).map (·.path) =
      ((Server.sortedMembers scope).filter (·.objectType = .file)).map (·.path) := by
    rw [readFiles, Client.archiveFiles, List.filter_map, List.map_map, List.map_map]
    have hkinds : (Server.sortedMembers scope).filter
        ((fun entry : Entry ↦ decide (entry.kind = .file)) ∘ serverEntry contents) =
        (Server.sortedMembers scope).filter (·.objectType = .file) := by
      refine List.filter_congr fun member _ ↦ ?_
      cases htype : member.objectType <;> simp [serverEntry, Client.memberKind, htype]
    rw [hkinds]
    rfl
  rw [hfiles]
  exact ((List.perm_insertionSort _ _).filter _).map _

theorem declared_readFiles (hclosed : Server.Closed libraries scope contents) :
    Declared scope contents (readFiles scope contents) := by
  refine ⟨readFiles_paths scope contents, fun file hfile ↦ ?_, fun file hfile ↦ ?_⟩
  · obtain ⟨member, hmember, rfl⟩ := mem_readFiles.mp hfile
    obtain ⟨bytes, hbytes⟩ := Option.isSome_iff_exists.mp (hclosed.present member hmember)
    show contents.get? member.path = some ((contents.get? member.path).getD [])
    rw [hbytes]
    rfl
  · obtain ⟨member, hmember, rfl⟩ := mem_readFiles.mp hfile
    exact ⟨member, hmember, rfl, rfl⟩

/-- The client builds the archive again from the files that it read. -/
theorem build_readFiles (hvalid : scope.valid libraries = true)
    (hportable : Portable platform libraries scope)
    (hclosed : Server.Closed libraries scope contents)
    (hlength : (Server.writeArchive scope contents).length ≤ maxProjectionBytes) :
    Client.build platform libraries scope (readFiles scope contents) =
      some (Server.writeArchive scope contents) := by
  have hpaths := nodup_paths_of_valid hvalid
  have hfilePaths : ((readFiles scope contents).map (·.path)).Nodup :=
    (readFiles_paths scope contents).nodup_iff.mpr (hpaths.sublist (List.filter_sublist.map _))
  obtain ⟨table, htable⟩ : ∃ table, Client.filesByPath (readFiles scope contents) .empty =
      some table :=
    Client.filesByPath_of_nodup hfilePaths
  have hget : ∀ member ∈ scope.members, member.objectType ≠ .directory →
      table.get? member.path =
        some ⟨member.path, (contents.get? member.path).getD [], member.mode⟩ := by
    intro member hmember htype
    rw [Client.get?_of_filesByPath htable]
    exact ⟨mem_readFiles.mpr ⟨member, mem_declaredFiles.mpr ⟨hmember, htype⟩, rfl⟩, rfl⟩
  have hpresent : ∀ member ∈ scope.members, member.objectType ≠ .directory →
      ∃ bytes, contents.get? member.path = some bytes ∧
        Server.matchesArtifact libraries member bytes = true := by
    intro member hmember htype
    have hdeclared := mem_declaredFiles.mpr ⟨hmember, htype⟩
    obtain ⟨bytes, hbytes⟩ := Option.isSome_iff_exists.mp (hclosed.present member hdeclared)
    exact ⟨bytes, hbytes, hclosed.artifacts member hdeclared bytes hbytes⟩
  have hprovides : ∀ member ∈ scope.members, Client.Provides libraries table member := by
    intro member hmember
    refine ⟨validateMember_of_portable hvalid hportable hmember, fun htype ↦ ?_⟩
    refine ⟨_, hget member hmember htype, ?_⟩
    obtain ⟨bytes, hbytes, hartifact⟩ := hpresent member hmember htype
    simp only [Client.matchesMember, hbytes, Option.getD_some, decide_true, Bool.true_and]
    simp only [Server.matchesArtifact, Option.any_eq_true, decide_eq_true_eq] at hartifact ⊢
    obtain ⟨artifact, hmem, hsize, hdigest⟩ := hartifact
    exact ⟨artifact, hmem, hsize.symm, hdigest.symm⟩
  have hsame : ∀ member ∈ scope.members, member.objectType ≠ .directory →
      (table.get? member.path).map (·.bytes) = contents.get? member.path := by
    intro member hmember htype
    obtain ⟨bytes, hbytes, -⟩ := hpresent member hmember htype
    rw [hget member hmember htype, hbytes]
    rfl
  have hsurplus : Client.surplus scope.members table = [] := by
    rw [Client.surplus, List.filter_eq_nil_iff]
    intro entry hentry
    rw [Client.entries_of_filesByPath htable] at hentry
    obtain ⟨file, hfile, rfl⟩ := List.mem_map.mp hentry
    obtain ⟨member, hmember, rfl⟩ := mem_readFiles.mp hfile
    obtain ⟨hmem, htype⟩ := mem_declaredFiles.mp hmember
    intro hall
    simpa [htype] using List.all_eq_true.mp hall member hmem
  have hcount : scope.members ≠ [] ∧ scope.members.length ≤ Client.limits.entries ∧
      (readFiles scope contents).length ≤ Client.limits.entries := by
    simp only [ScopeAdaptation.valid, ScopeAdaptation.fields, Bool.and_eq_true,
      decide_eq_true_eq] at hvalid
    refine ⟨?_, hclosed.members, ?_⟩
    · rintro hempty
      rw [hempty] at hvalid
      exact absurd hvalid.1.1.1.1.1.1.1.2 (by decide)
    · have hperm := (readFiles_paths scope contents).length_eq
      rw [List.length_map, List.length_map] at hperm
      rw [hperm]
      exact le_trans (List.length_filter_le _ _) hclosed.members
  rw [Client.build_of_provides hpaths (validateScope_of_portable hvalid hportable) hcount htable
    hprovides hsurplus, sorted_memberEntries hclosed hpaths hsame, encode,
    if_pos (validate_of_portable hvalid hportable hclosed hlength), writeArchive_eq_encodeBytes]

/-- Whatever the client verifies has a portable declaration. -/
theorem portable_of_verify {reader : ArchiveReader} {payload : Bytes}
    {files : List Client.Member} (hvalid : scope.valid libraries = true)
    (h : Client.verify platform libraries reader scope payload = some files) :
    Portable platform libraries scope := by
  unfold Client.verify at h
  simp only [Option.bind_eq_bind, Option.bind_eq_some_iff, Option.guard_eq_some', Option.pure_def,
    Option.some.injEq] at h
  obtain ⟨_, hscope, _, _, entries, _, _, hbuild, _⟩ := h
  obtain ⟨-, table, -, -, hencode⟩ := Client.build_eq_some (nodup_paths_of_valid hvalid) hbuild
  rw [sorted_entries scope fun _ ↦ rfl] at hencode
  unfold encode at hencode
  split_ifs at hencode with hentries
  have hnames : entryNames ((Server.sortedMembers scope).map (Client.memberEntry table)) =
      archiveNames scope := by
    rw [entryNames, archiveNames, List.map_map]
    rfl
  simp only [validate, Bool.and_eq_true, hnames] at hentries
  obtain ⟨⟨⟨-, hpermit⟩, hdirectories⟩, hleaves⟩ := hentries
  simp only [validateScope, scopeSchema, scopeInvariants, ScopeAdaptation.fields, Bool.and_eq_true,
    decide_eq_true_eq, List.all_eq_true] at hscope
  obtain ⟨⟨⟨⟨⟨⟨⟨⟨-, hversions⟩, -⟩, -⟩, hunique⟩, hsystems⟩, harchitectures⟩, hlosses⟩, hfolded, -⟩ :=
    hscope
  constructor
  · intro member hmember
    exact (portable_of_admitEntries hpermit _
      (List.mem_map_of_mem (mem_sortedMembers.mpr hmember))).safe
  · exact hfolded
  · exact hdirectories
  · exact hleaves
  · exact hunique
  · intro version hversion character hcharacter
    simpa using (hversions version hversion).2 character hcharacter
  · exact hsystems
  · exact harchitectures
  · exact hlosses

/-- The client verifies the archive that the server accepts for a portable declaration. -/
theorem verify_of_portable {reader : ArchiveReader} {payload : Bytes}
    (hreader : ReadsArchives platform libraries Client.limits reader)
    (hvalid : scope.valid libraries = true) (hportable : Portable platform libraries scope)
    (h : Server.verifyProjection libraries scope payload = some contents) :
    Client.verify platform libraries reader scope payload = some (readFiles scope contents) := by
  obtain ⟨hlength, hsize, hdigest, hclosed, rfl⟩ := Server.verifyProjection_sound h
  have hentries : decode platform Client.limits libraries reader
      (Server.writeArchive scope contents) =
        some ((Server.sortedMembers scope).map (serverEntry contents)) := by
    rw [writeArchive_eq_encodeBytes]
    exact decode_encodeBytes hreader (validate_of_portable hvalid hportable hclosed hlength)
      usable_limits.ending
  unfold Client.verify
  simp only [Option.bind_eq_bind, Option.bind_eq_some_iff, Option.guard_eq_some', Option.pure_def,
    Option.some.injEq]
  exact ⟨(), validateScope_of_portable hvalid hportable, (), ⟨hlength, hsize.symm, hdigest.symm⟩,
    _, hentries, (), build_readFiles hvalid hportable hclosed hlength, rfl⟩

end Verifiers

/-! ### Libraries and declarations to evaluate on

The names are ASCII texts. The digests are the SHA-256 of a file with the one byte 65 and of the
archives of it under two names. -/

namespace Sample

def content : Bytes := [65]

/-- The archive of the content under a name of three ASCII characters. -/
def archiveOf (name : Bytes) : Bytes :=
  [80, 75, 3, 4, 20, 0, 0, 0, 0, 0, 0, 0, 33, 0, 139, 158, 217, 211, 1, 0, 0, 0, 1, 0, 0, 0, 3, 0,
    0, 0] ++ name ++ content ++
  [80, 75, 1, 2, 20, 3, 20, 0, 0, 0, 0, 0, 0, 0, 33, 0, 139, 158, 217, 211, 1, 0, 0, 0, 1, 0, 0, 0,
    3, 0, 0, 0, 0, 0, 0, 0, 0, 0, 0, 0, 164, 129, 0, 0, 0, 0] ++ name ++
  [80, 75, 5, 6, 0, 0, 0, 0, 1, 0, 1, 0, 49, 0, 0, 0, 34, 0, 0, 0, 0, 0]

/-- The names `a.b` and `a:b`. -/
def dotName : Bytes := [97, 46, 98]

def colonName : Bytes := [97, 58, 98]

def contentSha256 : String :=
  "7c7b1dcafd95bce6cfb4415c0760757849d7fa009841820bcb8bef4b19f4ab01"

def dotSha256 : String :=
  "8ee3f4c8ae23859135683d6346a0026d8fda0054be0f15c9eb56af0eb2045c55"

def colonSha256 : String :=
  "a4ae3aa423b888777144ad3b451288789f525e805164c682131d6c39fb7c9c3a"

def libraries : Libraries where
  casefold := fun text ↦ String.ofList (text.toList.map Char.toLower)
  foldedCase := fun text ↦ String.ofList (text.toList.map Char.toLower)
  modelSpace := Char.isWhitespace
  schemaSpace := Char.isWhitespace
  sha256 := fun _ bytes ↦
    if bytes = content then contentSha256
    else if bytes = archiveOf dotName then dotSha256
    else if bytes = archiveOf colonName then colonSha256
    else ""

/-- The declaration of a file with the content, in an archive with the digest. -/
def scope (path digest : String) : ScopeAdaptation where
  scope := .project
  projectionFormat := adaptationProjectionFormat
  projectionArtifact := ⟨"sha256:" ++ digest, 105⟩
  providerComponentKind := .skill
  projectionKind := .nativeFiles
  requiredSurface := ⟨"profile", "sha256:" ++ contentSha256, "files"⟩
  members :=
    [{ path := path
       objectType := .file
       mode := 0o644
       contentArtifact := some ⟨"sha256:" ++ contentSha256, 1⟩
       contentFormat := "text"
       ownership := .whole
       writeSemantics := .replace
       withdrawalSemantics := .removePath }]
  technicalSupport := .supported

theorem portable_dot : Portable asciiPlatform libraries (scope "a.b" dotSha256) := by
  constructor
  · decide
  · decide
  · decide
  · decide
  · decide
  · exact fun version hversion ↦ (nomatch hversion)
  · decide
  · decide
  · decide

end Sample

/-- An archive that the server accepts is verified by the client, with the declared files, exactly
when the declaration is portable; and where both builders accept the same files, they write the
same bytes. -/
theorem projections_agree (platform : Platform) (libraries : Libraries) {reader : ArchiveReader}
    (hreader : ReadsArchives platform libraries Client.limits reader) {scope : ScopeAdaptation}
    (hvalid : scope.valid libraries = true) :
    (∀ payload contents, Server.verifyProjection libraries scope payload = some contents →
      ((∃ files, Client.verify platform libraries reader scope payload = some files ∧
        Declared scope contents files) ↔ Portable platform libraries scope)) ∧
    ∀ contents files first second, SameFiles contents files →
      Server.buildProjection libraries scope contents = some first →
      Client.build platform libraries scope files = some second → first = second := by
  refine ⟨fun payload contents hserver ↦ ⟨?_, fun hportable ↦ ?_⟩, ?_⟩
  · rintro ⟨files, hclient, -⟩
    exact portable_of_verify hvalid hclient
  · obtain ⟨-, -, -, hclosed, -⟩ := Server.verifyProjection_sound hserver
    exact ⟨_, verify_of_portable hreader hvalid hportable hserver, declared_readFiles hclosed⟩
  · intro contents files first second hfiles hserver hclient
    exact builders_agree hvalid hfiles hserver hclient

/-- A portable archive that both verify. -/
theorem portable_archive_verified : ∃ contents,
    Server.verifyProjection Sample.libraries (Sample.scope "a.b" Sample.dotSha256)
      (Sample.archiveOf Sample.dotName) = some contents ∧
    ∃ files, Client.verify asciiPlatform Sample.libraries Sample.archiveReader
        (Sample.scope "a.b" Sample.dotSha256) (Sample.archiveOf Sample.dotName) = some files ∧
      Declared (Sample.scope "a.b" Sample.dotSha256) contents files := by
  have haccepted : (Server.verifyProjection Sample.libraries (Sample.scope "a.b" Sample.dotSha256)
      (Sample.archiveOf Sample.dotName)).isSome = true := by
    decide +kernel
  obtain ⟨contents, hserver⟩ := Option.isSome_iff_exists.mp haccepted
  have hagree := projections_agree asciiPlatform Sample.libraries
    (Sample.archiveReader_reads asciiPlatform Sample.libraries usable_limits)
    (by decide : (Sample.scope "a.b" Sample.dotSha256).valid Sample.libraries = true)
  exact ⟨contents, hserver, (hagree.1 _ contents hserver).mpr Sample.portable_dot⟩

/-- A file whose name has a colon is declared and archived as the server wants it, and the client
refuses the archive. -/
theorem colon_archive_refused :
    (Sample.scope "a:b" Sample.colonSha256).valid Sample.libraries = true ∧
      (Server.verifyProjection Sample.libraries (Sample.scope "a:b" Sample.colonSha256)
        (Sample.archiveOf Sample.colonName)).isSome = true ∧
      ∀ reader, Client.verify asciiPlatform Sample.libraries reader
        (Sample.scope "a:b" Sample.colonSha256) (Sample.archiveOf Sample.colonName) = none := by
  have hvalid : (Sample.scope "a:b" Sample.colonSha256).valid Sample.libraries = true := by
    decide
  refine ⟨hvalid, by decide +kernel, fun reader ↦ ?_⟩
  by_contra hverified
  obtain ⟨files, hfiles⟩ := Option.ne_none_iff_exists'.mp hverified
  have hsafe := (portable_of_verify hvalid hfiles).safe _ List.mem_cons_self
  revert hsafe
  decide

end AiStp.Projection
