import AiStp.Projection.Declarations

/-!
# The client's archives

The client writes archives with a writer of its own (`encode`), after it has checked that every path
is portable and that no two of them clash on a system that folds the case of names (`validate`). It
reads them with a library (`ArchiveReader`) and takes what the library read only if writing it again
gives the same bytes (`decode`).
-/

set_option autoImplicit false

namespace AiStp.Projection

open Foundation Library Zip

inductive Kind where
  | file
  | directory
deriving DecidableEq

structure Entry where
  path : String
  bytes : Bytes
  mode : Nat
  kind : Kind
deriving DecidableEq

structure Limits where
  entries : Nat
  fileBytes : Nat
  contentBytes : Nat
  archiveBytes : Nat

/-! ### Checks of names -/

/-- The path without its last part, that path without its last part, and so on. -/
def parentPaths (path : String) : List String :=
  (((pathParts path).reverse.tails.drop 1).filter (· ≠ [])).map fun parts ↦ pathText parts.reverse

section Names

variable (libraries : Libraries)

/-- The directories that two paths share by their folded names are spelled alike. -/
def sharedAlike : List String → List String → Bool
  | left :: lefts, right :: rights =>
    if libraries.foldedCase left ≠ libraries.foldedCase right then true
    else if left ≠ right then false
    else sharedAlike lefts rights
  | _, _ => true

def adjacentAlike : List String → Bool
  | first :: second :: rest =>
    sharedAlike libraries (pathParts first) (pathParts second) && adjacentAlike (second :: rest)
  | _ => true

/-- Neighbours in the folded order of the paths spell alike what they share. -/
def directoriesAgree (names : List (String × Kind)) : Bool :=
  adjacentAlike libraries ((names.map Prod.fst).insertionSort fun left right ↦
    libraries.foldedCase left ≤ libraries.foldedCase right)

/-- No file has the folded name of a directory above another entry. -/
def filesAreLeaves (names : List (String × Kind)) : Bool :=
  names.all fun name ↦ (parentPaths name.1).all fun parent ↦
    !names.any fun other ↦ other.2 = .file &&
      libraries.foldedCase other.1 = libraries.foldedCase parent

end Names

/-! ### Validation -/

section Validation

variable (platform : Platform) (libraries : Libraries) (limits : Limits)

/-- The bytes that an entry adds to an archive. -/
def entrySize (entry : Entry) : Nat :=
  76 + 2 * (entry.path.utf8ByteSize + if entry.kind = .directory then 1 else 0) +
    entry.bytes.length

/-- The checks of one entry after the others: the bytes so far, the size of the archive so far and
the folded names of the entries before. -/
def admitEntries : List Entry → Nat → Nat → List String → Bool
  | [], _, _, _ => true
  | entry :: entries, content, archive, names =>
    let content := content + entry.bytes.length
    let archive := archive + entrySize entry
    safePath platform (pathParts entry.path) && entry.mode ≤ 0o777 &&
      !(entry.kind = .directory && entry.bytes ≠ []) && entry.bytes.length ≤ limits.fileBytes &&
      content ≤ limits.contentBytes && archive ≤ limits.archiveBytes &&
      archive < 2 ^ 32 - 1 && libraries.foldedCase entry.path ∉ names &&
      admitEntries entries content archive (libraries.foldedCase entry.path :: names)

def entryNames (entries : List Entry) : List (String × Kind) :=
  entries.map fun entry ↦ (entry.path, entry.kind)

def validate (entries : List Entry) : Bool :=
  entries.length ≤ limits.entries && entries.length < 2 ^ 16 - 1 &&
    admitEntries platform libraries limits entries 0 22 [] &&
    directoriesAgree libraries (entryNames entries) && filesAreLeaves libraries (entryNames entries)

end Validation

/-! ### The writer -/

def nameBytes (path : String) (kind : Kind) : Bytes :=
  (if kind = .directory then path ++ "/" else path).toByteArray.data.toList

def isAscii (bytes : Bytes) : Bool :=
  bytes.all (· < 128)

def fileType : Kind → Nat
  | .file => 0o100000
  | .directory => 0o040000

/-- One entry is written behind the others, and its record behind the directory so far. -/
def encodeEntry (state : Bytes × Bytes) (entry : Entry) : Bytes × Bytes :=
  let (output, central) := state
  let name := nameBytes entry.path entry.kind
  let flag := if isAscii name then 0 else 1 <<< 11
  let size := entry.bytes.length
  let crc := crc32 entry.bytes
  let offset := output.length
  (output ++ littleEndian 4 0x04034b50 ++ [20, flag, 0, 0, 33].flatMap (littleEndian 2) ++
      [crc, size, size].flatMap (littleEndian 4) ++ [name.length, 0].flatMap (littleEndian 2) ++
      name ++ entry.bytes,
    central ++ littleEndian 4 0x02014b50 ++ [0x0314, 20, flag, 0, 0, 33].flatMap (littleEndian 2) ++
      [crc, size, size].flatMap (littleEndian 4) ++
      [name.length, 0, 0, 0, 0].flatMap (littleEndian 2) ++
      littleEndian 4 ((fileType entry.kind ||| entry.mode) <<< 16) ++ littleEndian 4 offset ++ name)

def encodeBytes (entries : List Entry) : Bytes :=
  let (output, central) := entries.foldl encodeEntry ([], [])
  output ++ central ++ littleEndian 4 0x06054b50 ++
    [0, 0, entries.length, entries.length].flatMap (littleEndian 2) ++
    littleEndian 4 central.length ++ littleEndian 4 output.length ++ littleEndian 2 0

def encode (platform : Platform) (libraries : Libraries) (limits : Limits)
    (entries : List Entry) : Option Bytes :=
  if validate platform libraries limits entries then some (encodeBytes entries) else none

/-! ### The reader -/

/-- What the library says of one file of an archive. -/
structure ArchiveFile where
  name : Option String
  unixMode : Option Nat
  size : Nat
  stored : Bool
  encrypted : Bool
  isDir : Bool
  content : Option Bytes

structure ReadArchive where
  /-- The files, where their two records agree. -/
  files : List (Option ArchiveFile)
  offset : Nat
  directoryStart : Nat

/-- The library that reads archives. -/
abbrev ArchiveReader := Bytes → Option ReadArchive

/-- The name of a directory without the slash at its end. -/
def directoryName (name : String) : Option String :=
  if name.toList.getLast? = some '/' then some (String.ofList name.toList.dropLast) else none

def modeKind (mode : Nat) : Option Kind :=
  if mode &&& 0o170000 = 0o100000 then some .file
  else if mode &&& 0o170000 = 0o040000 then some .directory
  else none

def entryPath (name : String) : Kind → Option String
  | .file => some name
  | .directory => directoryName name

section Reader

variable (platform : Platform) (limits : Limits)

/-- One file, with the bytes of the files before it. -/
def decodeFile (file : ArchiveFile) (total : Nat) : Option Entry := do
  let mode ← file.unixMode
  let kind ← modeKind mode
  let name ← file.name
  let path ← entryPath name kind
  guard (safePath platform (pathParts path) ∧ mode &&& 0o7777 ≤ 0o777 ∧ file.stored ∧
    ¬ file.encrypted ∧ file.isDir = decide (kind = .directory) ∧
    (kind = .directory → file.size = 0) ∧ file.size ≤ limits.fileBytes ∧
    total + file.size ≤ limits.contentBytes)
  let bytes ← file.content
  guard (bytes.length = file.size)
  return { path := path, bytes := bytes, mode := mode &&& 0o777, kind := kind }

def decodeFiles : List (Option ArchiveFile) → Nat → Option (List Entry)
  | [], _ => some []
  | file :: files, total => do
    let file ← file
    let entry ← decodeFile platform limits file total
    let entries ← decodeFiles files (total + file.size)
    return entry :: entries

def decode (libraries : Libraries) (reader : ArchiveReader) (payload : Bytes) :
    Option (List Entry) := do
  guard (payload.length ≤ limits.archiveBytes ∧ 22 ≤ payload.length)
  let ending := payload.length - 22
  let footer := payload.drop ending
  let count := field footer 10 2
  let size := field footer 12 4
  let start := field footer 16 4
  guard (footer.take 4 = endSignature ∧ field footer 4 4 = 0 ∧ field footer 8 2 = count ∧
    field footer 20 2 = 0 ∧ count ≤ limits.entries ∧ start + size = ending)
  let archive ← reader payload
  guard (archive.files.length = count ∧ archive.offset = 0 ∧ archive.directoryStart = start)
  let entries ← decodeFiles platform limits archive.files 0
  guard (encode platform libraries limits entries = some payload)
  return entries

end Reader

/-! ### What the checks admit -/

variable {entries : List Entry}

section Admission

variable {platform : Platform} {libraries : Libraries} {limits : Limits}

/-- What is asked of every entry by itself. -/
structure Entry.Portable (platform : Platform) (entry : Entry) : Prop where
  safe : safePath platform (pathParts entry.path) = true
  mode : entry.mode ≤ 0o777
  directory : entry.kind = .directory → entry.bytes = []

variable {names : List String}

theorem portable_of_admitEntries {content archive : Nat}
    (h : admitEntries platform libraries limits entries content archive names = true) :
    ∀ entry ∈ entries, entry.Portable platform := by
  induction entries generalizing content archive names with
  | nil => exact fun entry hentry ↦ nomatch hentry
  | cons first entries ih =>
    simp only [admitEntries, Bool.and_eq_true, decide_eq_true_eq] at h
    obtain ⟨⟨⟨⟨⟨⟨⟨⟨hsafe, hmode⟩, hdirectory⟩, -⟩, -⟩, -⟩, -⟩, -⟩, hrest⟩ := h
    intro entry hentry
    rcases List.mem_cons.mp hentry with rfl | hentry
    · refine ⟨hsafe, hmode, fun hkind ↦ ?_⟩
      simpa [hkind] using hdirectory
    · exact ih hrest entry hentry

theorem bounds_of_admitEntries {content archive : Nat} (hcontent : content ≤ limits.contentBytes)
    (harchive : archive ≤ limits.archiveBytes) (hfield : archive < 2 ^ 32 - 1)
    (h : admitEntries platform libraries limits entries content archive names = true) :
    content + (entries.map (·.bytes.length)).sum ≤ limits.contentBytes ∧
      archive + (entries.map entrySize).sum ≤ limits.archiveBytes ∧
      archive + (entries.map entrySize).sum < 2 ^ 32 - 1 ∧
      ∀ entry ∈ entries, entry.bytes.length ≤ limits.fileBytes := by
  induction entries generalizing content archive names with
  | nil => exact ⟨hcontent, harchive, hfield, fun entry hentry ↦ nomatch hentry⟩
  | cons first entries ih =>
    simp only [admitEntries, Bool.and_eq_true, decide_eq_true_eq] at h
    obtain ⟨⟨⟨⟨⟨⟨⟨⟨-, -⟩, -⟩, hfile⟩, hcontent⟩, harchive⟩, hfield⟩, -⟩, hrest⟩ := h
    obtain ⟨hcontents, hsizes, hfields, hfiles⟩ := ih hcontent harchive hfield hrest
    rw [List.map_cons, List.sum_cons, List.map_cons, List.sum_cons, List.forall_mem_cons]
    refine ⟨?_, ?_, ?_, hfile, hfiles⟩ <;> omega

/-- Entries that are admitted have different folded names. -/
theorem names_of_admitEntries {content archive : Nat}
    (h : admitEntries platform libraries limits entries content archive names = true) :
    (∀ entry ∈ entries, libraries.foldedCase entry.path ∉ names) ∧
      (entries.map (libraries.foldedCase ·.path)).Nodup := by
  induction entries generalizing content archive names with
  | nil => exact ⟨nofun, List.nodup_nil⟩
  | cons first entries ih =>
    simp only [admitEntries, Bool.and_eq_true, decide_eq_true_eq] at h
    obtain ⟨hnew, hnodup⟩ := ih h.2
    rw [List.forall_mem_cons, List.map_cons, List.nodup_cons]
    refine ⟨⟨h.1.2, fun entry hentry hmem ↦ hnew entry hentry (List.mem_cons_of_mem _ hmem)⟩, ?_,
      hnodup⟩
    intro hmem
    obtain ⟨entry, hentry, hsame⟩ := List.mem_map.mp hmem
    exact hnew entry hentry (List.mem_cons.mpr (.inl hsame))

/-- Limits under which an archive is read back: a file may take all of the content, and sizes fit
into their fields. -/
structure Limits.Usable (limits : Limits) : Prop where
  file : limits.contentBytes ≤ limits.fileBytes
  archive : limits.archiveBytes < 2 ^ 32 - 1
  ending : 22 ≤ limits.archiveBytes

/-- Entries that are portable and have different folded names are admitted, up to the limits. -/
theorem admitEntries_of_portable {content archive : Nat}
    (hportable : ∀ entry ∈ entries, entry.Portable platform)
    (hcontent : content + (entries.map (·.bytes.length)).sum ≤ limits.contentBytes)
    (harchive : archive + (entries.map entrySize).sum ≤ limits.archiveBytes)
    (husable : limits.Usable) (hnames : (entries.map (libraries.foldedCase ·.path)).Nodup)
    (hnew : ∀ entry ∈ entries, libraries.foldedCase entry.path ∉ names) :
    admitEntries platform libraries limits entries content archive names = true := by
  induction entries generalizing content archive names with
  | nil => rfl
  | cons first entries ih =>
    rw [List.map_cons, List.sum_cons] at hcontent harchive
    rw [List.map_cons, List.nodup_cons] at hnames
    have hfile := husable.file
    have hlimit := husable.archive
    have hfirst := hportable first List.mem_cons_self
    have hdirectory : (first.kind = .directory && first.bytes ≠ []) = false := by
      by_cases hkind : first.kind = .directory
      · simp [hfirst.directory hkind]
      · simp [hkind]
    simp only [admitEntries, Bool.and_eq_true, decide_eq_true_eq]
    refine ⟨⟨⟨⟨⟨⟨⟨⟨hfirst.safe, hfirst.mode⟩, ?_⟩, ?_⟩, ?_⟩, ?_⟩, ?_⟩, ?_⟩, ?_⟩
    · rw [hdirectory]
      rfl
    · omega
    · omega
    · omega
    · omega
    · exact hnew first List.mem_cons_self
    · refine ih (fun entry hentry ↦ hportable entry (List.mem_cons_of_mem first hentry)) ?_ ?_
        hnames.2 ?_
      · omega
      · omega
      · intro entry hentry hmem
        rcases List.mem_cons.mp hmem with hsame | hmem
        · exact hnames.1 (hsame ▸ List.mem_map_of_mem hentry)
        · exact hnew entry (List.mem_cons_of_mem first hentry) hmem

end Admission

/-! ### What the writer writes -/

/-- The entry of the archive format. -/
def zipEntry (entry : Entry) : Zip.Entry :=
  let name := nameBytes entry.path entry.kind
  { name := name
    content := entry.bytes
    madeBy := 0x0314
    version := 20
    flags := if isAscii name then 0 else 1 <<< 11
    time := 0
    date := 33
    attributes := (fileType entry.kind ||| entry.mode) <<< 16 }

theorem encodeEntry_eq (output central : Bytes) (entry : Entry) :
    encodeEntry (output, central) entry =
      (output ++ localRecord (zipEntry entry),
        central ++ directoryRecord output.length (zipEntry entry)) := by
  simp only [encodeEntry, localRecord, directoryRecord, localLayout, directoryLayout, numbers,
    zipEntry, List.flatMap_cons, List.flatMap_nil, List.append_nil, List.append_assoc]

theorem foldl_encodeEntry (entries : List Entry) (output central : Bytes) :
    entries.foldl encodeEntry (output, central) =
      (output ++ localRecords (entries.map zipEntry),
        central ++ directory output.length (entries.map zipEntry)) := by
  induction entries generalizing output central with
  | nil => simp [localRecords, directory]
  | cons entry entries ih =>
    rw [List.foldl_cons, encodeEntry_eq, ih, List.map_cons, directory]
    simp only [localRecords, List.flatMap_cons, List.append_assoc, List.length_append]

/-- The writer writes an archive of the format. -/
theorem encodeBytes_eq (entries : List Entry) :
    encodeBytes entries = archive (entries.map zipEntry) := by
  simp only [encodeBytes, foldl_encodeEntry, archive, endRecord, endLayout, numbers,
    List.flatMap_cons, List.flatMap_nil, List.nil_append, List.append_nil, List.append_assoc,
    List.length_map, List.length_nil]

theorem length_nameBytes (entry : Entry) : (nameBytes entry.path entry.kind).length =
    entry.path.utf8ByteSize + if entry.kind = .directory then 1 else 0 := by
  unfold nameBytes
  split_ifs
  · show (entry.path ++ "/").toByteArray.data.toList.length = _
    rw [Array.length_toList]
    simp
    rfl
  · rw [Array.length_toList]
    simp

theorem length_encodeBytes (entries : List Entry) :
    (encodeBytes entries).length = 22 + (entries.map entrySize).sum := by
  rw [encodeBytes_eq, length_archive, List.map_map]
  congr 2
  refine List.map_congr_left fun entry _ ↦ ?_
  show 76 + 2 * (nameBytes entry.path entry.kind).length + entry.bytes.length = _
  rw [length_nameBytes]
  rfl

/-! ### What the reader reads back -/

/-- The file of an archive that an entry becomes. -/
def writtenFile (entry : Entry) : ArchiveFile where
  name := some (if entry.kind = .directory then entry.path ++ "/" else entry.path)
  unixMode := some (fileType entry.kind ||| entry.mode)
  size := entry.bytes.length
  stored := true
  encrypted := false
  isDir := entry.kind = .directory
  content := some entry.bytes

def writtenArchive (entries : List Entry) : ReadArchive where
  files := entries.map fun entry ↦ some (writtenFile entry)
  offset := 0
  directoryStart := (localRecords (entries.map zipEntry)).length

/-- The library reads back the archives that the writer writes for entries that it admits. -/
def ReadsArchives (platform : Platform) (libraries : Libraries) (limits : Limits)
    (reader : ArchiveReader) : Prop :=
  ∀ entries, validate platform libraries limits entries = true →
    reader (encodeBytes entries) = some (writtenArchive entries)

/-- The type and the permissions share no bits of a mode. -/
theorem mode_bits (kind : Kind) {mode : Nat} (hmode : mode ≤ 0o777) :
    (fileType kind ||| mode) &&& 0o170000 = fileType kind ∧
      (fileType kind ||| mode) &&& 0o7777 = mode ∧ (fileType kind ||| mode) &&& 0o777 = mode := by
  have hall : ∀ mode < 512, ∀ kind ∈ [Kind.file, Kind.directory],
      (fileType kind ||| mode) &&& 0o170000 = fileType kind ∧
        (fileType kind ||| mode) &&& 0o7777 = mode ∧
        (fileType kind ||| mode) &&& 0o777 = mode := by
    decide +kernel
  exact hall mode (Nat.lt_succ_of_le hmode) kind (by cases kind <;> decide)

theorem directoryName_append (path : String) : directoryName (path ++ "/") = some path := by
  have hlist : (path ++ "/").toList = path.toList ++ ['/'] := by
    rw [String.toList_append]
    rfl
  rw [directoryName, hlist, List.getLast?_concat, if_pos rfl, List.dropLast_concat,
    String.ofList_toList]

section Reading

variable {platform : Platform} {libraries : Libraries} {limits : Limits}

theorem modeKind_fileType (kind : Kind) {mode : Nat} (hmode : mode ≤ 0o777) :
    modeKind (fileType kind ||| mode) = some kind := by
  rw [modeKind, (mode_bits kind hmode).1]
  cases kind <;> rfl

theorem entryPath_written (entry : Entry) :
    entryPath (if entry.kind = .directory then entry.path ++ "/" else entry.path) entry.kind =
      some entry.path := by
  cases entry.kind with
  | file => rfl
  | directory => exact directoryName_append entry.path

theorem decodeFile_written {entry : Entry} {total : Nat} (hportable : entry.Portable platform)
    (htotal : total + entry.bytes.length ≤ limits.contentBytes)
    (hfile : entry.bytes.length ≤ limits.fileBytes) :
    decodeFile platform limits (writtenFile entry) total = some entry := by
  obtain ⟨-, hpermissions, hmode⟩ := mode_bits entry.kind hportable.mode
  have hguard : safePath platform (pathParts entry.path) ∧
      (fileType entry.kind ||| entry.mode) &&& 0o7777 ≤ 0o777 ∧
      (writtenFile entry).stored ∧ ¬ (writtenFile entry).encrypted ∧
      (writtenFile entry).isDir = decide (entry.kind = .directory) ∧
      (entry.kind = .directory → entry.bytes.length = 0) ∧
      entry.bytes.length ≤ limits.fileBytes ∧
      total + entry.bytes.length ≤ limits.contentBytes := by
    refine ⟨hportable.safe, ?_, rfl, Bool.false_ne_true, rfl, ?_, hfile, htotal⟩
    · rw [hpermissions]
      exact hportable.mode
    · intro hkind
      rw [hportable.directory hkind]
      rfl
  have hkind : modeKind (fileType entry.kind ||| entry.mode) = some entry.kind :=
    modeKind_fileType entry.kind hportable.mode
  unfold decodeFile
  simp only [Option.bind_eq_bind, Option.bind_eq_some_iff, Option.guard_eq_some', Option.pure_def,
    Option.some.injEq]
  refine ⟨_, rfl, entry.kind, hkind, _, rfl, entry.path, entryPath_written entry, (), hguard,
    entry.bytes, rfl, (), rfl, ?_⟩
  rw [hmode]

theorem decodeFiles_written {total : Nat} (hportable : ∀ entry ∈ entries, entry.Portable platform)
    (htotal : total + (entries.map (·.bytes.length)).sum ≤ limits.contentBytes)
    (hfile : ∀ entry ∈ entries, entry.bytes.length ≤ limits.fileBytes) :
    decodeFiles platform limits (entries.map fun entry ↦ some (writtenFile entry)) total =
      some entries := by
  induction entries generalizing total with
  | nil => rfl
  | cons first entries ih =>
    rw [List.map_cons, List.sum_cons] at htotal
    have hfirst : decodeFile platform limits (writtenFile first) total = some first := by
      refine decodeFile_written (hportable first List.mem_cons_self) ?_
        (hfile first List.mem_cons_self)
      omega
    have hrest : decodeFiles platform limits (entries.map fun entry ↦ some (writtenFile entry))
        (total + first.bytes.length) = some entries := by
      refine ih (fun entry hentry ↦ hportable entry (List.mem_cons_of_mem first hentry)) ?_
        (fun entry hentry ↦ hfile entry (List.mem_cons_of_mem first hentry))
      omega
    simp only [List.map_cons, decodeFiles, Option.bind_eq_bind, Option.bind_some, hfirst]
    show ((decodeFiles platform limits (entries.map fun entry ↦ some (writtenFile entry))
      (total + first.bytes.length)).bind fun rest ↦ some (first :: rest)) = _
    rw [hrest]
    rfl

/-- What the writer writes for admitted entries is decoded to these entries. -/
theorem decode_encodeBytes {reader : ArchiveReader}
    (hreader : ReadsArchives platform libraries limits reader)
    (hvalid : validate platform libraries limits entries = true)
    (hending : 22 ≤ limits.archiveBytes) :
    decode platform limits libraries reader (encodeBytes entries) = some entries := by
  have hencoded : encode platform libraries limits entries = some (encodeBytes entries) := by
    rw [encode, if_pos hvalid]
  have hread := hreader entries hvalid
  simp only [validate, Bool.and_eq_true, decide_eq_true_eq] at hvalid
  obtain ⟨⟨⟨⟨hentries, hcount⟩, hpermit⟩, -⟩, -⟩ := hvalid
  have hlength : (encodeBytes entries).length = 22 + (entries.map entrySize).sum :=
    length_encodeBytes entries
  obtain ⟨hcontent, harchive, hlimit, hfile⟩ :=
    bounds_of_admitEntries (Nat.zero_le _) hending (by decide) hpermit
  have hfiles : decodeFiles platform limits (entries.map fun entry ↦ some (writtenFile entry)) 0 =
      some entries :=
    decodeFiles_written (portable_of_admitEntries hpermit) hcontent hfile
  let written := entries.map zipEntry
  have hbytes : encodeBytes entries = archive written := encodeBytes_eq entries
  have hparts : (archive written).length =
      (localRecords written).length + (directory 0 written).length + 22 := by
    simp only [archive, List.length_append, length_endRecord]
  have hnumber : written.length = entries.length := List.length_map zipEntry
  have hfooter : (encodeBytes entries).drop ((encodeBytes entries).length - 22) =
      endRecord entries.length (directory 0 written).length (localRecords written).length ++
        [] := by
    rw [hbytes, drop_archive, hnumber, List.append_nil]
  have hsizes : (localRecords written).length + (directory 0 written).length =
      (encodeBytes entries).length - 22 := by
    rw [hbytes]
    omega
  have hsmall : (localRecords written).length + (directory 0 written).length < 256 ^ 4 := by
    omega
  have hentryCount : entries.length < 256 ^ 2 := by omega
  have hsize : field ((encodeBytes entries).drop ((encodeBytes entries).length - 22)) 12 4 =
      (directory 0 written).length := by
    rw [hfooter]
    exact endRecord_size (by omega)
  have hstart : field ((encodeBytes entries).drop ((encodeBytes entries).length - 22)) 16 4 =
      (localRecords written).length := by
    rw [hfooter]
    exact endRecord_offset (by omega)
  unfold decode
  simp only [Option.bind_eq_bind, Option.bind_eq_some_iff, Option.guard_eq_some', Option.pure_def,
    Option.some.injEq, hsize, hstart]
  refine ⟨(), ⟨?_, ?_⟩, (), ⟨?_, ?_, ?_, ?_, ?_, hsizes⟩, writtenArchive entries, hread, (),
    ⟨?_, rfl, rfl⟩, entries, hfiles, (), hencoded, rfl⟩
  · omega
  · omega
  · rw [hfooter, endRecord_signature]
  · rw [hfooter, endRecord_disks]
  · rw [hfooter, endRecord_here hentryCount, endRecord_count hentryCount]
  · rw [hfooter, endRecord_comment]
  · rw [hfooter, endRecord_count hentryCount]
    exact hentries
  · rw [hfooter, endRecord_count hentryCount]
    exact List.length_map _

end Reading

/-! ### A reader to evaluate on

Files are read from the records of the format, and directories are told by their names. -/

namespace Sample

def archiveFile (entry : Zip.Entry) : ArchiveFile where
  name := String.fromUTF8? ⟨entry.name.toArray⟩
  unixMode := some (entry.attributes >>> 16)
  size := entry.content.length
  stored := true
  encrypted := entry.flags.testBit 0
  isDir := (String.fromUTF8? ⟨entry.name.toArray⟩).any fun name ↦ name.toList.getLast? = some '/'
  content := some entry.content

def archiveReader : ArchiveReader := fun payload ↦
  (Zip.read payload).map fun entries ↦
    { files := entries.map fun entry ↦ some (archiveFile entry)
      offset := 0
      directoryStart := (localRecords entries).length }

variable {platform : Platform}

/-- A portable path does not end in a slash. -/
theorem getLast?_of_safePath {path : String} (hsafe : safePath platform (pathParts path) = true) :
    path.toList.getLast? ≠ some '/' := by
  intro hlast
  obtain ⟨before, hbefore⟩ := List.getLast?_eq_some_iff.mp hlast
  have hempty : "" ∈ pathParts path := by
    rw [pathParts, hbefore, List.splitOn_append_cons_self]
    simp
  simp only [safePath, Bool.and_eq_true, List.all_eq_true] at hsafe
  have hpart := hsafe.2 "" hempty
  simp [safePart] at hpart

theorem fromUTF8?_toByteArray (text : String) :
    String.fromUTF8? ⟨text.toByteArray.data.toList.toArray⟩ = some text := by
  rw [Array.toArray_toList, String.fromUTF8?, dif_pos text.isValidUTF8]
  rfl

theorem length_of_safePath {path : String} (hsafe : safePath platform (pathParts path) = true) :
    path.utf8ByteSize ≤ 1024 := by
  simp only [safePath, Bool.and_eq_true, decide_eq_true_eq, pathText_pathParts] at hsafe
  exact hsafe.1.1.1.1.1.2

theorem fits_zipEntry {entry : Entry} (hportable : entry.Portable platform)
    (hsize : entry.bytes.length < 256 ^ 4) : (zipEntry entry).Fits := by
  have hmode : ∀ mode < 512, ∀ kind ∈ [Kind.file, Kind.directory],
      (fileType kind ||| mode) <<< 16 < 256 ^ 4 := by
    decide +kernel
  have hkind : entry.kind ∈ [Kind.file, Kind.directory] := by
    cases entry.kind <;> decide
  constructor
  · show (nameBytes entry.path entry.kind).length < 256 ^ 2
    have hlength := length_of_safePath hportable.safe
    rw [length_nameBytes]
    split_ifs <;> omega
  · exact hsize
  · exact (by decide : 0x0314 < 256 ^ 2)
  · exact (by decide : 20 < 256 ^ 2)
  · show (if isAscii (nameBytes entry.path entry.kind) then 0 else 1 <<< 11) < 256 ^ 2
    split_ifs <;> decide
  · exact (by decide : 0 < 256 ^ 2)
  · exact (by decide : 33 < 256 ^ 2)
  · exact hmode entry.mode (Nat.lt_succ_of_le hportable.mode) entry.kind hkind

theorem fits_of_validate {libraries : Libraries} {limits : Limits}
    (hvalid : validate platform libraries limits entries = true)
    (hending : 22 ≤ limits.archiveBytes) :
    (∀ entry ∈ entries, (zipEntry entry).Fits) ∧ entries.length < 2 ^ 16 - 1 ∧
      (archive (entries.map zipEntry)).length < 2 ^ 32 - 1 := by
  simp only [validate, Bool.and_eq_true, decide_eq_true_eq] at hvalid
  obtain ⟨⟨⟨⟨-, hcount⟩, hpermit⟩, -⟩, -⟩ := hvalid
  obtain ⟨-, -, hlimit, -⟩ := bounds_of_admitEntries (Nat.zero_le _) hending (by decide) hpermit
  refine ⟨fun entry hentry ↦ ?_, hcount, by rwa [← encodeBytes_eq, length_encodeBytes]⟩
  have hsize : entrySize entry ≤ (entries.map entrySize).sum :=
    List.single_le_sum (fun _ _ ↦ Nat.zero_le _) _ (List.mem_map_of_mem hentry)
  have hbytes : entry.bytes.length ≤ entrySize entry := Nat.le_add_left _ _
  exact fits_zipEntry (portable_of_admitEntries hpermit entry hentry) (by omega)

theorem archiveFile_zipEntry {entry : Entry} (hportable : entry.Portable platform) :
    archiveFile (zipEntry entry) = writtenFile entry := by
  have hmode : (fileType entry.kind ||| entry.mode) <<< 16 >>> 16 =
      fileType entry.kind ||| entry.mode :=
    Nat.shiftLeft_shiftRight _ 16
  have hname : String.fromUTF8? ⟨(nameBytes entry.path entry.kind).toArray⟩ =
      some (if entry.kind = .directory then entry.path ++ "/" else entry.path) :=
    fromUTF8?_toByteArray _
  have hplain : (zipEntry entry).flags.testBit 0 = false := by
    show (if isAscii (nameBytes entry.path entry.kind) then 0 else 1 <<< 11).testBit 0 = false
    split_ifs <;> decide
  simp only [archiveFile, writtenFile, hplain, ArchiveFile.mk.injEq]
  refine ⟨hname, congrArg some hmode, rfl, trivial, trivial, ?_, rfl⟩
  show ((String.fromUTF8? ⟨(nameBytes entry.path entry.kind).toArray⟩).any fun name ↦
    name.toList.getLast? = some '/') = decide (entry.kind = .directory)
  rw [hname, Option.any_some]
  by_cases hkind : entry.kind = .directory
  · simp [hkind]
  · have hlast := getLast?_of_safePath hportable.safe
    simp [hkind, hlast]

/-- Entries that are admitted have different names in an archive. -/
theorem nodup_names {libraries : Libraries}
    (hportable : ∀ entry ∈ entries, entry.Portable platform)
    (hfolded : (entries.map (libraries.foldedCase ·.path)).Nodup) :
    ((entries.map zipEntry).map Zip.Entry.name).Nodup := by
  rw [List.map_map]
  refine List.Nodup.map_on ?_ hfolded.of_map
  intro first hfirst second hsecond hsame
  refine List.inj_on_of_nodup_map hfolded hfirst hsecond (congrArg libraries.foldedCase ?_)
  have hnames := congrArg (fun name : Bytes ↦ String.fromUTF8? ⟨name.toArray⟩) hsame
  simp only [Function.comp_apply, zipEntry, nameBytes, fromUTF8?_toByteArray,
    Option.some.injEq] at hnames
  have hslash : ∀ path : String, (path ++ "/").toList.getLast? = some '/' := by
    intro path
    rw [String.toList_append]
    exact List.getLast?_concat
  split_ifs at hnames with hkind hkind' hkind'
  · exact Option.some.inj (by rw [← directoryName_append, hnames, directoryName_append])
  · exact absurd (hnames ▸ hslash _) (getLast?_of_safePath (hportable second hsecond).safe)
  · exact absurd (hnames ▸ hslash _) (getLast?_of_safePath (hportable first hfirst).safe)
  · exact hnames

end Sample

/-- The library reads the archives of the format: entries with different names, ASCII or flagged as
UTF-8, that a Unix system has made and that fit into their fields. -/
def ReadsStored (reader : ArchiveReader) : Prop :=
  ∀ entries : List Zip.Entry,
    (∀ entry ∈ entries, entry.Fits ∧ entry.madeBy / 256 = 3 ∧ 0 < entry.attributes ∧
      (entry.flags = 1 <<< 11 ∨ entry.flags = 0 ∧ isAscii entry.name = true)) →
    (entries.map Zip.Entry.name).Nodup → entries.length < 2 ^ 16 - 1 →
    (archive entries).length < 2 ^ 32 - 1 →
      reader (archive entries) = some
        { files := entries.map fun entry ↦ some (Sample.archiveFile entry)
          offset := 0
          directoryStart := (localRecords entries).length }

/-- Such a library reads what the writer writes. -/
theorem reads_of_stored {platform : Platform} {libraries : Libraries} {limits : Limits}
    {reader : ArchiveReader} (hreader : ReadsStored reader)
    (hending : 22 ≤ limits.archiveBytes) : ReadsArchives platform libraries limits reader := by
  intro entries hvalid
  obtain ⟨hfits, hcount, hsize⟩ := Sample.fits_of_validate hvalid hending
  simp only [validate, Bool.and_eq_true, decide_eq_true_eq] at hvalid
  have hpermit := hvalid.1.1.2
  have hportable := portable_of_admitEntries hpermit
  have hread := hreader (entries.map zipEntry) ?_
    (Sample.nodup_names hportable (names_of_admitEntries hpermit).2)
    (by rwa [List.length_map]) hsize
  · have hfiles : (entries.map zipEntry).map (fun entry ↦ some (Sample.archiveFile entry)) =
        entries.map fun entry ↦ some (writtenFile entry) := by
      rw [List.map_map]
      refine List.map_congr_left fun entry hentry ↦ ?_
      exact congrArg some (Sample.archiveFile_zipEntry (hportable entry hentry))
    rw [encodeBytes_eq, hread, hfiles]
    rfl
  · intro written hwritten
    obtain ⟨entry, hentry, rfl⟩ := List.mem_map.mp hwritten
    refine ⟨hfits entry hentry, (by decide : 0x0314 / 256 = 3), ?_, ?_⟩
    · have hmode := (mode_bits entry.kind (hportable entry hentry).mode).1
      refine Nat.pos_of_ne_zero fun hzero ↦ ?_
      have hbits : fileType entry.kind ||| entry.mode = 0 := Nat.shiftLeft_eq_zero_iff.mp hzero
      rw [hbits] at hmode
      cases hkind : entry.kind <;> rw [hkind] at hmode <;> cases hmode
    · by_cases hascii : isAscii (nameBytes entry.path entry.kind) = true
      · exact .inr ⟨if_pos hascii, hascii⟩
      · exact .inl (if_neg hascii)

namespace Sample

theorem archiveReader_stored : ReadsStored archiveReader := by
  intro entries hentries _ hcount hsize
  rw [archiveReader, read_archive (fun entry hentry ↦ (hentries entry hentry).1) (by omega) (by omega)]
  rfl

theorem archiveReader_reads (platform : Platform) (libraries : Libraries) {limits : Limits}
    (husable : limits.Usable) : ReadsArchives platform libraries limits archiveReader :=
  reads_of_stored archiveReader_stored husable.ending

end Sample

end AiStp.Projection
