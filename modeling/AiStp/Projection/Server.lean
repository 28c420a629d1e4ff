import AiStp.Library.Tables
import AiStp.Projection.Declarations

/-!
# The server's projections

The server builds the archive of a scope with the standard library's `zipfile` (`buildProjection`),
and accepts bytes as the archive of a scope only if it reads every declared member from them, with
the declared metadata, and building the archive of what it read gives the same bytes
(`verifyProjection`).

`zipfile` also reads archives with a comment, with data before the first entry, in the ZIP64 format
or with compressed entries. It never writes one for a scope, so such bytes are refused either way,
and they are refused here when they are read.
-/

set_option autoImplicit false

namespace AiStp.Projection.Server

open Library Zip

/-! ### `zipfile` -/

structure ZipInfo where
  filename : String
  createSystem : Nat
  flagBits : Nat
  compressType : Nat
  rawTime : Nat
  rawDate : Nat
  crc : Nat
  compressSize : Nat
  fileSize : Nat
  externalAttr : Nat
  headerOffset : Nat
deriving DecidableEq

/-- The upper half of the code page of names that are not marked as UTF-8. -/
def codePage437 : List Char :=
  ("ÇüéâäàåçêëèïîìÄÅÉæÆôöòûùÿÖÜ¢£¥₧ƒáíóúñÑªº¿⌐¬½¼¡«»░▒▓│┤╡╢╖╕╣║╗╝╜╛┐└┴┬├─┼╞╟╚╔╩╦╠═╬╧╨╤╥╙╘╒╓╫╪┘┌█▄▌▐▀" ++
    "αßΓπΣσµτΦΘΩδ∞φε∩≡±≥≤⌠⌡÷≈°∙·√ⁿ²■\u00a0").toList

def decodeName (flagBits : Nat) (name : Bytes) : Option String :=
  if flagBits.testBit 11 then String.fromUTF8? ⟨name.toArray⟩
  else
    some (String.ofList (name.map fun byte ↦
      if byte < 128 then Char.ofNat byte.toNat else codePage437.getD (byte.toNat - 128) ' '))

/-- The records of a directory, one after the other. -/
def readDirectory : Nat → Bytes → Option (List ZipInfo)
  | 0, data => if data = [] then some [] else none
  | fuel + 1, data =>
    if data = [] then some []
    else if data.length < 46 ∨ data.take 4 ≠ directorySignature then none
    else
      let nameLength := field data 28 2
      let extraLength := field data 30 2
      let commentLength := field data 32 2
      do
        let filename ← decodeName (field data 8 2) ((data.drop 46).take nameLength)
        let infos ← readDirectory fuel (data.drop (46 + nameLength + extraLength + commentLength))
        return { filename := filename
                 createSystem := field data 5 1
                 flagBits := field data 8 2
                 compressType := field data 10 2
                 rawTime := field data 12 2
                 rawDate := field data 14 2
                 crc := field data 16 4
                 compressSize := field data 20 4
                 fileSize := field data 24 4
                 externalAttr := field data 38 4
                 headerOffset := field data 42 4 } :: infos

/-- `infolist` of an archive that is opened for reading. -/
def infolist (payload : Bytes) : Option (List ZipInfo) :=
  let ending := payload.length - 22
  let record := payload.drop ending
  let size := field record 12 4
  let offset := field record 16 4
  if 22 ≤ payload.length ∧ record.take 4 = endSignature ∧ field record 20 2 = 0 ∧
      offset + size = ending then
    readDirectory size ((payload.drop offset).take size)
  else none

/-- `read` of a member: its local record has to have the same name, and its content the sum. -/
def read (payload : Bytes) (info : ZipInfo) : Option Bytes :=
  let header := payload.drop info.headerOffset
  let nameLength := field header 26 2
  let extraLength := field header 28 2
  let content := ((header.drop (30 + nameLength + extraLength)).take info.compressSize).take
    info.fileSize
  if 30 ≤ header.length ∧ header.take 4 = localSignature ∧
      decodeName (field header 6 2) ((header.drop 30).take nameLength) = some info.filename ∧
      ¬ info.flagBits.testBit 0 ∧ content.length = info.fileSize ∧ crc32 content = info.crc then
    some content
  else none

/-- What a `ZipFile` that is open for writing holds: the bytes, and the directory so far. -/
structure ZipFile where
  output : Bytes
  filelist : List (ZipInfo × Bytes)

def utf8 (text : String) : Bytes :=
  text.toByteArray.data.toList

/-- The name as it is written, and the flag that marks it as UTF-8. -/
def encodeFilenameFlags (info : ZipInfo) : Bytes × Nat :=
  let name := utf8 info.filename
  if name.all (· < 128) then (name, info.flagBits) else (name, info.flagBits ||| 0x800)

/-- The local record and the content are appended. The sum and the sizes are written once the
content is known. -/
def writestr (archive : ZipFile) (info : ZipInfo) (content : Bytes) : ZipFile :=
  let info := { info with
    crc := crc32 content
    compressSize := content.length
    fileSize := content.length
    headerOffset := archive.output.length }
  let (name, flags) := encodeFilenameFlags info
  let header := localSignature ++ [20, 0].map UInt8.ofNat ++
    [flags, info.compressType, info.rawTime, info.rawDate].flatMap (littleEndian 2) ++
    [info.crc, info.compressSize, info.fileSize].flatMap (littleEndian 4) ++
    [name.length, 0].flatMap (littleEndian 2)
  { output := archive.output ++ header ++ name ++ content
    filelist := archive.filelist ++ [(info, content)] }

/-- The record of a member in the directory. -/
def centralDirectory (info : ZipInfo) : Bytes :=
  let (name, flags) := encodeFilenameFlags info
  directorySignature ++ [20, info.createSystem, 20, 0].map UInt8.ofNat ++
    [flags, info.compressType, info.rawTime, info.rawDate].flatMap (littleEndian 2) ++
    [info.crc, info.compressSize, info.fileSize].flatMap (littleEndian 4) ++
    [name.length, 0, 0, 0, 0].flatMap (littleEndian 2) ++
    [info.externalAttr, info.headerOffset].flatMap (littleEndian 4) ++ name

/-- The directory and the end record, which `close` writes. -/
def close (archive : ZipFile) : Bytes :=
  let central := archive.filelist.flatMap fun written ↦ centralDirectory written.1
  let count := archive.filelist.length
  archive.output ++ central ++ endSignature ++ [0, 0, count, count].flatMap (littleEndian 2) ++
    [central.length, archive.output.length].flatMap (littleEndian 4) ++ littleEndian 2 0

/-! ### Projections -/

section Projections

variable (libraries : Libraries)

/-- The contents of files by their paths. -/
abbrev Contents := Table String Bytes

def memberName (member : ProjectedMember) : String :=
  if member.objectType = .file then member.path else member.path ++ "/"

def memberKind (member : ProjectedMember) : Nat :=
  if member.objectType = .file then 0o100000 else 0o040000

/-- The members in the order of their paths. -/
def sortedMembers (scope : ScopeAdaptation) : List ProjectedMember :=
  scope.members.insertionSort fun left right ↦ left.path ≤ right.path

/-- The date 1980-01-01 in the format of an archive. -/
def zipDate : Nat := 33

def memberInfo (member : ProjectedMember) : ZipInfo where
  filename := memberName member
  createSystem := 3
  flagBits := 0
  compressType := 0
  rawTime := 0
  rawDate := zipDate
  crc := 0
  compressSize := 0
  fileSize := 0
  externalAttr := (memberKind member ||| member.mode) <<< 16
  headerOffset := 0

def declaredFiles (scope : ScopeAdaptation) : List ProjectedMember :=
  scope.members.filter (·.objectType = .file)

/-- The content of a declared file has the declared size and digest. -/
def matchesArtifact (member : ProjectedMember) (content : Bytes) : Bool :=
  member.contentArtifact.any fun expected ↦
    content.length = expected.sizeBytes ∧ digestBytes libraries content = expected.digest

def writeArchive (scope : ScopeAdaptation) (contents : Contents) : Bytes :=
  close ((sortedMembers scope).foldl (fun archive member ↦
    writestr archive (memberInfo member) ((contents.get? member.path).getD [])) ⟨[], []⟩)

def buildProjection (scope : ScopeAdaptation) (contents : Contents) : Option Bytes := do
  guard (scope.projectionFormat = adaptationProjectionFormat)
  guard (scope.members.length ≤ maxProjectionFiles)
  guard ((∀ entry ∈ contents.entries, entry.1 ∈ (declaredFiles scope).map (·.path)) ∧
    ∀ member ∈ declaredFiles scope, (contents.get? member.path).isSome)
  guard (∀ member ∈ declaredFiles scope,
    ∀ content ∈ contents.get? member.path, matchesArtifact libraries member content)
  guard ((contents.entries.map (·.2.length)).sum ≤ maxProjectionBytes)
  return writeArchive scope contents

/-- The metadata of a member is the declared one. -/
def matchesMetadata (member : ProjectedMember) (info : ZipInfo) : Bool :=
  let rawMode := info.externalAttr >>> 16
  info.compressType = 0 && info.rawTime = 0 && info.rawDate = zipDate &&
    rawMode &&& 0o170000 = memberKind member && rawMode &&& 0o7777 = member.mode &&
    info.createSystem = 3

/-- One declared member is read from the archive. -/
def verifyMember (payload : Bytes) (infos : List ZipInfo) (contents : Contents)
    (member : ProjectedMember) : Option Contents := do
  let info ← infos.find? (·.filename = memberName member)
  guard (matchesMetadata member info)
  let content ← read payload info
  guard (member.objectType = .directory → content = [])
  return if member.objectType = .file then contents.set member.path content else contents

/-- The contents that `verify_projection` reads from bytes that it accepts; the function itself
returns nothing. -/
def verifyProjection (scope : ScopeAdaptation) (payload : Bytes) : Option Contents := do
  guard (payload.length ≤ maxProjectionBytes)
  guard (payload.length = scope.projectionArtifact.sizeBytes)
  guard (digestBytes libraries payload = scope.projectionArtifact.digest)
  let infos ← infolist payload
  guard (infos.map (·.filename)).Nodup
  let contents ← scope.members.foldlM (verifyMember payload infos) .empty
  guard (∀ info ∈ infos, info.filename ∈ scope.members.map memberName)
  guard (buildProjection libraries scope contents = some payload)
  return contents

end Projections

/-! ### What the writer writes -/

section Writer

variable {libraries : Libraries} {scope : ScopeAdaptation} {contents : Contents}

/-- The entry of the archive format. -/
def zipMember (contents : Contents) (member : ProjectedMember) : Zip.Entry :=
  let name := utf8 (memberName member)
  { name := name
    content := (contents.get? member.path).getD []
    madeBy := 0x0314
    version := 20
    flags := if name.all (· < 128) then 0 else 0x800
    time := 0
    date := zipDate
    attributes := (memberKind member ||| member.mode) <<< 16 }

theorem encodeFilenameFlags_eq (info : ZipInfo) (hflags : info.flagBits = 0) :
    encodeFilenameFlags info =
      (utf8 info.filename, if (utf8 info.filename).all (· < 128) then 0 else 0x800) := by
  unfold encodeFilenameFlags
  dsimp only
  split_ifs
  · rw [hflags]
  · rw [hflags]
    rfl

/-- The bytes so far, the directory so far and the number of its records. -/
structure Writes (archive : ZipFile) (output central : Bytes) (count : Nat) : Prop where
  output : archive.output = output
  central : (archive.filelist.flatMap fun written ↦ centralDirectory written.1) = central
  count : archive.filelist.length = count

theorem writes_writestr {archive : ZipFile} {output central : Bytes} {count : Nat}
    (h : Writes archive output central count) (contents : Contents) (member : ProjectedMember) :
    Writes (writestr archive (memberInfo member) ((contents.get? member.path).getD []))
      (output ++ localRecord (zipMember contents member))
      (central ++ directoryRecord output.length (zipMember contents member)) (count + 1) := by
  constructor
  · simp only [writestr, encodeFilenameFlags_eq, memberInfo, h.output, localRecord, localLayout,
      numbers, zipMember, List.flatMap_cons, List.flatMap_nil, List.append_nil,
      List.append_assoc]
    rfl
  · simp only [writestr, List.flatMap_append, h.central, List.flatMap_cons, List.flatMap_nil,
      List.append_nil]
    congr 1
    simp only [centralDirectory, encodeFilenameFlags_eq, memberInfo, h.output, directoryRecord,
      directoryLayout, numbers, zipMember, List.flatMap_cons, List.flatMap_nil, List.append_nil,
      List.append_assoc]
    rfl
  · simp [writestr, h.count]

theorem writes_foldl {archive : ZipFile} {output central : Bytes} {count : Nat}
    (h : Writes archive output central count) (contents : Contents)
    (members : List ProjectedMember) :
    Writes (members.foldl (fun archive member ↦
        writestr archive (memberInfo member) ((contents.get? member.path).getD [])) archive)
      (output ++ localRecords (members.map (zipMember contents)))
      (central ++ directory output.length (members.map (zipMember contents)))
      (count + members.length) := by
  induction members generalizing archive output central count with
  | nil => simpa [localRecords, directory] using h
  | cons member members ih =>
    have hrest := ih (writes_writestr h contents member)
    rw [List.foldl_cons, List.map_cons, directory, List.length_cons, Nat.add_comm members.length,
      ← Nat.add_assoc]
    simpa only [localRecords, List.flatMap_cons, List.append_assoc, List.length_append] using hrest

/-- `zipfile` writes an archive of the format. -/
theorem writeArchive_eq (scope : ScopeAdaptation) (contents : Contents) :
    writeArchive scope contents = archive ((sortedMembers scope).map (zipMember contents)) := by
  have hempty : Writes ⟨[], []⟩ [] [] 0 := ⟨rfl, rfl, rfl⟩
  have hwritten := writes_foldl hempty contents (sortedMembers scope)
  unfold writeArchive close
  dsimp only
  rw [hwritten.output, hwritten.central, hwritten.count]
  simp only [archive, endRecord, endLayout, numbers, List.flatMap_cons, List.flatMap_nil,
    List.nil_append, List.append_nil, List.append_assoc, List.length_map, List.length_nil,
    Nat.zero_add]
  rfl

/-! ### What the server accepts -/

/-- The contents are those of the declared files. -/
structure Closed (libraries : Libraries) (scope : ScopeAdaptation) (contents : Contents) :
    Prop where
  format : scope.projectionFormat = adaptationProjectionFormat
  members : scope.members.length ≤ maxProjectionFiles
  declared : ∀ entry ∈ contents.entries, entry.1 ∈ (declaredFiles scope).map (·.path)
  present : ∀ member ∈ declaredFiles scope, (contents.get? member.path).isSome
  artifacts : ∀ member ∈ declaredFiles scope, ∀ content ∈ contents.get? member.path,
    matchesArtifact libraries member content
  total : (contents.entries.map (·.2.length)).sum ≤ maxProjectionBytes

theorem buildProjection_eq_some {payload : Bytes} :
    buildProjection libraries scope contents = some payload ↔
      Closed libraries scope contents ∧ writeArchive scope contents = payload := by
  unfold buildProjection
  simp only [Option.bind_eq_bind, Option.bind_eq_some_iff, Option.guard_eq_some', Option.pure_def,
    Option.some.injEq]
  constructor
  · rintro ⟨_, hformat, _, hmembers, _, ⟨hdeclared, hpresent⟩, _, hartifacts, _, htotal, rfl⟩
    exact ⟨⟨hformat, hmembers, hdeclared, hpresent, hartifacts, htotal⟩, rfl⟩
  · rintro ⟨hclosed, rfl⟩
    exact ⟨(), hclosed.format, (), hclosed.members, (), ⟨hclosed.declared, hclosed.present⟩, (),
      hclosed.artifacts, (), hclosed.total, rfl⟩

/-- Accepted bytes are the declared artifact, and the archive of what was read from them. -/
theorem verifyProjection_sound {payload : Bytes}
    (h : verifyProjection libraries scope payload = some contents) :
    payload.length ≤ maxProjectionBytes ∧
      payload.length = scope.projectionArtifact.sizeBytes ∧
      digestBytes libraries payload = scope.projectionArtifact.digest ∧
      Closed libraries scope contents ∧ writeArchive scope contents = payload := by
  unfold verifyProjection at h
  simp only [Option.bind_eq_bind, Option.bind_eq_some_iff, Option.guard_eq_some', Option.pure_def,
    Option.some.injEq] at h
  obtain ⟨_, hlength, _, hsize, _, hdigest, _, _, _, _, read, _, _, _, _, hbuild, rfl⟩ := h
  exact ⟨hlength, hsize, hdigest, buildProjection_eq_some.mp hbuild⟩

end Writer

end AiStp.Projection.Server
