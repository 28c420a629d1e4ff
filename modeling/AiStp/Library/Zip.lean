import Mathlib.Tactic

/-!
# Stored ZIP archives

The bytes of a ZIP archive whose entries are stored without compression: a local record for every
entry with its content, a directory that names the offset of each of them, and an end record of 22
bytes. The end record is found from the end of an archive, and says where the directory starts, so
the entries are read back from the bytes (`read_archive`).
-/

set_option autoImplicit false

namespace AiStp.Library.Zip

abbrev Bytes := List UInt8

/-! ### Numbers of a fixed width -/

/-- The bytes of a number, the least significant first. -/
def littleEndian : Nat → Nat → Bytes
  | 0, _ => []
  | width + 1, value => UInt8.ofNat value :: littleEndian width (value / 256)

def fromLittleEndian : Bytes → Nat
  | [] => 0
  | byte :: bytes => byte.toNat + 256 * fromLittleEndian bytes

/-- The number that is written at an offset. -/
def field (bytes : Bytes) (offset width : Nat) : Nat :=
  fromLittleEndian ((bytes.drop offset).take width)

@[simp] theorem length_littleEndian (width value : Nat) :
    (littleEndian width value).length = width := by
  induction width generalizing value with
  | zero => rfl
  | succ width ih => rw [littleEndian, List.length_cons, ih]

theorem fromLittleEndian_littleEndian {width value : Nat} (hvalue : value < 256 ^ width) :
    fromLittleEndian (littleEndian width value) = value := by
  induction width generalizing value with
  | zero =>
    have hzero : value = 0 := by simpa using hvalue
    rw [hzero]
    rfl
  | succ width ih =>
    have hrest : value / 256 < 256 ^ width := by
      rw [pow_succ] at hvalue
      exact Nat.div_lt_of_lt_mul (by rw [Nat.mul_comm]; exact hvalue)
    rw [littleEndian, fromLittleEndian, ih hrest, UInt8.toNat_ofNat']
    omega

/-- Numbers of given widths, one after the other. -/
def numbers (layout : List (Nat × Nat)) : Bytes :=
  layout.flatMap fun number ↦ littleEndian number.1 number.2

theorem length_numbers (layout : List (Nat × Nat)) :
    (numbers layout).length = (layout.map Prod.fst).sum := by
  simp [numbers, List.length_flatMap]

/-- A number is read back behind the numbers before it. -/
theorem field_numbers {layout : List (Nat × Nat)} {rest : Bytes} {offset width value : Nat}
    (index : Nat) (hindex : layout[index]? = some (width, value))
    (hoffset : ((layout.take index).map Prod.fst).sum = offset) (hvalue : value < 256 ^ width) :
    field (numbers layout ++ rest) offset width = value := by
  obtain ⟨hbound, hget⟩ := List.getElem?_eq_some_iff.mp hindex
  have hlayout : layout = layout.take index ++ (width, value) :: layout.drop (index + 1) := by
    rw [← hget, ← List.drop_eq_getElem_cons hbound, List.take_append_drop]
  have hbytes : numbers layout ++ rest = numbers (layout.take index) ++
      (littleEndian width value ++ (numbers (layout.drop (index + 1)) ++ rest)) := by
    conv_lhs => rw [hlayout]
    simp only [numbers, List.flatMap_append, List.flatMap_cons, List.append_assoc]
  unfold field
  rw [hbytes, ← hoffset, ← length_numbers, List.drop_left,
    List.take_left' (length_littleEndian width value)]
  exact fromLittleEndian_littleEndian hvalue

/-! ### CRC-32 -/

def crcBit (register : Nat) : Nat :=
  if register % 2 = 1 then (register >>> 1) ^^^ 0xEDB88320 else register >>> 1

def crcByte (register : Nat) (byte : UInt8) : Nat :=
  crcBit (crcBit (crcBit (crcBit (crcBit (crcBit (crcBit (crcBit (register ^^^ byte.toNat))))))))

def crc32 (bytes : Bytes) : Nat :=
  bytes.foldl crcByte 0xFFFFFFFF ^^^ 0xFFFFFFFF

theorem crcBit_lt {register : Nat} (h : register < 2 ^ 32) : crcBit register < 2 ^ 32 := by
  have hhalf : register >>> 1 < 2 ^ 32 := by
    rw [Nat.shiftRight_eq_div_pow]
    omega
  unfold crcBit
  split_ifs
  · exact Nat.xor_lt_two_pow hhalf (by decide)
  · exact hhalf

theorem crc32_lt (bytes : Bytes) : crc32 bytes < 256 ^ 4 := by
  have hfold : ∀ register < 2 ^ 32, bytes.foldl crcByte register < 2 ^ 32 := by
    induction bytes with
    | nil => exact fun _ h ↦ h
    | cons byte bytes ih =>
      intro register h
      have hbyte : byte.toNat < 2 ^ 32 := byte.toNat_lt.trans (by decide)
      refine ih _ ?_
      unfold crcByte
      iterate 8 apply crcBit_lt
      exact Nat.xor_lt_two_pow h hbyte
  exact Nat.xor_lt_two_pow (hfold _ (by decide)) (by decide)

/-! ### Records -/

structure Entry where
  name : Bytes
  content : Bytes
  /-- The program and the system that made the entry. -/
  madeBy : Nat
  /-- The version that is needed to read the entry. -/
  version : Nat
  flags : Nat
  time : Nat
  date : Nat
  /-- The attributes that the system keeps for the entry. -/
  attributes : Nat
deriving DecidableEq

def localSignature : Bytes := [0x50, 0x4b, 0x03, 0x04]

def directorySignature : Bytes := [0x50, 0x4b, 0x01, 0x02]

def endSignature : Bytes := [0x50, 0x4b, 0x05, 0x06]

def localLayout (entry : Entry) : List (Nat × Nat) :=
  [(4, 0x04034b50), (2, entry.version), (2, entry.flags), (2, 0), (2, entry.time),
    (2, entry.date), (4, crc32 entry.content), (4, entry.content.length),
    (4, entry.content.length), (2, entry.name.length), (2, 0)]

def localRecord (entry : Entry) : Bytes :=
  numbers (localLayout entry) ++ entry.name ++ entry.content

def directoryLayout (offset : Nat) (entry : Entry) : List (Nat × Nat) :=
  [(4, 0x02014b50), (2, entry.madeBy), (2, entry.version), (2, entry.flags), (2, 0),
    (2, entry.time), (2, entry.date), (4, crc32 entry.content), (4, entry.content.length),
    (4, entry.content.length), (2, entry.name.length), (2, 0), (2, 0), (2, 0), (2, 0),
    (4, entry.attributes), (4, offset)]

def directoryRecord (offset : Nat) (entry : Entry) : Bytes :=
  numbers (directoryLayout offset entry) ++ entry.name

def endLayout (count size offset : Nat) : List (Nat × Nat) :=
  [(4, 0x06054b50), (2, 0), (2, 0), (2, count), (2, count), (4, size), (4, offset), (2, 0)]

def endRecord (count size offset : Nat) : Bytes :=
  numbers (endLayout count size offset)

@[simp] theorem length_localRecord (entry : Entry) :
    (localRecord entry).length = 30 + entry.name.length + entry.content.length := by
  simp [localRecord, length_numbers, localLayout, Nat.add_assoc]

@[simp] theorem length_directoryRecord (offset : Nat) (entry : Entry) :
    (directoryRecord offset entry).length = 46 + entry.name.length := by
  simp [directoryRecord, length_numbers, directoryLayout]

@[simp] theorem length_endRecord (count size offset : Nat) :
    (endRecord count size offset).length = 22 := by
  simp [endRecord, length_numbers, endLayout]

/-! ### Archives -/

def localRecords (entries : List Entry) : Bytes :=
  entries.flatMap localRecord

/-- The directory of entries whose local records start at an offset. -/
def directory (offset : Nat) : List Entry → Bytes
  | [] => []
  | entry :: entries =>
    directoryRecord offset entry ++ directory (offset + (localRecord entry).length) entries

def archive (entries : List Entry) : Bytes :=
  localRecords entries ++ directory 0 entries ++
    endRecord entries.length (directory 0 entries).length (localRecords entries).length

theorem length_localRecords (entries : List Entry) :
    (localRecords entries).length =
      (entries.map fun entry ↦ 30 + entry.name.length + entry.content.length).sum := by
  induction entries with
  | nil => rfl
  | cons entry entries ih =>
    simp only [localRecords, List.flatMap_cons, List.length_append, length_localRecord,
      List.map_cons, List.sum_cons] at ih ⊢
    rw [ih]

theorem length_directory (offset : Nat) (entries : List Entry) :
    (directory offset entries).length = (entries.map fun entry ↦ 46 + entry.name.length).sum := by
  induction entries generalizing offset with
  | nil => rfl
  | cons entry entries ih =>
    rw [directory, List.length_append, length_directoryRecord, ih, List.map_cons, List.sum_cons]

theorem length_archive (entries : List Entry) :
    (archive entries).length = 22 +
      (entries.map fun entry ↦ 76 + 2 * entry.name.length + entry.content.length).sum := by
  simp only [archive, List.length_append, length_endRecord, length_localRecords, length_directory]
  induction entries with
  | nil => rfl
  | cons entry entries ih =>
    simp only [List.map_cons, List.sum_cons]
    omega

/-! ### Reading -/

/-- The entry of a record in the directory, with the content behind its local record. -/
def readRecord (bytes record : Bytes) : Entry :=
  let nameLength := field record 28 2
  { name := (record.drop 46).take nameLength
    content := (bytes.drop (field record 42 4 + 30 + nameLength)).take (field record 24 4)
    madeBy := field record 4 2
    version := field record 6 2
    flags := field record 8 2
    time := field record 12 2
    date := field record 14 2
    attributes := field record 38 4 }

def readDirectory (bytes : Bytes) : Nat → Bytes → List Entry
  | 0, _ => []
  | count + 1, record =>
    readRecord bytes record :: readDirectory bytes count (record.drop (46 + field record 28 2))

def read (bytes : Bytes) : Option (List Entry) :=
  let footer := bytes.drop (bytes.length - 22)
  if footer.take 4 = endSignature then
    some (readDirectory bytes (field footer 10 2) (bytes.drop (field footer 16 4)))
  else none

/-- The numbers of an entry fit into their fields. -/
structure Entry.Fits (entry : Entry) : Prop where
  name : entry.name.length < 256 ^ 2
  content : entry.content.length < 256 ^ 4
  madeBy : entry.madeBy < 256 ^ 2
  version : entry.version < 256 ^ 2
  flags : entry.flags < 256 ^ 2
  time : entry.time < 256 ^ 2
  date : entry.date < 256 ^ 2
  attributes : entry.attributes < 256 ^ 4

/-- No number of an archive is cut to the width of its field. -/
structure Untruncated (entries : List Entry) : Prop where
  records : ∀ before entry after, entries = before ++ entry :: after →
    ∀ number ∈ localLayout entry ++ directoryLayout (localRecords before).length entry,
      number.2 < 256 ^ number.1
  ending : ∀ number ∈ endLayout entries.length (directory 0 entries).length
    (localRecords entries).length, number.2 < 256 ^ number.1

theorem untruncated_of_fits {entries : List Entry} (hfits : ∀ entry ∈ entries, entry.Fits)
    (hcount : entries.length < 256 ^ 2) (hsize : (archive entries).length < 256 ^ 4) :
    Untruncated entries := by
  simp only [archive, List.length_append] at hsize
  constructor
  · rintro before entry after rfl
    obtain ⟨hname, hcontent, hmadeBy, hversion, hflags, htime, hdate, hattributes⟩ :=
      hfits entry (by simp)
    have hcrc := crc32_lt entry.content
    have hoffset : (localRecords before).length < 256 ^ 4 := by
      simp only [localRecords, List.flatMap_append, List.length_append] at hsize ⊢
      omega
    simp only [localLayout, directoryLayout, List.cons_append, List.nil_append, List.forall_mem_cons,
      List.not_mem_nil, false_implies, implies_true, and_true]
    omega
  · simp only [endLayout, List.forall_mem_cons, List.not_mem_nil, false_implies, implies_true,
      and_true]
    omega

section EndRecord

variable {count size offset : Nat} {rest : Bytes}

theorem endRecord_signature : (endRecord count size offset ++ rest).take 4 = endSignature := rfl

theorem endRecord_disks : field (endRecord count size offset ++ rest) 4 4 = 0 := rfl

theorem endRecord_here (hcount : count < 256 ^ 2) :
    field (endRecord count size offset ++ rest) 8 2 = count :=
  field_numbers 3 rfl rfl hcount

theorem endRecord_count (hcount : count < 256 ^ 2) :
    field (endRecord count size offset ++ rest) 10 2 = count :=
  field_numbers 4 rfl rfl hcount

theorem endRecord_size (hsize : size < 256 ^ 4) :
    field (endRecord count size offset ++ rest) 12 4 = size :=
  field_numbers 5 rfl rfl hsize

theorem endRecord_offset (hoffset : offset < 256 ^ 4) :
    field (endRecord count size offset ++ rest) 16 4 = offset :=
  field_numbers 6 rfl rfl hoffset

theorem endRecord_comment : field (endRecord count size offset ++ rest) 20 2 = 0 :=
  field_numbers 7 rfl rfl (by decide)

/-- The end record is found from the end of an archive. -/
theorem drop_archive (entries : List Entry) :
    (archive entries).drop ((archive entries).length - 22) =
      endRecord entries.length (directory 0 entries).length (localRecords entries).length := by
  unfold archive
  rw [List.length_append, length_endRecord, Nat.add_sub_cancel, List.drop_left]

end EndRecord

section Records

variable {entry : Entry} {offset : Nat} {rest : Bytes}

theorem field_directoryRecord {width value start : Nat} (index : Nat)
    (hindex : (directoryLayout offset entry)[index]? = some (width, value))
    (hstart : (((directoryLayout offset entry).take index).map Prod.fst).sum = start)
    (hvalue : value < 256 ^ width) :
    field (directoryRecord offset entry ++ rest) start width = value := by
  rw [directoryRecord, List.append_assoc]
  exact field_numbers index hindex hstart hvalue

theorem directoryRecord_nameLength (hfits : entry.Fits) :
    field (directoryRecord offset entry ++ rest) 28 2 = entry.name.length :=
  field_directoryRecord 10 rfl rfl hfits.name

theorem directoryRecord_offset (hoffset : offset < 256 ^ 4) :
    field (directoryRecord offset entry ++ rest) 42 4 = offset :=
  field_directoryRecord 16 (by simp [directoryLayout]) (by simp [directoryLayout]) hoffset

/-- A record of the directory is read back, with the content that stands at its offset. -/
theorem readRecord_directoryRecord {bytes before after : Bytes} (hfits : entry.Fits)
    (hoffset : before.length < 256 ^ 4) (hbytes : bytes = before ++ localRecord entry ++ after) :
    readRecord bytes (directoryRecord before.length entry ++ rest) = entry := by
  have hname : field (directoryRecord before.length entry ++ rest) 28 2 = entry.name.length :=
    directoryRecord_nameLength hfits
  have hsize : field (directoryRecord before.length entry ++ rest) 24 4 = entry.content.length :=
    field_directoryRecord 9 rfl rfl hfits.content
  have hstart : field (directoryRecord before.length entry ++ rest) 42 4 = before.length :=
    directoryRecord_offset hoffset
  have hread : ((directoryRecord before.length entry ++ rest).drop 46).take entry.name.length =
      entry.name := by
    have hlength : (numbers (directoryLayout before.length entry)).length = 46 := by
      simp [length_numbers, directoryLayout]
    rw [directoryRecord, List.append_assoc, ← hlength, List.drop_left, List.take_left]
  have hcontent : (bytes.drop (before.length + 30 + entry.name.length)).take
      entry.content.length = entry.content := by
    have hsplit : bytes = (before ++ numbers (localLayout entry) ++
        entry.name) ++ (entry.content ++ after) := by
      simp only [hbytes, localRecord, List.append_assoc]
    have hlength : (before ++ numbers (localLayout entry) ++
        entry.name).length = before.length + 30 + entry.name.length := by
      simp [length_numbers, localLayout, Nat.add_assoc]
    rw [hsplit, ← hlength, List.drop_left, List.take_left]
  have hmade : field (directoryRecord before.length entry ++ rest) 4 2 = entry.madeBy :=
    field_directoryRecord 1 rfl rfl hfits.madeBy
  have hversion : field (directoryRecord before.length entry ++ rest) 6 2 = entry.version :=
    field_directoryRecord 2 rfl rfl hfits.version
  have hflags : field (directoryRecord before.length entry ++ rest) 8 2 = entry.flags :=
    field_directoryRecord 3 rfl rfl hfits.flags
  have htime : field (directoryRecord before.length entry ++ rest) 12 2 = entry.time :=
    field_directoryRecord 5 rfl rfl hfits.time
  have hdate : field (directoryRecord before.length entry ++ rest) 14 2 = entry.date :=
    field_directoryRecord 6 rfl rfl hfits.date
  have hattributes : field (directoryRecord before.length entry ++ rest) 38 4 = entry.attributes :=
    field_directoryRecord 15 (by simp [directoryLayout]) (by simp [directoryLayout])
      hfits.attributes
  simp only [readRecord, hname, hsize, hstart, hread, hcontent, hmade, hversion, hflags, htime,
    hdate, hattributes]

/-- The rest of a directory is read back entry by entry. -/
theorem readDirectory_directory {bytes after tail : Bytes} {before entries : List Entry}
    (hfits : ∀ entry ∈ entries, entry.Fits)
    (hbytes : bytes = localRecords before ++ localRecords entries ++ after)
    (hsize : (localRecords before ++ localRecords entries).length < 256 ^ 4) :
    readDirectory bytes entries.length
      (directory (localRecords before).length entries ++ tail) = entries := by
  induction entries generalizing before with
  | nil => rfl
  | cons entry entries ih =>
    have hfit : entry.Fits := hfits entry List.mem_cons_self
    have hlocal : localRecords (entry :: entries) = localRecord entry ++ localRecords entries := rfl
    have hmore : localRecords (before ++ [entry]) = localRecords before ++ localRecord entry := by
      simp [localRecords]
    rw [hlocal] at hbytes hsize
    have hstart : (localRecords before).length < 256 ^ 4 := by
      rw [List.length_append] at hsize
      omega
    have hsplit : bytes = localRecords before ++ localRecord entry ++
        (localRecords entries ++ after) := by
      simpa only [List.append_assoc] using hbytes
    rw [List.length_cons, readDirectory, directory, List.append_assoc,
      readRecord_directoryRecord hfit hstart hsplit, directoryRecord_nameLength hfit,
      ← length_directoryRecord (localRecords before).length entry, List.drop_left,
      ← List.length_append, ← hmore]
    congr 1
    refine ih (fun other hother ↦ hfits other (List.mem_cons_of_mem entry hother)) ?_ ?_
    · rw [hmore, hsplit, List.append_assoc, List.append_assoc, List.append_assoc]
    · rw [hmore, List.append_assoc]
      exact hsize

end Records

/-- The entries of an archive are read back from its bytes. -/
theorem read_archive {entries : List Entry} (hfits : ∀ entry ∈ entries, entry.Fits)
    (hcount : entries.length < 256 ^ 2) (hsize : (archive entries).length < 256 ^ 4) :
    read (archive entries) = some entries := by
  have hlocal : (localRecords entries).length < 256 ^ 4 := by
    simp only [archive, List.length_append] at hsize
    omega
  have hdirectory : (archive entries).drop (localRecords entries).length =
      directory 0 entries ++ endRecord entries.length (directory 0 entries).length
        (localRecords entries).length := by
    rw [archive, List.append_assoc, List.drop_left]
  have hsignature : (endRecord entries.length (directory 0 entries).length
      (localRecords entries).length).take 4 = endSignature := rfl
  have hentries : field (endRecord entries.length (directory 0 entries).length
      (localRecords entries).length) 10 2 = entries.length := by
    rw [← List.append_nil (endRecord _ _ _), endRecord_count hcount]
  have hstart : field (endRecord entries.length (directory 0 entries).length
      (localRecords entries).length) 16 4 = (localRecords entries).length := by
    rw [← List.append_nil (endRecord _ _ _), endRecord_offset hlocal]
  simp only [read, drop_archive, hsignature, if_true, hentries, hstart, hdirectory]
  refine congrArg some ?_
  have hbytes : archive entries = localRecords [] ++ localRecords entries ++ (directory 0 entries ++
      endRecord entries.length (directory 0 entries).length (localRecords entries).length) := by
    rw [archive, List.append_assoc]
    rfl
  exact readDirectory_directory hfits hbytes hlocal

end AiStp.Library.Zip
