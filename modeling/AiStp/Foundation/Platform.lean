import AiStp.Library.Json

/-!
# What the programs take from their language runtimes

The server is written in Python and the client in Rust. Both use the same Unicode tables, SHA-256
and HMAC, which are not part of the repository; they are the fields of a `Platform`, with the laws of
Unicode normalization that the proofs use. The digest of a document is taken over its canonical
bytes, for which the rebuilt tree stands.

The client reads moments and ULIDs with libraries of its own. The ULID library accepts at least the
identifiers that stay inside 128 bits.
-/

set_option autoImplicit false

namespace AiStp.Foundation

open Library

namespace Text

/-- The UTF-8 bytes of a text, each as the character of its code. An ASCII character is its own
byte and no other character has an ASCII byte, so ASCII patterns are matched on the units. -/
def units (text : String) : List Char :=
  text.toByteArray.data.toList.map fun byte ↦ Char.ofNat byte.toNat

/-- What follows a prefix of a text. -/
def stripPrefix? (before text : String) : Option (List Char) :=
  (units before).isPrefixOf? (units text)

def isLowerHex (character : Char) : Bool :=
  character.isDigit || ('a' ≤ character && character ≤ 'f')

/-- `before` followed by 64 lowercase hexadecimal digits. -/
def isHexAddress (before text : String) : Bool :=
  match stripPrefix? before text with
  | some digits => digits.length == 64 && digits.all isLowerHex
  | none => false

/-- The digits and the capital letters of the Crockford base-32 alphabet. -/
def isCrockford (character : Char) : Bool :=
  character.isDigit ||
    (character.isUpper && character != 'I' && character != 'L' && character != 'O' &&
      character != 'U')

/-- A 26-character identifier that stays inside 128 bits. -/
def isUlid (characters : List Char) : Bool :=
  characters.length == 26 && characters.all isCrockford &&
    characters.head?.any fun first ↦ first ≤ '7'

/-- The token alphabet of event ids and idempotency keys. -/
def isToken (character : Char) : Bool :=
  character.isAlphanum || character == '.' || character == '_' || character == '~' ||
    character == '-'

/-- A token of a bounded length. -/
def isBoundedToken (minimum maximum : Nat) (text : String) : Bool :=
  let characters := units text
  minimum ≤ characters.length && characters.length ≤ maximum && characters.all isToken

/-- The value of a list of decimal digits. -/
def natural? (digits : List Char) : Option Nat :=
  if digits ≠ [] ∧ digits.all Char.isDigit then
    some (digits.foldl (fun total digit ↦ 10 * total + (digit.toNat - 48)) 0)
  else none

/-- The value of decimal digits with an optional minus sign. -/
def integer? (text : String) : Option Int :=
  match units text with
  | '-' :: digits => (natural? digits).map fun value ↦ -value
  | digits => (natural? digits).map fun value ↦ value

/-- Whether a piece occurs inside a text. -/
def contains (text piece : String) : Bool :=
  decide (units piece <:+: units text)

/-- A word of lower-case ASCII letters, digits, hyphens and underscores. -/
def isPlain (text : String) : Bool :=
  (units text).all fun character ↦
    character.isLower || character.isDigit || character == '_' || character == '-'

/-- The byte-order mark U+FEFF, by its UTF-8 bytes. -/
def byteOrderMark : List Char := [Char.ofNat 0xef, Char.ofNat 0xbb, Char.ofNat 0xbf]

private theorem isPrefixOf?_eq_some {before characters rest : List Char}
    (h : before.isPrefixOf? characters = some rest) : characters = before ++ rest := by
  induction before generalizing characters with
  | nil =>
    rw [List.isPrefixOf?] at h
    simpa using h
  | cons first before ih =>
    cases characters with
    | nil => simp [List.isPrefixOf?] at h
    | cons other characters =>
      rw [List.isPrefixOf?] at h
      split_ifs at h with hsame
      rw [beq_iff_eq.mp hsame, List.cons_append, ih h]

theorem length_of_stripPrefix? {before text : String} {rest : List Char}
    (h : stripPrefix? before text = some rest) :
    (units text).length = (units before).length + rest.length := by
  rw [isPrefixOf?_eq_some h, List.length_append]

/-- An address of a plain prefix is a plain word. -/
theorem isPlain_of_isHexAddress {before text : String} (hbefore : isPlain before = true)
    (h : isHexAddress before text = true) : isPlain text = true := by
  unfold isHexAddress stripPrefix? at h
  split at h
  · next digits hdigits =>
    simp only [Bool.and_eq_true, List.all_eq_true] at h
    have hunits : units text = units before ++ digits := isPrefixOf?_eq_some hdigits
    rw [isPlain, hunits, List.all_append, Bool.and_eq_true]
    refine ⟨hbefore, List.all_eq_true.mpr ?_⟩
    intro digit hdigit
    have hhex := h.2 digit hdigit
    simp only [isLowerHex, Bool.or_eq_true, Bool.and_eq_true, decide_eq_true_eq] at hhex
    rcases hhex with hdecimal | ⟨hlow, hhigh⟩
    · simp [hdecimal]
    · have hlower : digit.isLower = true := by
        simp only [Char.isLower, Bool.and_eq_true, decide_eq_true_eq, ge_iff_le,
          UInt32.le_iff_toNat_le, Char.le_def] at hlow hhigh ⊢
        have hlast : digit.val.toNat ≤ 102 := hhigh
        exact ⟨hlow, le_trans hlast (by decide)⟩
      simp [hlower]
  · cases h

theorem no_mark_of_isPlain {text : String} (h : isPlain text = true) :
    ¬ byteOrderMark <:+: units text := by
  intro hmark
  have hmem : Char.ofNat 0xef ∈ units text := hmark.subset List.mem_cons_self
  have hplain := List.all_eq_true.mp h _ hmem
  revert hplain
  decide

/-! ### Decimal texts -/

/-- The units of an ASCII text are its characters. -/
theorem units_ofList {characters : List Char}
    (hascii : ∀ character ∈ characters, character.toNat < 128) :
    units (String.ofList characters) = characters := by
  rw [units, String.toByteArray_ofList]
  induction characters with
  | nil => rfl
  | cons first rest ih =>
    rw [List.forall_mem_cons] at hascii
    have hsmall : first.toNat < 128 := hascii.1
    have hsize : first.utf8Size = 1 := by
      have hle : first.val ≤ 0x7f := by
        rw [UInt32.le_iff_toNat_le]
        exact Nat.le_of_lt_succ hsmall
      simp [Char.utf8Size, hle]
    have hbyte : Char.ofNat first.val.toUInt8.toNat = first := by
      have hmod : first.val.toNat % 2 ^ 8 = first.toNat :=
        Nat.mod_eq_of_lt (Nat.lt_trans hsmall (by decide))
      rw [UInt32.toNat_toUInt8, hmod]
      exact Char.ofNat_toNat first
    rw [List.utf8Encode_cons, List.utf8Encode_singleton, String.utf8EncodeChar_eq_singleton hsize]
    simp only [ByteArray.data_append, Array.toList_append, ih hascii.2, List.data_toByteArray,
      List.map_cons, hbyte, List.singleton_append]

theorem toNat_of_isDigit {character : Char} (h : character.isDigit = true) :
    character.toNat < 128 := by
  simp only [Char.isDigit, Bool.and_eq_true, decide_eq_true_eq, UInt32.le_iff_toNat_le] at h
  have hbound : character.toNat ≤ 57 := h.2
  omega

theorem isDigit_of_toDigits {value : Nat} {character : Char}
    (h : character ∈ Nat.toDigits 10 value) : character.isDigit = true :=
  Nat.isDigit_of_mem_toDigits (by decide) (by decide) h

theorem natural?_toDigits (value : Nat) : natural? (Nat.toDigits 10 value) = some value := by
  have hdigits : (Nat.toDigits 10 value).all Char.isDigit := by
    rw [List.all_eq_true]
    intro character hmem
    exact isDigit_of_toDigits hmem
  rw [natural?, if_pos ⟨Nat.toDigits_ne_nil, hdigits⟩]
  exact congrArg some Nat.ofDigitChars_ten_toDigits

/-- An integer is written with an optional minus sign and its digits. -/
theorem units_toString (value : Int) :
    units (toString value) =
      (if 0 ≤ value then [] else ['-']) ++ Nat.toDigits 10 value.natAbs := by
  have hdigits : ∀ natural : Nat, ∀ character ∈ Nat.toDigits 10 natural,
      character.toNat < 128 := by
    intro natural character hmem
    exact toNat_of_isDigit (isDigit_of_toDigits hmem)
  rw [Int.toString_eq_repr, Int.repr_eq_if]
  by_cases hsign : 0 ≤ value
  · rw [if_pos hsign, if_pos hsign, Nat.repr_eq_ofList_toDigits, units_ofList (hdigits _),
      List.nil_append, show value.toNat = value.natAbs by omega]
  · have hsame : (-value).toNat = value.natAbs := by omega
    rw [if_neg hsign, if_neg hsign, Nat.repr_eq_ofList_toDigits, hsame,
      show ("-" : String) = String.ofList ['-'] from rfl, ← String.ofList_append]
    refine units_ofList ?_
    intro character hmem
    rcases List.mem_append.mp hmem with hminus | hdigit
    · rw [List.mem_singleton.mp hminus]
      decide
    · exact hdigits _ _ hdigit

theorem integer?_toString (value : Int) : integer? (toString value) = some value := by
  unfold integer?
  rw [units_toString]
  by_cases hsign : 0 ≤ value
  · rw [if_pos hsign, List.nil_append]
    have hhead : ∀ digits, Nat.toDigits 10 value.natAbs ≠ '-' :: digits := by
      intro digits hminus
      have hdigit := isDigit_of_toDigits (hminus ▸ List.mem_cons_self)
      exact absurd hdigit (by decide)
    split
    · next digits hdigits => exact absurd hdigits (hhead digits)
    · rw [natural?_toDigits]
      simp [Int.natAbs_of_nonneg hsign]
  · rw [if_neg hsign, List.singleton_append]
    have habs : -(value.natAbs : Int) = value := by omega
    simp only [natural?_toDigits]
    exact congrArg some habs

end Text

structure Platform where
  /-- Unicode normalization form C. -/
  nfc : String → String
  nfc_nfc : ∀ text, nfc (nfc text) = nfc text
  /-- No other text normalizes to a plain word, and a plain word is normal. -/
  nfc_plain : ∀ text word, Text.isPlain word = true → (nfc text = word ↔ text = word)
  /-- Normalization brings in no byte-order mark. -/
  nfc_mark : ∀ text, Text.byteOrderMark <:+: Text.units (nfc text) →
    Text.byteOrderMark <:+: Text.units text
  /-- Unicode lower case of a text. -/
  lower : String → String
  /-- The value of a Unicode decimal digit. -/
  digit : Char → Option Nat
  /-- The SHA-256 of a domain, a zero byte and canonical bytes, in lowercase hexadecimal. -/
  sha256 : String → Json → String
  /-- The length of the compact encoding that the client's JSON library writes. -/
  encodedLength : Json → Nat
  /-- The client's time library reads the text as a moment. -/
  readsMoment : String → Bool
  /-- The client's ULID library reads the characters as an identifier. -/
  readsUlid : List Char → Bool
  readsUlid_isUlid : ∀ characters, Text.isUlid characters = true → readsUlid characters = true
  /-- The signed token of an outbox position: secret, account and sequence. -/
  cursorToken : String → String → Nat → String


/-! ### A platform to evaluate on

Examples use ASCII texts, on which normalization is the identity and lower case is the ASCII one.
The digest of `asciiPlatform` is a polynomial code of the content in 64 hexadecimal digits. -/

namespace Sample

def mixText (seed : Nat) (text : String) : Nat :=
  (Text.units text).foldl
    (fun total character ↦ (total * 1000003 + character.toNat) % 16 ^ 64) (seed + 1)

def mixNumber (seed : Nat) : Number → Nat
  | .integer value => mixText (seed + 2) (toString value)
  | .float text => mixText (seed + 3) text
  | .nonFinite => seed + 4

mutual

def mix (seed : Nat) : Json → Nat
  | .null => mixText seed "null"
  | .bool value => mixText seed (if value then "true" else "false")
  | .number value => mixNumber seed value
  | .string text => mixText (seed + 5) text
  | .array items => mixItems (mixText seed "array") items
  | .object fields => mixFields (mixText seed "object") fields

def mixItems (seed : Nat) : List Json → Nat
  | [] => mixText seed "end"
  | item :: items => mixItems (mix seed item) items

def mixFields (seed : Nat) : List (String × Json) → Nat
  | [] => mixText seed "end"
  | (name, value) :: fields => mixFields (mix (mixText seed name) value) fields

end

/-- 64 lowercase hexadecimal digits of a number. -/
def hex (value : Nat) : String :=
  String.ofList ((List.range 64).map fun position ↦
    Nat.digitChar (value / 16 ^ position % 16))

mutual

/-- The length of the compact encoding of a document whose texts need no escapes. -/
def encodedLength : Json → Nat
  | .null => 4
  | .bool value => if value then 4 else 5
  | .number (.integer value) => (toString value).utf8ByteSize
  | .number (.float text) => text.utf8ByteSize
  | .number .nonFinite => 4
  | .string text => text.utf8ByteSize + 2
  | .array items => encodedItemsLength items + 2
  | .object fields => encodedFieldsLength fields + 2

def encodedItemsLength : List Json → Nat
  | [] => 0
  | [item] => encodedLength item
  | item :: items => encodedLength item + 1 + encodedItemsLength items

def encodedFieldsLength : List (String × Json) → Nat
  | [] => 0
  | [(name, value)] => name.utf8ByteSize + 3 + encodedLength value
  | (name, value) :: fields =>
    name.utf8ByteSize + 3 + encodedLength value + 1 + encodedFieldsLength fields

end

/-- The digits of a moment written in its canonical shape. -/
def readsMoment (value : String) : Bool :=
  value.utf8ByteSize == 24 &&
    ((Text.units value).zip (Text.units "0000-00-00T00:00:00.000Z")).all fun position ↦
      if position.2 = '0' then position.1.isDigit else position.1 = position.2

end Sample

def asciiPlatform : Platform where
  nfc := id
  nfc_nfc := fun _ ↦ rfl
  nfc_plain := fun _ _ _ ↦ Iff.rfl
  nfc_mark := fun _ h ↦ h
  lower := fun text ↦ String.ofList ((Text.units text).map Char.toLower)
  digit := fun character ↦ if character.isDigit then some (character.toNat - 48) else none
  sha256 := fun domain content ↦ Sample.hex (Sample.mix (Sample.mixText 7 domain) content)
  encodedLength := Sample.encodedLength
  readsMoment := Sample.readsMoment
  readsUlid := Text.isUlid
  readsUlid_isUlid := fun _ h ↦ h
  cursorToken := fun secret account sequence ↦ secret ++ account ++ toString sequence

end AiStp.Foundation
