import AiStp.Foundation.Canonical
import AiStp.Library.JsonRebuild

/-!
# Canonical bytes

The canonical form down to its bytes, as each program computes it: the client's `parse` and `bytes`,
the server's `fromJsonBytes` and `canonize`. Both read a JSON text, normalize its strings, refuse
names that become equal and integers outside the exact range of a double, and write the document
with its names in the order of their UTF-16 units. The number formats of the libraries are the
`Doubles`.

Canonical bytes are canonical again exactly when no double of the document is written as an integer
that the reader refuses, and, for the client, when they are not too long to be read
(`canonical_again_iff`). The programs write the same bytes exactly when the client's encoding of a
document that is not refused is not too long (`canonical_agree_iff`).
-/

set_option autoImplicit false

namespace AiStp.Foundation.CanonicalText

open Library
open Library.JsonText
open Canonical (maxSafeInteger maxDepth maxJsonBytes normalizedString)

/-! ### Numbers -/

/-- A token with a fraction or an exponent. -/
def isReal (token : String) : Bool :=
  token.toList.any fun character ↦ character == '.' || character == 'e' || character == 'E'

/-- How the libraries read and write doubles. A double is held as the text that the client's encoder
writes of it: the shortest one that reads back as it, always with a point or an exponent. -/
structure Doubles where
  /-- The double nearest to a token, unless it is too large. -/
  nearest : String → Option String
  /-- The text of a double in canonical JSON. -/
  canonical : String → String
  nearest_nearest : ∀ {token double}, nearest token = some double → nearest double = some double
  nearest_isNumber : ∀ {token double}, nearest token = some double →
    isNumber double.toList = true ∧ isReal double = true
  canonical_isNumber : ∀ {token double}, nearest token = some double →
    isNumber (canonical double).toList = true
  /-- A canonical text with a point or an exponent reads back as its double. -/
  canonical_nearest : ∀ {token double}, nearest token = some double →
    isReal (canonical double) = true → nearest (canonical double) = some double
  /-- Any other canonical text is that of an integer. -/
  canonical_integer : ∀ {token double}, nearest token = some double →
    isReal (canonical double) = false → ∃ value : Int, canonical double = toString value
  /-- The canonical text is the longer one where both have a point or an exponent. -/
  canonical_length : ∀ {token double}, nearest token = some double →
    isReal (canonical double) = true →
    utf8Length double.toList ≤ utf8Length (canonical double).toList

/-- An integer in the exact range of a double. -/
def exactInteger (token : String) : Option Number :=
  (Text.integer? token).bind fun value ↦
    if value.natAbs ≤ maxSafeInteger then some (.float (toString value)) else none

/-! ### Bytes -/

def utf8 (text : List Char) : ByteArray := (String.ofList text).toByteArray

def text? (data : ByteArray) : Option (List Char) := (String.fromUTF8? data).map String.toList

/-- The document of some bytes, with its numbers as they were written. -/
def document? (data : ByteArray) : Option Json := (text? data).bind JsonText.read

/-- The UTF-16 code units of a name. -/
def utf16 (name : String) : List Nat :=
  name.toList.flatMap fun character ↦
    let code := character.toNat
    if code < 0x10000 then [code]
    else [0xd800 + (code - 0x10000) / 0x400, 0xdc00 + (code - 0x10000) % 0x400]

def NameOrder (left right : String) : Prop := utf16 left ≤ utf16 right

instance : DecidableRel NameOrder := fun left right ↦
  inferInstanceAs (Decidable (utf16 left ≤ utf16 right))

/-- The bytes of a document, with the names of its objects in order. -/
def canonicalBytes (document : Json) : ByteArray := utf8 (write (arrange NameOrder document))

/-! ### The client -/

namespace Client

variable (platform : Platform) (doubles : Doubles)

/-- A number of `decode`, held as the encoder writes it. -/
def number : Number → Option Number
  | .float token =>
    if isReal token then (doubles.nearest token).map .float else exactInteger token
  | _ => none

def decode (raw : Json) : Option Json := raw.rebuild (normalizedString platform) (number doubles)

def parse (data : ByteArray) : Option Json :=
  if data.size ≤ maxJsonBytes then
    (document? data).bind fun raw ↦ if raw.depth ≤ maxDepth then decode platform doubles raw else none
  else none

def canonicalNumber : Number → Option Number
  | .float token => some (.float (if isReal token then doubles.canonical token else token))
  | _ => none

/-- The canonical writer of the client's library. -/
def toVec (value : Json) : Option ByteArray :=
  (value.rebuild some (canonicalNumber doubles)).map canonicalBytes

/-- The value is encoded and parsed before it is written. -/
def bytes (value : Json) : Option ByteArray :=
  (parse platform doubles (utf8 (write value))).bind (toVec doubles)

/-- The canonical bytes of some JSON bytes. -/
def canonical (data : ByteArray) : Option ByteArray :=
  (parse platform doubles data).bind (bytes platform doubles)

end Client

/-! ### The server -/

namespace Server

variable (platform : Platform) (doubles : Doubles)

/-- A number of the reader; a double that is too large is infinite. -/
def number : Number → Option Number
  | .float token =>
    if isReal token then some (((doubles.nearest token).map .float).getD .nonFinite)
    else (Text.integer? token).map fun value ↦ .float (toString value)
  | _ => none

/-- `from_json_bytes`; a text with a lone surrogate is refused here, before `canonize` would. -/
def fromJsonBytes (data : ByteArray) : Option Json :=
  (text? data).bind fun text ↦
    if text.head? = some (Char.ofNat 0xfeff) then none
    else (JsonText.read text).bind fun raw ↦ raw.rebuild some (number doubles)

/-- A number of the canonical writer, which is finite and in its domain. -/
def canonicalNumber : Number → Option Number
  | .float token =>
    if isReal token then some (.float (doubles.canonical token)) else exactInteger token
  | _ => none

def canonize (value : Json) : Option ByteArray :=
  (value.rebuild (normalizedString platform) (canonicalNumber doubles)).map canonicalBytes

/-- The canonical bytes of some JSON bytes. -/
def canonical (data : ByteArray) : Option ByteArray :=
  (fromJsonBytes doubles data).bind (canonize platform doubles)

end Server

/-! ### Integers -/

variable (value : Int)

theorem toList_toString :
    (toString value).toList =
      (if 0 ≤ value then [] else ['-']) ++ Nat.toDigits 10 value.natAbs := by
  rw [Int.toString_eq_repr, Int.repr_eq_if]
  by_cases hsign : 0 ≤ value
  · rw [if_pos hsign, if_pos hsign, Nat.repr_eq_ofList_toDigits, String.toList_ofList,
      List.nil_append, show value.toNat = value.natAbs by omega]
  · rw [if_neg hsign, if_neg hsign, Nat.repr_eq_ofList_toDigits, String.toList_append,
      show (-value).toNat = value.natAbs by omega, String.toList_ofList, String.toList_ofList]

theorem isReal_toString : isReal (toString value) = false := by
  rw [isReal, toList_toString, List.any_eq_false]
  intro character hmem
  rcases List.mem_append.mp hmem with hsign | hdigit
  · split_ifs at hsign
    · cases hsign
    · rw [List.mem_singleton.mp hsign]
      decide
  · have hdecimal := Text.isDigit_of_toDigits hdigit
    intro hother
    simp only [Bool.or_eq_true, beq_iff_eq] at hother
    rcases hother with (rfl | rfl) | rfl <;> exact absurd hdecimal (by decide)

theorem head?_toDigits {value : Nat} (h : value ≠ 0) :
    (Nat.toDigits 10 value).head? ≠ some '0' := by
  have hdigit : ∀ digit < 10, digit ≠ 0 → Nat.digitChar digit ≠ '0' := by decide
  induction value using Nat.strong_induction_on with
  | _ value ih =>
    by_cases hsmall : value < 10
    · rw [Nat.toDigits_of_lt_base hsmall]
      intro hzero
      exact hdigit value hsmall h (Option.some.inj hzero)
    · have hrest := ih (value / 10) (by omega) (by omega)
      rw [Nat.toDigits_of_base_le (by decide) (by omega)]
      obtain ⟨first, rest, hfirst⟩ :=
        List.exists_cons_of_ne_nil (Nat.toDigits_ne_nil (n := value / 10) (b := 10))
      rw [hfirst] at hrest ⊢
      exact hrest

/-- The digits of a natural number have no leading zero. -/
theorem isWhole_toDigits (value : Nat) : isWhole (Nat.toDigits 10 value) = true := by
  by_cases hzero : value = 0
  · subst hzero
    decide
  · simp [isWhole, Nat.toDigits_ne_nil, head?_toDigits hzero]

theorem isNumber_toString : isNumber (toString value).toList = true := by
  have hdigits : ∀ digit ∈ Nat.toDigits 10 value.natAbs, digit.isDigit = true :=
    fun _ hmem ↦ Text.isDigit_of_toDigits hmem
  have htake : (Nat.toDigits 10 value.natAbs).takeWhile Char.isDigit =
        Nat.toDigits 10 value.natAbs ∧
      (Nat.toDigits 10 value.natAbs).dropWhile Char.isDigit = [] :=
    ⟨List.takeWhile_eq_self_iff.mpr hdigits, List.dropWhile_eq_nil_iff.mpr hdigits⟩
  have hwhole : (isWhole ((Nat.toDigits 10 value.natAbs).takeWhile Char.isDigit) &&
      isFraction ((Nat.toDigits 10 value.natAbs).dropWhile Char.isDigit)) = true := by
    rw [htake.1, htake.2, isWhole_toDigits]
    rfl
  rw [toList_toString]
  by_cases hsign : 0 ≤ value
  · have hhead : ∀ rest, Nat.toDigits 10 value.natAbs ≠ '-' :: rest := by
      intro rest hminus
      exact absurd (hdigits '-' (hminus ▸ List.mem_cons_self)) (by decide)
    rw [if_pos hsign, List.nil_append, isNumber]
    · exact hwhole
    · exact fun rest hrest ↦ hhead rest hrest
  · rw [if_neg hsign]
    exact hwhole

theorem exactInteger_toString {value : Int} (h : value.natAbs ≤ maxSafeInteger) :
    exactInteger (toString value) = some (.float (toString value)) := by
  rw [exactInteger, Text.integer?_toString, Option.bind_some, if_pos h]

variable {other : Number}

theorem exactInteger_eq_some {token : String} :
    exactInteger token = some other ↔ ∃ value : Int, Text.integer? token = some value ∧
      value.natAbs ≤ maxSafeInteger ∧ other = .float (toString value) := by
  rw [exactInteger, Option.bind_eq_some_iff]
  refine exists_congr fun value ↦ and_congr_right fun _ ↦ ?_
  rw [Option.ite_none_right_eq_some, Option.some.injEq, eq_comm (a := other)]

/-! ### Canonical numbers -/

section Numbers

variable {doubles : Doubles}

theorem canonicalNumber_toString :
    Client.canonicalNumber doubles (.float (toString value)) = some (.float (toString value)) := by
  rw [Client.canonicalNumber, isReal_toString]
  rfl

theorem canonicalNumber_double {token double : String} (h : doubles.nearest token = some double) :
    Client.canonicalNumber doubles (.float double) = some (.float (doubles.canonical double)) := by
  rw [Client.canonicalNumber, (doubles.nearest_isNumber h).2]
  rfl

variable (doubles) in
/-- The canonical number of a token. -/
def canonicalToken (value : Number) : Option Number :=
  (Client.number doubles value).bind (Client.canonicalNumber doubles)

/-- Both programs write a token alike. -/
theorem server_canonicalToken (value : Number) :
    (Server.number doubles value).bind (Server.canonicalNumber doubles) =
      canonicalToken doubles value := by
  cases value with
  | float token =>
    rw [canonicalToken, Server.number, Client.number]
    by_cases hreal : isReal token = true
    · rw [if_pos hreal, if_pos hreal]
      cases hnearest : doubles.nearest token with
      | none => rfl
      | some double =>
        rw [Option.map_some, Option.bind_some, Option.bind_some, canonicalNumber_double hnearest]
        exact if_pos (doubles.nearest_isNumber hnearest).2
    · rw [if_neg hreal, if_neg hreal, exactInteger]
      cases hinteger : Text.integer? token with
      | none => rfl
      | some value =>
        have hwritten := isReal_toString value
        simp only [Option.map_some, Option.bind_some, Server.canonicalNumber, hwritten,
          Bool.false_eq_true, if_false, exactInteger, Text.integer?_toString]
        split_ifs
        · rw [Option.bind_some, canonicalNumber_toString]
        · rfl
  | integer value => rfl
  | nonFinite => rfl

/-- A token is canonical as the text of a double or of an integer. -/
theorem canonicalToken_eq_some {token : String} :
    canonicalToken doubles (.float token) = some other ↔
      (∃ double, isReal token = true ∧ doubles.nearest token = some double ∧
        other = .float (doubles.canonical double)) ∨
      ∃ value : Int, isReal token = false ∧ Text.integer? token = some value ∧
        value.natAbs ≤ maxSafeInteger ∧ other = .float (toString value) := by
  rw [canonicalToken, Client.number]
  by_cases hreal : isReal token = true
  · rw [if_pos hreal]
    simp only [hreal, true_and, Bool.true_eq_false, false_and, exists_const, or_false]
    cases hnearest : doubles.nearest token with
    | none => simp
    | some double =>
      rw [Option.map_some, Option.bind_some, canonicalNumber_double hnearest]
      simp [eq_comm]
  · rw [if_neg hreal, Bool.eq_false_iff.mpr hreal]
    simp only [Bool.false_eq_true, false_and, exists_const, false_or, true_and,
      Option.bind_eq_some_iff, exactInteger_eq_some]
    constructor
    · rintro ⟨written, ⟨value, hvalue, hexact, rfl⟩, hcanonical⟩
      rw [canonicalNumber_toString] at hcanonical
      exact ⟨value, hvalue, hexact, (Option.some.inj hcanonical).symm⟩
    · rintro ⟨value, hvalue, hexact, rfl⟩
      exact ⟨_, ⟨value, hvalue, hexact, rfl⟩, canonicalNumber_toString value⟩

variable (doubles) in
/-- A double that is written as an integer is in the exact range. -/
def Exact (value : Number) : Prop :=
  ∀ token double, value = .float token → isReal token = true →
    doubles.nearest token = some double → ∀ integer : Int,
    doubles.canonical double = toString integer → integer.natAbs ≤ maxSafeInteger

theorem number_toString {value : Int} (h : value.natAbs ≤ maxSafeInteger) :
    Client.number doubles (.float (toString value)) = some (.float (toString value)) := by
  rw [Client.number, isReal_toString]
  exact exactInteger_toString h

/-- The text of an integer is the text of no other. -/
theorem toString_injective {first second : Int} (h : toString first = toString second) :
    first = second := by
  have hread := congrArg Text.integer? h
  rw [Text.integer?_toString, Text.integer?_toString] at hread
  exact Option.some.inj hread

theorem canonicalToken_again {value : Number} (h : canonicalToken doubles value = some other) :
    (Exact doubles value → canonicalToken doubles other = some other) ∧
      (¬ Exact doubles value → canonicalToken doubles other = none) := by
  cases value with
  | integer _ => cases h
  | nonFinite => cases h
  | float token =>
    obtain ⟨double, hreal, hnearest, rfl⟩ | ⟨integer, hreal, -, hexact, rfl⟩ :=
      canonicalToken_eq_some.mp h
    · by_cases hpoint : isReal (doubles.canonical double) = true
      · have hagain : canonicalToken doubles (.float (doubles.canonical double)) =
            some (.float (doubles.canonical double)) :=
          canonicalToken_eq_some.mpr
            (.inl ⟨double, hpoint, doubles.canonical_nearest hnearest hpoint, rfl⟩)
        refine ⟨fun _ ↦ hagain, fun hinexact ↦ absurd ?_ hinexact⟩
        rintro _ _ ⟨⟩ _ hnearest' integer hinteger
        obtain rfl := Option.some.inj (hnearest.symm.trans hnearest')
        rw [hinteger, isReal_toString] at hpoint
        cases hpoint
      · obtain ⟨integer, hinteger⟩ :=
          doubles.canonical_integer hnearest (Bool.eq_false_iff.mpr hpoint)
        rw [hinteger]
        constructor
        · intro hexact
          have hbound := hexact token double rfl hreal hnearest integer hinteger
          rw [canonicalToken, number_toString hbound, Option.bind_some, canonicalNumber_toString]
        · intro hinexact
          have hbound : ¬ integer.natAbs ≤ maxSafeInteger := by
            intro hbound
            refine hinexact ?_
            rintro _ _ ⟨⟩ _ hnearest' other hother
            obtain rfl := Option.some.inj (hnearest.symm.trans hnearest')
            exact toString_injective (hinteger.symm.trans hother) ▸ hbound
          rw [canonicalToken, Client.number, isReal_toString, if_neg (by simp), exactInteger,
            Text.integer?_toString, Option.bind_some, if_neg hbound, Option.bind_none]
    · refine ⟨fun _ ↦ ?_, fun hinexact ↦ absurd ?_ hinexact⟩
      · rw [canonicalToken, number_toString hexact, Option.bind_some, canonicalNumber_toString]
      · rintro _ _ ⟨⟩ hreal'
        rw [hreal] at hreal'
        cases hreal'

theorem isToken_canonicalToken {value : Number} (h : canonicalToken doubles value = some other) :
    IsToken other := by
  cases value with
  | integer _ => cases h
  | nonFinite => cases h
  | float token =>
    obtain ⟨double, -, hnearest, rfl⟩ | ⟨integer, -, -, -, rfl⟩ := canonicalToken_eq_some.mp h
    · exact ⟨_, rfl, doubles.canonical_isNumber hnearest⟩
    · exact ⟨_, rfl, isNumber_toString integer⟩

/-- A number that was read is a token, and is read again as it is. -/
theorem number_again {value : Number} (h : Client.number doubles value = some other) :
    IsToken other ∧ Client.number doubles other = some other := by
  cases value with
  | integer _ => cases h
  | nonFinite => cases h
  | float token =>
    rw [Client.number] at h
    split_ifs at h with hreal
    · obtain ⟨double, hnearest, rfl⟩ := Option.map_eq_some_iff.mp h
      obtain ⟨hnumber, hdouble⟩ := doubles.nearest_isNumber hnearest
      refine ⟨⟨_, rfl, hnumber⟩, ?_⟩
      rw [Client.number, if_pos hdouble, doubles.nearest_nearest hnearest, Option.map_some]
    · obtain ⟨integer, -, hexact, rfl⟩ := exactInteger_eq_some.mp h
      exact ⟨⟨_, rfl, isNumber_toString integer⟩, number_toString hexact⟩

/-- A canonical number is read as one that the encoder writes no longer. -/
theorem number_length {value read : Number} (h : canonicalToken doubles value = some other)
    (hread : Client.number doubles other = some read) :
    utf8Length (writeNumber read) ≤ utf8Length (writeNumber other) := by
  have hinteger : ∀ integer : Int,
      Client.number doubles (.float (toString integer)) = some read →
      utf8Length (writeNumber read) ≤ utf8Length (writeNumber (.float (toString integer))) := by
    intro integer hread
    rw [Client.number, isReal_toString, if_neg (by simp), exactInteger_eq_some] at hread
    obtain ⟨other, hother, -, rfl⟩ := hread
    rw [Text.integer?_toString] at hother
    rw [Option.some.inj hother]
  cases value with
  | integer _ => cases h
  | nonFinite => cases h
  | float token =>
    obtain ⟨double, -, hnearest, rfl⟩ | ⟨integer, -, -, -, rfl⟩ := canonicalToken_eq_some.mp h
    · by_cases hpoint : isReal (doubles.canonical double) = true
      · rw [Client.number, if_pos hpoint, doubles.canonical_nearest hnearest hpoint] at hread
        obtain rfl := Option.some.inj hread
        exact doubles.canonical_length hnearest hpoint
      · obtain ⟨integer, htext⟩ :=
          doubles.canonical_integer hnearest (Bool.eq_false_iff.mpr hpoint)
        rw [htext] at hread ⊢
        exact hinteger integer hread
    · exact hinteger integer hread

end Numbers

/-! ### Canonical documents -/

section Documents

variable (platform : Platform) (doubles : Doubles)

/-- The document that is written of what was read. -/
def canonicalTree (raw : Json) : Option Json :=
  raw.rebuild (normalizedString platform) (canonicalToken doubles)

variable {platform doubles}

theorem normalizedString_bind : (fun text ↦ (normalizedString platform text).bind
    (normalizedString platform)) = normalizedString platform :=
  funext Canonical.normalizedString_normal

/-- A canonical document is canonical as it is, or not at all. -/
theorem canonicalTree_again {raw written : Json}
    (h : canonicalTree platform doubles raw = some written) :
    ((∀ value ∈ numbers raw, Exact doubles value) →
        canonicalTree platform doubles written = some written) ∧
      ((¬ ∀ value ∈ numbers raw, Exact doubles value) →
        canonicalTree platform doubles written = none) := by
  have hagain : canonicalTree platform doubles written =
      raw.rebuild (normalizedString platform)
        fun value ↦ (canonicalToken doubles value).bind (canonicalToken doubles) := by
    rw [canonicalTree, Json.rebuild_rebuild h, normalizedString_bind]
  rw [hagain]
  constructor
  · intro hexact
    refine rebuild_of_agree h fun value hvalue other hother ↦ ?_
    rw [hother, Option.bind_some]
    exact (canonicalToken_again hother).1 (hexact value hvalue)
  · intro hinexact
    push Not at hinexact
    obtain ⟨value, hvalue, hinexact⟩ := hinexact
    rw [Option.eq_none_iff_forall_ne_some]
    intro other hother
    obtain ⟨twice, htwice⟩ := (numbers_rebuild hother).1 value hvalue
    obtain ⟨once, honce, hnone⟩ := Option.bind_eq_some_iff.mp htwice
    rw [(canonicalToken_again honce).2 hinexact] at hnone
    cases hnone

theorem isToken_canonicalTree {raw written : Json}
    (h : canonicalTree platform doubles raw = some written) :
    ∀ value ∈ numbers written, IsToken value := by
  intro value hvalue
  obtain ⟨other, -, hother⟩ := (numbers_rebuild h).2 value hvalue
  exact isToken_canonicalToken hother

theorem text?_utf8 (text : List Char) : text? (utf8 text) = some text := by
  have hvalid : (String.ofList text).toByteArray.IsValidUTF8 := (String.ofList text).isValidUTF8
  rw [text?, utf8, String.fromUTF8?, dif_pos hvalid, Option.map_some]
  exact congrArg some (String.toList_ofList)

theorem size_utf8 (text : List Char) : (utf8 text).size = utf8Length text := by
  rw [utf8, String.toByteArray_ofList]
  induction text with
  | nil => rfl
  | cons first rest ih =>
    rw [List.utf8Encode_cons, ByteArray.size_append, ih, List.utf8Encode_singleton,
      List.size_toByteArray, String.length_utf8EncodeChar, utf8Length_cons]

/-- Canonical bytes are read as the document they were written of. -/
theorem document?_canonicalBytes {document : Json}
    (htokens : ∀ value ∈ numbers document, IsToken value) :
    document? (canonicalBytes document) = some (arrange NameOrder document) := by
  rw [document?, canonicalBytes, text?_utf8, Option.bind_some]
  exact read_write fun value hvalue ↦ htokens value (mem_numbers_arrange.mp hvalue)

theorem number_bind : (fun value ↦ (Client.number doubles value).bind (Client.number doubles)) =
    Client.number doubles := by
  ext value other
  rw [Option.bind_eq_some_iff]
  constructor
  · rintro ⟨read, hread, hagain⟩
    rwa [(number_again hread).2, ← hread] at hagain
  · intro hread
    exact ⟨other, hread, (number_again hread).2⟩

/-! ### Both programs -/

/-- A text that starts with a byte-order mark is no document. -/
theorem read_byteOrderMark {text : List Char} (h : text.head? = some (Char.ofNat 0xfeff)) :
    JsonText.read text = none := by
  obtain ⟨rest, rfl⟩ : ∃ rest, text = Char.ofNat 0xfeff :: rest := by
    cases text with
    | nil => cases h
    | cons first rest => exact ⟨rest, by rw [Option.some.inj h]⟩
  rfl

/-- The server reads a document and writes its canonical tree. -/
theorem server_canonical (data : ByteArray) :
    Server.canonical platform doubles data =
      (document? data).bind fun raw ↦ (canonicalTree platform doubles raw).map canonicalBytes := by
  rw [Server.canonical, Server.fromJsonBytes, document?, Option.bind_assoc, Option.bind_assoc]
  congr 1
  funext text
  by_cases hmark : text.head? = some (Char.ofNat 0xfeff)
  · rw [if_pos hmark, read_byteOrderMark hmark]
    rfl
  · rw [if_neg hmark, Option.bind_assoc]
    congr 1
    funext raw
    have htree : ∀ {held : Json}, raw.rebuild some (Server.number doubles) = some held →
        held.rebuild (normalizedString platform) (Server.canonicalNumber doubles) =
          canonicalTree platform doubles raw := by
      intro held hheld
      rw [Json.rebuild_rebuild hheld, canonicalTree]
      simp only [Option.bind_some, server_canonicalToken]
    cases hheld : raw.rebuild some (Server.number doubles) with
    | some held => rw [Option.bind_some, Server.canonize, htree hheld]
    | none =>
      cases hwritten : canonicalTree platform doubles raw with
      | none => rfl
      | some written =>
        have hread : ∃ held, raw.rebuild some (Server.number doubles) = some held :=
          exists_rebuild hwritten (fun name _ _ ↦ ⟨name, rfl⟩)
            (fun left right other hleft hright ↦ by
              rw [Option.some.inj hleft, Option.some.inj hright])
            (fun value other hother ↦ by
              rw [← server_canonicalToken, Option.bind_eq_some_iff] at hother
              exact hother.elim fun read hread ↦ ⟨read, hread.1⟩)
        obtain ⟨held, hheld'⟩ := hread
        rw [hheld] at hheld'
        cases hheld'

/-- What the client reads of a document, and that it encodes and reads it again as it is. -/
theorem client_parse_again {raw value : Json} (hdepth : raw.depth ≤ maxDepth)
    (hvalue : Client.decode platform doubles raw = some value)
    (hlength : utf8Length (write value) ≤ maxJsonBytes) :
    Client.parse platform doubles (utf8 (write value)) = some value := by
  have htokens : ∀ number ∈ numbers value, IsToken number := by
    intro number hnumber
    obtain ⟨token, -, htoken⟩ := (numbers_rebuild hvalue).2 number hnumber
    exact (number_again htoken).1
  rw [Client.parse, if_pos (by rw [size_utf8]; exact hlength), document?, text?_utf8,
    Option.bind_some, read_write htokens, Option.bind_some, depth_rebuild hvalue, if_pos hdepth,
    Client.decode, Json.rebuild_rebuild hvalue, normalizedString_bind, number_bind]
  exact hvalue

/-- What the client needs to write canonical bytes. -/
theorem client_canonical {data written : ByteArray} :
    Client.canonical platform doubles data = some written ↔
      data.size ≤ maxJsonBytes ∧ ∃ raw value tree, document? data = some raw ∧
        raw.depth ≤ maxDepth ∧ Client.decode platform doubles raw = some value ∧
        utf8Length (write value) ≤ maxJsonBytes ∧
        canonicalTree platform doubles raw = some tree ∧ written = canonicalBytes tree := by
  have htree : ∀ {raw value : Json}, Client.decode platform doubles raw = some value →
      value.rebuild some (Client.canonicalNumber doubles) = canonicalTree platform doubles raw := by
    intro raw value hvalue
    rw [Json.rebuild_rebuild hvalue, canonicalTree]
    simp only [Option.bind_fun_some]
    rfl
  constructor
  · intro h
    obtain ⟨value, hparse, hbytes⟩ := Option.bind_eq_some_iff.mp h
    rw [Client.parse, Option.ite_none_right_eq_some, Option.bind_eq_some_iff] at hparse
    obtain ⟨hsize, raw, hraw, hdecode⟩ := hparse
    rw [Option.ite_none_right_eq_some] at hdecode
    obtain ⟨hdepth, hvalue⟩ := hdecode
    rw [Client.bytes, Option.bind_eq_some_iff] at hbytes
    obtain ⟨again, hagain, hvec⟩ := hbytes
    have hlength : utf8Length (write value) ≤ maxJsonBytes := by
      rw [Client.parse, Option.ite_none_right_eq_some, size_utf8] at hagain
      exact hagain.1
    rw [client_parse_again hdepth hvalue hlength] at hagain
    obtain rfl := Option.some.inj hagain
    rw [Client.toVec, htree hvalue, Option.map_eq_some_iff] at hvec
    obtain ⟨tree, htree, rfl⟩ := hvec
    exact ⟨hsize, raw, value, tree, hraw, hdepth, hvalue, hlength, htree, rfl⟩
  · rintro ⟨hsize, raw, value, tree, hraw, hdepth, hvalue, hlength, hwritten, rfl⟩
    have hparse : Client.parse platform doubles data = some value := by
      rw [Client.parse, if_pos hsize, hraw, Option.bind_some, if_pos hdepth, hvalue]
    rw [Client.canonical, hparse, Option.bind_some, Client.bytes,
      client_parse_again hdepth hvalue hlength, Option.bind_some, Client.toVec, htree hvalue,
      hwritten, Option.map_some]

/-! ### Canonical bytes again -/

variable (platform doubles) in
/-- The size of a document with its strings normalized and its numbers canonical. -/
def canonicalSize (raw : Json) : Nat :=
  writtenSize
    (fun text ↦ ((normalizedString platform text).map fun text ↦
      utf8Length (writeString text)).getD 0)
    (fun value ↦ ((canonicalToken doubles value).map fun value ↦
      utf8Length (writeNumber value)).getD 0) raw

theorem size_canonicalBytes {raw tree : Json} (h : canonicalTree platform doubles raw = some tree) :
    (canonicalBytes tree).size = canonicalSize platform doubles raw := by
  rw [canonicalBytes, size_utf8, utf8Length_write, writtenSize_arrange, writtenSize_rebuild h,
    canonicalSize]

variable (platform doubles) in
/-- The size of a document as the client encodes it. -/
def encodedSize (raw : Json) : Nat :=
  writtenSize
    (fun text ↦ ((normalizedString platform text).map fun text ↦
      utf8Length (writeString text)).getD 0)
    (fun value ↦ ((Client.number doubles value).map fun value ↦
      utf8Length (writeNumber value)).getD 0) raw

/-- The client reads whatever has a canonical tree. -/
theorem decode_of_canonicalTree {raw tree : Json}
    (h : canonicalTree platform doubles raw = some tree) :
    ∃ value, Client.decode platform doubles raw = some value ∧
      utf8Length (write value) = encodedSize platform doubles raw := by
  have hread : ∃ value, raw.rebuild (normalizedString platform) (Client.number doubles) =
      some value :=
    exists_rebuild h (fun _ other hother ↦ ⟨other, hother⟩)
      (fun left right other hleft hright ↦ hleft.trans hright.symm)
      (fun token other hother ↦ by
        obtain ⟨read, hread, -⟩ := Option.bind_eq_some_iff.mp hother
        exact ⟨read, hread⟩)
  obtain ⟨value, hvalue⟩ := hread
  exact ⟨value, hvalue, by rw [utf8Length_write, writtenSize_rebuild hvalue, encodedSize]⟩

/-- The client reads a canonical document as one that it encodes no longer. -/
theorem decode_canonicalTree {raw tree : Json} (h : canonicalTree platform doubles raw = some tree)
    (hagain : canonicalTree platform doubles tree = some tree) :
    ∃ value, Client.decode platform doubles tree = some value ∧
      utf8Length (write value) ≤ canonicalSize platform doubles raw := by
  obtain ⟨value, hvalue, -⟩ := decode_of_canonicalTree hagain
  refine ⟨value, hvalue, ?_⟩
  rw [Client.decode, Json.rebuild_rebuild h, normalizedString_bind] at hvalue
  rw [utf8Length_write, writtenSize_rebuild hvalue, canonicalSize]
  refine writtenSize_mono fun token _ ↦ ?_
  cases hcanonical : canonicalToken doubles token with
  | none => exact Nat.le_refl _
  | some other =>
    rw [Option.bind_some]
    cases hread : Client.number doubles other with
    | none => exact Nat.zero_le _
    | some read => exact number_length hcanonical hread

theorem server_again {data written : ByteArray}
    (h : Server.canonical platform doubles data = some written) :
    Server.canonical platform doubles written = some written ↔
      ∃ raw, document? data = some raw ∧ ∀ value ∈ numbers raw, Exact doubles value := by
  rw [server_canonical, Option.bind_eq_some_iff] at h
  obtain ⟨raw, hraw, hwritten⟩ := h
  obtain ⟨tree, htree, rfl⟩ := Option.map_eq_some_iff.mp hwritten
  have hread : Server.canonical platform doubles (canonicalBytes tree) =
      (canonicalTree platform doubles tree).map canonicalBytes := by
    rw [server_canonical, document?_canonicalBytes (isToken_canonicalTree htree), Option.bind_some,
      canonicalTree, rebuild_arrange]
    rfl
  obtain ⟨hexact, hinexact⟩ := canonicalTree_again htree
  rw [hread]
  constructor
  · intro hagain
    refine ⟨raw, hraw, ?_⟩
    by_contra hnone
    rw [hinexact hnone] at hagain
    cases hagain
  · rintro ⟨other, hother, hall⟩
    obtain rfl : raw = other := Option.some.inj (hraw.symm.trans hother)
    rw [hexact hall, Option.map_some]

theorem client_again {data written : ByteArray}
    (h : Client.canonical platform doubles data = some written) :
    Client.canonical platform doubles written = some written ↔
      ∃ raw, document? data = some raw ∧ (∀ value ∈ numbers raw, Exact doubles value) ∧
        canonicalSize platform doubles raw ≤ maxJsonBytes := by
  obtain ⟨-, raw, value, tree, hraw, hdepth, -, -, htree, rfl⟩ := client_canonical.mp h
  have hread := document?_canonicalBytes (isToken_canonicalTree htree)
  obtain ⟨hexact, hinexact⟩ := canonicalTree_again htree
  constructor
  · intro hagain
    obtain ⟨hsize, other, -, again, hother, -, -, -, hcanonical, -⟩ := client_canonical.mp hagain
    obtain rfl := Option.some.inj (hread.symm.trans hother)
    rw [canonicalTree, rebuild_arrange] at hcanonical
    refine ⟨raw, hraw, ?_, size_canonicalBytes htree ▸ hsize⟩
    by_contra hnone
    have hrefused := hinexact hnone
    rw [canonicalTree, hcanonical] at hrefused
    cases hrefused
  · rintro ⟨other, hother, hall, hsize⟩
    obtain rfl : raw = other := Option.some.inj (hraw.symm.trans hother)
    obtain ⟨again, hagain, hlength⟩ := decode_canonicalTree htree (hexact hall)
    refine client_canonical.mpr ⟨size_canonicalBytes htree ▸ hsize, arrange NameOrder tree, again,
      tree, hread, ?_, ?_, hlength.trans hsize, ?_, rfl⟩
    · rw [depth_arrange, depth_rebuild htree]
      exact hdepth
    · rw [Client.decode, rebuild_arrange]
      exact hagain
    · rw [canonicalTree, rebuild_arrange]
      exact hexact hall

/-- Canonical bytes are accepted and are canonical again exactly when every double that is written
as an integer is in the exact range, and the client can read bytes of their length. -/
theorem canonical_again_iff (platform : Platform) (doubles : Doubles) (data written : ByteArray) :
    (Client.canonical platform doubles data = some written →
      (Client.canonical platform doubles written = some written ↔
        ∃ raw, document? data = some raw ∧ (∀ value ∈ numbers raw, Exact doubles value) ∧
          canonicalSize platform doubles raw ≤ maxJsonBytes)) ∧
    (Server.canonical platform doubles data = some written →
      (Server.canonical platform doubles written = some written ↔
        ∃ raw, document? data = some raw ∧ ∀ value ∈ numbers raw, Exact doubles value)) :=
  ⟨client_again, server_again⟩

theorem server_of_client {data written : ByteArray}
    (h : Client.canonical platform doubles data = some written) :
    Server.canonical platform doubles data = some written := by
  obtain ⟨-, raw, -, tree, hraw, -, -, -, htree, rfl⟩ := client_canonical.mp h
  rw [server_canonical, hraw, Option.bind_some, htree, Option.map_some]

/-- A document that both programs write is encoded by the client within its limit. -/
theorem encodedSize_le {data : ByteArray} {raw tree : Json}
    (hsame : Client.canonical platform doubles data = Server.canonical platform doubles data)
    (hraw : document? data = some raw) (htree : canonicalTree platform doubles raw = some tree) :
    encodedSize platform doubles raw ≤ maxJsonBytes := by
  rw [server_canonical, hraw, Option.bind_some, htree, Option.map_some] at hsame
  obtain ⟨-, other, value, -, hother, -, hvalue, hbound, -⟩ := client_canonical.mp hsame
  obtain rfl := Option.some.inj (hraw.symm.trans hother)
  obtain ⟨again, hagain, hlength⟩ := decode_of_canonicalTree htree
  obtain rfl := Option.some.inj (hvalue.symm.trans hagain)
  exact hlength ▸ hbound

/-- On bytes within the client's limits the programs write the same or both refuse, exactly when
the client encodes the document, unless it is refused, within the limit. -/
theorem canonical_agree_iff (platform : Platform) (doubles : Doubles) {data : ByteArray}
    (hsize : data.size ≤ maxJsonBytes)
    (hdepth : ∀ raw, document? data = some raw → raw.depth ≤ maxDepth) :
    Client.canonical platform doubles data = Server.canonical platform doubles data ↔
      ∀ raw, document? data = some raw → (canonicalTree platform doubles raw).isSome →
        encodedSize platform doubles raw ≤ maxJsonBytes := by
  constructor
  · intro hsame raw hraw hsome
    obtain ⟨tree, htree⟩ := Option.isSome_iff_exists.mp hsome
    exact encodedSize_le hsame hraw htree
  · intro hencoded
    cases hserver : Server.canonical platform doubles data with
    | none =>
      refine Option.eq_none_iff_forall_ne_some.mpr fun written hwritten ↦ ?_
      rw [server_of_client hwritten] at hserver
      cases hserver
    | some written =>
      rw [server_canonical, Option.bind_eq_some_iff] at hserver
      obtain ⟨raw, hraw, hwritten⟩ := hserver
      obtain ⟨tree, htree, rfl⟩ := Option.map_eq_some_iff.mp hwritten
      obtain ⟨value, hvalue, hlength⟩ := decode_of_canonicalTree htree
      have hbound := hencoded raw hraw (Option.isSome_iff_exists.mpr ⟨tree, htree⟩)
      exact client_canonical.mpr ⟨hsize, raw, value, tree, hraw, hdepth raw hraw, hvalue,
        hlength ▸ hbound, htree, rfl⟩

end Documents

/-! Two doubles: 10 to the power of 20, whose canonical text is an integer, and a half. -/

namespace Sample

def nearest (token : String) : Option String :=
  if token = "1e20" then some "1e20"
  else if token = "0.50" ∨ token = "0.5" then some "0.5"
  else none

def canonical (double : String) : String :=
  if double = "1e20" then "100000000000000000000" else double

theorem nearest_cases {token double : String} (h : nearest token = some double) :
    double = "1e20" ∨ double = "0.5" := by
  unfold nearest at h
  split_ifs at h
  · exact .inl (Option.some.inj h).symm
  · exact .inr (Option.some.inj h).symm

def doubles : Doubles where
  nearest := nearest
  canonical := canonical
  nearest_nearest := by
    intro token double h
    rcases nearest_cases h with rfl | rfl <;> decide
  nearest_isNumber := by
    intro token double h
    rcases nearest_cases h with rfl | rfl <;> decide
  canonical_isNumber := by
    intro token double h
    rcases nearest_cases h with rfl | rfl <;> decide
  canonical_nearest := by
    intro token double h
    rcases nearest_cases h with rfl | rfl <;> decide
  canonical_integer := by
    intro token double h
    rcases nearest_cases h with rfl | rfl
    · exact fun _ ↦ ⟨100000000000000000000, by decide⟩
    · exact fun hreal ↦ absurd hreal (by decide)
  canonical_length := by
    intro token double h
    rcases nearest_cases h with rfl | rfl <;> decide

end Sample

/-- A half is written once and again, by both programs. -/
theorem canonical_again_iff_half :
    (Client.canonical asciiPlatform Sample.doubles (utf8 "[0.5]".toList) =
        some (utf8 "[0.5]".toList) ↔
      ∃ raw, document? (utf8 "[0.50]".toList) = some raw ∧
        (∀ value ∈ numbers raw, Exact Sample.doubles value) ∧
        canonicalSize asciiPlatform Sample.doubles raw ≤ maxJsonBytes) ∧
    (Server.canonical asciiPlatform Sample.doubles (utf8 "[0.5]".toList) =
        some (utf8 "[0.5]".toList) ↔
      ∃ raw, document? (utf8 "[0.50]".toList) = some raw ∧
        ∀ value ∈ numbers raw, Exact Sample.doubles value) := by
  have hwritten : Client.canonical asciiPlatform Sample.doubles (utf8 "[0.50]".toList) =
        some (utf8 "[0.5]".toList) ∧
      Server.canonical asciiPlatform Sample.doubles (utf8 "[0.50]".toList) =
        some (utf8 "[0.5]".toList) := by
    decide +kernel
  obtain ⟨honClient, honServer⟩ :=
    canonical_again_iff asciiPlatform Sample.doubles (utf8 "[0.50]".toList) (utf8 "[0.5]".toList)
  exact ⟨honClient hwritten.1, honServer hwritten.2⟩

/-- The canonical bytes of a large double are an integer that neither program reads again. -/
theorem not_canonical_again :
    ¬ ∀ (platform : Platform) (doubles : Doubles) (data written : ByteArray),
      (Client.canonical platform doubles data = some written →
        Client.canonical platform doubles written = some written) ∧
      (Server.canonical platform doubles data = some written →
        Server.canonical platform doubles written = some written) := by
  intro hall
  have hfacts : Server.canonical asciiPlatform Sample.doubles (utf8 "1e20".toList) =
        some (utf8 "100000000000000000000".toList) ∧
      Server.canonical asciiPlatform Sample.doubles (utf8 "100000000000000000000".toList) =
        none := by
    decide +kernel
  obtain ⟨hwritten, hagain⟩ := hfacts
  have hsame := (hall asciiPlatform Sample.doubles _ _).2 hwritten
  rw [hagain] at hsame
  cases hsame

theorem canonical_agree_iff_half :
    Client.canonical asciiPlatform Sample.doubles (utf8 "[0.50]".toList) =
      Server.canonical asciiPlatform Sample.doubles (utf8 "[0.50]".toList) := by
  have hread : document? (utf8 "[0.50]".toList) = some (.array [.number (.float "0.50")]) := by
    decide +kernel
  refine (canonical_agree_iff asciiPlatform Sample.doubles (by decide +kernel) ?_).mpr ?_
  · intro raw hraw
    rw [← Option.some.inj (hread.symm.trans hraw)]
    decide
  · intro raw hraw _
    rw [← Option.some.inj (hread.symm.trans hraw)]
    decide +kernel

/-! The client encodes 10 to the power of 5 in more bytes than either text of it takes. -/

namespace Long

def doubles : Doubles where
  nearest token := if token = "1e5" ∨ token = "100000.0" then some "100000.0" else none
  canonical _ := "100000"
  nearest_nearest := by simp
  nearest_isNumber := by
    intro token double h
    obtain ⟨-, h⟩ := Option.ite_none_right_eq_some.mp h
    rw [← Option.some.inj h]
    decide
  canonical_isNumber := fun _ ↦ by decide
  canonical_nearest := fun _ hreal ↦ absurd hreal (by decide)
  canonical_integer := fun _ _ ↦ ⟨100000, by decide⟩
  canonical_length := fun _ hreal ↦ absurd hreal (by decide)

variable {count : Nat}

/-- The same number over and over. -/
def raw (token : String) (count : Nat) : Json :=
  .array (List.replicate count (.number (.float token)))

theorem document?_raw : document? (utf8 (write (raw "1e5" count))) = some (raw "1e5" count) := by
  rw [document?, text?_utf8, Option.bind_some]
  refine read_write fun number hnumber ↦ ?_
  obtain ⟨item, hitem, hnumber⟩ := mem_numbers_array.mp hnumber
  rw [List.eq_of_mem_replicate hitem, numbers, List.mem_singleton] at hnumber
  exact ⟨"1e5", hnumber, by decide⟩

theorem depth_raw : (raw "1e5" count).depth ≤ maxDepth := by
  refine depth_array_le.mpr fun item hitem ↦ ?_
  rw [List.eq_of_mem_replicate hitem]
  decide

theorem writtenSize_raw {string : String → Nat} {number : Number → Nat} :
    writtenSize string number (raw "1e5" count) =
      1 + max 1 (count * (number (.float "1e5") + 1)) := by
  rw [raw, writtenSize_array, List.map_replicate, List.sum_replicate_nat]
  rfl

theorem size_raw : (utf8 (write (raw "1e5" count))).size = 1 + max 1 (count * 4) := by
  rw [size_utf8, utf8Length_write, writtenSize_raw]
  rfl

theorem encodedSize_raw : encodedSize asciiPlatform doubles (raw "1e5" count) =
    1 + max 1 (count * 9) := by
  rw [encodedSize, writtenSize_raw]
  congr 2

theorem canonicalTree_raw : canonicalTree asciiPlatform doubles (raw "1e5" count) =
    some (raw "100000" count) := by
  refine rebuild_array_eq_some.mpr ⟨_, ?_, rfl⟩
  induction count with
  | zero => exact .nil
  | succ count ih => exact .cons (by decide) ih

end Long

/-- Many doubles in a short notation are refused by the client alone. -/
theorem not_canonical_agree :
    ¬ ∀ (platform : Platform) (doubles : Doubles) (data : ByteArray), data.size ≤ maxJsonBytes →
      (∀ raw, document? data = some raw → raw.depth ≤ maxDepth) →
        Client.canonical platform doubles data = Server.canonical platform doubles data := by
  intro hall
  have hrefused : ∀ count, count * 4 < maxJsonBytes → maxJsonBytes ≤ count * 9 → False := by
    intro count hshort hlong
    have hsize : (utf8 (write (Long.raw "1e5" count))).size ≤ maxJsonBytes := by
      rw [Long.size_raw]
      omega
    have hsame := hall asciiPlatform Long.doubles _ hsize fun raw hraw ↦ by
      rw [← Option.some.inj (Long.document?_raw.symm.trans hraw)]
      exact Long.depth_raw
    have hencoded := encodedSize_le hsame Long.document?_raw Long.canonicalTree_raw
    rw [Long.encodedSize_raw] at hencoded
    omega
  exact hrefused 2097152 (by decide) (by decide)

end AiStp.Foundation.CanonicalText
