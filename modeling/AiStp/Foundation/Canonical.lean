import AiStp.Foundation.Platform

/-!
# Canonical JSON and content digests

Both programs serialize structured content as RFC 8785 bytes after NFC normalization of every
string, and hash the bytes inside a domain. Canonical bytes know a number by its text only, so an
integral float and the integer of the same value are one content. The client's writer also refuses
documents that are too long or too deeply nested (`bytes_eq_some`).

What the client stores it reads back from canonical bytes, so the document it holds is the normal
form of the one that was written (`Reread`). Plain words survive as names and as values.
-/

set_option autoImplicit false

namespace AiStp.Foundation.Canonical

open Library

/-- The largest integer both programs accept. -/
def maxSafeInteger : Nat := 9007199254740991

def normalizedString (platform : Platform) (value : String) : Option String :=
  if Text.byteOrderMark <:+: Text.units value then none else some (platform.nfc value)

/-- The canonical text of a number. An integer outside the exact range of a double is refused. -/
def canonicalNumber : Number → Option Number
  | .integer value =>
    if value.natAbs ≤ maxSafeInteger then some (.float (toString value)) else none
  | .float text => some (.float text)
  | .nonFinite => none

/-- `canonize` of the server: the canonical bytes of a value. -/
def canonize (platform : Platform) (value : Json) : Option Json :=
  value.rebuild (normalizedString platform) canonicalNumber

/-! ### Digests -/

def revisionDomain : String := "ai-stp:revision:v1"

def passportDomain : String := "ai-stp:passport:v1"

/-- `digest_canonical` of the server. -/
def digestCanonical (platform : Platform) (domain : String) (value : Json) : Option String :=
  (canonize platform value).map fun bytes ↦ "sha256:" ++ platform.sha256 domain bytes

/-- `revision_id` of the server: the content address of a sealed document. -/
def revisionId (platform : Platform) (payload : Json) : Option String :=
  (canonize platform payload).map fun bytes ↦
    "revision_" ++ platform.sha256 revisionDomain bytes

/-! ### The client's writer -/

def maxDepth : Nat := 128

def maxJsonBytes : Nat := 16 * 1024 * 1024

/-- `canonical::bytes` of the client. -/
def bytes (platform : Platform) (value : Json) : Option Json :=
  if platform.encodedLength value ≤ maxJsonBytes ∧ value.depth ≤ maxDepth then
    canonize platform value
  else none

/-- `digest::canonical` of the client. -/
def digest (platform : Platform) (domain : String) (value : Json) : Option String :=
  (bytes platform value).map fun content ↦ "sha256:" ++ platform.sha256 domain content

theorem bytes_eq_some {platform : Platform} {value content : Json} :
    bytes platform value = some content ↔
      platform.encodedLength value ≤ maxJsonBytes ∧ value.depth ≤ maxDepth ∧
        canonize platform value = some content := by
  unfold bytes
  split_ifs with hbounds
  · simp [hbounds]
  · simp only [false_iff]
    rintro ⟨hlength, hdepth, -⟩
    exact hbounds ⟨hlength, hdepth⟩

/-! ### The client's reader -/

/-- A number token as the reader holds it: an integer unless it has a fraction or an exponent. -/
def parseNumber : Number → Option Number
  | .float token =>
    if (Text.units token).any fun character ↦
        character == '.' || character == 'e' || character == 'E' then
      some (.float token)
    else
      (Text.integer? token).bind fun value ↦
        if value.natAbs ≤ maxSafeInteger then some (.integer value) else none
  | .integer value => if value.natAbs ≤ maxSafeInteger then some (.integer value) else none
  | .nonFinite => none

/-- `decode` of the client: normal strings, no repeated names, exact integers. -/
def decode (platform : Platform) (value : Json) : Option Json :=
  value.rebuild (normalizedString platform) parseNumber

/-- `canonical::parse` of the client. -/
def parse (platform : Platform) (encoded : Json) : Option Json :=
  if platform.encodedLength encoded ≤ maxJsonBytes ∧ encoded.depth ≤ maxDepth then
    decode platform encoded
  else none

/-! ### What the reader finds in written bytes -/

section Reread

variable {platform : Platform} {document content held : Json} {word : String}

/-- Only a plain word itself is normalized to it. -/
theorem normalizedString_eq_plain (hplain : Text.isPlain word = true) (text normal : String)
    (h : normalizedString platform text = some normal) : normal = word ↔ text = word := by
  unfold normalizedString at h
  split_ifs at h
  obtain rfl : platform.nfc text = normal := Option.some.inj h
  exact platform.nfc_plain text word hplain

theorem normalizedString_plain (hplain : Text.isPlain word = true) :
    normalizedString platform word = some word := by
  have hnormal : platform.nfc word = word := (platform.nfc_plain word word hplain).mpr rfl
  rw [normalizedString, if_neg (Text.no_mark_of_isPlain hplain), hnormal]

/-- The document that is read back from the canonical bytes of another one. -/
def Reread (platform : Platform) (document held : Json) : Prop :=
  ∃ content, canonize platform document = some content ∧ decode platform content = some held

theorem reread_of_parse (hbytes : bytes platform document = some content)
    (hparse : parse platform content = some held) : Reread platform document held := by
  obtain ⟨-, -, hcontent⟩ := bytes_eq_some.mp hbytes
  unfold parse at hparse
  split_ifs at hparse
  exact ⟨content, hcontent, hparse⟩

/-- A plain word is read back as it was written. -/
theorem Reread.string (hplain : Text.isPlain word = true)
    (h : Reread platform (.string word) held) : held = .string word := by
  obtain ⟨content, hcontent, hheld⟩ := h
  rw [canonize, Json.rebuild, normalizedString_plain hplain] at hcontent
  obtain rfl : Json.string word = content := Option.some.inj hcontent
  rw [decode, Json.rebuild, normalizedString_plain hplain] at hheld
  exact (Option.some.inj hheld).symm

theorem rebuild_plainWords {words : List String} (number : Number → Option Number)
    (hplain : ∀ word ∈ words, Text.isPlain word = true) :
    (Json.array (words.map .string)).rebuild (normalizedString platform) number =
      some (.array (words.map .string)) := by
  suffices hitems : Json.rebuildItems (normalizedString platform) number (words.map .string) =
      some (words.map .string) by
    rw [Json.rebuild, hitems]
    rfl
  induction words with
  | nil => rfl
  | cons word words ih =>
    rw [List.forall_mem_cons] at hplain
    simp [Json.rebuildItems, Json.rebuild, normalizedString_plain hplain.1, ih hplain.2]

/-- A list of plain words is read back as it was written. -/
theorem Reread.strings {words : List String} (hplain : ∀ word ∈ words, Text.isPlain word = true)
    (h : Reread platform (.array (words.map .string)) held) :
    held = .array (words.map .string) := by
  obtain ⟨content, hcontent, hheld⟩ := h
  rw [canonize, rebuild_plainWords _ hplain] at hcontent
  obtain rfl := Option.some.inj hcontent
  rw [decode, rebuild_plainWords _ hplain] at hheld
  exact (Option.some.inj hheld).symm

theorem Reread.get? (hplain : Text.isPlain word = true) (h : Reread platform document held) :
    Option.Rel (Reread platform) (document.get? word) (held.get? word) := by
  obtain ⟨content, hcontent, hheld⟩ := h
  have hfirst := Json.get?_rebuild (normalizedString_eq_plain hplain) hcontent
  have hsecond := Json.get?_rebuild (normalizedString_eq_plain hplain) hheld
  revert hfirst hsecond
  generalize document.get? word = written
  generalize content.get? word = stored
  generalize held.get? word = read
  rintro (hwritten | _) hsecond
  · cases hsecond with
    | some hread => exact Option.Rel.some ⟨_, hwritten, hread⟩
  · cases hsecond
    exact Option.Rel.none

theorem Reread.index (hplain : Text.isPlain word = true) (h : Reread platform document held) :
    Reread platform (document.index word) (held.index word) := by
  obtain ⟨content, hcontent, hheld⟩ := h
  exact ⟨content.index word, Json.rebuild_index (normalizedString_eq_plain hplain) hcontent,
    Json.rebuild_index (normalizedString_eq_plain hplain) hheld⟩

/-- What is read from the bytes of one document is one document. -/
theorem Reread.unique {other : Json} (h : Reread platform document held)
    (hother : Reread platform document other) : held = other := by
  obtain ⟨content, hcontent, hheld⟩ := h
  obtain ⟨content', hcontent', hheld'⟩ := hother
  obtain rfl : content = content' := Option.some.inj (hcontent.symm.trans hcontent')
  exact Option.some.inj (hheld.symm.trans hheld')

theorem Reread.of_sameValue {other : Json} (h : Reread platform document held)
    (hsame : other.sameValue document = true) : Reread platform other held := by
  obtain ⟨content, hcontent, hheld⟩ := h
  exact ⟨content, (Json.rebuild_eq_of_sameValue hsame).trans hcontent, hheld⟩

theorem Reread.erase (hplain : Text.isPlain word = true) (h : Reread platform document held) :
    Reread platform (document.erase word) (held.erase word) := by
  obtain ⟨content, hcontent, hheld⟩ := h
  exact ⟨content.erase word, Json.rebuild_erase (normalizedString_eq_plain hplain) hcontent,
    Json.rebuild_erase (normalizedString_eq_plain hplain) hheld⟩

theorem normalizedString_normal (text : String) :
    (normalizedString platform text).bind (normalizedString platform) =
      normalizedString platform text := by
  unfold normalizedString
  by_cases hmark : Text.byteOrderMark <:+: Text.units text
  · simp [hmark]
  · have hnormal : ¬ Text.byteOrderMark <:+: Text.units (platform.nfc text) :=
      fun h ↦ hmark (platform.nfc_mark text h)
    simp [hmark, hnormal, platform.nfc_nfc]

/-- A number that was read is written and read back as it is. -/
theorem parseNumber_normal (number : Number) :
    ((parseNumber number).bind canonicalNumber).bind parseNumber = parseNumber number := by
  have hinteger : ∀ value : Int, value.natAbs ≤ maxSafeInteger →
      ((some (Number.integer value)).bind canonicalNumber).bind parseNumber =
        some (Number.integer value) := by
    intro value hbound
    have hdigits : (Text.units (toString value)).any (fun character ↦
        character == '.' || character == 'e' || character == 'E') = false := by
      rw [Text.units_toString, List.any_eq_false]
      intro character hmem
      rcases List.mem_append.mp hmem with hsign | hdigit
      · split_ifs at hsign with hpositive
        · simp at hsign
        · rw [List.mem_singleton.mp hsign]
          decide
      · have hdecimal := Text.isDigit_of_toDigits hdigit
        intro hother
        simp only [Bool.or_eq_true, beq_iff_eq] at hother
        rcases hother with (rfl | rfl) | rfl
        · exact absurd hdecimal (by decide)
        · exact absurd hdecimal (by decide)
        · exact absurd hdecimal (by decide)
    simp only [canonicalNumber, parseNumber, Option.bind_some, if_pos hbound, hdigits, if_false,
      Bool.false_eq_true, Text.integer?_toString]
  cases number with
  | integer value =>
    by_cases hbound : value.natAbs ≤ maxSafeInteger
    · have hread : parseNumber (.integer value) = some (.integer value) := by
        simp [parseNumber, hbound]
      rw [hread, hinteger value hbound]
    · simp [parseNumber, hbound]
  | float token =>
    by_cases hreal : (Text.units token).any (fun character ↦
        character == '.' || character == 'e' || character == 'E') = true
    · have hread : parseNumber (.float token) = some (.float token) := by
        simp only [parseNumber, hreal, if_true]
      rw [hread]
      exact hread
    · cases hvalue : Text.integer? token with
      | none => simp only [parseNumber, hreal, hvalue, if_false, Option.bind_none, Bool.false_eq_true]
      | some value =>
        by_cases hbound : value.natAbs ≤ maxSafeInteger
        · have hread : parseNumber (.float token) = some (.integer value) := by
            simp only [parseNumber, hreal, hvalue, if_false, Option.bind_some, if_pos hbound,
              Bool.false_eq_true]
          rw [hread, hinteger value hbound]
        · have hread : parseNumber (.float token) = none := by
            simp only [parseNumber, hreal, hvalue, if_false, Option.bind_some, if_neg hbound,
              Bool.false_eq_true]
          rw [hread]
          rfl
  | nonFinite => rfl

/-- A document that was read is written and read back as it is. -/
theorem reread_of_decode {encoded : Json} (h : decode platform encoded = some held) {other : Json}
    (hother : Reread platform held other) : other = held := by
  obtain ⟨content, hcontent, hread⟩ := hother
  have hwritten : encoded.rebuild (fun text ↦ (normalizedString platform text).bind
      (normalizedString platform)) (fun number ↦ (parseNumber number).bind canonicalNumber) =
        some content := (Json.rebuild_rebuild h).symm.trans hcontent
  have hagain := (Json.rebuild_rebuild hwritten).symm.trans hread
  simp only [normalizedString_normal, parseNumber_normal] at hagain
  exact Option.some.inj (hagain.symm.trans h)

/-- A document that was read is a map. -/
theorem sameValue_of_decode {encoded : Json} (h : decode platform encoded = some held) :
    held.sameValue held = true := by
  have hmap : held.asMap? = some held := by
    rw [Json.asMap?, Json.rebuild_rebuild h]
    simp only [Option.bind_fun_some]
    exact h
  simp [Json.sameValue, hmap]

end Reread

end AiStp.Foundation.Canonical
