import AiStp.Foundation.CanonicalText
import AiStp.Foundation.Identity
import AiStp.Library.Base64

/-!
# Cursors of the outbox

A cursor is the Base64 text of a small JSON object (a version, the account and a sequence) and, in the
last 43 characters, of the HMAC of that text. `decode` compares the tag of the text before the
signature with the bytes that the signature reads as. The last of the 43 characters has two spare
bits, which the reader ignores, so three other texts are read as the same signature.
-/

set_option autoImplicit false

namespace AiStp.Sync.Server.Cursor

open Library Foundation
open Library.Base64 (SpareBits)
open Library.JsonText (utf8Length utf8Length_append utf8Length_cons utf8Length_write writtenSize)

/-- The HMAC of SHA-256, by its key and its message, and whether a number of a JSON text that has a
point or an exponent is read as the double one. -/
structure Toolkit where
  digest : List UInt8 → List UInt8 → List UInt8
  length_digest : ∀ key message, (digest key message).length = 32
  isOne : String → Bool

/-- An account, by its id. -/
@[ext] structure Account where
  id : String
  stable : Identity.matchesStableId "account" id = true
deriving DecidableEq

def cursorVersion : String := "1"

def domain : String := "ai-stp:sync-cursor:v1"

def bytes (text : List Char) : List UInt8 := (CanonicalText.utf8 text).data.toList

/-- `CURSOR_PATTERN`. -/
def isCursor (token : List Char) : Bool :=
  1 ≤ token.length && token.length ≤ 512 &&
    token.all fun character ↦ character.isAlphanum || character == '_' || character == '-'

section Codec

variable (toolkit : Toolkit) (secret : String)

/-- A key of its own for the cursors. -/
def signingKey : List UInt8 := toolkit.digest (bytes secret.toList) (bytes domain.toList)

def signature (payload : List Char) : List UInt8 :=
  toolkit.digest (signingKey toolkit secret) (bytes payload)

/-- The JSON text of a position. -/
def body (account : Account) (sequence : Int) : Json :=
  .object [("a", .string account.id), ("s", .number (.float (toString sequence))),
    ("v", .number (.float cursorVersion))]

def payload (account : Account) (sequence : Int) : List Char :=
  Base64.write (bytes (JsonText.write (body account sequence)))

/-- `encode_sync_cursor`. -/
def encode (account : Account) (sequence : Int) : Except String (List Char) :=
  if sequence < 0 then .error "cursor sequence is invalid"
  else
    let text := payload account sequence
    let signed := Base64.write (signature toolkit secret text)
    if signed.length ≠ 43 then .error "cursor signature encoding failed"
    else
      let token := text ++ signed
      if !isCursor token then .error "encoded cursor exceeds wire bounds" else .ok token

/-- The value that a reader of an object finds, the last of a name. -/
def field (fields : List (String × Json)) (name : String) : Option Json :=
  fields.reverse.lookup name

/-- A value that equals one: an integer, a double or a boolean. -/
def equalsOne : Option Json → Bool
  | some (.bool value) => value
  | some (.number (.float token)) =>
    if CanonicalText.isReal token then toolkit.isOne token else Text.integer? token == some 1
  | _ => false

/-- The position in an object of a payload. -/
def position (accountId : String) (fields : List (String × Json)) : Except String Int :=
  if !equalsOne toolkit (field fields "v") then .error "cursor version is unsupported"
  else if field fields "a" ≠ some (.string accountId) then
    .error "cursor account binding mismatch"
  else
    match field fields "s" with
    | some (.number (.float token)) =>
      match Text.integer? token with
      | some sequence =>
        if sequence < 0 then .error "cursor sequence is invalid" else .ok sequence
      | none => .error "cursor sequence is invalid"
    | _ => .error "cursor sequence is invalid"

/-- The document of a payload. -/
def document? (text : List Char) : Option Json :=
  (Base64.read text).bind fun raw ↦ CanonicalText.document? ⟨raw.toArray⟩

/-- The text before the signature. -/
def signedText (token : List Char) : List Char := token.take (token.length - 43)

def signatureText (token : List Char) : List Char := token.drop (token.length - 43)

/-- `decode_sync_cursor`. -/
def decode (token : List Char) (accountId : String) : Except String Int :=
  if !isCursor token || token.length ≤ 43 then .error "cursor shape is invalid"
  else if Base64.read (signatureText token) ≠ some (signature toolkit secret (signedText token)) then
    .error "cursor signature is invalid"
  else
    match document? (signedText token) with
    | some (.object fields) => position toolkit accountId fields
    | _ => .error "cursor payload is invalid"

end Codec

/-! ### What is encoded -/

section Encoded

variable {toolkit : Toolkit} {secret : String} {account : Account} {sequence : Int}
variable {token : List Char}

theorem length_signed (text : List Char) :
    (Base64.write (signature toolkit secret text)).length = 43 := by
  rw [Base64.write, List.length_map, Base64.length_digits, signature, toolkit.length_digest]

theorem encode_eq_ok : encode toolkit secret account sequence = .ok token ↔ 0 ≤ sequence ∧
    token = payload account sequence ++
      Base64.write (signature toolkit secret (payload account sequence)) ∧
    isCursor token = true := by
  unfold encode
  by_cases hsequence : sequence < 0
  · rw [if_pos hsequence]
    exact iff_of_false nofun fun h ↦ absurd h.1 (not_le.mpr hsequence)
  · rw [if_neg hsequence]
    dsimp only
    rw [if_neg (not_not.mpr (length_signed _))]
    constructor
    · intro h
      split_ifs at h with hshape
      obtain rfl := Except.ok.inj h
      exact ⟨not_lt.mp hsequence, rfl, by simpa using hshape⟩
    · rintro ⟨-, rfl, hshape⟩
      rw [hshape]
      rfl

theorem signedText_append {text signed : List Char} (h : signed.length = 43) :
    signedText (text ++ signed) = text := by
  rw [signedText, List.length_append, h, Nat.add_sub_cancel, List.take_left]

theorem signatureText_append {text signed : List Char} (h : signed.length = 43) :
    signatureText (text ++ signed) = signed := by
  rw [signatureText, List.length_append, h, Nat.add_sub_cancel, List.drop_left]

theorem append_texts (token : List Char) : signedText token ++ signatureText token = token :=
  List.take_append_drop _ _

theorem length_signatureText (h : 43 < token.length) : (signatureText token).length = 43 := by
  rw [signatureText, List.length_drop]
  omega

theorem document?_payload (account : Account) (sequence : Int) :
    document? (payload account sequence) = some (body account sequence) := by
  have hbytes : (⟨(bytes (JsonText.write (body account sequence))).toArray⟩ : ByteArray) =
      CanonicalText.utf8 (JsonText.write (body account sequence)) := by
    rw [bytes, Array.toArray_toList]
  rw [document?, payload, Base64.read_write, Option.bind_some, hbytes, CanonicalText.document?,
    CanonicalText.text?_utf8, Option.bind_some]
  refine JsonText.read_write fun number hnumber ↦ ?_
  simp only [body, JsonText.mem_numbers_object] at hnumber
  obtain ⟨field, hfield, hnumber⟩ := hnumber
  simp only [List.mem_cons, List.not_mem_nil, or_false] at hfield
  rcases hfield with rfl | rfl | rfl
  · simp [JsonText.numbers] at hnumber
  · obtain rfl : number = .float (toString sequence) := by simpa [JsonText.numbers] using hnumber
    exact ⟨_, rfl, CanonicalText.isNumber_toString sequence⟩
  · obtain rfl : number = .float cursorVersion := by simpa [JsonText.numbers] using hnumber
    exact ⟨_, rfl, by decide⟩

theorem position_body (account : Account) (hsequence : 0 ≤ sequence) (accountId : String) :
    position toolkit accountId [("a", .string account.id),
        ("s", .number (.float (toString sequence))), ("v", .number (.float cursorVersion))] =
      if account.id = accountId then .ok sequence else .error "cursor account binding mismatch" := by
  have hversion : equalsOne toolkit (some (.number (.float cursorVersion))) = true := by
    have hreal : CanonicalText.isReal cursorVersion = false := by decide
    have hone : Text.integer? cursorVersion = some 1 := by decide
    rw [equalsOne, hreal, hone]
    rfl
  unfold position
  simp only [field, List.reverse_cons, List.reverse_nil, List.nil_append, List.cons_append,
    List.lookup_cons, beq_self_eq_true, hversion, Bool.not_true, Bool.false_eq_true, if_false,
    Text.integer?_toString, not_lt.mpr hsequence,
    show ("a" == "v") = false by decide, show ("a" == "s") = false by decide,
    show ("s" == "v") = false by decide]
  by_cases haccount : account.id = accountId
  · simp [haccount]
  · simp [haccount]

/-- What is decoded of a signed position. -/
theorem decode_signed (hshape : isCursor token = true) (hlength : 43 < token.length)
    (hsigned : signedText token = payload account sequence) (hsequence : 0 ≤ sequence)
    (hsignature : Base64.read (signatureText token) =
      some (signature toolkit secret (payload account sequence))) (accountId : String) :
    decode toolkit secret token accountId =
      if account.id = accountId then .ok sequence else .error "cursor account binding mismatch" := by
  unfold decode
  rw [hshape, hsigned, hsignature, document?_payload, decide_eq_false (not_le.mpr hlength)]
  simp only [Bool.not_true, Bool.or_false, Bool.false_eq_true, if_false, ne_eq, not_true_eq_false]
  exact position_body account hsequence accountId

theorem payload_ne_nil (account : Account) (sequence : Int) : payload account sequence ≠ [] := by
  intro hnil
  have hdocument := document?_payload account sequence
  rw [hnil] at hdocument
  revert hdocument
  have : document? [] = none := by decide
  rw [this]
  exact nofun

/-- An encoded cursor decodes to its sequence, for its account and for no other. -/
theorem decode_encode (h : encode toolkit secret account sequence = .ok token)
    (accountId : String) : decode toolkit secret token accountId =
      if account.id = accountId then .ok sequence else .error "cursor account binding mismatch" := by
  obtain ⟨hsequence, rfl, hshape⟩ := encode_eq_ok.mp h
  have hlength : (Base64.write (signature toolkit secret (payload account sequence))).length = 43 :=
    length_signed _
  have hpayload := List.length_pos_iff.mpr (payload_ne_nil account sequence)
  refine decode_signed hshape ?_ (signedText_append hlength) hsequence ?_ accountId
  · rw [List.length_append, hlength]
    omega
  · rw [signatureText_append hlength, Base64.read_write]

/-! ### Tokens that are too long -/

theorem length_matchesStableId {kind id : String} (h : Identity.matchesStableId kind id = true) :
    utf8Length id.toList = (Text.units (kind ++ "_")).length + 26 := by
  unfold Identity.matchesStableId at h
  split at h
  · next suffix hsuffix =>
    have hulid : suffix.length = 26 := by
      simp only [Text.isUlid, Bool.and_eq_true, beq_iff_eq] at h
      exact h.1.1
    have hlength := Text.length_of_stripPrefix? hsuffix
    have hunits : (Text.units id).length = id.toByteArray.size := by
      rw [Text.units, List.length_map, Array.length_toList]
      rfl
    rw [← CanonicalText.size_utf8, CanonicalText.utf8, String.ofList_toList, ← hunits, hlength,
      hulid]
  · cases h

/-- An account id takes 34 bytes. -/
theorem length_id (account : Account) : utf8Length account.id.toList = 34 := by
  have hbegins : (Text.units ("account" ++ "_")).length = 8 := by decide
  rw [length_matchesStableId account.stable, hbegins]

theorem length_flatMap_escape (text : List Char) :
    utf8Length (text.flatMap JsonText.escape) ≤ 6 * utf8Length text := by
  have hescape (character : Char) :
      utf8Length (JsonText.escape character) ≤ 6 * character.utf8Size := by
    have hpos := Char.utf8Size_pos character
    have hdigit (value : Nat) (hvalue : value < 16) : (JsonText.hexDigit value).utf8Size = 1 := by
      revert value
      decide
    unfold JsonText.escape
    have htwo (letter : Char) (hletter : letter.utf8Size = 1) :
        utf8Length ['\\', letter] ≤ 6 * character.utf8Size := by
      have hbackslash : Char.utf8Size '\\' = 1 := rfl
      simp only [utf8Length, List.map_cons, List.map_nil, List.sum_cons, List.sum_nil, hbackslash,
        hletter]
      omega
    split_ifs with h1 h2 h3 h4 h5 h6 h7 hcontrol
    · exact htwo _ rfl
    · exact htwo _ rfl
    · exact htwo _ rfl
    · exact htwo _ rfl
    · exact htwo _ rfl
    · exact htwo _ rfl
    · exact htwo _ rfl
    · have hletters : utf8Length ['\\', 'u', '0', '0'] = 4 := rfl
      have hhigh := hdigit (character.toNat / 16) (by omega)
      have hlow := hdigit (character.toNat % 16) (by omega)
      change utf8Length (['\\', 'u', '0', '0'] ++ [JsonText.hexDigit (character.toNat / 16),
        JsonText.hexDigit (character.toNat % 16)]) ≤ _
      rw [utf8Length_append, hletters]
      simp only [utf8Length, List.map_cons, List.map_nil, List.sum_cons, List.sum_nil, hhigh, hlow]
      omega
    · simp only [utf8Length, List.map_cons, List.map_nil, List.sum_cons, List.sum_nil]
      omega
  induction text with
  | nil => rfl
  | cons character text ih =>
    rw [List.flatMap_cons, utf8Length_append, utf8Length_cons]
    have := hescape character
    omega

theorem utf8Length_digits (value : Nat) :
    utf8Length (Nat.toDigits 10 value) = (Nat.toDigits 10 value).length := by
  have hsizes : ∀ size ∈ (Nat.toDigits 10 value).map Char.utf8Size, size = 1 := by
    intro size hsize
    obtain ⟨digit, hdigit, rfl⟩ := List.mem_map.mp hsize
    have hdecimal := Text.isDigit_of_toDigits hdigit
    rw [Char.isDigit, Bool.and_eq_true, decide_eq_true_eq, decide_eq_true_eq] at hdecimal
    exact Char.utf8Size_eq_one_iff.mpr (UInt32.le_trans hdecimal.2 (by decide))
  rw [utf8Length, List.sum_eq_card_nsmul _ 1 hsizes, List.length_map]
  simp

theorem length_payload (account : Account) {sequence : Int} (hsequence : 0 ≤ sequence)
    (hbound : sequence < 10 ^ 19) : (payload account sequence).length ≤ 400 := by
  have hid : utf8Length (JsonText.writeString account.id) ≤ 206 := by
    have hescape := length_flatMap_escape account.id.toList
    rw [length_id] at hescape
    rw [JsonText.writeString, List.cons_append, utf8Length_cons, utf8Length_append]
    have hquote : Char.utf8Size '"' = 1 := rfl
    have hend : utf8Length ['"'] = 1 := rfl
    omega
  have hdigits : utf8Length (toString sequence).toList ≤ 19 := by
    rw [CanonicalText.toList_toString, if_pos hsequence, List.nil_append, utf8Length_digits]
    exact Nat.toDigits_length 10 _ 19 (by decide) (by omega)
  have hsize : (bytes (JsonText.write (body account sequence))).length ≤ 270 := by
    rw [bytes, Array.length_toList]
    change (CanonicalText.utf8 _).size ≤ 270
    rw [CanonicalText.size_utf8, utf8Length_write, body]
    have hwritten : (∀ name ∈ ["a", "s", "v"], utf8Length (JsonText.writeString name) = 3) ∧
        utf8Length (JsonText.writeNumber (.float cursorVersion)) = 1 := by
      decide +kernel
    have ha := hwritten.1 "a" (by simp)
    have hs := hwritten.1 "s" (by simp)
    have hv := hwritten.1 "v" (by simp)
    have hone := hwritten.2
    simp only [writtenSize, writtenSize.ofFields, ha, hs, hv, hone]
    rw [JsonText.writeNumber]
    omega
  rw [payload, Base64.write, List.length_map, Base64.length_digits]
  omega

theorem letter_shape (digit : Base64.Digit) : ((Base64.letter digit).isAlphanum ||
    Base64.letter digit == '_' || Base64.letter digit == '-') = true := by
  have hall : Base64.alphabet.all
      (fun letter ↦ letter.isAlphanum || letter == '_' || letter == '-') = true := by rfl
  exact List.all_eq_true.mp hall _ (List.getElem_mem _)

/-- A sequence that a column of the outbox holds has a cursor. -/
theorem exists_encode (toolkit : Toolkit) (secret : String) (account : Account)
    (hsequence : 0 ≤ sequence) (hbound : sequence < 10 ^ 19) :
    ∃ token, encode toolkit secret account sequence = .ok token := by
  refine ⟨_, encode_eq_ok.mpr ⟨hsequence, rfl, ?_⟩⟩
  have hlength : (Base64.write (signature toolkit secret (payload account sequence))).length = 43 :=
    length_signed _
  have hpayload := length_payload account hsequence hbound
  unfold isCursor
  rw [List.length_append, hlength, Bool.and_eq_true, Bool.and_eq_true, decide_eq_true_eq,
    decide_eq_true_eq, List.all_eq_true]
  refine ⟨⟨by omega, by omega⟩, fun character hcharacter ↦ ?_⟩
  rw [payload, Base64.write, Base64.write, ← List.map_append] at hcharacter
  obtain ⟨digit, -, rfl⟩ := List.mem_map.mp hcharacter
  exact letter_shape digit

theorem isCursor_spare {issued : List Char} (hshape : isCursor issued = true)
    (h : SpareBits issued token) : isCursor token = true := by
  obtain ⟨front, last, last', rfl, rfl, -, -⟩ := h
  simp only [isCursor, List.length_append, List.length_singleton, List.all_append, Bool.and_eq_true,
    List.all_cons, List.all_nil, and_true] at hshape ⊢
  exact ⟨hshape.1, hshape.2.1, letter_shape last'⟩

/-! ### What is decoded -/

/-- If the signature of a token fits its text, then the text is that of a cursor that was encoded. -/
def Unforged (toolkit : Toolkit) (secret : String) (token : List Char) : Prop :=
  Base64.read (signatureText token) = some (signature toolkit secret (signedText token)) →
    ∃ account sequence issued, encode toolkit secret account sequence = .ok issued ∧
      signedText token = payload account sequence

/-- A token that is decoded is a cursor of the account, up to the spare bits of its last character. -/
theorem decode_eq_ok (hunforged : Unforged toolkit secret token) (account : Account) :
    decode toolkit secret token account.id = .ok sequence ↔
      ∃ issued, encode toolkit secret account sequence = .ok issued ∧
        (token = issued ∨ SpareBits issued token) := by
  constructor
  · intro h
    have hdecode := h
    unfold decode at h
    split_ifs at h with hshape hsignature
    simp only [Bool.or_eq_true, Bool.not_eq_eq_eq_not, Bool.not_true, decide_eq_true_eq,
      not_or, Bool.not_eq_false, not_le] at hshape
    obtain ⟨hshape, hlong⟩ := hshape
    have hsigned := not_not.mp hsignature
    obtain ⟨other, sequence', issued, hissued, htext⟩ := hunforged hsigned
    obtain ⟨hsequence, hissued', -⟩ := encode_eq_ok.mp hissued
    rw [htext] at hsigned
    rw [decode_signed hshape hlong htext hsequence hsigned] at hdecode
    split_ifs at hdecode with haccount
    obtain rfl := Except.ok.inj hdecode
    obtain rfl : other = account := Account.ext haccount
    refine ⟨issued, hissued, ?_⟩
    have hparts := append_texts token
    rw [htext] at hparts
    rw [← hparts, hissued']
    have hmod : (signatureText token).length % 4 = 3 := by rw [length_signatureText hlong]
    rcases (Base64.read_iff hmod).mp hsigned with hsame | hspare
    · exact .inl (by rw [hsame])
    · exact .inr (hspare.append _)
  · rintro ⟨issued, hissued, rfl | hspare⟩
    · rw [decode_encode hissued, if_pos rfl]
    · obtain ⟨hsequence, rfl, hshape⟩ := encode_eq_ok.mp hissued
      have hlength :
          (Base64.write (signature toolkit secret (payload account sequence))).length = 43 :=
        length_signed _
      have hpayload := List.length_pos_iff.mpr (payload_ne_nil account sequence)
      obtain ⟨signed, rfl, hsigned⟩ := SpareBits.of_append (List.ne_nil_of_length_pos (by omega)) hspare
      have hsame : signed.length = 43 := hsigned.length_eq.trans hlength
      rw [decode_signed (isCursor_spare hshape hspare) (by rw [List.length_append]; omega)
        (signedText_append hsame) hsequence, if_pos rfl]
      rw [signatureText_append hsame]
      exact (Base64.read_iff (by rw [hsame])).mpr (.inr hsigned)

/-- A cursor with other spare bits is not encoded. -/
theorem not_encode_of_spareBits {issued : List Char}
    (hissued : encode toolkit secret account sequence = .ok issued)
    (hspare : SpareBits issued token) (other : Account) (number : Int) :
    encode toolkit secret other number ≠ .ok token := by
  intro hencode
  have hlength : (Base64.write (signature toolkit secret (payload account sequence))).length = 43 :=
    length_signed _
  obtain ⟨-, rfl, -⟩ := encode_eq_ok.mp hissued
  obtain ⟨-, htoken, -⟩ := encode_eq_ok.mp hencode
  obtain ⟨signed, rfl, hsigned⟩ :=
    SpareBits.of_append (List.ne_nil_of_length_pos (by omega)) hspare
  have hsame : signed.length = 43 := hsigned.length_eq.trans hlength
  obtain ⟨hpayload, hsignature⟩ := List.append_inj' htoken (by rw [hsame, length_signed])
  obtain ⟨front, last, last', hfront, hfront', hne, -⟩ := hsigned
  rw [hpayload, ← hsignature, hfront'] at hfront
  exact hne (Base64.letter_injective
    (List.cons.inj (List.append_cancel_left hfront)).1).symm

/-- An altered token is refused, unless only the spare bits of its last character are altered. -/
theorem altered_refused_iff (hunforged : Unforged toolkit secret token)
    (haltered : ∀ account sequence, encode toolkit secret account sequence ≠ .ok token)
    (account : Account) :
    (∃ failure, decode toolkit secret token account.id = .error failure) ↔
      ¬∃ sequence issued, encode toolkit secret account sequence = .ok issued ∧
        SpareBits issued token := by
  constructor
  · rintro ⟨failure, hfailure⟩ ⟨sequence, issued, hissued, hspare⟩
    rw [(decode_eq_ok hunforged account).mpr ⟨issued, hissued, .inr hspare⟩] at hfailure
    cases hfailure
  · intro hnone
    cases hdecode : decode toolkit secret token account.id with
    | error failure => exact ⟨failure, rfl⟩
    | ok sequence =>
      obtain ⟨issued, hissued, rfl | hspare⟩ := (decode_eq_ok hunforged account).mp hdecode
      · exact absurd hissued (haltered account sequence)
      · exact absurd ⟨sequence, issued, hissued, hspare⟩ hnone

end Encoded

end AiStp.Sync.Server.Cursor
