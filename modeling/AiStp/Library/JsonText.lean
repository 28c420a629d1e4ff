import AiStp.Library.Json

/-!
# The text of a JSON document

A reader and a compact writer of JSON texts, over lists of characters. The reader holds a number as
the token that was written and keeps the fields of an object in their order, repeated names
included. It refuses a lone surrogate, which no text of characters holds. What the writer writes the
reader reads back (`read_write`).
-/

set_option autoImplicit false

namespace AiStp.Library.JsonText

/-! ### Numbers -/

/-- The characters that a number token is made of. -/
def isNumberCharacter (character : Char) : Bool :=
  character.isDigit || character ∈ ['-', '+', '.', 'e', 'E']

/-- An exponent, or nothing. -/
def isExponent : List Char → Bool
  | [] => true
  | mark :: rest =>
    let digits := match rest with
      | '+' :: rest => rest
      | '-' :: rest => rest
      | rest => rest
    (mark = 'e' || mark = 'E') && digits ≠ [] && digits.all Char.isDigit

/-- A fraction and an exponent, or one of them, or nothing. -/
def isFraction : List Char → Bool
  | '.' :: rest =>
    rest.takeWhile Char.isDigit ≠ [] && isExponent (rest.dropWhile Char.isDigit)
  | rest => isExponent rest

/-- Digits without a leading zero. -/
def isWhole (digits : List Char) : Bool :=
  digits ≠ [] && (digits.length = 1 || digits.head? ≠ some '0')

/-- The number grammar of JSON. -/
def isNumber (token : List Char) : Bool :=
  let digits := match token with
    | '-' :: rest => rest
    | rest => rest
  isWhole (digits.takeWhile Char.isDigit) && isFraction (digits.dropWhile Char.isDigit)

/-- The longest token of number characters, which is a number or an error. -/
def readNumber (text : List Char) : Option (List Char × List Char) :=
  let token := text.takeWhile isNumberCharacter
  if isNumber token then some (token, text.dropWhile isNumberCharacter) else none

/-! ### Strings -/

/-- The characters that a backslash and one letter stand for. -/
def escapes : List (Char × Char) :=
  [('"', '"'), ('\\', '\\'), ('/', '/'), ('b', '\x08'), ('f', '\x0c'), ('n', '\n'), ('r', '\r'),
    ('t', '\t')]

def hexDigit? (character : Char) : Option Nat :=
  if character.isDigit then some (character.toNat - 48)
  else if 'a' ≤ character ∧ character ≤ 'f' then some (character.toNat - 87)
  else if 'A' ≤ character ∧ character ≤ 'F' then some (character.toNat - 55)
  else none

/-- The code unit of four hexadecimal digits. -/
def readUnit : List Char → Option (Nat × List Char)
  | first :: second :: third :: fourth :: rest => do
    let first ← hexDigit? first
    let second ← hexDigit? second
    let third ← hexDigit? third
    let fourth ← hexDigit? fourth
    return (4096 * first + 256 * second + 16 * third + fourth, rest)
  | _ => none

/-- What follows a backslash and a `u`: one unit, or a surrogate pair. -/
def readUnicode (text : List Char) : Option (Char × List Char) := do
  let (unit, rest) ← readUnit text
  if 0xd800 ≤ unit ∧ unit < 0xdc00 then
    match rest with
    | '\\' :: 'u' :: rest => do
      let (low, rest) ← readUnit rest
      if 0xdc00 ≤ low ∧ low < 0xe000 then
        some (Char.ofNat (0x10000 + 0x400 * (unit - 0xd800) + (low - 0xdc00)), rest)
      else none
    | _ => none
  else if 0xdc00 ≤ unit ∧ unit < 0xe000 then none
  else some (Char.ofNat unit, rest)

def readEscape : List Char → Option (Char × List Char)
  | [] => none
  | 'u' :: rest => readUnicode rest
  | letter :: rest => (escapes.lookup letter).map fun character ↦ (character, rest)

/-- The characters up to the closing quote. -/
def readCharacters : Nat → List Char → Option (List Char × List Char)
  | 0, _ => none
  | _, [] => none
  | fuel + 1, first :: rest =>
    if first = '"' then some ([], rest)
    else if first = '\\' then
      (readEscape rest).bind fun (character, rest) ↦
        (readCharacters fuel rest).map fun (characters, rest) ↦ (character :: characters, rest)
    else if first.toNat < 0x20 then none
    else (readCharacters fuel rest).map fun (characters, rest) ↦ (first :: characters, rest)

/-- What follows the opening quote. -/
def readString (text : List Char) : Option (String × List Char) :=
  (readCharacters text.length text).map fun (characters, rest) ↦
    (String.ofList characters, rest)

/-! ### Values -/

def isSpace (character : Char) : Bool := character ∈ [' ', '\t', '\n', '\r']

def skip (text : List Char) : List Char := text.dropWhile isSpace

def literals : List (List Char × Json) :=
  [("null".toList, .null), ("true".toList, .bool true), ("false".toList, .bool false)]

/-- A literal name or a number. -/
def readScalar (text : List Char) : Option (Json × List Char) :=
  match literals.find? fun literal ↦ literal.1.isPrefixOf text with
  | some literal => some (literal.2, text.drop literal.1.length)
  | none => (readNumber text).map fun (token, rest) ↦
      (.number (.float (String.ofList token)), rest)

/-- What follows one character, spaces before it aside. -/
def expect (character : Char) (text : List Char) : Option (List Char) :=
  match skip text with
  | [] => none
  | first :: rest => if first = character then some rest else none

mutual

def readValue : Nat → List Char → Option (Json × List Char)
  | 0, _ => none
  | fuel + 1, text =>
    match skip text with
    | [] => none
    | first :: rest =>
      if first = '[' then
        match expect ']' rest with
        | some rest => some (.array [], rest)
        | none => (readItems fuel rest).map fun (items, rest) ↦ (.array items, rest)
      else if first = '\x7b' then
        match expect '\x7d' rest with
        | some rest => some (.object [], rest)
        | none => (readFields fuel rest).map fun (fields, rest) ↦ (.object fields, rest)
      else if first = '"' then (readString rest).map fun (text, rest) ↦ (.string text, rest)
      else readScalar (first :: rest)

/-- Items up to the closing bracket. -/
def readItems : Nat → List Char → Option (List Json × List Char)
  | 0, _ => none
  | fuel + 1, text =>
    (readValue fuel text).bind fun (item, rest) ↦
      match expect ',' rest with
      | some rest => (readItems fuel rest).map fun (items, rest) ↦ (item :: items, rest)
      | none => (expect ']' rest).map fun rest ↦ ([item], rest)

/-- Fields up to the closing brace. -/
def readFields : Nat → List Char → Option (List (String × Json) × List Char)
  | 0, _ => none
  | fuel + 1, text =>
    ((expect '"' text).bind readString).bind fun (name, rest) ↦
      ((expect ':' rest).bind (readValue fuel)).bind fun (value, rest) ↦
        match expect ',' rest with
        | some rest =>
          (readFields fuel rest).map fun (fields, rest) ↦ ((name, value) :: fields, rest)
        | none => (expect '\x7d' rest).map fun rest ↦ ([(name, value)], rest)

end

/-- A text with one value in it. -/
def read (text : List Char) : Option Json :=
  (readValue (text.length + 1) text).bind fun (value, rest) ↦
    if skip rest = [] then some value else none

/-! ### Writing -/

def hexDigit (value : Nat) : Char := Nat.digitChar value

/-- The shortest escape of a character, or the character. -/
def escape (character : Char) : List Char :=
  if character = '"' then ['\\', '"']
  else if character = '\\' then ['\\', '\\']
  else if character = '\x08' then ['\\', 'b']
  else if character = '\x0c' then ['\\', 'f']
  else if character = '\n' then ['\\', 'n']
  else if character = '\r' then ['\\', 'r']
  else if character = '\t' then ['\\', 't']
  else if character.toNat < 0x20 then
    ['\\', 'u', '0', '0', hexDigit (character.toNat / 16), hexDigit (character.toNat % 16)]
  else [character]

def writeString (text : String) : List Char := '"' :: text.toList.flatMap escape ++ ['"']

def writeNumber : Number → List Char
  | .integer value => (toString value).toList
  | .float token => token.toList
  | .nonFinite => "null".toList

mutual

def write : Json → List Char
  | .null => "null".toList
  | .bool value => if value then "true".toList else "false".toList
  | .number value => writeNumber value
  | .string text => writeString text
  | .array items => '[' :: writeItems items
  | .object fields => '\x7b' :: writeFields fields

def writeItems : List Json → List Char
  | [] => [']']
  | [item] => write item ++ [']']
  | item :: items => write item ++ ',' :: writeItems items

def writeFields : List (String × Json) → List Char
  | [] => ['\x7d']
  | [(name, value)] => writeString name ++ ':' :: write value ++ ['\x7d']
  | (name, value) :: fields =>
    writeString name ++ ':' :: write value ++ ',' :: writeFields fields

end

/-! ### Reading what was written -/

theorem hexDigit?_hexDigit : ∀ value < 16, hexDigit? (hexDigit value) = some value := by
  decide

variable {character : Char}

theorem readUnit_escape (h : character.toNat < 0x20) (rest : List Char) :
    readUnit ('0' :: '0' :: hexDigit (character.toNat / 16) ::
      hexDigit (character.toNat % 16) :: rest) = some (character.toNat, rest) := by
  have hzero : hexDigit? '0' = some 0 := rfl
  have hhigh := hexDigit?_hexDigit (character.toNat / 16) (by omega)
  have hlow := hexDigit?_hexDigit (character.toNat % 16) (by omega)
  have hunit : 4096 * 0 + 256 * 0 + 16 * (character.toNat / 16) + character.toNat % 16 =
      character.toNat := by
    omega
  simp only [readUnit, hzero, hhigh, hlow, Option.bind_eq_bind, Option.bind_some, Option.pure_def,
    hunit]

theorem readCharacters_escape (fuel : Nat) (character : Char) (rest : List Char) :
    readCharacters (fuel + 1) (escape character ++ rest) =
      (readCharacters fuel rest).map fun read ↦ (character :: read.1, read.2) := by
  unfold escape
  split_ifs with hquote hslash hback hfeed hline hreturn htab hcontrol
  · subst hquote
    rfl
  · subst hslash
    rfl
  · subst hback
    rfl
  · subst hfeed
    rfl
  · subst hline
    rfl
  · subst hreturn
    rfl
  · subst htab
    rfl
  · have hunicode : readEscape ('u' :: '0' :: '0' :: hexDigit (character.toNat / 16) ::
        hexDigit (character.toNat % 16) :: rest) = some (character, rest) := by
      have hplain : ¬ (0xd800 ≤ character.toNat ∧ character.toNat < 0xdc00) := by omega
      have hplain' : ¬ (0xdc00 ≤ character.toNat ∧ character.toNat < 0xe000) := by omega
      simp only [readEscape, readUnicode, readUnit_escape hcontrol, Option.bind_eq_bind,
        Option.bind_some, if_neg hplain, if_neg hplain', Char.ofNat_toNat]
    change (readEscape ('u' :: '0' :: '0' :: hexDigit (character.toNat / 16) ::
      hexDigit (character.toNat % 16) :: rest)).bind _ = _
    rw [hunicode]
    rfl
  · rw [List.singleton_append, readCharacters, if_neg hquote, if_neg hslash, if_neg hcontrol]

/-- A character is written in one character or more. -/
theorem escape_length_pos (character : Char) : 0 < (escape character).length := by
  unfold escape
  split_ifs <;> exact Nat.succ_pos _

theorem readCharacters_written (characters rest : List Char) (fuel : Nat)
    (hfuel : characters.length < fuel) :
    readCharacters fuel (characters.flatMap escape ++ '"' :: rest) = some (characters, rest) := by
  induction characters generalizing fuel with
  | nil =>
    cases fuel with
    | zero => exact absurd hfuel (Nat.not_lt_zero _)
    | succ fuel => rfl
  | cons character characters ih =>
    cases fuel with
    | zero => exact absurd hfuel (Nat.not_lt_zero _)
    | succ fuel =>
      rw [List.flatMap_cons, List.append_assoc, readCharacters_escape,
        ih fuel (Nat.lt_of_succ_lt_succ hfuel), Option.map_some]

theorem length_le_flatMap_escape (characters : List Char) :
    characters.length ≤ (characters.flatMap escape).length := by
  induction characters with
  | nil => exact Nat.le_refl _
  | cons character characters ih =>
    have hpos := escape_length_pos character
    rw [List.flatMap_cons, List.length_append, List.length_cons]
    omega

theorem readString_written (text : String) (rest : List Char) :
    readString (text.toList.flatMap escape ++ '"' :: rest) = some (text, rest) := by
  have hlength := length_le_flatMap_escape text.toList
  rw [readString, readCharacters_written, Option.map_some]
  · simp
  · rw [List.length_append, List.length_cons]
    omega

/-! ### Documents of number tokens -/

/-- The numbers of a document. -/
def numbers : Json → List Number
  | .number value => [value]
  | .array items => ofItems items
  | .object fields => ofFields fields
  | _ => []
where
  ofItems : List Json → List Number
    | [] => []
    | item :: items => numbers item ++ ofItems items
  ofFields : List (String × Json) → List Number
    | [] => []
    | (_, value) :: fields => numbers value ++ ofFields fields

variable {items : List Json}

theorem mem_numbers_array {number : Number} :
    number ∈ numbers (.array items) ↔ ∃ item ∈ items, number ∈ numbers item := by
  rw [numbers]
  induction items with
  | nil => simp [numbers.ofItems]
  | cons item items ih => simp [numbers.ofItems, ih]

variable {fields : List (String × Json)}

theorem mem_numbers_object {number : Number} :
    number ∈ numbers (.object fields) ↔ ∃ field ∈ fields, number ∈ numbers field.2 := by
  rw [numbers]
  induction fields with
  | nil => simp [numbers.ofFields]
  | cons field fields ih => simp [numbers.ofFields, ih]

theorem isNumberCharacter_of_isDigit (h : character.isDigit = true) :
    isNumberCharacter character = true := by
  rw [isNumberCharacter, h, Bool.true_or]

variable {text : List Char}

theorem isExponent_all (h : isExponent text = true) :
    ∀ character ∈ text, isNumberCharacter character = true := by
  cases text with
  | nil => simp
  | cons mark rest =>
    have hdigits : ∀ digits : List Char, digits.all Char.isDigit = true →
        ∀ character ∈ digits, isNumberCharacter character = true := by
      intro digits hall character hmem
      exact isNumberCharacter_of_isDigit (List.all_eq_true.mp hall character hmem)
    simp only [isExponent, Bool.and_eq_true, Bool.or_eq_true, decide_eq_true_eq] at h
    obtain ⟨⟨hmark, -⟩, hall⟩ := h
    rw [List.forall_mem_cons]
    constructor
    · rcases hmark with rfl | rfl <;> decide
    · split at hall
      · exact List.forall_mem_cons.mpr ⟨by decide, hdigits _ hall⟩
      · exact List.forall_mem_cons.mpr ⟨by decide, hdigits _ hall⟩
      · exact hdigits _ hall

theorem all_of_takeWhile
    (h : ∀ character ∈ text.dropWhile Char.isDigit, isNumberCharacter character = true) :
    ∀ character ∈ text, isNumberCharacter character = true := by
  intro character hmem
  rw [← List.takeWhile_append_dropWhile (p := Char.isDigit) (l := text)] at hmem
  rcases List.mem_append.mp hmem with htaken | hdropped
  · exact isNumberCharacter_of_isDigit (List.all_eq_true.mp List.all_takeWhile character htaken)
  · exact h character hdropped

theorem isFraction_all (h : isFraction text = true) :
    ∀ character ∈ text, isNumberCharacter character = true := by
  unfold isFraction at h
  split at h
  · next rest =>
    rw [Bool.and_eq_true] at h
    exact List.forall_mem_cons.mpr ⟨by decide, all_of_takeWhile (isExponent_all h.2)⟩
  · exact isExponent_all h

/-- A number is a run of number characters that starts with one. -/
theorem isNumber_all {token : List Char} (h : isNumber token = true) :
    token ≠ [] ∧ ∀ character ∈ token, isNumberCharacter character = true := by
  constructor
  · rintro rfl
    exact absurd h (by decide)
  · simp only [isNumber, Bool.and_eq_true] at h
    have hall := all_of_takeWhile (isFraction_all h.2)
    split at hall
    · exact List.forall_mem_cons.mpr ⟨by decide, hall⟩
    · exact hall

/-- A number as the reader holds it. -/
def IsToken (number : Number) : Prop :=
  ∃ token : String, number = .float token ∧ isNumber token.toList = true

/-- Nothing follows that would lengthen a number. -/
def Delimited (rest : List Char) : Prop :=
  ∀ character ∈ rest.head?, isNumberCharacter character = false

theorem readNumber_token {token rest : List Char} (hnumber : isNumber token = true)
    (hrest : Delimited rest) : readNumber (token ++ rest) = some (token, rest) := by
  have htoken := (isNumber_all hnumber).2
  have htake : rest.takeWhile isNumberCharacter = [] ∧ rest.dropWhile isNumberCharacter = rest := by
    cases rest with
    | nil => exact ⟨rfl, rfl⟩
    | cons first rest =>
      have hfirst : isNumberCharacter first = false := hrest first rfl
      exact ⟨List.takeWhile_cons_of_neg (by simp [hfirst]),
        List.dropWhile_cons_of_neg (by simp [hfirst])⟩
  unfold readNumber
  rw [List.takeWhile_append_of_pos htoken, List.dropWhile_append_of_pos htoken, htake.1, htake.2,
    List.append_nil, if_pos hnumber]

/-! ### The round trip -/

/-- A value starts with a character that no space and no closing bracket is. -/
def Opens (text : List Char) : Prop :=
  ∃ first rest, text = first :: rest ∧ isSpace first = false ∧ first ≠ ']' ∧ first ≠ '\x7d'

theorem opens_write {value : Json} (htokens : ∀ number ∈ numbers value, IsToken number) :
    Opens (write value) := by
  cases value with
  | null => exact ⟨'n', _, rfl, by decide, by decide, by decide⟩
  | bool value =>
    cases value with
    | true => exact ⟨'t', _, rfl, by decide, by decide, by decide⟩
    | false => exact ⟨'f', _, rfl, by decide, by decide, by decide⟩
  | string text => exact ⟨'"', _, rfl, by decide, by decide, by decide⟩
  | array items => exact ⟨'[', _, rfl, by decide, by decide, by decide⟩
  | object fields => exact ⟨'\x7b', _, rfl, by decide, by decide, by decide⟩
  | number number =>
    obtain ⟨token, rfl, hnumber⟩ := htokens number (by simp [numbers])
    obtain ⟨hne, hall⟩ := isNumber_all hnumber
    obtain ⟨first, rest, hfirst⟩ := List.exists_cons_of_ne_nil hne
    have hcharacter := hall first (hfirst ▸ List.mem_cons_self)
    refine ⟨first, rest, hfirst, ?_, ?_, ?_⟩
    · by_contra hspace
      have hmem : isSpace first = true := by simpa using hspace
      simp only [isSpace, List.mem_cons, List.not_mem_nil, or_false, decide_eq_true_eq] at hmem
      rcases hmem with rfl | rfl | rfl | rfl <;> exact absurd hcharacter (by decide)
    · rintro rfl
      exact absurd hcharacter (by decide)
    · rintro rfl
      exact absurd hcharacter (by decide)

theorem skip_of_opens (h : Opens text) (rest : List Char) : skip (text ++ rest) = text ++ rest := by
  obtain ⟨first, tail, rfl, hspace, -⟩ := h
  exact List.dropWhile_cons_of_neg (by simp [hspace])

theorem expect_cons (h : isSpace character = false) (rest : List Char) :
    expect character (character :: rest) = some rest := by
  rw [expect, skip, List.dropWhile_cons_of_neg (by simp [h])]
  exact if_pos rfl

theorem expect_of_ne {first : Char} (hspace : isSpace first = false) (hne : first ≠ character)
    (rest : List Char) : expect character (first :: rest) = none := by
  rw [expect, skip, List.dropWhile_cons_of_neg (by simp [hspace])]
  exact if_neg hne

theorem readScalar_token {token : String} {rest : List Char}
    (hnumber : isNumber token.toList = true) (hrest : Delimited rest) :
    readScalar (token.toList ++ rest) = some (.number (.float token), rest) := by
  obtain ⟨hne, hall⟩ := isNumber_all hnumber
  obtain ⟨first, tail, hfirst⟩ := List.exists_cons_of_ne_nil hne
  have hcharacter := hall first (hfirst ▸ List.mem_cons_self)
  have hletter : ∀ letter, isNumberCharacter letter = false → (letter == first) = false := by
    intro letter hletter
    rw [beq_eq_false_iff_ne]
    rintro rfl
    rw [hletter] at hcharacter
    cases hcharacter
  have hliteral : (literals.find? fun literal ↦
      literal.1.isPrefixOf (token.toList ++ rest)) = none := by
    rw [hfirst]
    simp [literals, List.isPrefixOf, hletter 'n' (by decide), hletter 't' (by decide),
      hletter 'f' (by decide)]
  rw [readScalar, hliteral]
  dsimp only
  rw [readNumber_token hnumber hrest, Option.map_some]
  simp

/-- The writer and the reader agree on a value. -/
def Agrees (value : Json) : Prop :=
  ∀ fuel rest, (write value).length ≤ fuel → Delimited rest →
    readValue fuel (write value ++ rest) = some (value, rest)

theorem readItems_write (hne : items ≠ []) (hitems : ∀ item ∈ items, Agrees item) (fuel : Nat)
    (rest : List Char) (hfuel : (writeItems items).length ≤ fuel) :
    readItems fuel (writeItems items ++ rest) = some (items, rest) := by
  induction items generalizing fuel with
  | nil => exact absurd rfl hne
  | cons item items ih =>
    rw [List.forall_mem_cons] at hitems
    cases items with
    | nil =>
      rw [writeItems, List.length_append, List.length_singleton] at hfuel
      obtain ⟨fuel, rfl⟩ := Nat.exists_eq_succ_of_ne_zero (by omega : fuel ≠ 0)
      rw [writeItems, List.append_assoc, List.singleton_append, readItems,
        hitems.1 fuel (']' :: rest) (by omega) (by rintro _ ⟨⟩; decide), Option.bind_some]
      dsimp only
      rw [expect_of_ne (by decide) (by decide), expect_cons (by decide)]
      rfl
    | cons second items =>
      rw [writeItems, List.length_append, List.length_cons] at hfuel
      · obtain ⟨fuel, rfl⟩ := Nat.exists_eq_succ_of_ne_zero (by omega : fuel ≠ 0)
        rw [writeItems, List.append_assoc, List.cons_append, readItems,
          hitems.1 fuel (',' :: _) (by omega) (by rintro _ ⟨⟩; decide), Option.bind_some]
        · dsimp only
          rw [expect_cons (by decide)]
          dsimp only
          rw [ih (by simp) hitems.2 fuel (by omega), Option.map_some]
        · simp
      · simp

theorem readFields_write (hne : fields ≠ []) (hfields : ∀ field ∈ fields, Agrees field.2)
    (fuel : Nat) (rest : List Char) (hfuel : (writeFields fields).length ≤ fuel) :
    readFields fuel (writeFields fields ++ rest) = some (fields, rest) := by
  have hname : ∀ (name : String) (rest : List Char),
      (expect '"' (writeString name ++ rest)).bind readString = some (name, rest) := by
    intro name rest
    have hopened : writeString name ++ rest =
        '"' :: (name.toList.flatMap escape ++ '"' :: rest) := by
      simp [writeString]
    rw [hopened, expect_cons (by decide), Option.bind_some, readString_written]
  induction fields generalizing fuel with
  | nil => exact absurd rfl hne
  | cons field fields ih =>
    obtain ⟨name, value⟩ := field
    rw [List.forall_mem_cons] at hfields
    have hvalue : Agrees value := hfields.1
    cases fields with
    | nil =>
      have hwritten : writeFields [(name, value)] ++ rest =
          writeString name ++ (':' :: (write value ++ '\x7d' :: rest)) := by
        simp [writeFields]
      simp only [writeFields, List.length_append, List.length_cons] at hfuel
      obtain ⟨fuel, rfl⟩ := Nat.exists_eq_succ_of_ne_zero (by omega : fuel ≠ 0)
      rw [hwritten, readFields, hname, Option.bind_some]
      dsimp only
      rw [expect_cons (by decide), Option.bind_some,
        hvalue fuel ('\x7d' :: rest) (by omega) (by rintro _ ⟨⟩; decide), Option.bind_some]
      dsimp only
      rw [expect_of_ne (by decide) (by decide), expect_cons (by decide)]
      rfl
    | cons second fields =>
      have hwritten : writeFields ((name, value) :: second :: fields) ++ rest =
          writeString name ++
            (':' :: (write value ++ ',' :: (writeFields (second :: fields) ++ rest))) := by
        simp [writeFields]
      simp only [writeFields, List.length_append, List.length_cons] at hfuel
      obtain ⟨fuel, rfl⟩ := Nat.exists_eq_succ_of_ne_zero (by omega : fuel ≠ 0)
      rw [hwritten, readFields, hname, Option.bind_some]
      dsimp only
      rw [expect_cons (by decide), Option.bind_some,
        hvalue fuel (',' :: _) (by omega) (by rintro _ ⟨⟩; decide), Option.bind_some]
      dsimp only
      rw [expect_cons (by decide)]
      dsimp only
      rw [ih (by simp) hfields.2 fuel (by omega), Option.map_some]

theorem expect_of_opens {text : List Char} (h : Opens text) (rest : List Char) :
    expect ']' (text ++ rest) = none ∧ expect '\x7d' (text ++ rest) = none := by
  obtain ⟨first, tail, rfl, hspace, hbracket, hbrace⟩ := h
  exact ⟨expect_of_ne hspace hbracket _, expect_of_ne hspace hbrace _⟩

theorem opens_writeItems (hne : items ≠ [])
    (htokens : ∀ item ∈ items, ∀ number ∈ numbers item, IsToken number) :
    Opens (writeItems items) := by
  cases items with
  | nil => exact absurd rfl hne
  | cons item items =>
    obtain ⟨first, tail, hwrite, hfirst⟩ := opens_write (htokens item List.mem_cons_self)
    cases items with
    | nil => exact ⟨first, _, by rw [writeItems, hwrite, List.cons_append], hfirst⟩
    | cons second items =>
      exact ⟨first, _, by rw [writeItems, hwrite, List.cons_append]; simp, hfirst⟩

theorem opens_writeFields (hne : fields ≠ []) : Opens (writeFields fields) := by
  match fields with
  | [] => exact absurd rfl hne
  | [(name, value)] => exact ⟨'"', _, rfl, by decide, by decide, by decide⟩
  | (name, value) :: second :: fields => exact ⟨'"', _, rfl, by decide, by decide, by decide⟩

/-- What is written of a document of tokens is read back. -/
theorem agrees {value : Json} (htokens : ∀ number ∈ numbers value, IsToken number) :
    Agrees value := by
  induction value using Json.induction with
  | null =>
    intro fuel rest hfuel _
    obtain ⟨fuel, rfl⟩ := Nat.exists_eq_succ_of_ne_zero (n := fuel) (by rintro rfl; cases hfuel)
    rfl
  | bool value =>
    intro fuel rest hfuel _
    cases value <;>
      obtain ⟨fuel, rfl⟩ :=
        Nat.exists_eq_succ_of_ne_zero (n := fuel) (by rintro rfl; cases hfuel) <;> rfl
  | number number =>
    intro fuel rest hfuel hrest
    have hopens := skip_of_opens (opens_write htokens) rest
    obtain ⟨token, rfl, hnumber⟩ := htokens number (by simp [numbers])
    obtain ⟨hne, hall⟩ := isNumber_all hnumber
    obtain ⟨first, tail, hfirst⟩ := List.exists_cons_of_ne_nil hne
    have hcharacter := hall first (hfirst ▸ List.mem_cons_self)
    have hother : ∀ letter, isNumberCharacter letter = false → first ≠ letter := by
      rintro letter hletter rfl
      rw [hletter] at hcharacter
      cases hcharacter
    have hpositive : fuel ≠ 0 := by
      rintro rfl
      rw [write, writeNumber, hfirst] at hfuel
      cases hfuel
    obtain ⟨fuel, rfl⟩ := Nat.exists_eq_succ_of_ne_zero hpositive
    rw [readValue, hopens, write, writeNumber, hfirst, List.cons_append]
    dsimp only
    rw [if_neg (hother '[' (by decide)), if_neg (hother '\x7b' (by decide)),
      if_neg (hother '"' (by decide)), ← List.cons_append, ← hfirst]
    exact readScalar_token hnumber hrest
  | string text =>
    intro fuel rest hfuel _
    have hwritten : write (.string text) ++ rest =
        '"' :: (text.toList.flatMap escape ++ '"' :: rest) := by
      simp [write, writeString]
    obtain ⟨fuel, rfl⟩ :=
      Nat.exists_eq_succ_of_ne_zero (n := fuel) (by rintro rfl; cases hfuel)
    rw [hwritten, readValue, skip, List.dropWhile_cons_of_neg (by decide)]
    dsimp only
    rw [if_neg (by decide), if_neg (by decide), if_pos rfl, readString_written, Option.map_some]
  | array items ih =>
    intro fuel rest hfuel _
    have hitems : ∀ item ∈ items, ∀ number ∈ numbers item, IsToken number := by
      intro item hitem number hnumber
      exact htokens number (mem_numbers_array.mpr ⟨item, hitem, hnumber⟩)
    rw [write, List.length_cons] at hfuel
    obtain ⟨fuel, rfl⟩ := Nat.exists_eq_succ_of_ne_zero (by omega : fuel ≠ 0)
    rw [write, List.cons_append, readValue, skip, List.dropWhile_cons_of_neg (by decide)]
    dsimp only
    rw [if_pos rfl]
    by_cases hne : items = []
    · subst hne
      rfl
    · rw [(expect_of_opens (opens_writeItems hne hitems) rest).1]
      dsimp only
      rw [readItems_write hne (fun item hitem ↦ ih item hitem (hitems item hitem)) fuel rest
        (by omega), Option.map_some]
  | object fields ih =>
    intro fuel rest hfuel _
    have hfields : ∀ field ∈ fields, Agrees field.2 := by
      intro field hfield
      refine ih field hfield fun number hnumber ↦ ?_
      exact htokens number (mem_numbers_object.mpr ⟨field, hfield, hnumber⟩)
    rw [write, List.length_cons] at hfuel
    obtain ⟨fuel, rfl⟩ := Nat.exists_eq_succ_of_ne_zero (by omega : fuel ≠ 0)
    rw [write, List.cons_append, readValue, skip, List.dropWhile_cons_of_neg (by decide)]
    dsimp only
    rw [if_neg (by decide), if_pos rfl]
    by_cases hne : fields = []
    · subst hne
      rfl
    · rw [(expect_of_opens (opens_writeFields hne) rest).2]
      dsimp only
      rw [readFields_write hne hfields fuel rest (by omega), Option.map_some]

/-- What is written of a document whose numbers are tokens is read as that document. -/
theorem read_write {value : Json} (htokens : ∀ number ∈ numbers value, IsToken number) :
    read (write value) = some value := by
  have hread := agrees htokens ((write value).length + 1) [] (Nat.le_succ _) (by simp [Delimited])
  rw [List.append_nil] at hread
  rw [read, hread]
  rfl

end AiStp.Library.JsonText
