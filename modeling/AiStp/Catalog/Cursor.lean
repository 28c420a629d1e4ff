import AiStp.Foundation.Timestamps
import AiStp.Sync.Server.Cursor

/-!
# Cursors of the catalog

A cursor is the Base64 text of a small JSON object (a version, the signature of the filter and the
keys of the last row of a page) and, in the last 43 characters, of the HMAC of that text. What is
encoded under the signature of a filter decodes to its key under that signature, and is refused
under every other one (`decode_encode`).
-/

set_option autoImplicit false

namespace AiStp.Catalog.Cursor

open Library Foundation
open Library.JsonText (utf8Length utf8Length_append utf8Length_cons utf8Length_write writtenSize)
open Sync.Server.Cursor (bytes isCursor field document? signedText signatureText
  signedText_append signatureText_append letter_shape length_flatMap_escape utf8Length_digits
  length_matchesStableId)

/-- The HMAC of SHA-256, by its key and its message; the first 32 hexadecimal digits of the SHA-256
of a JSON text; white space; whether a number of a JSON text that has a point or an exponent is read
as the double two; and the digits of the platform. -/
structure Toolkit where
  hmac : List UInt8 → List UInt8 → List UInt8
  length_hmac : ∀ key message, (hmac key message).length = 32
  hash : Json → String
  hash_shape : ∀ payload, (hash payload).toList.length = 32 ∧
    ∀ digit ∈ (hash payload).toList, digit.isAlphanum = true
  isSpace : Char → Bool
  isTwo : String → Bool
  platform : Platform
  readsDigits : Identity.ReadsDigits platform

/-! ### Filters -/

inductive CatalogSort where
  | relevance
  | likes
  | updatedAt
deriving DecidableEq

def CatalogSort.text : CatalogSort → String
  | .relevance => "relevance"
  | .likes => "likes"
  | .updatedAt => "updated_at"

inductive SortDirection where
  | asc
  | desc
deriving DecidableEq

def SortDirection.text : SortDirection → String
  | .asc => "asc"
  | .desc => "desc"

/-- What a search of the catalog asks for. -/
structure Filter where
  objectKind : String
  q : Option String
  tags : List String
  harnessId : Option String
  componentType : Option String
  includeExperimental : Bool
  includeDeprecated : Bool
  harnessIds : List String
  componentTypes : List String
  authors : List String
  verification : List String
  verifiedOnly : Bool
  minSafetyPercent : Option Int
  sort : CatalogSort
  sortDirection : SortDirection
  supportTier : Option String
  supportState : Option String
  serviceDomain : Option String
  countryCode : Option String
  updatedFrom : Option String
  updatedTo : Option String
  familyId : Option String
  familyAlignment : Option String
  memberHarnessId : Option String
  organizationId : Option String
  teamIds : List String
  projectIds : List String
  technologyIds : List String
  categoryIds : List String
  ownerIds : List String
  maintainerIds : List String
  assignment : Option String
  corporateVerified : Option Bool

section Signature

variable (toolkit : Toolkit)

def strip (text : String) : String :=
  String.ofList ((text.toList.dropWhile toolkit.isSpace).reverse.dropWhile toolkit.isSpace).reverse

def normalizeSearchText (q : Option String) : Option String :=
  q.bind fun text ↦ if strip toolkit text = "" then none else some (strip toolkit text)

/-- Trimmed, without blanks and repetitions, and sorted. -/
def uniqueSorted (values : List String) : List String :=
  (((values.map (strip toolkit)).filter (· ≠ "")).dedup).insertionSort (· ≤ ·)

def mergedOrValues (singular : Option String) (values : List String) : List String :=
  uniqueSorted toolkit (values ++ (singular.filter (· ≠ "")).toList)

def text? : Option String → Json
  | none => .null
  | some text => .string text

def texts (values : List String) : Json := .array (values.map .string)

/-- A field that is left out when its text is empty. -/
def whenText (name : String) : Option String → List (String × Json)
  | none => []
  | some text => if text = "" then [] else [(name, .string text)]

def whenTexts (name : String) (values : List String) : List (String × Json) :=
  if uniqueSorted toolkit values = [] then []
  else [(name, texts (uniqueSorted toolkit values))]

/-- The document of a filter, whose fields are sorted by name. -/
def signedFields (filter : Filter) : List (String × Json) :=
  (whenText "assignment" filter.assignment ++
    [("authors", texts (uniqueSorted toolkit filter.authors))] ++
    whenTexts toolkit "category_ids" filter.categoryIds ++
    [("component_types",
      texts (mergedOrValues toolkit filter.componentType filter.componentTypes))] ++
    (filter.corporateVerified.map fun value ↦ ("corporate_verified", Json.bool value)).toList ++
    [("country_code", text? filter.countryCode)] ++
    whenText "family_alignment" filter.familyAlignment ++
    whenText "family_id" filter.familyId ++
    [("harness_ids", texts (mergedOrValues toolkit filter.harnessId filter.harnessIds)),
      ("include_deprecated", .bool filter.includeDeprecated),
      ("include_experimental", .bool filter.includeExperimental),
      ("kind", .string filter.objectKind)] ++
    whenTexts toolkit "maintainer_ids" filter.maintainerIds ++
    whenText "member_harness_id" filter.memberHarnessId ++
    [("min_safety_percent",
      (filter.minSafetyPercent.map fun percent ↦ Json.number (.integer percent)).getD .null)] ++
    whenText "organization_id" filter.organizationId ++
    whenTexts toolkit "owner_ids" filter.ownerIds ++
    whenTexts toolkit "project_ids" filter.projectIds ++
    [("q", text? (normalizeSearchText toolkit filter.q)),
      ("service_domain", text? filter.serviceDomain), ("sort", .string filter.sort.text),
      ("sort_direction", .string filter.sortDirection.text),
      ("support_state", text? filter.supportState), ("support_tier", text? filter.supportTier),
      ("tags", texts (uniqueSorted toolkit filter.tags))] ++
    whenTexts toolkit "team_ids" filter.teamIds ++
    whenTexts toolkit "technology_ids" filter.technologyIds ++
    whenText "updated_from" filter.updatedFrom ++ whenText "updated_to" filter.updatedTo ++
    [("verification", texts (uniqueSorted toolkit filter.verification)),
      ("verified_only", .bool filter.verifiedOnly)])

def payload (filter : Filter) : Json := .object (signedFields toolkit filter)

def filterSignature (filter : Filter) : String := toolkit.hash (payload toolkit filter)

end Signature

theorem lookup_whenText {name other : String} (h : name ≠ other) (value : Option String) :
    (whenText other value).lookup name = none := by
  cases value with
  | none => rfl
  | some text =>
    rw [whenText]
    split_ifs
    · rfl
    · simp [h]

theorem lookup_whenTexts {toolkit : Toolkit} {name other : String} (h : name ≠ other)
    (values : List String) : (whenTexts toolkit other values).lookup name = none := by
  rw [whenTexts]
  split_ifs
  · rfl
  · simp [h]

/-- Filters of different sorts or directions have different documents. -/
theorem sort_of_payload {toolkit : Toolkit} {first second : Filter}
    (h : payload toolkit first = payload toolkit second) :
    first.sort = second.sort ∧ first.sortDirection = second.sortDirection := by
  have hfields : signedFields toolkit first = signedFields toolkit second := Json.object.inj h
  have hverified (verified : Option Bool) (name : String) (hne : name ≠ "corporate_verified") :
      ((verified.map fun value ↦ ("corporate_verified", Json.bool value)).toList).lookup name =
        none := by
    cases verified with
    | none => rfl
    | some value => simp [hne]
  have hskip {name other : String} (hne : name ≠ other) (value : Json)
      (rest : List (String × Json)) :
      List.lookup name ((other, value) :: rest) = List.lookup name rest := by
    rw [List.lookup_cons, beq_false_of_ne hne]
  have hsort (filter : Filter) :
      (signedFields toolkit filter).lookup "sort" = some (.string filter.sort.text) := by
    unfold signedFields
    simp only [List.lookup_append]
    simp only [lookup_whenText, lookup_whenTexts, hverified, hskip, List.lookup_nil,
      Option.none_or, ne_eq, String.reduceEq, not_false_eq_true, List.lookup_cons_self,
      Option.some_or]
  have hdirection (filter : Filter) : (signedFields toolkit filter).lookup "sort_direction" =
      some (.string filter.sortDirection.text) := by
    unfold signedFields
    simp only [List.lookup_append]
    simp only [lookup_whenText, lookup_whenTexts, hverified, hskip, List.lookup_nil,
      Option.none_or, ne_eq, String.reduceEq, not_false_eq_true, List.lookup_cons_self,
      Option.some_or]
  constructor
  · have hsame := (hsort first).symm.trans ((congrArg (List.lookup "sort") hfields).trans
      (hsort second))
    have htext := Json.string.inj (Option.some.inj hsame)
    revert htext
    cases first.sort <;> cases second.sort <;> simp [CatalogSort.text]
  · have hsame := (hdirection first).symm.trans
      ((congrArg (List.lookup "sort_direction") hfields).trans (hdirection second))
    have htext := Json.string.inj (Option.some.inj hsame)
    revert htext
    cases first.sortDirection <;> cases second.sortDirection <;> simp [SortDirection.text]

/-! ### Codec -/

structure CursorKey where
  publishedAt : Identity.Moment
  stableId : String
  likesCount : Int
  relevance : Int
deriving DecidableEq

section Codec

variable (toolkit : Toolkit) (secret : String)

def cursorVersion : String := "2"

/-- The JSON text of a key. -/
def body (signature : String) (key : CursorKey) : Json :=
  .object [("f", .string signature), ("i", .string key.stableId),
    ("l", .number (.float (toString key.likesCount))),
    ("r", .number (.float (toString key.relevance))),
    ("t", .string (Identity.formatTimestamp key.publishedAt)),
    ("v", .number (.float cursorVersion))]

def packed (signature : String) (key : CursorKey) : List Char :=
  Base64.write (bytes (JsonText.write (body signature key)))

def tag (text : List Char) : List UInt8 := toolkit.hmac (bytes secret.toList) (bytes text)

/-- `encode_cursor`. -/
def encode (signature : String) (key : CursorKey) : Except String (List Char) :=
  let text := packed signature key
  let signed := Base64.write (tag toolkit secret text)
  if signed.length ≠ 43 then .error "cursor signature encoding failed"
  else
    let token := text ++ signed
    if !isCursor token then .error "encoded cursor exceeds wire bounds" else .ok token

/-- A value that equals two. -/
def equalsTwo : Option Json → Bool
  | some (.number (.float token)) =>
    if CanonicalText.isReal token then toolkit.isTwo token else Text.integer? token == some 2
  | _ => false

/-- An integer of an object, zero when it is missing. -/
def count? : Option Json → Option Int
  | none => some 0
  | some (.bool value) => some (if value then 1 else 0)
  | some (.number (.float token)) =>
    if CanonicalText.isReal token then none else Text.integer? token
  | _ => none

/-- The key in an object of a payload. -/
def readKey (signature : String) (fields : List (String × Json)) : Except String CursorKey :=
  if field fields "f" ≠ some (.string signature) then
    .error "cursor filter signature mismatch"
  else
    match field fields "t", field fields "i" with
    | some (.string published), some (.string stableId) =>
      if !equalsTwo toolkit (field fields "v") then .error "cursor version is unsupported"
      else
        match count? (field fields "l"), count? (field fields "r") with
        | some likes, some relevance =>
          match Identity.parseTimestamp toolkit.platform published with
          | some moment => .ok ⟨moment, stableId, likes, relevance⟩
          | none => .error "not a canonical UTC millisecond timestamp"
        | _, _ => .error "cursor key is invalid"
    | _, _ => .error "cursor key is invalid"

/-- `decode_cursor`. -/
def decode (token : List Char) (signature : String) : Except String CursorKey :=
  if !isCursor token || token.length ≤ 43 then .error "cursor shape is invalid"
  else if Base64.read (signatureText token) ≠ some (tag toolkit secret (signedText token)) then
    .error "cursor signature is invalid"
  else
    match document? (signedText token) with
    | some (.object fields) => readKey toolkit signature fields
    | _ => .error "cursor payload is invalid"

end Codec

/-! ### What is encoded -/

section Encoded

variable {toolkit : Toolkit} {secret signature : String} {key : CursorKey} {token : List Char}

theorem length_signed (text : List Char) :
    (Base64.write (tag toolkit secret text)).length = 43 := by
  rw [Base64.write, List.length_map, Base64.length_digits, tag, toolkit.length_hmac]

theorem encode_eq_ok : encode toolkit secret signature key = .ok token ↔
    token = packed signature key ++ Base64.write (tag toolkit secret (packed signature key)) ∧
      isCursor token = true := by
  unfold encode
  dsimp only
  rw [if_neg (not_not.mpr (length_signed _))]
  constructor
  · intro h
    split_ifs at h with hshape
    obtain rfl := Except.ok.inj h
    exact ⟨rfl, by simpa using hshape⟩
  · rintro ⟨rfl, hshape⟩
    rw [hshape]
    rfl

theorem document?_packed (signature : String) (key : CursorKey) :
    document? (packed signature key) = some (body signature key) := by
  have hbytes : (⟨(bytes (JsonText.write (body signature key))).toArray⟩ : ByteArray) =
      CanonicalText.utf8 (JsonText.write (body signature key)) := by
    rw [bytes, Array.toArray_toList]
  rw [document?, packed, Base64.read_write, Option.bind_some, hbytes, CanonicalText.document?,
    CanonicalText.text?_utf8, Option.bind_some]
  refine JsonText.read_write fun number hnumber ↦ ?_
  rw [body, JsonText.mem_numbers_object] at hnumber
  obtain ⟨field, hfield, hnumber⟩ := hnumber
  simp only [List.mem_cons, List.not_mem_nil, or_false] at hfield
  obtain rfl | rfl | rfl | rfl | rfl | rfl := hfield
  · simp [JsonText.numbers] at hnumber
  · simp [JsonText.numbers] at hnumber
  · obtain rfl : number = .float (toString key.likesCount) := by
      simpa [JsonText.numbers] using hnumber
    exact ⟨_, rfl, CanonicalText.isNumber_toString _⟩
  · obtain rfl : number = .float (toString key.relevance) := by
      simpa [JsonText.numbers] using hnumber
    exact ⟨_, rfl, CanonicalText.isNumber_toString _⟩
  · simp [JsonText.numbers] at hnumber
  · obtain rfl : number = .float cursorVersion := by simpa [JsonText.numbers] using hnumber
    exact ⟨_, rfl, by decide⟩

theorem count?_toString (value : Int) :
    count? (some (.number (.float (toString value)))) = some value := by
  rw [count?, CanonicalText.isReal_toString, if_neg Bool.false_ne_true, Text.integer?_toString]

theorem readKey_body (hexists : key.publishedAt.Exists) (other : String) :
    readKey toolkit other [("f", .string signature), ("i", .string key.stableId),
        ("l", .number (.float (toString key.likesCount))),
        ("r", .number (.float (toString key.relevance))),
        ("t", .string (Identity.formatTimestamp key.publishedAt)),
        ("v", .number (.float cursorVersion))] =
      if signature = other then .ok key else .error "cursor filter signature mismatch" := by
  have hversion : equalsTwo toolkit (some (.number (.float cursorVersion))) = true := by
    have hreal : CanonicalText.isReal cursorVersion = false := by decide
    have htwo : Text.integer? cursorVersion = some 2 := by decide
    rw [equalsTwo, hreal, htwo]
    rfl
  unfold readKey
  simp only [field, List.reverse_cons, List.reverse_nil, List.nil_append, List.cons_append,
    List.lookup_cons, beq_self_eq_true, hversion, Bool.not_true, Bool.false_eq_true, if_false,
    count?_toString, Identity.parse_format toolkit.readsDigits hexists,
    show ("f" == "v") = false by decide, show ("f" == "t") = false by decide,
    show ("f" == "r") = false by decide, show ("f" == "l") = false by decide,
    show ("f" == "i") = false by decide, show ("t" == "v") = false by decide,
    show ("i" == "v") = false by decide, show ("i" == "t") = false by decide,
    show ("i" == "r") = false by decide, show ("i" == "l") = false by decide,
    show ("l" == "v") = false by decide, show ("l" == "t") = false by decide,
    show ("l" == "r") = false by decide, show ("r" == "v") = false by decide,
    show ("r" == "t") = false by decide]
  by_cases hsame : signature = other
  · simp [hsame]
  · simp [hsame]

/-- An encoded key is decoded under the signature of its filter, and refused under another. -/
theorem decode_encode (h : encode toolkit secret signature key = .ok token)
    (hexists : key.publishedAt.Exists) (other : String) : decode toolkit secret token other =
      if signature = other then .ok key else .error "cursor filter signature mismatch" := by
  obtain ⟨rfl, hshape⟩ := encode_eq_ok.mp h
  have hlength : (Base64.write (tag toolkit secret (packed signature key))).length = 43 :=
    length_signed _
  have hpacked : packed signature key ≠ [] := by
    intro hnil
    have hdocument := document?_packed signature key
    rw [hnil] at hdocument
    have hnone : document? [] = none := by decide
    rw [hnone] at hdocument
    cases hdocument
  have hpos := List.length_pos_iff.mpr hpacked
  unfold decode
  rw [hshape, decide_eq_false (by rw [List.length_append, hlength]; omega),
    signedText_append hlength, signatureText_append hlength, Base64.read_write, document?_packed]
  simp only [Bool.not_true, Bool.or_false, Bool.false_eq_true, if_false, ne_eq, not_true_eq_false]
  exact readKey_body hexists other

/-! ### Keys of rows -/

/-- A key that a row of the catalog can have. -/
structure CursorKey.Storable (key : CursorKey) : Prop where
  publishedAt : key.publishedAt.Exists
  stableId : ∃ kind ∈ ["component", "setup"], Identity.matchesStableId kind key.stableId = true
  likesCount : -2 ^ 31 ≤ key.likesCount ∧ key.likesCount < 2 ^ 31
  relevance : -2 ^ 31 ≤ key.relevance ∧ key.relevance < 2 ^ 31

theorem length_stableId (h : key.Storable) : utf8Length key.stableId.toList ≤ 36 := by
  obtain ⟨kind, hkind, hstable⟩ := h.stableId
  have hlength : (Text.units (kind ++ "_")).length ≤ 10 := by
    simp only [List.mem_cons, List.not_mem_nil, or_false] at hkind
    obtain rfl | rfl := hkind
    · decide
    · decide
  rw [length_matchesStableId hstable]
  omega

theorem toNat_of_isAlphanum {character : Char} (h : character.isAlphanum = true) :
    48 ≤ character.toNat ∧ character.toNat ≤ 122 ∧ character.toNat ≠ 92 := by
  simp only [Char.isAlphanum, Char.isAlpha, Char.isUpper, Char.isLower, Char.isDigit,
    Bool.or_eq_true, Bool.and_eq_true, decide_eq_true_eq, UInt32.le_iff_toNat_le, ge_iff_le] at h
  have hcode : character.toNat = character.val.toNat := rfl
  have hupper : 'A'.val.toNat = 65 ∧ 'Z'.val.toNat = 90 := ⟨rfl, rfl⟩
  have hlower : 'a'.val.toNat = 97 ∧ 'z'.val.toNat = 122 := ⟨rfl, rfl⟩
  have hdigit : '0'.val.toNat = 48 ∧ '9'.val.toNat = 57 := ⟨rfl, rfl⟩
  omega

theorem length_escape_of_isAlphanum {character : Char} (h : character.isAlphanum = true) :
    utf8Length (JsonText.escape character) = 1 := by
  obtain ⟨hlow, hhigh, hbackslash⟩ := toNat_of_isAlphanum h
  have hne {other : Char} (hother : other.toNat < 48 ∨ other.toNat = 92) : character ≠ other := by
    rintro rfl
    omega
  have hsize : character.utf8Size = 1 :=
    Char.utf8Size_eq_one_iff.mpr (UInt32.le_iff_toNat_le.mpr (show character.toNat ≤ 127 by omega))
  rw [JsonText.escape, if_neg (hne (.inl (by decide))), if_neg (hne (.inr (by decide))),
    if_neg (hne (.inl (by decide))), if_neg (hne (.inl (by decide))),
    if_neg (hne (.inl (by decide))), if_neg (hne (.inl (by decide))),
    if_neg (hne (.inl (by decide))), if_neg (by omega)]
  simp [utf8Length, hsize]

/-- A text of plain characters takes one byte for each, and two for the quotes. -/
theorem length_writeString {text : String} (h : ∀ character ∈ text.toList,
    character.isAlphanum = true ∨ character ∈ ['-', 'T', ':', '.', 'Z']) :
    utf8Length (JsonText.writeString text) = text.toList.length + 2 := by
  have hplain (character : Char)
      (hcharacter : character.isAlphanum = true ∨ character ∈ ['-', 'T', ':', '.', 'Z']) :
      utf8Length (JsonText.escape character) = 1 := by
    obtain hletter | hsign := hcharacter
    · exact length_escape_of_isAlphanum hletter
    · simp only [List.mem_cons, List.not_mem_nil, or_false] at hsign
      obtain rfl | rfl | rfl | rfl | rfl := hsign <;> rfl
  have hall : ∀ characters : List Char, (∀ character ∈ characters,
      character.isAlphanum = true ∨ character ∈ ['-', 'T', ':', '.', 'Z']) →
      utf8Length (characters.flatMap JsonText.escape) = characters.length := by
    intro characters hcharacters
    induction characters with
    | nil => rfl
    | cons first rest ih =>
      obtain ⟨hfirst, hrest⟩ := List.forall_mem_cons.mp hcharacters
      rw [List.flatMap_cons, utf8Length_append, hplain first hfirst, ih hrest, List.length_cons,
        Nat.add_comm]
  have hquote : Char.utf8Size '"' = 1 := rfl
  have hend : utf8Length ['"'] = 1 := rfl
  rw [JsonText.writeString, List.cons_append, utf8Length_cons, utf8Length_append, hall _ h, hquote,
    hend]
  omega

theorem length_toString {value : Int} (h : -2 ^ 31 ≤ value ∧ value < 2 ^ 31) :
    utf8Length (toString value).toList ≤ 11 := by
  have hdigits : (Nat.toDigits 10 value.natAbs).length ≤ 10 :=
    Nat.toDigits_length 10 _ 10 (by decide) (by omega)
  rw [CanonicalText.toList_toString, utf8Length_append, utf8Length_digits]
  have hsign : utf8Length (if 0 ≤ value then [] else ['-']) ≤ 1 := by
    split_ifs
    · exact Nat.zero_le _
    · exact le_rfl
  omega

theorem length_packed (payload : Json) (h : key.Storable) :
    (packed (toolkit.hash payload) key).length ≤ 443 := by
  have hsignature : utf8Length (JsonText.writeString (toolkit.hash payload)) = 34 := by
    obtain ⟨hlength, hdigits⟩ := toolkit.hash_shape payload
    rw [length_writeString fun digit hdigit ↦ .inl (hdigits digit hdigit), hlength]
  have hid : utf8Length (JsonText.writeString key.stableId) ≤ 218 := by
    have hescape := length_flatMap_escape key.stableId.toList
    have hlength := length_stableId h
    have hquote : Char.utf8Size '"' = 1 := rfl
    have hend : utf8Length ['"'] = 1 := rfl
    rw [JsonText.writeString, List.cons_append, utf8Length_cons, utf8Length_append]
    omega
  have htime :
      utf8Length (JsonText.writeString (Identity.formatTimestamp key.publishedAt)) = 26 := by
    obtain ⟨hlength, hcharacters⟩ := Identity.format_plain h.publishedAt
    rw [length_writeString fun character hcharacter ↦ ?_, hlength]
    refine (hcharacters character hcharacter).imp_left fun hdigit ↦ ?_
    rw [Char.isAlphanum, hdigit, Bool.or_true]
  have hlikes := length_toString h.likesCount
  have hrelevance := length_toString h.relevance
  have hsize : (bytes (JsonText.write (body (toolkit.hash payload) key))).length ≤ 332 := by
    rw [bytes, Array.length_toList]
    change (CanonicalText.utf8 _).size ≤ 332
    rw [CanonicalText.size_utf8, utf8Length_write, body]
    have hwritten : (∀ name ∈ ["f", "i", "l", "r", "t", "v"],
        utf8Length (JsonText.writeString name) = 3) ∧
        utf8Length (JsonText.writeNumber (.float cursorVersion)) = 1 := by
      decide +kernel
    have hf := hwritten.1 "f" (by simp)
    have hi := hwritten.1 "i" (by simp)
    have hl := hwritten.1 "l" (by simp)
    have hr := hwritten.1 "r" (by simp)
    have ht := hwritten.1 "t" (by simp)
    have hv := hwritten.1 "v" (by simp)
    have htwo := hwritten.2
    simp only [writtenSize, writtenSize.ofFields, hf, hi, hl, hr, ht, hv, htwo, hsignature, htime]
    rw [JsonText.writeNumber, JsonText.writeNumber]
    omega
  rw [packed, Base64.write, List.length_map, Base64.length_digits]
  omega

/-- The key of a row has a cursor. -/
theorem exists_encode (toolkit : Toolkit) (secret : String) (payload : Json) (h : key.Storable) :
    ∃ token, encode toolkit secret (toolkit.hash payload) key = .ok token := by
  refine ⟨_, encode_eq_ok.mpr ⟨rfl, ?_⟩⟩
  have hlength : (Base64.write (tag toolkit secret (packed (toolkit.hash payload) key))).length =
      43 := length_signed _
  have hpacked : (packed (toolkit.hash payload) key).length ≤ 443 := length_packed payload h
  unfold isCursor
  rw [List.length_append, hlength, Bool.and_eq_true, Bool.and_eq_true, decide_eq_true_eq,
    decide_eq_true_eq, List.all_eq_true]
  refine ⟨⟨by omega, by omega⟩, fun character hcharacter ↦ ?_⟩
  rw [packed, Base64.write, Base64.write, ← List.map_append] at hcharacter
  obtain ⟨digit, -, rfl⟩ := List.mem_map.mp hcharacter
  exact letter_shape digit

end Encoded

end AiStp.Catalog.Cursor
