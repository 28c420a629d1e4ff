import AiStp.Library.Loops
import Mathlib.Data.List.TakeWhile

/-!
# Tokens of a catalog query

A query is split into words, quoted strings and punctuation. White space separates tokens and is
dropped; a backslash in a quoted string stands for the character after it. The tokens of a text
are described by `Lexes`, and `tokenize` finds them when there are not too many. Which characters
are white space, and upper case and case folding, are parameters.
-/

set_option autoImplicit false

namespace AiStp.Catalog.QueryLanguage

/-- What the language of the service knows of characters. -/
structure Alphabet where
  isSpace : Char → Bool
  upper : List Char → List Char
  casefold : List Char → List Char

def maxQueryLength : Nat := 500

def maxTokens : Nat := 128

structure QuerySyntaxError where
  message : String
  offset : Nat
  expected : Option String := none
deriving DecidableEq

inductive TokenKind where
  | word
  | string
  | lparen
  | rparen
  | comma
  | colon
  | eof
deriving DecidableEq

structure Token where
  kind : TokenKind
  value : List Char
  offset : Nat
deriving DecidableEq

variable (alphabet : Alphabet)

def punctuation (char : Char) : Option TokenKind :=
  if char = '(' then some .lparen
  else if char = ')' then some .rparen
  else if char = ',' then some .comma
  else if char = ':' then some .colon
  else none

def quotes : List Char := ['"', Char.ofNat 39]

/-- A character of a word. -/
def wordChar (char : Char) : Bool :=
  !alphabet.isSpace char && (punctuation char).isNone && !quotes.contains char

/-- The value of a quoted string and what follows its closing quote. -/
def scanQuoted (quote : Char) : List Char → Option (List Char × List Char)
  | [] => none
  | [char] => if char = quote then some ([], []) else none
  | char :: next :: rest =>
    if char = quote then some ([], next :: rest)
    else if char = '\\' then
      (scanQuoted quote rest).map fun scanned ↦ (next :: scanned.1, scanned.2)
    else (scanQuoted quote (next :: rest)).map fun scanned ↦ (char :: scanned.1, scanned.2)

variable {text : List Char} {quote : Char}

theorem scanQuoted_length {value rest : List Char}
    (h : scanQuoted quote text = some (value, rest)) : rest.length < text.length := by
  fun_induction scanQuoted quote text generalizing value with
  | case1 => cases h
  | case2 => simp_all
  | case3 => cases h
  | case4 => simp_all
  | case5 next rest' hnext ih =>
    obtain ⟨scanned, hscanned, hsame⟩ := Option.map_eq_some_iff.mp h
    obtain ⟨rfl, rfl⟩ := Prod.mk.inj hsame
    have hlength := ih hscanned
    simp only [List.length_cons]
    omega
  | case6 char next rest' _ _ ih =>
    obtain ⟨scanned, hscanned, hsame⟩ := Option.map_eq_some_iff.mp h
    obtain ⟨rfl, rfl⟩ := Prod.mk.inj hsame
    have hlength := ih hscanned
    simp only [List.length_cons] at hlength ⊢
    omega

/-- The token at a character that is not white space, and what follows it. The text is the end of a
text with `total` characters. -/
def nextToken (total : Nat) (char : Char) (after : List Char) :
    Except QuerySyntaxError (Token × List Char) :=
  let offset := total - (after.length + 1)
  match punctuation char with
  | some kind => .ok (⟨kind, [char], offset⟩, after)
  | none =>
    if quotes.contains char then
      match scanQuoted char after with
      | none => .error ⟨"unterminated quoted value", offset, some (String.ofList [char])⟩
      | some (value, rest) => .ok (⟨.string, value, offset⟩, rest)
    else
      .ok (⟨.word, char :: after.takeWhile (wordChar alphabet), offset⟩,
        after.dropWhile (wordChar alphabet))

variable {total : Nat}

theorem nextToken_length {char : Char} {after rest : List Char} {token : Token}
    (h : nextToken alphabet total char after = .ok (token, rest)) : rest.length ≤ after.length := by
  unfold nextToken at h
  dsimp only at h
  split at h
  · obtain ⟨-, rfl⟩ := Prod.mk.inj (Except.ok.inj h)
    exact le_rfl
  · split at h
    · split at h
      · cases h
      · next hscanned =>
        obtain ⟨-, rfl⟩ := Prod.mk.inj (Except.ok.inj h)
        exact (scanQuoted_length hscanned).le
    · obtain ⟨-, rfl⟩ := Prod.mk.inj (Except.ok.inj h)
      exact (List.dropWhile_suffix _).length_le

/-- The tokens of the end of a text, after those that are given. -/
def tokenizeFrom (total : Nat) (tokens : List Token) (text : List Char) :
    Except QuerySyntaxError (List Token) :=
  match text with
  | [] => .ok (tokens ++ [⟨.eof, [], total⟩])
  | char :: after =>
    if alphabet.isSpace char then tokenizeFrom total tokens after
    else
      match _hnext : nextToken alphabet total char after with
      | .error error => .error error
      | .ok (token, rest) =>
        if maxTokens < tokens.length + 1 then
          .error ⟨"query has too many tokens", total - rest.length, none⟩
        else tokenizeFrom total (tokens ++ [token]) rest
termination_by text.length
decreasing_by
  · simp
  · have hlength := nextToken_length alphabet _hnext
    simp only [List.length_cons]
    omega

def tokenize (source : List Char) : Except QuerySyntaxError (List Token) :=
  if maxQueryLength < source.length then .error ⟨"query is too long", maxQueryLength, none⟩
  else tokenizeFrom alphabet source.length [] source

/-! ### The tokens of a text -/

/-- What is written between quotes for a value. -/
inductive Quoted (quote : Char) : List Char → List Char → Prop
  | nil : Quoted quote [] []
  | plain {char : Char} {body value : List Char} : char ≠ quote → char ≠ '\\' →
      Quoted quote body value → Quoted quote (char :: body) (char :: value)
  | escaped {char : Char} {body value : List Char} :
      Quoted quote body value → Quoted quote ('\\' :: char :: body) (char :: value)

/-- The tokens of the end of a text with `total` characters. -/
inductive Lexes (total : Nat) : List Char → List Token → Prop
  | nil : Lexes total [] []
  | space {char : Char} {rest : List Char} {tokens : List Token} : alphabet.isSpace char = true →
      Lexes total rest tokens → Lexes total (char :: rest) tokens
  | punctuation {char : Char} {kind : TokenKind} {rest : List Char} {tokens : List Token} :
      alphabet.isSpace char = false → punctuation char = some kind → Lexes total rest tokens →
      Lexes total (char :: rest) (⟨kind, [char], total - (rest.length + 1)⟩ :: tokens)
  | string {quote : Char} {body value rest : List Char} {tokens : List Token} :
      alphabet.isSpace quote = false → quote ∈ quotes → Quoted quote body value →
      Lexes total rest tokens →
      Lexes total (quote :: body ++ quote :: rest)
        (⟨.string, value, total - ((body ++ quote :: rest).length + 1)⟩ :: tokens)
  | word {first : Char} {letters rest : List Char} {tokens : List Token} :
      (∀ letter ∈ first :: letters, wordChar alphabet letter = true) →
      (∀ next ∈ rest.head?, wordChar alphabet next = false) → Lexes total rest tokens →
      Lexes total (first :: letters ++ rest)
        (⟨.word, first :: letters, total - ((letters ++ rest).length + 1)⟩ :: tokens)

variable {alphabet}

theorem scanQuoted_eq_some (hquote : quote ≠ '\\') {value rest : List Char} :
    scanQuoted quote text = some (value, rest) ↔
      ∃ body, Quoted quote body value ∧ text = body ++ quote :: rest := by
  constructor
  · intro h
    fun_induction scanQuoted quote text generalizing value with
    | case1 => cases h
    | case2 =>
      obtain ⟨rfl, rfl⟩ := Prod.mk.inj (Option.some.inj h)
      exact ⟨[], .nil, rfl⟩
    | case3 => cases h
    | case4 next rest' =>
      obtain ⟨rfl, rfl⟩ := Prod.mk.inj (Option.some.inj h)
      exact ⟨[], .nil, rfl⟩
    | case5 next rest' hnext ih =>
      obtain ⟨scanned, hscanned, hsame⟩ := Option.map_eq_some_iff.mp h
      obtain ⟨rfl, rfl⟩ := Prod.mk.inj hsame
      obtain ⟨body, hbody, rfl⟩ := ih hscanned
      exact ⟨_, .escaped hbody, rfl⟩
    | case6 char next rest' hchar hescape ih =>
      obtain ⟨scanned, hscanned, hsame⟩ := Option.map_eq_some_iff.mp h
      obtain ⟨rfl, rfl⟩ := Prod.mk.inj hsame
      obtain ⟨body, hbody, htext⟩ := ih hscanned
      exact ⟨_, .plain hchar hescape hbody, by rw [htext]; rfl⟩
  · rintro ⟨body, hbody, rfl⟩
    induction hbody with
    | nil =>
      cases rest with
      | nil => simp [scanQuoted]
      | cons next rest => simp [scanQuoted]
    | @plain char body value hchar hescape hbody ih =>
      obtain ⟨next, after, hafter⟩ : ∃ next after, body ++ quote :: rest = next :: after := by
        cases body with
        | nil => exact ⟨quote, rest, rfl⟩
        | cons next body => exact ⟨next, body ++ quote :: rest, rfl⟩
      rw [List.cons_append, hafter, scanQuoted, if_neg hchar, if_neg hescape, ← hafter, ih]
      rfl
    | @escaped char body value hbody ih =>
      rw [List.cons_append, List.cons_append, scanQuoted, if_neg (Ne.symm hquote), if_pos rfl, ih]
      rfl

theorem quote_ne_backslash (h : quote ∈ quotes) : quote ≠ '\\' := by
  rintro rfl
  revert h
  decide

theorem punctuation_quote (h : quote ∈ quotes) : punctuation quote = none := by
  rw [quotes, List.mem_cons, List.mem_singleton] at h
  rcases h with rfl | rfl
  · decide
  · decide

variable {tokens : List Token}

/-- One token of a text, as the grammar has it. -/
theorem nextToken_lexes {char : Char} {after rest : List Char} {token : Token}
    (hspace : alphabet.isSpace char = false)
    (h : nextToken alphabet total char after = .ok (token, rest))
    (htokens : Lexes alphabet total rest tokens) :
    Lexes alphabet total (char :: after) (token :: tokens) := by
  unfold nextToken at h
  dsimp only at h
  split at h
  · next kind hkind =>
    obtain ⟨rfl, rfl⟩ := Prod.mk.inj (Except.ok.inj h)
    exact .punctuation hspace hkind htokens
  · next hkind =>
    split at h
    · next hquote =>
      rw [List.contains_iff_mem] at hquote
      split at h
      · cases h
      · next value rest' hscanned =>
        obtain ⟨rfl, rfl⟩ := Prod.mk.inj (Except.ok.inj h)
        obtain ⟨body, hbody, rfl⟩ :=
          (scanQuoted_eq_some (quote_ne_backslash hquote)).mp hscanned
        exact .string hspace hquote hbody htokens
    · next hquote =>
      obtain ⟨rfl, rfl⟩ := Prod.mk.inj (Except.ok.inj h)
      have hletters : ∀ letter ∈ char :: after.takeWhile (wordChar alphabet),
          wordChar alphabet letter = true := by
        intro letter hletter
        rcases List.mem_cons.mp hletter with rfl | hletter
        · simp only [wordChar, hspace, hkind, Option.isNone_none, Bool.not_false, Bool.true_and]
          simpa using hquote
        · exact List.mem_takeWhile_imp hletter
      have hrest : ∀ next ∈ (after.dropWhile (wordChar alphabet)).head?,
          wordChar alphabet next = false := by
        intro next hnext
        have hhead := List.head?_dropWhile_not (wordChar alphabet) after
        rw [Option.mem_def] at hnext
        rw [hnext] at hhead
        simpa using hhead
      have hword := Lexes.word hletters hrest htokens
      rw [List.cons_append, List.takeWhile_append_dropWhile] at hword
      exact hword

theorem takeWhile_letters {letters rest : List Char}
    (hletters : ∀ letter ∈ letters, wordChar alphabet letter = true)
    (hrest : ∀ next ∈ rest.head?, wordChar alphabet next = false) :
    (letters ++ rest).takeWhile (wordChar alphabet) = letters ∧
      (letters ++ rest).dropWhile (wordChar alphabet) = rest := by
  induction letters with
  | nil =>
    cases rest with
    | nil => exact ⟨rfl, rfl⟩
    | cons next rest =>
      have hnext := hrest next rfl
      simp [hnext]
  | cons letter letters ih =>
    have hletter := hletters letter List.mem_cons_self
    obtain ⟨htake, hdrop⟩ := ih fun other hother ↦ hletters other (List.mem_cons_of_mem _ hother)
    simp [hletter, htake, hdrop]

theorem tokenizeFrom_of_nextToken {char : Char} {after rest : List Char} {token : Token}
    (hspace : alphabet.isSpace char = false)
    (h : nextToken alphabet total char after = .ok (token, rest))
    (hcount : tokens.length + 1 ≤ maxTokens) :
    tokenizeFrom alphabet total tokens (char :: after) =
      tokenizeFrom alphabet total (tokens ++ [token]) rest := by
  rw [tokenizeFrom, hspace, if_neg Bool.false_ne_true]
  split
  · next herror =>
    rw [h] at herror
    cases herror
  · next token' rest' hnext =>
    rw [h] at hnext
    obtain ⟨rfl, rfl⟩ := Prod.mk.inj (Except.ok.inj hnext)
    rw [if_neg (not_lt.mpr hcount)]

/-- The tokens that are found are those of the text. -/
theorem lexes_of_tokenizeFrom {before result : List Token}
    (h : tokenizeFrom alphabet total before text = .ok result)
    (hbefore : before.length ≤ maxTokens) :
    ∃ tokens, Lexes alphabet total text tokens ∧ before.length + tokens.length ≤ maxTokens ∧
      result = before ++ tokens ++ [⟨.eof, [], total⟩] := by
  fun_induction tokenizeFrom alphabet total before text with
  | case1 before =>
    obtain rfl := Except.ok.inj h
    exact ⟨[], .nil, by simpa using hbefore, by rw [List.append_nil]⟩
  | case2 before char after hspace ih =>
    obtain ⟨tokens, htokens, hcount, hresult⟩ := ih h hbefore
    exact ⟨tokens, .space hspace htokens, hcount, hresult⟩
  | case3 => cases h
  | case4 => cases h
  | case5 before char after hspace token rest hnext hcount ih =>
    have hlength : (before ++ [token]).length ≤ maxTokens := by
      rw [List.length_append, List.length_singleton]
      exact not_lt.mp hcount
    obtain ⟨tokens, htokens, htotal, hresult⟩ := ih h hlength
    refine ⟨token :: tokens, nextToken_lexes (by simpa using hspace) hnext htokens, ?_, ?_⟩
    · rw [List.length_append, List.length_singleton] at htotal
      rw [List.length_cons]
      omega
    · rw [hresult, List.append_assoc, List.append_assoc, List.append_assoc]
      rfl

theorem tokenizeFrom_of_lexes (h : Lexes alphabet total text tokens) (before : List Token)
    (hcount : before.length + tokens.length ≤ maxTokens) :
    tokenizeFrom alphabet total before text = .ok (before ++ tokens ++ [⟨.eof, [], total⟩]) := by
  have hadd {char : Char} {after rest : List Char} {token : Token} {tokens : List Token}
      (before : List Token) (hspace : alphabet.isSpace char = false)
      (hnext : nextToken alphabet total char after = .ok (token, rest))
      (ih : ∀ before : List Token, before.length + tokens.length ≤ maxTokens →
        tokenizeFrom alphabet total before rest =
          .ok (before ++ tokens ++ [⟨.eof, [], total⟩]))
      (hcount : before.length + (token :: tokens).length ≤ maxTokens) :
      tokenizeFrom alphabet total before (char :: after) =
        .ok (before ++ token :: tokens ++ [⟨.eof, [], total⟩]) := by
    rw [List.length_cons] at hcount
    rw [tokenizeFrom_of_nextToken hspace hnext (by omega), ih]
    · simp
    · rw [List.length_append, List.length_singleton]
      omega
  induction h generalizing before with
  | nil => rw [tokenizeFrom, List.append_nil]
  | space hspace _ ih =>
    rw [tokenizeFrom, if_pos hspace]
    exact ih before hcount
  | punctuation hspace hkind _ ih =>
    refine hadd before hspace ?_ ih hcount
    rw [nextToken, hkind]
  | @string quote body value rest tokens hspace hquote hbody _ ih =>
    refine hadd before hspace ?_ ih hcount
    have hscanned : scanQuoted quote (body ++ quote :: rest) = some (value, rest) :=
      (scanQuoted_eq_some (quote_ne_backslash hquote)).mpr ⟨body, hbody, rfl⟩
    show nextToken alphabet total quote (body ++ quote :: rest) = _
    rw [nextToken, punctuation_quote hquote]
    simp only [List.contains_iff_mem.mpr hquote, if_true, hscanned]
  | @word first letters rest tokens hletters hrest _ ih =>
    obtain ⟨htake, hdrop⟩ := takeWhile_letters
      (fun letter hletter ↦ hletters letter (List.mem_cons_of_mem _ hletter)) hrest
    have hfirst := hletters first List.mem_cons_self
    simp only [wordChar, Bool.and_eq_true, Bool.not_eq_true', Option.isNone_iff_eq_none] at hfirst
    refine hadd before hfirst.1.1 ?_ ih hcount
    show nextToken alphabet total first (letters ++ rest) = _
    rw [nextToken, hfirst.1.2]
    simp only [hfirst.2, Bool.false_eq_true, if_false, htake, hdrop]

/-- The tokens of a text that is not too long are found, if there are not too many. -/
theorem tokenize_eq_ok {source : List Char} {result : List Token} :
    tokenize alphabet source = .ok result ↔ source.length ≤ maxQueryLength ∧
      ∃ tokens, Lexes alphabet source.length source tokens ∧ tokens.length ≤ maxTokens ∧
        result = tokens ++ [⟨.eof, [], source.length⟩] := by
  rw [tokenize]
  by_cases hlength : maxQueryLength < source.length
  · rw [if_pos hlength]
    exact iff_of_false nofun fun h ↦ absurd h.1 (not_le.mpr hlength)
  · rw [if_neg hlength]
    constructor
    · intro h
      obtain ⟨tokens, htokens, hcount, hresult⟩ := lexes_of_tokenizeFrom h (Nat.zero_le _)
      exact ⟨not_lt.mp hlength, tokens, htokens, by simpa using hcount, hresult⟩
    · rintro ⟨-, tokens, htokens, hcount, rfl⟩
      exact tokenizeFrom_of_lexes htokens [] (by simpa using hcount)

theorem offset_of_tokenizeFrom {before : List Token} {error : QuerySyntaxError}
    (h : tokenizeFrom alphabet total before text = .error error) : error.offset ≤ total := by
  fun_induction tokenizeFrom alphabet total before text with
  | case1 => cases h
  | case2 before char after hspace ih => exact ih h
  | case3 before char after hspace error' hnext =>
    obtain rfl := Except.error.inj h
    unfold nextToken at hnext
    dsimp only at hnext
    split at hnext
    · cases hnext
    · split at hnext
      · split at hnext
        · rw [← Except.error.inj hnext]
          exact Nat.sub_le _ _
        · cases hnext
      · cases hnext
  | case4 =>
    rw [← Except.error.inj h]
    exact Nat.sub_le _ _
  | case5 before char after hspace token rest hnext hcount ih => exact ih h

theorem offset_of_tokenize {source : List Char} {error : QuerySyntaxError}
    (h : tokenize alphabet source = .error error) : error.offset ≤ source.length := by
  rw [tokenize] at h
  split_ifs at h with hlength
  · rw [← Except.error.inj h]
    exact hlength.le
  · exact offset_of_tokenizeFrom h

/-- The tokens of a text lie in it, and none of them is its end. -/
theorem token_of_lexes (h : Lexes alphabet total text tokens) :
    ∀ token ∈ tokens, token.offset ≤ total ∧ token.kind ≠ .eof := by
  induction h with
  | nil => exact fun _ htoken ↦ absurd htoken List.not_mem_nil
  | space _ _ ih => exact ih
  | punctuation _ hkind _ ih =>
    refine List.forall_mem_cons.mpr ⟨⟨Nat.sub_le _ _, ?_⟩, ih⟩
    rintro rfl
    revert hkind
    unfold punctuation
    split_ifs <;> simp
  | string _ _ _ _ ih => exact List.forall_mem_cons.mpr ⟨⟨Nat.sub_le _ _, nofun⟩, ih⟩
  | word _ _ _ ih => exact List.forall_mem_cons.mpr ⟨⟨Nat.sub_le _ _, nofun⟩, ih⟩

end AiStp.Catalog.QueryLanguage
