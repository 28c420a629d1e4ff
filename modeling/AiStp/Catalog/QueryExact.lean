import AiStp.Catalog.QuerySound

/-!
# What the parser of catalog queries accepts

Where the tokens begin with a phrase that what follows does not extend, each function of the parser
finds that phrase (`complete`). So the parser accepts exactly the queries of the grammar that have
neither too many characters nor too many tokens, and refuses the others (`parse_query_exact`).
-/

set_option autoImplicit false

namespace AiStp.Catalog.QueryLanguage

open Library

variable {alphabet : Alphabet} {total : Nat} {token : Token} {tokens after : List Token}

/-! ### What the parser is given -/

/-- What follows closes the expression. -/
def Closes (rest : List Token) : Prop :=
  ∃ next after, rest = next :: after ∧ (next.kind = .eof ∨ next.kind = .rparen)

/-- What follows ends the operands of AND. -/
def EndsAnd (alphabet : Alphabet) (rest : List Token) : Prop :=
  ∃ next after, rest = next :: after ∧
    (next.kind = .eof ∨ next.kind = .rparen ∨ keyword alphabet "OR" next = true)

/-- A phrase begins with a token that may begin an operand. -/
structure Starts (alphabet : Alphabet) (token : Token) : Prop where
  starts : startsOperand token = true
  isAnd : keyword alphabet "AND" token = false
  isOr : keyword alphabet "OR" token = false
  isIn : keyword alphabet "IN" token = false

theorem starts_of_isText (htext : isText token = true) (h : isKeyword alphabet token = false) :
    Starts alphabet token := by
  obtain ⟨hand, hor, -, hin⟩ := isKeyword_eq_false.mp h
  exact ⟨by rw [startsOperand, htext, Bool.true_or], hand, hor, hin⟩

theorem Starts.kind_ne_colon (h : Starts alphabet token) : token.kind ≠ .colon := by
  intro hkind
  have hstarts := h.starts
  simp [startsOperand, isText, hkind] at hstarts

variable {expression : Expression} {unclosed : Bool}

theorem TermPhrase.starts (h : TermPhrase alphabet tokens expression unclosed) :
    ∃ token after, tokens = token :: after ∧ isText token = true ∧
      isKeyword alphabet token = false := by
  cases h with
  | @predicate token tail field operator values hfield hoperator htakes =>
    refine ⟨token, tail, rfl, ?_, isKeyword_of_fieldOf hfield⟩
    rw [fieldOf] at hfield
    split_ifs at hfield with hkind
    simp [isText, hkind]
  | @text token htext hkeyword => exact ⟨token, [], rfl, htext, hkeyword⟩

variable {depth : Nat}

theorem PrimaryPhrase.starts (h : PrimaryPhrase alphabet depth tokens expression unclosed) :
    ∃ token after, tokens = token :: after ∧ Starts alphabet token ∧
      keyword alphabet "NOT" token = false := by
  cases h with
  | @group _ opening closing inner _ _ hopening _ _ =>
    have hkind : opening.kind ≠ .word := by
      rw [hopening]
      exact nofun
    exact ⟨opening, inner ++ [closing], rfl, ⟨by simp [startsOperand, hopening],
      keyword_of_kind hkind, keyword_of_kind hkind, keyword_of_kind hkind⟩, keyword_of_kind hkind⟩
  | term _ hterm =>
    obtain ⟨token, after, htokens, htext, hkeyword⟩ := hterm.starts
    exact ⟨token, after, htokens, starts_of_isText htext hkeyword,
      (isKeyword_eq_false.mp hkeyword).2.2.1⟩

theorem UnaryPhrase.starts (h : UnaryPhrase alphabet depth tokens expression unclosed) :
    ∃ token after, tokens = token :: after ∧ Starts alphabet token := by
  cases h with
  | @not _ token tail _ _ hnot _ =>
    refine ⟨token, tail, rfl, ?_, keyword_eq_false hnot (by decide),
      keyword_eq_false hnot (by decide), keyword_eq_false hnot (by decide)⟩
    simp [startsOperand, isText, kind_of_keyword hnot]
  | primary hprimary =>
    obtain ⟨token, after, htokens, hstarts, -⟩ := hprimary.starts
    exact ⟨token, after, htokens, hstarts⟩

theorem UnaryPhrase.length_pos (h : UnaryPhrase alphabet depth tokens expression unclosed) :
    0 < tokens.length := by
  obtain ⟨token, after, rfl, -⟩ := h.starts
  exact Nat.succ_pos _

theorem AndPhrase.length_pos (h : AndPhrase alphabet depth tokens expression) :
    0 < tokens.length := by
  cases h with
  | operands hleft _ =>
    have hpos := hleft.length_pos
    rw [List.length_append]
    omega

variable {rest : List Token}

theorem Closes.endsAnd (h : Closes rest) : EndsAnd alphabet rest := by
  obtain ⟨next, after, hrest, hkind⟩ := h
  exact ⟨next, after, hrest, hkind.imp_right Or.inl⟩

theorem EndsAnd.endsTerm (h : EndsAnd alphabet rest) (unclosed : Bool) :
    EndsTerm alphabet unclosed rest := by
  obtain ⟨next, after, hrest, hkind⟩ := h
  refine ⟨next, after, hrest, ?_⟩
  obtain hkind | hkind | hor := hkind
  · have hword : next.kind ≠ .word := by rw [hkind]; exact nofun
    exact ⟨by rw [hkind]; exact nofun, keyword_of_kind hword, fun _ ↦ keyword_of_kind hword⟩
  · have hword : next.kind ≠ .word := by rw [hkind]; exact nofun
    exact ⟨by rw [hkind]; exact nofun, keyword_of_kind hword, fun _ ↦ keyword_of_kind hword⟩
  · exact ⟨by rw [kind_of_keyword hor]; exact nofun, keyword_eq_false hor (by decide),
      fun _ ↦ keyword_eq_false hor (by decide)⟩

theorem OrTail.endsAnd {left result : Expression} (h : OrTail alphabet depth left tokens result)
    (hrest : Closes rest) : EndsAnd alphabet (tokens ++ rest) := by
  cases h with
  | nil => exact hrest.endsAnd
  | or hor _ _ => exact ⟨_, _, rfl, .inr (.inr hor)⟩

theorem AndTail.endsTerm {left result : Expression}
    (h : AndTail alphabet depth left unclosed tokens result) (hrest : EndsAnd alphabet rest) :
    EndsTerm alphabet unclosed (tokens ++ rest) := by
  cases h with
  | nil => exact hrest.endsTerm unclosed
  | and hand _ _ =>
    exact ⟨_, _, rfl, by rw [kind_of_keyword hand]; exact nofun, keyword_eq_false hand (by decide),
      fun _ ↦ keyword_eq_false hand (by decide)⟩
  | @adjacent _ _ _ _ _ _ operand tail hright hnot _ =>
    obtain ⟨token, after, rfl, hstarts⟩ := hright.starts
    exact ⟨token, after ++ tail ++ rest, rfl, hstarts.kind_ne_colon, hstarts.isIn,
      fun hunclosed ↦ hnot hunclosed token rfl⟩

/-! With enough fuel each function finds the phrase that the tokens begin with. -/

section Finds

variable (alphabet : Alphabet) (fuel : Nat)

def OrComplete : Prop :=
  ∀ depth tokens rest expression, OrPhrase alphabet depth tokens expression → Closes rest →
    8 * (tokens.length + rest.length) + 6 ≤ fuel →
    parseOr alphabet fuel depth (tokens ++ rest) = .ok (expression, rest)

def OrTailComplete : Prop :=
  ∀ depth left tokens rest expression, OrTail alphabet depth left tokens expression →
    Closes rest → 8 * (tokens.length + rest.length) + 5 ≤ fuel →
    orLoop alphabet fuel depth left (tokens ++ rest) = .ok (expression, rest)

def AndComplete : Prop :=
  ∀ depth tokens rest expression, AndPhrase alphabet depth tokens expression →
    EndsAnd alphabet rest → 8 * (tokens.length + rest.length) + 4 ≤ fuel →
    parseAnd alphabet fuel depth (tokens ++ rest) = .ok (expression, rest)

def AndTailComplete : Prop :=
  ∀ depth left unclosed tokens rest expression,
    AndTail alphabet depth left unclosed tokens expression → EndsAnd alphabet rest →
    8 * (tokens.length + rest.length) + 3 ≤ fuel →
    andLoop alphabet fuel depth left (tokens ++ rest) = .ok (expression, rest)

def UnaryComplete : Prop :=
  ∀ depth tokens rest expression unclosed,
    UnaryPhrase alphabet depth tokens expression unclosed → EndsTerm alphabet unclosed rest →
    8 * (tokens.length + rest.length) + 2 ≤ fuel →
    parseUnary alphabet fuel depth (tokens ++ rest) = .ok (expression, rest)

def PrimaryComplete : Prop :=
  ∀ depth token after rest expression unclosed,
    PrimaryPhrase alphabet depth (token :: after) expression unclosed →
    EndsTerm alphabet unclosed rest → 8 * (after.length + 1 + rest.length) + 1 ≤ fuel →
    parsePrimary alphabet fuel depth token (after ++ rest) = .ok (expression, rest)

structure Complete : Prop where
  or : OrComplete alphabet fuel
  orTail : OrTailComplete alphabet fuel
  and : AndComplete alphabet fuel
  andTail : AndTailComplete alphabet fuel
  unary : UnaryComplete alphabet fuel
  primary : PrimaryComplete alphabet fuel

end Finds

section Complete

variable {fuel : Nat}

section

variable (hcomplete : Complete alphabet fuel)
include hcomplete

theorem parseOr_eq_ok : OrComplete alphabet (fuel + 1) := by
  intro depth tokens rest expression h hrest hfuel
  cases h with
  | @operands _ left _ operand tail hleft htail =>
    have hpos := hleft.length_pos
    rw [List.length_append] at hfuel
    rw [parseOr, List.append_assoc, hcomplete.and depth operand (tail ++ rest) left hleft
      (htail.endsAnd hrest) (by rw [List.length_append]; omega)]
    exact hcomplete.orTail depth left tail rest expression htail hrest (by omega)

theorem orLoop_eq_ok : OrTailComplete alphabet (fuel + 1) := by
  intro depth left tokens rest expression h hrest hfuel
  cases h with
  | nil =>
    obtain ⟨next, after, rfl, hkind⟩ := hrest
    have hor : keyword alphabet "OR" next = false := by
      refine keyword_of_kind fun hword ↦ ?_
      simp [hword] at hkind
    rw [List.nil_append, orLoop, hor, if_neg Bool.false_ne_true]
  | @or _ _ right _ operator operand tail hor hright htail =>
    have hpos := hright.length_pos
    rw [List.length_cons, List.length_append] at hfuel
    rw [List.cons_append, orLoop, if_pos hor, List.append_assoc,
      hcomplete.and depth operand (tail ++ rest) right hright (htail.endsAnd hrest)
        (by rw [List.length_append]; omega)]
    exact hcomplete.orTail depth _ tail rest expression htail hrest (by omega)

theorem parseAnd_eq_ok : AndComplete alphabet (fuel + 1) := by
  intro depth tokens rest expression h hrest hfuel
  cases h with
  | @operands _ left _ unclosed operand tail hleft htail =>
    have hpos := hleft.length_pos
    rw [List.length_append] at hfuel
    rw [parseAnd, List.append_assoc, hcomplete.unary depth operand (tail ++ rest) left unclosed
      hleft (htail.endsTerm hrest) (by rw [List.length_append]; omega)]
    exact hcomplete.andTail depth left unclosed tail rest expression htail hrest (by omega)

theorem andLoop_eq_ok : AndTailComplete alphabet (fuel + 1) := by
  intro depth left unclosed tokens rest expression h hrest hfuel
  cases h with
  | nil =>
    obtain ⟨next, after, rfl, hkind⟩ := hrest
    have hand : keyword alphabet "AND" next = false := by
      obtain hkind | hkind | hor := hkind
      · exact keyword_of_kind (by rw [hkind]; exact nofun)
      · exact keyword_of_kind (by rw [hkind]; exact nofun)
      · exact keyword_eq_false hor (by decide)
    have hadjacent : (startsOperand next && !keyword alphabet "OR" next) = false := by
      obtain hkind | hkind | hor := hkind
      · simp [startsOperand, isText, hkind]
      · simp [startsOperand, isText, hkind]
      · rw [hor, Bool.not_true, Bool.and_false]
    rw [List.nil_append, andLoop, hand, if_neg Bool.false_ne_true, hadjacent,
      if_neg Bool.false_ne_true]
  | @and _ _ right _ _ next operator operand tail hand hright htail =>
    have hpos := hright.length_pos
    rw [List.length_cons, List.length_append] at hfuel
    rw [List.cons_append, andLoop, if_pos hand, List.append_assoc,
      hcomplete.unary depth operand (tail ++ rest) right next hright (htail.endsTerm hrest)
        (by rw [List.length_append]; omega)]
    exact hcomplete.andTail depth _ next tail rest expression htail hrest (by omega)
  | @adjacent _ _ right _ _ next operand tail hright _ htail =>
    have hpos := hright.length_pos
    have hoperand := hcomplete.unary depth operand (tail ++ rest) right next hright
      (htail.endsTerm hrest)
    obtain ⟨token, after, rfl, hstarts⟩ := hright.starts
    rw [List.length_append] at hfuel
    rw [List.append_assoc]
    show andLoop alphabet (fuel + 1) depth left (token :: (after ++ (tail ++ rest))) = _
    rw [andLoop, hstarts.isAnd, if_neg Bool.false_ne_true, hstarts.starts, hstarts.isOr,
      Bool.not_false, Bool.and_true, if_pos rfl]
    rw [List.cons_append] at hoperand
    rw [hoperand (by rw [List.length_append]; omega)]
    exact hcomplete.andTail depth _ next tail rest expression htail hrest (by omega)

theorem parseUnary_eq_ok : UnaryComplete alphabet (fuel + 1) := by
  intro depth tokens rest expression unclosed h hrest hfuel
  cases h with
  | @not _ token tail operand _ hnot hoperand =>
    rw [List.length_cons] at hfuel
    rw [List.cons_append, parseUnary, if_pos hnot,
      hcomplete.unary depth tail rest operand unclosed hoperand hrest (by omega)]
    rfl
  | primary hprimary =>
    obtain ⟨token, after, rfl, -, hnot⟩ := hprimary.starts
    rw [List.length_cons] at hfuel
    rw [List.cons_append, parseUnary, hnot, if_neg Bool.false_ne_true]
    exact hcomplete.primary depth token after rest expression unclosed hprimary hrest (by omega)

theorem parsePrimary_eq_ok : PrimaryComplete alphabet (fuel + 1) := by
  intro depth token after rest expression unclosed h hrest hfuel
  generalize htokens : token :: after = tokens at h
  cases h with
  | @group _ opening closing inner _ hdepth hopening hinner hclosing =>
    obtain ⟨rfl, rfl⟩ := List.cons.inj htokens
    rw [List.length_append, List.length_singleton] at hfuel
    have hor := hcomplete.or (depth + 1) inner (closing :: rest) expression hinner
      ⟨closing, rest, rfl, .inr hclosing⟩ (by rw [List.length_cons]; omega)
    have hafter : inner ++ [closing] ++ rest = inner ++ closing :: rest := by simp
    rw [parsePrimary, if_neg (not_lt.mpr hdepth), if_pos hopening, hafter, hor]
    show (if closing.kind ≠ .rparen then _ else _) = _
    rw [if_neg (not_not_intro hclosing)]
  | term hdepth hterm =>
    obtain ⟨other, tail, hother, htext, -, hparsed⟩ := parseTerm_eq_ok hterm hrest
    obtain ⟨rfl, rfl⟩ := List.cons.inj (htokens.trans hother)
    have hopening : token.kind ≠ .lparen := by
      intro hkind
      simp [isText, hkind] at htext
    rw [parsePrimary, if_neg (not_lt.mpr hdepth), if_neg hopening, hparsed]

end

theorem complete (alphabet : Alphabet) (fuel : Nat) : Complete alphabet fuel := by
  induction fuel with
  | zero =>
    exact ⟨fun _ _ _ _ _ _ hfuel ↦ absurd hfuel (by omega),
      fun _ _ _ _ _ _ _ hfuel ↦ absurd hfuel (by omega),
      fun _ _ _ _ _ _ hfuel ↦ absurd hfuel (by omega),
      fun _ _ _ _ _ _ _ _ hfuel ↦ absurd hfuel (by omega),
      fun _ _ _ _ _ _ _ hfuel ↦ absurd hfuel (by omega),
      fun _ _ _ _ _ _ _ _ hfuel ↦ absurd hfuel (by omega)⟩
  | succ fuel ih =>
    exact ⟨parseOr_eq_ok ih, orLoop_eq_ok ih, parseAnd_eq_ok ih, andLoop_eq_ok ih,
      parseUnary_eq_ok ih, parsePrimary_eq_ok ih⟩

end Complete

/-! ### Queries -/

variable {text : List Char}

theorem stream_of_lexes (h : Lexes alphabet total text tokens) :
    Stream total (tokens ++ [⟨.eof, [], total⟩]) := by
  have hall := token_of_lexes h
  clear h
  induction tokens with
  | nil => exact .last rfl le_rfl
  | cons token tokens ih =>
    obtain ⟨⟨hoffset, hkind⟩, hrest⟩ := List.forall_mem_cons.mp hall
    exact .cons hkind hoffset (ih hrest)

/-- A stream goes to its end, and no further. -/
theorem Stream.eq_of_eof (h : Stream total (token :: after)) (hkind : token.kind = .eof) :
    after = [] := by
  cases h with
  | last => rfl
  | cons hother => exact absurd hkind hother

theorem parse_eq_ok (h : Lexes alphabet total text tokens) :
    parse alphabet (tokens ++ [⟨.eof, [], total⟩]) = .ok expression ↔
      OrPhrase alphabet 0 tokens expression := by
  set all := tokens ++ [(⟨.eof, [], total⟩ : Token)] with hall
  rw [parse]
  constructor
  · intro hparsed
    obtain ⟨⟨result, rest⟩, hor, hend⟩ := bind_eq_ok.mp hparsed
    have hfound := (sound alphabet total (fuelFor all)).or 0 all (stream_of_lexes h) le_rfl
    rw [hor] at hfound
    obtain ⟨hrest, used, hused, -, hphrase⟩ := hfound
    obtain ⟨token, after, rfl⟩ := hrest.exists_cons
    dsimp only at hend
    by_cases hkind : token.kind = .eof
    · rw [if_neg (not_not_intro hkind)] at hend
      obtain rfl := Except.ok.inj hend
      obtain rfl := hrest.eq_of_eof hkind
      have htokens := (List.append_inj' (hall.symm.trans hused) rfl).1
      rw [htokens]
      exact hphrase
    · rw [if_pos hkind] at hend
      cases hend
  · intro hphrase
    have hor := (complete alphabet (fuelFor all)).or 0 tokens [⟨.eof, [], total⟩] expression
      hphrase ⟨_, _, rfl, .inl rfl⟩ (by rw [fuelFor, hall, List.length_append])
    rw [hall, hor]
    rfl

theorem refused_of_parse (h : Lexes alphabet total text tokens) {failure : Failure}
    (hfailure : parse alphabet (tokens ++ [⟨.eof, [], total⟩]) = .error failure) :
    ∃ error, failure = .refused error ∧ error.offset ≤ total := by
  rw [parse] at hfailure
  have hfound := (sound alphabet total _).or 0 _ (stream_of_lexes h) (le_refl (fuelFor _))
  cases hor : parseOr alphabet (fuelFor (tokens ++ [⟨.eof, [], total⟩])) 0
      (tokens ++ [⟨.eof, [], total⟩]) with
  | error other =>
    rw [hor] at hfound hfailure
    obtain rfl := Except.error.inj hfailure
    exact hfound
  | ok parsed =>
    rw [hor] at hfound hfailure
    obtain ⟨result, rest⟩ := parsed
    obtain ⟨hrest, -⟩ := hfound
    obtain ⟨token, after, rfl⟩ := hrest.exists_cons
    change (if token.kind ≠ .eof then _ else _) = _ at hfailure
    by_cases hkind : token.kind = .eof
    · rw [if_neg (not_not_intro hkind)] at hfailure
      cases hfailure
    · rw [if_pos hkind] at hfailure
      exact ⟨_, (Except.error.inj hfailure).symm, hrest.offset⟩

/-- The parser accepts the queries of the grammar with the expression that the grammar gives them,
and refuses every other query at a place in it. -/
theorem parse_query_exact (alphabet : Alphabet) (source : List Char) :
    (parseQuery alphabet source = .ok none ↔ source.all alphabet.isSpace = true) ∧
      (∀ expression, parseQuery alphabet source = .ok (some expression) ↔
        source.all alphabet.isSpace = false ∧ source.length ≤ maxQueryLength ∧
          ∃ tokens, Lexes alphabet source.length source tokens ∧ tokens.length ≤ maxTokens ∧
            OrPhrase alphabet 0 tokens expression) ∧
      ∀ failure, parseQuery alphabet source = .error failure →
        ∃ error, failure = .refused error ∧ error.offset ≤ source.length := by
  rw [parseQuery]
  by_cases hblank : source.all alphabet.isSpace = true
  · rw [if_pos hblank]
    refine ⟨iff_of_true rfl hblank, fun expression ↦ iff_of_false nofun ?_, nofun⟩
    rintro ⟨hother, -⟩
    rw [hblank] at hother
    cases hother
  rw [if_neg hblank]
  have hclear : source.all alphabet.isSpace = false := Bool.eq_false_iff.mpr hblank
  cases htokenize : tokenize alphabet source with
  | error error =>
    refine ⟨iff_of_false nofun hblank, fun expression ↦ iff_of_false nofun ?_, fun failure h ↦ ?_⟩
    · rintro ⟨-, hlength, tokens, hlexes, hcount, -⟩
      have hok := tokenize_eq_ok.mpr ⟨hlength, tokens, hlexes, hcount, rfl⟩
      rw [htokenize] at hok
      cases hok
    · exact ⟨error, (Except.error.inj h).symm, offset_of_tokenize htokenize⟩
  | ok result =>
    obtain ⟨hlength, tokens, hlexes, hcount, rfl⟩ := tokenize_eq_ok.mp htokenize
    -- a text has no other tokens than those that are found
    have hunique : ∀ other, Lexes alphabet source.length source other → other.length ≤ maxTokens →
        other = tokens := by
      intro other hother hothers
      have hok := tokenize_eq_ok.mpr ⟨hlength, other, hother, hothers, rfl⟩
      rw [htokenize] at hok
      exact (List.append_inj_left' (Except.ok.inj hok) rfl).symm
    dsimp only
    refine ⟨iff_of_false ?_ hblank, fun expression ↦ ?_, fun failure h ↦ ?_⟩
    · cases parse alphabet (tokens ++ [⟨.eof, [], source.length⟩]) with
      | error failure => exact nofun
      | ok expression => exact nofun
    · have hparse : parse alphabet (tokens ++ [⟨.eof, [], source.length⟩]) = .ok expression ↔
          OrPhrase alphabet 0 tokens expression := parse_eq_ok hlexes
      constructor
      · intro h
        cases hresult : parse alphabet (tokens ++ [⟨.eof, [], source.length⟩]) with
        | error failure =>
          rw [hresult] at h
          cases h
        | ok found =>
          rw [hresult] at h
          obtain rfl := Option.some.inj (Except.ok.inj h)
          exact ⟨hclear, hlength, tokens, hlexes, hcount, hparse.mp hresult⟩
      · rintro ⟨-, -, other, hother, hothers, hphrase⟩
        obtain rfl := hunique other hother hothers
        rw [hparse.mpr hphrase]
        rfl
    · cases hresult : parse alphabet (tokens ++ [⟨.eof, [], source.length⟩]) with
      | error other =>
        rw [hresult] at h
        obtain rfl := Except.error.inj h
        exact refused_of_parse hlexes hresult
      | ok found =>
        rw [hresult] at h
        cases h

/-! ### A query with too many words -/

/-- Blanks separate words, and letters have no case. -/
def plainAlphabet : Alphabet where
  isSpace := (· == ' ')
  upper := id
  casefold := id

/-- The same short word so many times. -/
def crowd : Nat → List Char
  | 0 => []
  | count + 1 => 'x' :: ' ' :: crowd count

def crowdTokens (total : Nat) : Nat → List Token
  | 0 => []
  | count + 1 => ⟨.word, ['x'], total - ((crowd count).length + 2)⟩ :: crowdTokens total count

theorem crowd_length (count : Nat) : (crowd count).length = 2 * count := by
  induction count with
  | zero => rfl
  | succ count ih =>
    rw [crowd, List.length_cons, List.length_cons, ih]
    omega

theorem lexes_crowd (total count : Nat) :
    Lexes plainAlphabet total (crowd count) (crowdTokens total count) := by
  induction count with
  | zero => exact .nil
  | succ count ih =>
    have hletters : ∀ letter ∈ ['x'], wordChar plainAlphabet letter = true := by
      intro letter hletter
      obtain rfl := List.mem_singleton.mp hletter
      rfl
    have hblank : ∀ next ∈ (' ' :: crowd count).head?, wordChar plainAlphabet next = false := by
      intro next hnext
      obtain rfl : ' ' = next := Option.some.inj hnext
      decide
    have hword := Lexes.word hletters hblank (.space rfl ih)
    exact hword

theorem tokenizeFrom_crowd (total count : Nat) (before : List Token)
    (hbefore : before.length ≤ maxTokens) (hcount : maxTokens < before.length + count) :
    ∃ error, tokenizeFrom plainAlphabet total before (crowd count) = .error error := by
  induction count generalizing before with
  | zero => omega
  | succ count ih =>
    have hspace : plainAlphabet.isSpace 'x' = false := by decide
    have hblank : wordChar plainAlphabet ' ' = false := by decide
    have hnext : nextToken plainAlphabet total 'x' (' ' :: crowd count) =
        .ok (⟨.word, ['x'], total - ((crowd count).length + 2)⟩, ' ' :: crowd count) := by
      simp [nextToken, punctuation, quotes, hblank]
    by_cases hfull : maxTokens < before.length + 1
    · rw [crowd, tokenizeFrom, hspace, if_neg Bool.false_ne_true]
      split
      · exact ⟨_, rfl⟩
      · exact ⟨_, if_pos hfull⟩
    · rw [crowd, tokenizeFrom_of_nextToken hspace hnext (not_lt.mp hfull), tokenizeFrom,
        if_pos (by decide)]
      refine ih _ ?_ ?_
      · rw [List.length_append, List.length_singleton]
        omega
      · rw [List.length_append, List.length_singleton]
        omega

theorem andTail_crowd (total count : Nat) (left : Expression) :
    ∃ expression, AndTail plainAlphabet 0 left false (crowdTokens total count) expression := by
  induction count generalizing left with
  | zero => exact ⟨left, .nil⟩
  | succ count ih =>
    obtain ⟨expression, hmore⟩ := ih (.binary .and left (.text ['x']))
    have hterm : TermPhrase plainAlphabet [⟨.word, ['x'], total - ((crowd count).length + 2)⟩]
        (.text ['x']) false := .text rfl (by rfl)
    exact ⟨expression, .adjacent (.primary (.term (Nat.zero_le _) hterm)) nofun hmore⟩

theorem orPhrase_crowd (total count : Nat) :
    ∃ expression, OrPhrase plainAlphabet 0 (crowdTokens total (count + 1)) expression := by
  obtain ⟨expression, htail⟩ := andTail_crowd total count (.text ['x'])
  have hterm : TermPhrase plainAlphabet [⟨.word, ['x'], total - ((crowd count).length + 2)⟩]
      (.text ['x']) false := .text rfl (by rfl)
  have hand : AndPhrase plainAlphabet 0 (crowdTokens total (count + 1)) expression :=
    .operands (.primary (.term (Nat.zero_le _) hterm)) htail
  have hor := OrPhrase.operands hand .nil
  rw [List.append_nil] at hor
  exact ⟨expression, hor⟩

theorem crowd_not_blank (count : Nat) : (crowd (count + 1)).all plainAlphabet.isSpace = false := by
  rw [crowd, List.all_cons]
  rfl

/-- A query of 129 words is refused, although the grammar has an expression for it. -/
theorem crowded_query_refused :
    ∃ (source : List Char) (tokens : List Token) (expression : Expression),
      source.length ≤ maxQueryLength ∧ Lexes plainAlphabet source.length source tokens ∧
        OrPhrase plainAlphabet 0 tokens expression ∧
        ∃ error, parseQuery plainAlphabet source = .error (.refused error) := by
  have hlength : (crowd 129).length = 258 := crowd_length 129
  obtain ⟨expression, hphrase⟩ := orPhrase_crowd 258 128
  refine ⟨crowd 129, crowdTokens 258 129, expression, ?_, ?_, hphrase, ?_⟩
  · rw [hlength, maxQueryLength]
    omega
  · rw [hlength]
    exact lexes_crowd 258 129
  · obtain ⟨error, herror⟩ := tokenizeFrom_crowd 258 129 [] (Nat.zero_le _)
      (by rw [maxTokens, List.length_nil]; omega)
    refine ⟨error, ?_⟩
    rw [parseQuery, crowd_not_blank 128, if_neg Bool.false_ne_true, tokenize, hlength,
      if_neg (by rw [maxQueryLength]; omega), herror]

end AiStp.Catalog.QueryLanguage
