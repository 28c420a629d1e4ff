import AiStp.Catalog.QueryParser

/-!
# What the parser of catalog queries finds

On a stream of tokens that ends with the end of the query, each function of the parser goes on to a
phrase of the grammar or refuses the query at a place in it (`Outcome`); it neither reads past the
end nor runs out of fuel (`sound`).
-/

set_option autoImplicit false

namespace AiStp.Catalog.QueryLanguage

variable {alphabet : Alphabet} {total : Nat} {token : Token} {tokens after : List Token}

/-! ### Streams -/

/-- Tokens of a text with `total` characters, the last of which is its end. -/
inductive Stream (total : Nat) : List Token → Prop
  | last {token : Token} : token.kind = .eof → token.offset ≤ total → Stream total [token]
  | cons {token : Token} {tokens : List Token} : token.kind ≠ .eof → token.offset ≤ total →
      Stream total tokens → Stream total (token :: tokens)

theorem Stream.offset (h : Stream total (token :: tokens)) : token.offset ≤ total := by
  cases h with
  | last _ hoffset => exact hoffset
  | cons _ hoffset _ => exact hoffset

theorem Stream.tail (h : Stream total (token :: tokens)) (hkind : token.kind ≠ .eof) :
    Stream total tokens := by
  cases h with
  | last hlast _ => exact absurd hlast hkind
  | cons _ _ htokens => exact htokens

theorem Stream.exists_cons (h : Stream total tokens) :
    ∃ token after, tokens = token :: after := by
  cases h with
  | last => exact ⟨_, _, rfl⟩
  | cons => exact ⟨_, _, rfl⟩

theorem kind_ne_eof_of_isText (h : isText token = true) : token.kind ≠ .eof := by
  intro hkind
  simp [isText, hkind] at h

theorem kind_of_keyword {value : String} (h : keyword alphabet value token = true) :
    token.kind = .word := by
  simp only [keyword, Bool.and_eq_true, beq_iff_eq] at h
  exact h.1

theorem kind_ne_eof_of_keyword {value : String} (h : keyword alphabet value token = true) :
    token.kind ≠ .eof := by
  rw [kind_of_keyword h]
  exact nofun

theorem keyword_unique {value other : String} (h : keyword alphabet value token = true)
    (hother : keyword alphabet other token = true) : value = other := by
  simp only [keyword, Bool.and_eq_true, beq_iff_eq] at h hother
  exact h.2.symm.trans hother.2

theorem keyword_eq_false {value other : String} (h : keyword alphabet value token = true)
    (hne : value ≠ other) : keyword alphabet other token = false := by
  by_contra hother
  rw [Bool.not_eq_false] at hother
  exact hne (keyword_unique h hother)

theorem keyword_of_kind {value : String} (h : token.kind ≠ .word) :
    keyword alphabet value token = false := by
  simp [keyword, h]

theorem isKeyword_eq_false : isKeyword alphabet token = false ↔
    keyword alphabet "AND" token = false ∧ keyword alphabet "OR" token = false ∧
      keyword alphabet "NOT" token = false ∧ keyword alphabet "IN" token = false := by
  simp [isKeyword, keywords]

/-- The name of a field is no operator. -/
theorem isKeyword_of_fieldOf {field : PredicateField} (h : fieldOf alphabet token = some field) :
    isKeyword alphabet token = false := by
  rw [fieldOf] at h
  split_ifs at h with hkind
  have hname : ∀ name ∈ keywords, fields.lookup name = none := by decide
  rw [isKeyword, List.any_eq_false]
  intro name hmem hkeyword
  simp only [keyword, Bool.and_eq_true, beq_iff_eq] at hkeyword
  rw [hkeyword.2, hname name hmem] at h
  cases h

/-! ### Outcomes -/

/-- The parser refuses the query at a place in it, or finds something and stays in the stream. -/
def Outcome {Result : Type} (total : Nat) (tokens : List Token)
    (Found : Result → List Token → List Token → Prop)
    (outcome : Except Failure (Result × List Token)) : Prop :=
  match outcome with
  | .error failure => ∃ error, failure = .refused error ∧ error.offset ≤ total
  | .ok (result, rest) => Stream total rest ∧ ∃ used, tokens = used ++ rest ∧
      Found result used rest

section Outcomes

variable {Result Next : Type} {Found : Result → List Token → List Token → Prop}
  {Then : Next → List Token → List Token → Prop}

theorem outcome_refuse {message : String} {offset : Nat} {expected : Option String}
    (h : offset ≤ total) :
    Outcome total tokens Found (refuse message offset expected) :=
  ⟨_, rfl, h⟩

theorem Outcome.bind {first : Except Failure (Result × List Token)}
    {next : Result × List Token → Except Failure (Next × List Token)}
    (h : Outcome total tokens Found first)
    (hnext : ∀ result used rest, tokens = used ++ rest → Stream total rest →
      Found result used rest → Outcome total tokens Then (next (result, rest))) :
    Outcome total tokens Then (first >>= next) := by
  cases first with
  | error failure => exact h
  | ok parsed =>
    obtain ⟨hstream, used, hused, hfound⟩ := h
    exact hnext parsed.1 used parsed.2 hused hstream hfound

theorem Outcome.map {first : Except Failure (Result × List Token)} (write : Result → Next)
    (h : Outcome total tokens Found first)
    (hwrite : ∀ result used rest, Found result used rest → Then (write result) used rest) :
    Outcome total tokens Then (first.map fun parsed ↦ (write parsed.1, parsed.2)) := by
  cases first with
  | error failure => exact h
  | ok parsed =>
    obtain ⟨hstream, used, hused, hfound⟩ := h
    exact ⟨hstream, used, hused, hwrite _ _ _ hfound⟩

/-- The outcome after tokens that were passed before. -/
theorem Outcome.prepend {outcome : Except Failure (Result × List Token)} (passed : List Token)
    {Before : Result → List Token → List Token → Prop}
    (h : Outcome total after Found outcome) (htokens : tokens = passed ++ after)
    (hfound : ∀ result used rest, Found result used rest → Before result (passed ++ used) rest) :
    Outcome total tokens Before outcome := by
  cases outcome with
  | error failure => exact h
  | ok parsed =>
    obtain ⟨hstream, used, hused, hresult⟩ := h
    exact ⟨hstream, passed ++ used, by rw [htokens, hused, List.append_assoc],
      hfound _ _ _ hresult⟩

end Outcomes

/-! ### Values -/

theorem readValue_eq_ok {value : List Char} (h : IsValue alphabet token value) :
    readValue alphabet token after = .ok value := by
  unfold readValue
  rw [h.text, h.stripped, Bool.not_true, if_neg Bool.false_ne_true, if_neg h.nonempty]

theorem isValue_of_readValue {value : List Char} (h : Stream total (token :: after))
    (hvalue : readValue alphabet token after = .ok value) :
    Stream total after ∧ IsValue alphabet token value := by
  unfold readValue at hvalue
  by_cases htext : isText token = true
  · rw [htext, Bool.not_true, if_neg Bool.false_ne_true] at hvalue
    by_cases hempty : strip alphabet token.value = []
    · rw [if_pos hempty] at hvalue
      cases after with
      | nil => cases hvalue
      | cons next rest => cases hvalue
    · rw [if_neg hempty] at hvalue
      obtain rfl := Except.ok.inj hvalue
      exact ⟨h.tail (kind_ne_eof_of_isText htext), htext, rfl, hempty⟩
  · rw [Bool.not_eq_true] at htext
    rw [htext, Bool.not_false, if_pos rfl] at hvalue
    cases hvalue

theorem refused_of_readValue {failure : Failure} (h : Stream total (token :: after))
    (hvalue : readValue alphabet token after = .error failure) :
    ∃ error, failure = .refused error ∧ error.offset ≤ total := by
  unfold readValue at hvalue
  by_cases htext : isText token = true
  · rw [htext, Bool.not_true, if_neg Bool.false_ne_true] at hvalue
    by_cases hempty : strip alphabet token.value = []
    · rw [if_pos hempty] at hvalue
      have hafter := h.tail (kind_ne_eof_of_isText htext)
      obtain ⟨next, rest, rfl⟩ := hafter.exists_cons
      exact ⟨_, (Except.error.inj hvalue).symm, hafter.offset⟩
    · rw [if_neg hempty] at hvalue
      cases hvalue
  · rw [Bool.not_eq_true] at htext
    rw [htext, Bool.not_false, if_pos rfl] at hvalue
    exact ⟨_, (Except.error.inj hvalue).symm, h.offset⟩

theorem outcome_parseValue (h : Stream total tokens) :
    Outcome total tokens (fun value used _ ↦ ∃ token, used = [token] ∧ IsValue alphabet token value)
      (parseValue alphabet tokens) := by
  obtain ⟨token, after, rfl⟩ := h.exists_cons
  rw [parseValue]
  cases hvalue : readValue alphabet token after with
  | error failure => exact refused_of_readValue h hvalue
  | ok value =>
    obtain ⟨hafter, hfound⟩ := isValue_of_readValue h hvalue
    exact ⟨hafter, [token], rfl, token, rfl, hfound⟩

theorem kind_ne_eof_of_comma {comma : Token} (h : comma.kind = .comma) : comma.kind ≠ .eof := by
  rw [h]
  exact nofun

theorem outcome_valuesLoop (collected : List (List Char)) (h : Stream total tokens)
    (hcount : collected.length ≤ maxInValues) :
    Outcome total tokens (fun values used _ ↦ ∃ more, ValueTail alphabet used more ∧
      values = collected ++ more ∧ values.length ≤ maxInValues)
      (valuesLoop alphabet collected tokens) := by
  fun_induction valuesLoop alphabet collected tokens with
  | case1 => cases h
  | case2 collected comma hcomma =>
    have htail := h.tail (kind_ne_eof_of_comma hcomma)
    cases htail
  | case3 collected comma hcomma =>
    exact ⟨h, [], rfl, [], .nil, (List.append_nil _).symm, hcount⟩
  | case4 collected comma token after hcomma failure hvalue =>
    exact refused_of_readValue (h.tail (kind_ne_eof_of_comma hcomma)) hvalue
  | case5 collected comma token hcomma value hlarge hvalue =>
    obtain ⟨hafter, -⟩ := isValue_of_readValue (h.tail (kind_ne_eof_of_comma hcomma)) hvalue
    cases hafter
  | case6 collected comma token hcomma value hlarge next rest hvalue =>
    obtain ⟨hafter, -⟩ := isValue_of_readValue (h.tail (kind_ne_eof_of_comma hcomma)) hvalue
    exact ⟨_, rfl, hafter.offset⟩
  | case7 collected comma token after hcomma value hvalue hlarge ih =>
    obtain ⟨hafter, hother⟩ := isValue_of_readValue (h.tail (kind_ne_eof_of_comma hcomma)) hvalue
    have hlength : (collected ++ [value]).length ≤ maxInValues := by
      rw [List.length_append, List.length_singleton]
      exact not_lt.mp hlarge
    refine Outcome.prepend [comma, token] (ih hafter hlength) rfl ?_
    rintro values used rest ⟨more, hmore, rfl, hvalues⟩
    exact ⟨value :: more, .cons hcomma hother hmore, by simp, hvalues⟩
  | case8 collected comma token after hcomma =>
    exact ⟨h, [], rfl, [], .nil, (List.append_nil _).symm, hcount⟩

theorem valuesLoop_eq_ok {collected more : List (List Char)} {rest : List Token} {next : Token}
    (h : ValueTail alphabet tokens more) (hnext : next.kind ≠ .comma)
    (hcount : (collected ++ more).length ≤ maxInValues) :
    valuesLoop alphabet collected (tokens ++ next :: rest) =
      .ok (collected ++ more, next :: rest) := by
  induction h generalizing collected with
  | nil =>
    cases rest with
    | nil => simp [valuesLoop, hnext]
    | cons other rest => simp [valuesLoop, hnext]
  | @cons comma token tokens value values hcomma hvalue _ ih =>
    have hlength : ¬ maxInValues < collected.length + 1 := by
      rw [List.length_append, List.length_cons] at hcount
      omega
    show valuesLoop alphabet collected (comma :: token :: (tokens ++ next :: rest)) = _
    unfold valuesLoop
    rw [if_pos hcomma, readValue_eq_ok hvalue]
    dsimp only
    rw [if_neg hlength, ih (by simpa using hcount)]
    simp

theorem outcome_parseList (h : Stream total tokens) :
    Outcome total tokens (fun values used _ ↦ ListPhrase alphabet used values)
      (parseList alphabet tokens) := by
  obtain ⟨opening, after, rfl⟩ := h.exists_cons
  rw [parseList]
  by_cases hopening : opening.kind = .lparen
  · rw [if_neg (not_not_intro hopening)]
    have hafter := h.tail (by rw [hopening]; decide)
    have hvalue : Outcome total (opening :: after) (fun value used _ ↦ ∃ token,
        used = [opening, token] ∧ IsValue alphabet token value) (parseValue alphabet after) := by
      refine Outcome.prepend [opening] (outcome_parseValue hafter) rfl ?_
      rintro value used rest ⟨token, rfl, hvalue⟩
      exact ⟨token, rfl, hvalue⟩
    refine hvalue.bind ?_
    rintro value used rest hused hrest ⟨token, rfl, hvalue⟩
    have hone : [value].length ≤ maxInValues := by
      rw [List.length_singleton, maxInValues]
      omega
    have hmore : Outcome total (opening :: after) (fun values used _ ↦ ∃ more tail,
        used = opening :: token :: tail ∧ ValueTail alphabet tail more ∧ values = value :: more ∧
          values.length ≤ maxInValues) (valuesLoop alphabet [value] rest) := by
      refine Outcome.prepend [opening, token] (outcome_valuesLoop [value] hrest hone) hused ?_
      rintro values used rest ⟨more, hmore, hvalues, hcount⟩
      exact ⟨more, used, rfl, hmore, hvalues, hcount⟩
    refine hmore.bind ?_
    rintro values used rest hused hrest ⟨more, tail, rfl, htail, rfl, hcount⟩
    obtain ⟨closing, last, rfl⟩ := hrest.exists_cons
    dsimp only
    by_cases hclosing : closing.kind = .rparen
    · rw [if_neg (not_not_intro hclosing)]
      refine ⟨hrest.tail (by rw [hclosing]; decide), opening :: token :: (tail ++ [closing]),
        ?_, .list hopening hvalue htail hclosing hcount⟩
      rw [hused]
      simp
    · rw [if_pos hclosing]
      exact outcome_refuse hrest.offset
  · rw [if_pos hopening]
    exact outcome_refuse h.offset

theorem parseList_eq_ok {values : List (List Char)} (h : ListPhrase alphabet tokens values)
    (rest : List Token) : parseList alphabet (tokens ++ rest) = .ok (values, rest) := by
  cases h with
  | @list opening token closing tail value more hopening hvalue hmore hclosing hcount =>
    have hloop : valuesLoop alphabet [value] (tail ++ closing :: rest) =
        .ok ([value] ++ more, closing :: rest) :=
      valuesLoop_eq_ok hmore (by rw [hclosing]; exact nofun) hcount
    have htokens : opening :: token :: (tail ++ [closing]) ++ rest =
        opening :: token :: (tail ++ closing :: rest) := by simp
    rw [htokens, parseList, if_neg (not_not_intro hopening), parseValue, readValue_eq_ok hvalue]
    show (valuesLoop alphabet [value] (tail ++ closing :: rest) >>= _) = _
    rw [hloop]
    show (if closing.kind ≠ .rparen then _ else _) = _
    rw [if_neg (not_not_intro hclosing)]
    rfl

/-! ### Predicates and terms -/

theorem outcome_parseOperator (h : Stream total (token :: after))
    (hgoes : goesOn alphabet token = true) :
    Outcome total (token :: after) (fun parsed used _ ↦
      OperatorPhrase alphabet used parsed.1 parsed.2)
      (parseOperator alphabet (token :: after)) := by
  unfold parseOperator
  dsimp only
  by_cases hcolon : token.kind = .colon
  · rw [if_pos hcolon]
    have hafter := h.tail (by rw [hcolon]; exact nofun)
    have hvalue : Outcome total (token :: after) (fun value used _ ↦
        OperatorPhrase alphabet used .colon [value]) (parseValue alphabet after) := by
      refine Outcome.prepend [token] (outcome_parseValue hafter) rfl ?_
      rintro value used rest ⟨other, rfl, hvalue⟩
      exact .colon hcolon hvalue
    exact Outcome.map (fun value ↦ (PredicateOperator.colon, [value])) hvalue
      fun _ _ _ hfound ↦ hfound
  · rw [if_neg hcolon]
    by_cases hnot : keyword alphabet "NOT" token = true
    · rw [if_pos hnot]
      have hafter := h.tail (kind_ne_eof_of_keyword hnot)
      obtain ⟨next, rest, rfl⟩ := hafter.exists_cons
      dsimp only
      by_cases hin : keyword alphabet "IN" next = true
      · rw [hin, Bool.not_true, if_neg Bool.false_ne_true]
        have hlist : Outcome total (token :: next :: rest) (fun values used _ ↦
            OperatorPhrase alphabet used .notIn values) (parseList alphabet rest) :=
          Outcome.prepend [token, next]
            (outcome_parseList (hafter.tail (kind_ne_eof_of_keyword hin))) rfl
            fun _ _ _ hfound ↦ .notIn hnot hin hfound
        exact Outcome.map (fun values ↦ (PredicateOperator.notIn, values)) hlist
          fun _ _ _ hfound ↦ hfound
      · rw [Bool.not_eq_true] at hin
        rw [hin, Bool.not_false, if_pos rfl]
        exact outcome_refuse hafter.offset
    · rw [if_neg hnot]
      have hin : keyword alphabet "IN" token = true := by
        simpa [goesOn, hcolon, hnot] using hgoes
      have hlist : Outcome total (token :: after) (fun values used _ ↦
          OperatorPhrase alphabet used .isIn values) (parseList alphabet after) :=
        Outcome.prepend [token] (outcome_parseList (h.tail (kind_ne_eof_of_keyword hin))) rfl
          fun _ _ _ hfound ↦ .isIn hin hfound
      exact Outcome.map (fun values ↦ (PredicateOperator.isIn, values)) hlist
        fun _ _ _ hfound ↦ hfound

theorem parseOperator_eq_ok {operator : PredicateOperator} {values : List (List Char)}
    (h : OperatorPhrase alphabet tokens operator values) (rest : List Token) :
    (∃ token after, tokens = token :: after ∧ goesOn alphabet token = true) ∧
      parseOperator alphabet (tokens ++ rest) = .ok ((operator, values), rest) := by
  cases h with
  | @colon operator token value hcolon hvalue =>
    refine ⟨⟨operator, [token], rfl, by simp [goesOn, hcolon]⟩, ?_⟩
    show parseOperator alphabet (operator :: token :: rest) = _
    unfold parseOperator
    dsimp only
    rw [if_pos hcolon, parseValue, readValue_eq_ok hvalue]
    rfl
  | @isIn operator tail values hin hlist =>
    refine ⟨⟨operator, tail, rfl, by simp [goesOn, hin]⟩, ?_⟩
    have hcolon : operator.kind ≠ .colon := by
      rw [kind_of_keyword hin]
      decide
    show parseOperator alphabet (operator :: (tail ++ rest)) = _
    unfold parseOperator
    dsimp only
    rw [if_neg hcolon, keyword_eq_false hin (by decide), if_neg Bool.false_ne_true,
      parseList_eq_ok hlist]
    rfl
  | @notIn first operator tail values hnot hin hlist =>
    refine ⟨⟨first, operator :: tail, rfl, by simp [goesOn, hnot]⟩, ?_⟩
    have hcolon : first.kind ≠ .colon := by
      rw [kind_of_keyword hnot]
      decide
    show parseOperator alphabet (first :: operator :: (tail ++ rest)) = _
    unfold parseOperator
    dsimp only
    rw [if_neg hcolon, if_pos hnot]
    rw [hin, Bool.not_true, if_neg Bool.false_ne_true, parseList_eq_ok hlist]
    rfl

/-- A term that is found is followed by no NOT when it is open. -/
theorem outcome_parseTerm (h : Stream total (token :: after)) :
    Outcome total (token :: after) (fun expression used rest ↦ used ≠ [] ∧ ∃ unclosed,
      TermPhrase alphabet used expression unclosed ∧ (unclosed = true → NoNot alphabet rest))
      (parseTerm alphabet token after) := by
  rw [parseTerm]
  by_cases htext : isText token = true
  · have hafter := h.tail (kind_ne_eof_of_isText htext)
    rw [htext, Bool.not_true, if_neg Bool.false_ne_true]
    cases hfield : fieldOf alphabet token with
    | none =>
      dsimp only
      by_cases hkeyword : isKeyword alphabet token = true
      · rw [if_pos hkeyword]
        exact outcome_refuse h.offset
      · rw [if_neg hkeyword]
        rw [Bool.not_eq_true] at hkeyword
        refine ⟨hafter, [token], rfl, List.cons_ne_nil _ _, _, .text htext hkeyword, ?_⟩
        rw [hfield]
        exact nofun
    | some field =>
      obtain ⟨next, rest, rfl⟩ := hafter.exists_cons
      dsimp only
      by_cases hgoes : goesOn alphabet next = true
      · rw [if_pos hgoes, parsePredicate]
        have hoperator : Outcome total (token :: next :: rest) (fun parsed used _ ↦ ∃ tail,
            used = token :: tail ∧ OperatorPhrase alphabet tail parsed.1 parsed.2)
            (parseOperator alphabet (next :: rest)) :=
          Outcome.prepend [token] (outcome_parseOperator hafter hgoes) rfl
            fun _ used _ hfound ↦ ⟨used, rfl, hfound⟩
        refine hoperator.bind ?_
        rintro parsed used rest' hused hrest ⟨tail, rfl, hparsed⟩
        dsimp only
        by_cases htakes : takes alphabet field parsed.2 = true
        · rw [htakes, Bool.not_true, if_neg Bool.false_ne_true]
          exact ⟨hrest, _, hused, List.cons_ne_nil _ _, _, .predicate hfield hparsed htakes, nofun⟩
        · rw [Bool.not_eq_true] at htakes
          rw [htakes, Bool.not_false, if_pos rfl]
          exact outcome_refuse h.offset
      · rw [if_neg hgoes]
        rw [goesOn, Bool.or_eq_true, not_or, Bool.not_eq_true, Bool.not_eq_true] at hgoes
        refine ⟨hafter, [token], rfl, List.cons_ne_nil _ _, _,
          .text htext (isKeyword_of_fieldOf hfield), fun _ other hother ↦ ?_⟩
        obtain rfl : next = other := Option.some.inj hother
        exact hgoes.2
  · rw [Bool.not_eq_true] at htext
    rw [htext, Bool.not_false, if_pos rfl]
    exact outcome_refuse h.offset

/-- What follows a term does not make it a predicate. -/
def EndsTerm (alphabet : Alphabet) (unclosed : Bool) (rest : List Token) : Prop :=
  ∃ next after, rest = next :: after ∧ next.kind ≠ .colon ∧ keyword alphabet "IN" next = false ∧
    (unclosed = true → keyword alphabet "NOT" next = false)

theorem parseTerm_eq_ok {expression : Expression} {unclosed : Bool} {rest : List Token}
    (h : TermPhrase alphabet tokens expression unclosed) (hrest : EndsTerm alphabet unclosed rest) :
    ∃ token after, tokens = token :: after ∧ isText token = true ∧
      isKeyword alphabet token = false ∧
      parseTerm alphabet token (after ++ rest) = .ok (expression, rest) := by
  cases h with
  | @predicate token tail field operator values hfield hoperator htakes =>
    have htext : isText token = true := by
      rw [fieldOf] at hfield
      split_ifs at hfield with hkind
      simp [isText, hkind]
    obtain ⟨⟨next, after, htail, hgoes⟩, hparsed⟩ := parseOperator_eq_ok hoperator rest
    refine ⟨token, tail, rfl, htext, isKeyword_of_fieldOf hfield, ?_⟩
    rw [parseTerm, htext, Bool.not_true, if_neg Bool.false_ne_true, hfield]
    subst htail
    show (if goesOn alphabet next = true then _ else _) = _
    rw [if_pos hgoes, parsePredicate]
    show (parseOperator alphabet (next :: after ++ rest) >>= _) = _
    rw [hparsed]
    show (if (!takes alphabet field values) = true then _ else _) = _
    rw [htakes, Bool.not_true, if_neg Bool.false_ne_true]
  | @text token htext hkeyword =>
    obtain ⟨next, after, rfl, hcolon, hin, hnot⟩ := hrest
    refine ⟨token, [], rfl, htext, hkeyword, ?_⟩
    rw [parseTerm, htext, Bool.not_true, if_neg Bool.false_ne_true]
    cases hfield : fieldOf alphabet token with
    | none =>
      dsimp only
      rw [hkeyword, if_neg Bool.false_ne_true]
      rfl
    | some field =>
      rw [hfield] at hnot
      have hgoes : goesOn alphabet next = false := by
        simp [goesOn, hcolon, hin, hnot rfl]
      show (if goesOn alphabet next = true then _ else _) = _
      rw [hgoes, if_neg Bool.false_ne_true]
      rfl

/-! ### What the parser finds -/

/-! With enough fuel each function finds its phrase or refuses the query. -/

section Found

variable (alphabet : Alphabet) (total fuel : Nat)

def OrSound : Prop :=
  ∀ depth tokens, Stream total tokens → 8 * tokens.length + 6 ≤ fuel →
    Outcome total tokens (fun expression used _ ↦ used ≠ [] ∧
      OrPhrase alphabet depth used expression) (parseOr alphabet fuel depth tokens)

def OrTailSound : Prop :=
  ∀ depth left tokens, Stream total tokens → 8 * tokens.length + 5 ≤ fuel →
    Outcome total tokens (fun expression used _ ↦ OrTail alphabet depth left used expression)
      (orLoop alphabet fuel depth left tokens)

def AndSound : Prop :=
  ∀ depth tokens, Stream total tokens → 8 * tokens.length + 4 ≤ fuel →
    Outcome total tokens (fun expression used _ ↦ used ≠ [] ∧
      AndPhrase alphabet depth used expression) (parseAnd alphabet fuel depth tokens)

def AndTailSound : Prop :=
  ∀ depth left unclosed tokens, (unclosed = true → NoNot alphabet tokens) →
    Stream total tokens → 8 * tokens.length + 3 ≤ fuel →
    Outcome total tokens (fun expression used _ ↦
      AndTail alphabet depth left unclosed used expression)
      (andLoop alphabet fuel depth left tokens)

def UnarySound : Prop :=
  ∀ depth tokens, Stream total tokens → 8 * tokens.length + 2 ≤ fuel →
    Outcome total tokens (fun expression used rest ↦ used ≠ [] ∧ ∃ unclosed,
      UnaryPhrase alphabet depth used expression unclosed ∧
        (unclosed = true → NoNot alphabet rest)) (parseUnary alphabet fuel depth tokens)

def PrimarySound : Prop :=
  ∀ depth token after, Stream total (token :: after) → 8 * (after.length + 1) + 1 ≤ fuel →
    Outcome total (token :: after) (fun expression used rest ↦ used ≠ [] ∧ ∃ unclosed,
      PrimaryPhrase alphabet depth used expression unclosed ∧
        (unclosed = true → NoNot alphabet rest)) (parsePrimary alphabet fuel depth token after)

structure Sound : Prop where
  or : OrSound alphabet total fuel
  orTail : OrTailSound alphabet total fuel
  and : AndSound alphabet total fuel
  andTail : AndTailSound alphabet total fuel
  unary : UnarySound alphabet total fuel
  primary : PrimarySound alphabet total fuel

end Found

section Sound

variable {fuel : Nat}

theorem length_lt_of_used {used rest : List Token} (htokens : tokens = used ++ rest)
    (hused : used ≠ []) : rest.length < tokens.length := by
  have hlength := List.length_pos_of_ne_nil hused
  rw [htokens, List.length_append]
  omega

section

variable (hsound : Sound alphabet total fuel)
include hsound

theorem outcome_parseOr : OrSound alphabet total (fuel + 1) := by
  intro depth tokens h hfuel
  rw [parseOr]
  refine (hsound.and depth tokens h (by omega)).bind ?_
  rintro left used rest hused hrest ⟨hne, hleft⟩
  have hlength := length_lt_of_used hused hne
  refine (hsound.orTail depth left rest hrest (by omega)).prepend used hused ?_
  intro result more rest hmore
  exact ⟨List.append_ne_nil_of_left_ne_nil hne more, .operands hleft hmore⟩

theorem outcome_orLoop : OrTailSound alphabet total (fuel + 1) := by
  intro depth left tokens h hfuel
  obtain ⟨token, after, rfl⟩ := h.exists_cons
  rw [List.length_cons] at hfuel
  rw [orLoop]
  by_cases hor : keyword alphabet "OR" token = true
  · rw [if_pos hor]
    have hafter := h.tail (kind_ne_eof_of_keyword hor)
    have hand : Outcome total (token :: after) (fun expression used _ ↦ ∃ operand,
        used = token :: operand ∧ AndPhrase alphabet depth operand expression)
        (parseAnd alphabet fuel depth after) :=
      (hsound.and depth after hafter (by omega)).prepend [token] rfl
        fun _ used _ hfound ↦ ⟨used, rfl, hfound.2⟩
    refine hand.bind ?_
    rintro right used rest hused hrest ⟨operand, rfl, hright⟩
    have hlength := length_lt_of_used hused (List.cons_ne_nil _ _)
    rw [List.length_cons] at hlength
    refine (hsound.orTail depth _ rest hrest (by omega)).prepend (token :: operand) hused ?_
    intro result more rest hmore
    exact .or hor hright hmore
  · rw [if_neg hor]
    exact ⟨h, [], rfl, .nil⟩

theorem outcome_parseAnd : AndSound alphabet total (fuel + 1) := by
  intro depth tokens h hfuel
  rw [parseAnd]
  refine (hsound.unary depth tokens h (by omega)).bind ?_
  rintro left used rest hused hrest ⟨hne, unclosed, hleft, hnot⟩
  have hlength := length_lt_of_used hused hne
  refine (hsound.andTail depth left unclosed rest hnot hrest (by omega)).prepend used hused ?_
  intro result more rest hmore
  exact ⟨List.append_ne_nil_of_left_ne_nil hne more, .operands hleft hmore⟩

end

theorem NoNot.of_append {used rest : List Token} (h : NoNot alphabet (used ++ rest))
    (hused : used ≠ []) : NoNot alphabet used := by
  obtain ⟨token, after, rfl⟩ := List.exists_cons_of_ne_nil hused
  exact h

section

variable (hsound : Sound alphabet total fuel)
include hsound

theorem outcome_andLoop : AndTailSound alphabet total (fuel + 1) := by
  intro depth left unclosed tokens hnot h hfuel
  obtain ⟨token, after, rfl⟩ := h.exists_cons
  rw [List.length_cons] at hfuel
  rw [andLoop]
  by_cases hand : keyword alphabet "AND" token = true
  · rw [if_pos hand]
    have hafter := h.tail (kind_ne_eof_of_keyword hand)
    have hunary : Outcome total (token :: after) (fun expression used rest ↦ ∃ operand,
        used = token :: operand ∧ ∃ next, UnaryPhrase alphabet depth operand expression next ∧
          (next = true → NoNot alphabet rest)) (parseUnary alphabet fuel depth after) :=
      (hsound.unary depth after hafter (by omega)).prepend [token] rfl
        fun _ used _ hfound ↦ ⟨used, rfl, hfound.2⟩
    refine hunary.bind ?_
    rintro right used rest hused hrest ⟨operand, rfl, next, hright, hnext⟩
    have hlength := length_lt_of_used hused (List.cons_ne_nil _ _)
    rw [List.length_cons] at hlength
    refine (hsound.andTail depth _ next rest hnext hrest (by omega)).prepend (token :: operand)
      hused ?_
    intro result more rest hmore
    exact .and hand hright hmore
  · rw [if_neg hand]
    by_cases hadjacent : (startsOperand token && !keyword alphabet "OR" token) = true
    · rw [if_pos hadjacent]
      refine (hsound.unary depth _ h (by rw [List.length_cons]; omega)).bind ?_
      rintro right used rest hused hrest ⟨hne, next, hright, hnext⟩
      have hlength := length_lt_of_used hused hne
      rw [List.length_cons] at hlength
      refine (hsound.andTail depth _ next rest hnext hrest (by omega)).prepend used hused ?_
      intro result more rest hmore
      refine .adjacent hright (fun hunclosed ↦ ?_) hmore
      rw [hused] at hnot
      exact (hnot hunclosed).of_append hne
    · rw [if_neg hadjacent]
      exact ⟨h, [], rfl, .nil⟩

theorem outcome_parseUnary : UnarySound alphabet total (fuel + 1) := by
  intro depth tokens h hfuel
  obtain ⟨token, after, rfl⟩ := h.exists_cons
  rw [List.length_cons] at hfuel
  rw [parseUnary]
  by_cases hnot : keyword alphabet "NOT" token = true
  · rw [if_pos hnot]
    have hafter := h.tail (kind_ne_eof_of_keyword hnot)
    have hunary : Outcome total (token :: after) (fun expression used rest ↦ used ≠ [] ∧
        ∃ unclosed, UnaryPhrase alphabet depth used (.unary expression) unclosed ∧
          (unclosed = true → NoNot alphabet rest)) (parseUnary alphabet fuel depth after) := by
      refine (hsound.unary depth after hafter (by omega)).prepend [token] rfl ?_
      rintro operand used rest ⟨-, unclosed, hoperand, hrest⟩
      exact ⟨List.cons_ne_nil _ _, unclosed, .not hnot hoperand, hrest⟩
    refine hunary.bind ?_
    intro operand used rest hused hrest hfound
    exact ⟨hrest, used, hused, hfound⟩
  · rw [if_neg hnot]
    have hprimary := hsound.primary depth token after h (by omega)
    refine hprimary.prepend [] rfl ?_
    rintro expression used rest ⟨hne, unclosed, hfound, hrest⟩
    exact ⟨hne, unclosed, .primary hfound, hrest⟩

theorem outcome_parsePrimary : PrimarySound alphabet total (fuel + 1) := by
  intro depth token after h hfuel
  rw [parsePrimary]
  by_cases hdepth : maxDepth < depth
  · rw [if_pos hdepth]
    exact outcome_refuse h.offset
  · rw [if_neg hdepth]
    by_cases hopening : token.kind = .lparen
    · rw [if_pos hopening]
      have hafter := h.tail (by rw [hopening]; decide)
      have hor : Outcome total (token :: after) (fun expression used _ ↦ ∃ inner,
          used = token :: inner ∧ OrPhrase alphabet (depth + 1) inner expression)
          (parseOr alphabet fuel (depth + 1) after) :=
        (hsound.or (depth + 1) after hafter (by omega)).prepend [token] rfl
          fun _ used _ hfound ↦ ⟨used, rfl, hfound.2⟩
      refine hor.bind ?_
      rintro expression used rest hused hrest ⟨inner, rfl, hinner⟩
      obtain ⟨closing, last, rfl⟩ := hrest.exists_cons
      dsimp only
      by_cases hclosing : closing.kind = .rparen
      · rw [if_neg (not_not_intro hclosing)]
        refine ⟨hrest.tail (by rw [hclosing]; decide), token :: (inner ++ [closing]), ?_,
          List.cons_ne_nil _ _, false, .group (not_lt.mp hdepth) hopening hinner hclosing,
          fun hopen ↦ absurd hopen Bool.false_ne_true⟩
        rw [hused]
        simp
      · rw [if_pos hclosing]
        exact outcome_refuse h.offset
    · rw [if_neg hopening]
      refine (outcome_parseTerm h).prepend [] rfl ?_
      rintro expression used rest ⟨hne, unclosed, hterm, hrest⟩
      exact ⟨hne, unclosed, .term (not_lt.mp hdepth) hterm, hrest⟩

end

theorem sound (alphabet : Alphabet) (total fuel : Nat) : Sound alphabet total fuel := by
  induction fuel with
  | zero =>
    exact ⟨fun _ _ _ hfuel ↦ absurd hfuel (by omega), fun _ _ _ _ hfuel ↦ absurd hfuel (by omega),
      fun _ _ _ hfuel ↦ absurd hfuel (by omega), fun _ _ _ _ _ _ hfuel ↦ absurd hfuel (by omega),
      fun _ _ _ hfuel ↦ absurd hfuel (by omega), fun _ _ _ _ hfuel ↦ absurd hfuel (by omega)⟩
  | succ fuel ih =>
    exact ⟨outcome_parseOr ih, outcome_orLoop ih, outcome_parseAnd ih, outcome_andLoop ih,
      outcome_parseUnary ih, outcome_parsePrimary ih⟩

end Sound

end AiStp.Catalog.QueryLanguage
