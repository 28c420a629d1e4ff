import AiStp.Catalog.QueryTokens

/-!
# The parser of catalog queries

A query is an expression of terms and predicates with NOT, AND and OR. The parser descends with the
tokens that are left; it has fuel, which `parseQuery` gives it enough of. The expression of a list
of tokens is described by a grammar (`OrPhrase`), and the parser finds it, or refuses the query at a
place in it (`parse_query_exact`).
-/

set_option autoImplicit false

namespace AiStp.Catalog.QueryLanguage

/-! ### Expressions -/

def maxDepth : Nat := 8

def maxInValues : Nat := 32

inductive PredicateField where
  | name
  | tags
  | harness
  | type
  | author
  | verified
deriving DecidableEq

inductive PredicateOperator where
  | colon
  | isIn
  | notIn
deriving DecidableEq

inductive BinaryOperator where
  | and
  | or
deriving DecidableEq

inductive Expression where
  | text (value : List Char)
  | predicate (field : PredicateField) (operator : PredicateOperator) (values : List (List Char))
  | unary (operand : Expression)
  | binary (operator : BinaryOperator) (left right : Expression)
deriving DecidableEq

/-- Why a query is not parsed: it is refused, or the parser read past its end or ran out of fuel. -/
inductive Failure where
  | refused (error : QuerySyntaxError)
  | pastEnd
  | exhausted

def refuse {Result : Type} (message : String) (offset : Nat) (expected : Option String) :
    Except Failure Result :=
  .error (.refused ⟨message, offset, expected⟩)

section Parser

variable (alphabet : Alphabet)

def fields : List (String × PredicateField) :=
  [("NAME", .name), ("TAGS", .tags), ("HARNESS", .harness), ("TYPE", .type), ("AUTHOR", .author),
    ("VERIFIED", .verified)]

def keywords : List String := ["AND", "OR", "NOT", "IN"]

/-- The field that a word names. -/
def fieldOf (token : Token) : Option PredicateField :=
  if token.kind = .word then fields.lookup (String.ofList (alphabet.upper token.value)) else none

def keyword (value : String) (token : Token) : Bool :=
  token.kind == .word && String.ofList (alphabet.upper token.value) == value

/-- A word that is an operator. -/
def isKeyword (token : Token) : Bool := keywords.any (keyword alphabet · token)

/-- A word or a quoted string. -/
def isText (token : Token) : Bool := token.kind == .word || token.kind == .string

/-- A text without white space at its ends. -/
def strip (text : List Char) : List Char :=
  ((text.dropWhile alphabet.isSpace).reverse.dropWhile alphabet.isSpace).reverse

/-- The value of a token, when something follows it. -/
def readValue (token : Token) (after : List Token) : Except Failure (List Char) :=
  if !isText token then refuse "expected value" token.offset (some "value")
  else
    if strip alphabet token.value = [] then
      match after with
      | [] => .error .pastEnd
      | next :: _ => refuse "value cannot be empty" next.offset (some "value")
    else .ok (strip alphabet token.value)

def parseValue : List Token → Except Failure (List Char × List Token)
  | [] => .error .pastEnd
  | token :: after => (readValue alphabet token after).map (·, after)

/-- The values of a list after those that are collected. -/
def valuesLoop (collected : List (List Char)) :
    List Token → Except Failure (List (List Char) × List Token)
  | [] => .error .pastEnd
  | [comma] => if comma.kind = .comma then .error .pastEnd else .ok (collected, [comma])
  | comma :: token :: after =>
    if comma.kind = .comma then
      match readValue alphabet token after with
      | .error failure => .error failure
      | .ok value =>
        if maxInValues < collected.length + 1 then
          match after with
          | [] => .error .pastEnd
          | next :: _ => refuse "IN list is too large" next.offset none
        else valuesLoop (collected ++ [value]) after
    else .ok (collected, comma :: token :: after)

/-- The list of values in parentheses. -/
def parseList (tokens : List Token) : Except Failure (List (List Char) × List Token) :=
  match tokens with
  | [] => .error .pastEnd
  | opening :: after =>
    if opening.kind ≠ .lparen then refuse "expected value list" opening.offset (some "(")
    else do
      let first ← parseValue alphabet after
      let values ← valuesLoop alphabet [first.1] first.2
      match values.2 with
      | [] => .error .pastEnd
      | closing :: rest =>
        if closing.kind ≠ .rparen then
          refuse "missing closing parenthesis" closing.offset (some ")")
        else .ok (values.1, rest)

/-- The operator of a predicate and its values. -/
def parseOperator (tokens : List Token) :
    Except Failure ((PredicateOperator × List (List Char)) × List Token) :=
  match tokens with
  | [] => .error .pastEnd
  | operator :: after =>
    if operator.kind = .colon then
      (parseValue alphabet after).map fun value ↦ ((.colon, [value.1]), value.2)
    else if keyword alphabet "NOT" operator then
      match after with
      | [] => .error .pastEnd
      | next :: after =>
        if !keyword alphabet "IN" next then
          refuse "expected IN after NOT" next.offset (some "IN")
        else (parseList alphabet after).map fun values ↦ ((.notIn, values.1), values.2)
    else (parseList alphabet after).map fun values ↦ ((.isIn, values.1), values.2)

/-- The values that a field takes. -/
def takes (field : PredicateField) (values : List (List Char)) : Bool :=
  field != .verified || values.all fun value ↦
    alphabet.casefold value == "true".toList || alphabet.casefold value == "false".toList

def parsePredicate (field : PredicateField) (offset : Nat) (tokens : List Token) :
    Except Failure (Expression × List Token) := do
  let parsed ← parseOperator alphabet tokens
  if !takes alphabet field parsed.1.2 then
    refuse "VERIFIED accepts true or false" offset (some "boolean")
  else .ok (.predicate field parsed.1.1 parsed.1.2, parsed.2)

/-- After the name of a field, a predicate goes on with one of these. -/
def goesOn (token : Token) : Bool :=
  token.kind == .colon || keyword alphabet "IN" token || keyword alphabet "NOT" token

/-- A term or a predicate, which does not begin with a parenthesis. -/
def parseTerm (token : Token) (after : List Token) : Except Failure (Expression × List Token) :=
  if !isText token then refuse "expected search term" token.offset (some "term")
  else
    match fieldOf alphabet token with
    | some field =>
      match after with
      | [] => .error .pastEnd
      | next :: _ =>
        if goesOn alphabet next then parsePredicate alphabet field token.offset after
        else .ok (.text token.value, after)
    | none =>
      if isKeyword alphabet token then
        refuse "operator has no left operand" token.offset (some "term")
      else .ok (.text token.value, after)

/-- A token at which an operand may begin. -/
def startsOperand (token : Token) : Bool := isText token || token.kind == .lparen

mutual

def parseOr : Nat → Nat → List Token → Except Failure (Expression × List Token)
  | 0, _, _ => .error .exhausted
  | fuel + 1, depth, tokens => do
    let left ← parseAnd fuel depth tokens
    orLoop fuel depth left.1 left.2

def orLoop : Nat → Nat → Expression → List Token → Except Failure (Expression × List Token)
  | 0, _, _, _ => .error .exhausted
  | _ + 1, _, _, [] => .error .pastEnd
  | fuel + 1, depth, expression, token :: after =>
    if keyword alphabet "OR" token then do
      let right ← parseAnd fuel depth after
      orLoop fuel depth (.binary .or expression right.1) right.2
    else .ok (expression, token :: after)

def parseAnd : Nat → Nat → List Token → Except Failure (Expression × List Token)
  | 0, _, _ => .error .exhausted
  | fuel + 1, depth, tokens => do
    let left ← parseUnary fuel depth tokens
    andLoop fuel depth left.1 left.2

def andLoop : Nat → Nat → Expression → List Token → Except Failure (Expression × List Token)
  | 0, _, _, _ => .error .exhausted
  | _ + 1, _, _, [] => .error .pastEnd
  | fuel + 1, depth, expression, token :: after =>
    if keyword alphabet "AND" token then do
      let right ← parseUnary fuel depth after
      andLoop fuel depth (.binary .and expression right.1) right.2
    else if startsOperand token && !keyword alphabet "OR" token then do
      let right ← parseUnary fuel depth (token :: after)
      andLoop fuel depth (.binary .and expression right.1) right.2
    else .ok (expression, token :: after)

def parseUnary : Nat → Nat → List Token → Except Failure (Expression × List Token)
  | 0, _, _ => .error .exhausted
  | _ + 1, _, [] => .error .pastEnd
  | fuel + 1, depth, token :: after =>
    if keyword alphabet "NOT" token then do
      let operand ← parseUnary fuel depth after
      return (.unary operand.1, operand.2)
    else parsePrimary fuel depth token after

def parsePrimary : Nat → Nat → Token → List Token → Except Failure (Expression × List Token)
  | 0, _, _, _ => .error .exhausted
  | fuel + 1, depth, token, after =>
    if maxDepth < depth then refuse "query nesting is too deep" token.offset none
    else if token.kind = .lparen then do
      let inner ← parseOr fuel (depth + 1) after
      match inner.2 with
      | [] => .error .pastEnd
      | closing :: rest =>
        if closing.kind ≠ .rparen then
          refuse "missing closing parenthesis" token.offset (some ")")
        else .ok (inner.1, rest)
    else parseTerm alphabet token after

end

/-- What the parser is given to go on with: every call hands on less than it got. -/
def fuelFor (tokens : List Token) : Nat := 8 * tokens.length + 6

def parse (tokens : List Token) : Except Failure Expression := do
  let parsed ← parseOr alphabet (fuelFor tokens) 0 tokens
  match parsed.2 with
  | [] => .error .pastEnd
  | token :: _ =>
    if token.kind ≠ .eof then refuse "unexpected token" token.offset (some "operator")
    else .ok parsed.1

/-- The expression of a query; a blank query has none. -/
def parseQuery (source : List Char) : Except Failure (Option Expression) :=
  if source.all alphabet.isSpace then .ok none
  else
    match tokenize alphabet source with
    | .error error => .error (.refused error)
    | .ok tokens => (parse alphabet tokens).map some

end Parser

/-! ### The grammar -/

section Grammar

variable (alphabet : Alphabet)

structure IsValue (token : Token) (value : List Char) : Prop where
  text : isText token = true
  stripped : strip alphabet token.value = value
  nonempty : value ≠ []

/-- More values of a list, each after a comma. -/
inductive ValueTail : List Token → List (List Char) → Prop
  | nil : ValueTail [] []
  | cons {comma token : Token} {tokens : List Token} {value : List Char}
      {values : List (List Char)} : comma.kind = .comma → IsValue alphabet token value →
      ValueTail tokens values → ValueTail (comma :: token :: tokens) (value :: values)

inductive ListPhrase : List Token → List (List Char) → Prop
  | list {opening token closing : Token} {tokens : List Token} {value : List Char}
      {values : List (List Char)} : opening.kind = .lparen → IsValue alphabet token value →
      ValueTail alphabet tokens values → closing.kind = .rparen →
      (value :: values).length ≤ maxInValues →
      ListPhrase (opening :: token :: (tokens ++ [closing])) (value :: values)

inductive OperatorPhrase : List Token → PredicateOperator → List (List Char) → Prop
  | colon {operator token : Token} {value : List Char} : operator.kind = .colon →
      IsValue alphabet token value → OperatorPhrase [operator, token] .colon [value]
  | isIn {operator : Token} {tokens : List Token} {values : List (List Char)} :
      keyword alphabet "IN" operator = true → ListPhrase alphabet tokens values →
      OperatorPhrase (operator :: tokens) .isIn values
  | notIn {first operator : Token} {tokens : List Token} {values : List (List Char)} :
      keyword alphabet "NOT" first = true → keyword alphabet "IN" operator = true →
      ListPhrase alphabet tokens values → OperatorPhrase (first :: operator :: tokens) .notIn values

/-- A predicate or a term. A term that names a field is open: a NOT after it would begin the
operator of a predicate. -/
inductive TermPhrase : List Token → Expression → Bool → Prop
  | predicate {token : Token} {tokens : List Token} {field : PredicateField}
      {operator : PredicateOperator} {values : List (List Char)} :
      fieldOf alphabet token = some field → OperatorPhrase alphabet tokens operator values →
      takes alphabet field values = true →
      TermPhrase (token :: tokens) (.predicate field operator values) false
  | text {token : Token} : isText token = true → isKeyword alphabet token = false →
      TermPhrase [token] (.text token.value) (fieldOf alphabet token).isSome

/-- The tokens do not begin with NOT. -/
def NoNot (tokens : List Token) : Prop :=
  ∀ token ∈ tokens.head?, keyword alphabet "NOT" token = false

mutual

/-- A term, or an expression in parentheses, which are not nested too deep. -/
inductive PrimaryPhrase : Nat → List Token → Expression → Bool → Prop
  | group {depth : Nat} {opening closing : Token} {tokens : List Token} {expression : Expression} :
      depth ≤ maxDepth → opening.kind = .lparen → OrPhrase (depth + 1) tokens expression →
      closing.kind = .rparen →
      PrimaryPhrase depth (opening :: (tokens ++ [closing])) expression false
  | term {depth : Nat} {tokens : List Token} {expression : Expression} {unclosed : Bool} :
      depth ≤ maxDepth → TermPhrase alphabet tokens expression unclosed →
      PrimaryPhrase depth tokens expression unclosed

inductive UnaryPhrase : Nat → List Token → Expression → Bool → Prop
  | not {depth : Nat} {token : Token} {tokens : List Token} {expression : Expression}
      {unclosed : Bool} : keyword alphabet "NOT" token = true →
      UnaryPhrase depth tokens expression unclosed →
      UnaryPhrase depth (token :: tokens) (.unary expression) unclosed
  | primary {depth : Nat} {tokens : List Token} {expression : Expression} {unclosed : Bool} :
      PrimaryPhrase depth tokens expression unclosed →
      UnaryPhrase depth tokens expression unclosed

/-- More operands of AND, whose operator may be left out. -/
inductive AndTail : Nat → Expression → Bool → List Token → Expression → Prop
  | nil {depth : Nat} {left : Expression} {unclosed : Bool} : AndTail depth left unclosed [] left
  | and {depth : Nat} {left right result : Expression} {unclosed next : Bool} {operator : Token}
      {operand tokens : List Token} : keyword alphabet "AND" operator = true →
      UnaryPhrase depth operand right next →
      AndTail depth (.binary .and left right) next tokens result →
      AndTail depth left unclosed (operator :: (operand ++ tokens)) result
  | adjacent {depth : Nat} {left right result : Expression} {unclosed next : Bool}
      {operand tokens : List Token} : UnaryPhrase depth operand right next →
      (unclosed = true → NoNot alphabet operand) →
      AndTail depth (.binary .and left right) next tokens result →
      AndTail depth left unclosed (operand ++ tokens) result

inductive AndPhrase : Nat → List Token → Expression → Prop
  | operands {depth : Nat} {left result : Expression} {unclosed : Bool}
      {operand tokens : List Token} : UnaryPhrase depth operand left unclosed →
      AndTail depth left unclosed tokens result → AndPhrase depth (operand ++ tokens) result

inductive OrTail : Nat → Expression → List Token → Expression → Prop
  | nil {depth : Nat} {left : Expression} : OrTail depth left [] left
  | or {depth : Nat} {left right result : Expression} {operator : Token}
      {operand tokens : List Token} : keyword alphabet "OR" operator = true →
      AndPhrase depth operand right → OrTail depth (.binary .or left right) tokens result →
      OrTail depth left (operator :: (operand ++ tokens)) result

inductive OrPhrase : Nat → List Token → Expression → Prop
  | operands {depth : Nat} {left result : Expression} {operand tokens : List Token} :
      AndPhrase depth operand left → OrTail depth left tokens result →
      OrPhrase depth (operand ++ tokens) result

end

end Grammar

end AiStp.Catalog.QueryLanguage
