import FormTree.Template.Token

/-!
# Values of templates

A template denotes data, with places for values that the program computes. The tokens are read from
left to right: `#` comes before the text of a symbol or before a set, `:` before the name of a
keyword, a comma before a token that is to be evaluated, and a run of operator characters is a
symbol.
-/

namespace FormTree.Template

/-- What a template denotes. -/
inductive Value where
  | nil
  /-- a literal of the program -/
  | literal (text : String)
  /-- a literal with a minus sign -/
  | negated (text : String)
  | bool (value : Bool)
  | symbol (text : String)
  | keyword (text : String)
  /-- a token to be evaluated -/
  | unquoted (token : Token)
  | list (elements : List Value)
  | vector (elements : List Value)
  | map (elements : List Value)
  | set (elements : List Value)
  deriving Repr, Inhabited

/-- Why tokens denote nothing. -/
inductive TemplateError where
  | expectedString (text : String)
  | unexpectedToken (token : Token)
  | unexpectedChar (c : Char)
  | unexpectedBracket (bracket : Bracket)
  | oddMap (count : Nat)
  | unexpectedEnd
  deriving Repr, Inhabited

/-- Whether `c` is a character of operators, from which symbols are made. -/
def isOperator (c : Char) : Bool :=
  "!$%&*+-./<=>?".toList.contains c

/-- The text between the quotes of a plain string literal. -/
def stringText? (literal : String) : Except TemplateError String :=
  match literal.toList with
  | '"' :: rest =>
    if rest.getLast? == some '"' then .ok (String.ofList rest.dropLast)
    else .error (.expectedString literal)
  | _ => .error (.expectedString literal)

/-- The rest of a symbol that began with an operator character joined to what follows, and the
tokens after it. A name ends it, and so does an operator character that nothing follows. -/
def operatorRun : List Token → List Char × List Token
  | .punctuation c joint :: rest =>
    if isOperator c || c == ':' then
      if joint then
        let (cs, rest) := operatorRun rest
        (c :: cs, rest)
      else ([c], rest)
    else ([], .punctuation c joint :: rest)
  | .name text :: rest => (text.toList, rest)
  | tokens => ([], tokens)

/-- The punctuation taken by a run leaves no more tokens than there were. -/
theorem sizeOf_operatorRun_le (tokens : List Token) :
    sizeOf (operatorRun tokens).2 ≤ sizeOf tokens := by
  fun_induction operatorRun tokens with
  | case1 c rest _ cs rest' hr ih =>
    rw [hr] at ih
    simp only [List.cons.sizeOf_spec] at *
    omega
  | case2 => simp only [List.cons.sizeOf_spec]; omega
  | case3 => exact Nat.le_refl _
  | case4 => simp only [List.cons.sizeOf_spec]; omega
  | case5 => exact Nat.le_refl _

/-- The value of a name. -/
def ofName (text : String) : Value :=
  if text == "nil" then .nil
  else if text == "true" then .bool true
  else if text == "false" then .bool false
  else .symbol text

/-- The value of an operator character, and the tokens after it. -/
def ofOperator (c : Char) (joint : Bool) (rest : List Token) : Value × List Token :=
  if joint then
    let (cs, rest) := operatorRun rest
    (.symbol (String.ofList (c :: cs)), rest)
  else
    match c, rest with
    | '-', .literal text :: rest => (.negated text, rest)
    | _, _ => (.symbol c.toString, rest)

/-- An operator leaves no more tokens than there were behind its first character. -/
theorem sizeOf_ofOperator_le (c : Char) (joint : Bool) (rest : List Token) :
    sizeOf (ofOperator c joint rest).2 ≤ sizeOf rest := by
  unfold ofOperator
  split
  · exact sizeOf_operatorRun_le rest
  · split
    · simp only [List.cons.sizeOf_spec]; omega
    · exact Nat.le_refl _

theorem sizeOf_lt_cons (t : Token) (rest : List Token) : sizeOf rest < sizeOf (t :: rest) := by
  simp only [List.cons.sizeOf_spec]
  omega

theorem sizeOf_lt_cons_cons (t u : Token) (rest : List Token) :
    sizeOf rest < sizeOf (t :: u :: rest) :=
  Nat.lt_trans (sizeOf_lt_cons u rest) (sizeOf_lt_cons t (u :: rest))

/-- The keyword after a colon. -/
def ofColon : Token → Except TemplateError Value
  | .name text => .ok (.keyword text)
  | .literal text => (stringText? text).map .keyword
  | t => .error (.unexpectedToken t)

mutual

/-- The value that tokens begin with, and the tokens after it. -/
def ofTokens (tokens : List Token) :
    Except TemplateError (Value × { rest : List Token // sizeOf rest < sizeOf tokens }) :=
  match tokens with
  | [] => .error .unexpectedEnd
  | .literal text :: rest => .ok (.literal text, ⟨rest, sizeOf_lt_cons ..⟩)
  | .name text :: rest => .ok (ofName text, ⟨rest, sizeOf_lt_cons ..⟩)
  | .group bracket inside :: rest =>
    have rest : { r : List Token // sizeOf r < sizeOf (Token.group bracket inside :: rest) } :=
      ⟨rest, sizeOf_lt_cons ..⟩
    match bracket with
    | .parenthesis => do return (.list (← allOfTokens inside), rest)
    | .square => do return (.vector (← allOfTokens inside), rest)
    | .brace => do
      let elements ← allOfTokens inside
      if elements.length % 2 == 1 then throw (.oddMap elements.length)
      else return (.map elements, rest)
    | .invisible => .error (.unexpectedBracket .invisible)
  | .punctuation c joint :: rest =>
    if c == '#' then
      match rest with
      | [] => .error .unexpectedEnd
      | .literal text :: rest => do
        return (.symbol (← stringText? text), ⟨rest, sizeOf_lt_cons_cons ..⟩)
      | .group .brace inside :: rest => do
        return (.set (← allOfTokens inside), ⟨rest, sizeOf_lt_cons_cons ..⟩)
      | .group bracket _ :: _ => .error (.unexpectedBracket bracket)
      | t :: _ => .error (.unexpectedToken t)
    else if c == ',' then
      match rest with
      | [] => .error .unexpectedEnd
      | t :: rest => .ok (.unquoted t, ⟨rest, sizeOf_lt_cons_cons ..⟩)
    else if c == ':' then
      match rest with
      | [] => .error .unexpectedEnd
      | t :: rest => do return (← ofColon t, ⟨rest, sizeOf_lt_cons_cons ..⟩)
    else if isOperator c then
      .ok ((ofOperator c joint rest).1, ⟨(ofOperator c joint rest).2,
        Nat.lt_of_le_of_lt (sizeOf_ofOperator_le ..) (sizeOf_lt_cons ..)⟩)
    else .error (.unexpectedChar c)
termination_by (sizeOf tokens, 0)
decreasing_by
  all_goals
    simp only [Prod.lex_def, List.cons.sizeOf_spec, Token.group.sizeOf_spec]
    omega

/-- The values of all tokens. -/
def allOfTokens (tokens : List Token) : Except TemplateError (List Value) :=
  match tokens with
  | [] => .ok []
  | t :: rest => do
    let (v, ⟨rest, _h⟩) ← ofTokens (t :: rest)
    return v :: (← allOfTokens rest)
termination_by (sizeOf tokens, 1)
decreasing_by
  · exact Prod.Lex.right _ Nat.zero_lt_one
  · exact Prod.Lex.left _ _ _h

end

/-- The one value of tokens, the signs of literals being tokens of their own. -/
def parse (tokens : List Token) : Except TemplateError Value := do
  let (v, ⟨rest, _⟩) ← ofTokens (unsignedAll tokens)
  match rest with
  | [] => return v
  | t :: _ => throw (.unexpectedToken t)

end FormTree.Template
