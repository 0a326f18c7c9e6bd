import FormTree.Form.Basic
import FormTree.Proofs.Template.Literal
import FormTree.Template.Code
import Mathlib.Data.List.Basic

/-!
# Evaluating the code of templates

What the program makes of the code of a template: `evaluate` reads the tokens as an expression and
gives its value. The expressions are those that build forms: constants, literals, and calls of the
constructors of forms, to vectors of forms where there are elements. The literals are decimal
integers and strings; an integer has 32 bits, as the language has it where more than one type fits.

`Value.form?` is the form that a value without tokens to be evaluated denotes. The code of the value
evaluates to it.
-/

namespace FormTree.Template

-- Powers are the core library's here, also below a library with another instance of them.
attribute [local instance (high)] instPowNat

/-! ### Values -/

/-- The number that an integer literal is. -/
def magnitude? (token : String) : Option Nat :=
  if Text.isNumeral 10 token.toList then some (Numeral.value 10 token.toList) else none

/-- The form that a literal converts to. -/
def literal? (token : String) : Option Form :=
  match magnitude? token with
  | some n => if n < 2 ^ (31 : Nat) then some (.ofInt n) else none
  | none => (Literal.string? token).map .string

/-- The form that an integer literal with a minus sign converts to. -/
def negated? (token : String) : Option Form :=
  match magnitude? token with
  | some n => if n ≤ 2 ^ (31 : Nat) then some (.ofInt (-n)) else none
  | none => none

mutual

/-- The form that a value denotes, if nothing in it is to be evaluated by the program. -/
def Value.form? : Value → Option Form
  | .nil => some .nil
  | .literal text => literal? text
  | .negated text => negated? text
  | .bool b => some (.bool b)
  | .symbol text => some (.symbol (.parse text))
  | .keyword text => some (.keyword (.parse text))
  | .unquoted _ => none
  | .list vs => (forms? vs).map (.list .empty)
  | .vector vs => (forms? vs).map .vector
  | .map vs => (forms? vs).map .map
  | .set vs => (forms? vs).map .set

/-- The forms that values denote. -/
def forms? : List Value → Option (List Form)
  | [] => some []
  | v :: rest => do return (← v.form?) :: (← forms? rest)

end

/-! ### Expressions -/

/-- The constructor of forms that tokens begin with, and the tokens behind it. -/
def constructor? (tokens : List String) : Option (String × List String) :=
  match tokens.dropPrefix? (path ["cst_reader", "Form"]) with
  | some (":" :: ":" :: name :: rest) => some (name, rest)
  | _ => none

/-- The tokens of a block of elements up to the first element. -/
def blockOpening : List String :=
  ["\x7b", "let", "elements", ":"] ++ path ["std", "vec", "Vec"] ++ ["<"] ++
    path ["cst_reader", "Form"] ++ [">", "="] ++ path ["std", "vec"] ++ ["!", "["]

/-- The tokens of a block of elements behind the last element. -/
def blockClosing : List String := ["]", ";", "elements", "\x7d"]

/-- The constructor of a sequence from the vector of its elements. -/
def sequence? (constructor : String) : Option (List Form → Form) :=
  if constructor == "list" then some (.list .empty)
  else if constructor == "vector" then some .vector
  else if constructor == "map" then some .map
  else if constructor == "set" then some .set
  else none

/-- What an atom is made from, and the tokens behind it. -/
def atom? (constructor : String) (tokens : List String) : Option (Form × List String) :=
  if constructor == "from" then
    match tokens with
    | "-" :: token :: rest => (negated? token).map (·, rest)
    | "true" :: rest => some (.bool true, rest)
    | "false" :: rest => some (.bool false, rest)
    | token :: rest => (literal? token).map (·, rest)
    | [] => none
  else
    match tokens with
    | token :: rest =>
      if constructor == "symbol" then
        (Literal.string? token).map fun text => (.symbol (.parse text), rest)
      else if constructor == "keyword" then
        (Literal.string? token).map fun text => (.keyword (.parse text), rest)
      else none
    | [] => none

/-- The argument of a constructor with the form made from it, and the tokens behind it. -/
def argument (elements : List String → Option (List Form × List String)) (constructor : String)
    (tokens : List String) : Option (Form × List String) :=
  match sequence? constructor with
  | some make => do
    let (es, rest) ← elements (← tokens.dropPrefix? blockOpening)
    return (make es, ← rest.dropPrefix? blockClosing)
  | none => atom? constructor tokens

mutual

/-- The value of the expression that tokens begin with, and the tokens behind it. The number bounds
the tokens that are looked at. -/
def expression : Nat → List String → Option (Form × List String)
  | 0, _ => none
  | n + 1, tokens => do
    let (constructor, rest) ← constructor? tokens
    if constructor == "Nil" then return (.nil, rest)
    else
      let (f, rest) ← argument (elements n) constructor (← rest.dropPrefix? ["("])
      return (f, ← rest.dropPrefix? [")"])

/-- The values of expressions with commas between them, up to a closing bracket. -/
def elements : Nat → List String → Option (List Form × List String)
  | 0, _ => none
  | n + 1, tokens =>
    if tokens.head? == some "]" then some ([], tokens)
    else do
      let (f, rest) ← expression n tokens
      match rest with
      | "," :: rest => do
        let (es, rest) ← elements n rest
        return (f :: es, rest)
      | _ => return ([f], rest)

end

/-- The value of tokens that are one expression. -/
def evaluate (tokens : List String) : Option Form :=
  match expression tokens.length tokens with
  | some (f, []) => some f
  | _ => none

/-! ### The code of values -/

section

variable {n : Nat} {rest : List String} {f : Form}

theorem dropPrefix?_append (before rest : List String) :
    (before ++ rest).dropPrefix? before = some rest :=
  List.dropPrefix?_append_of_beq rest BEq.rfl

/-- The name of a constructor stands behind the path of forms. -/
theorem constructor?_formPath (name : String) (rest : List String) :
    constructor? (formPath name ++ rest) = some (name, rest) := by
  have hpath : formPath name ++ rest =
      path ["cst_reader", "Form"] ++ ":" :: ":" :: name :: rest := rfl
  rw [constructor?, hpath, dropPrefix?_append]
  rfl

theorem expression_nil (n : Nat) (rest : List String) :
    expression (n + 1) (formPath "Nil" ++ rest) = some (.nil, rest) := by
  rw [expression, constructor?_formPath]
  rfl

/-- A call evaluates to what its argument makes. -/
theorem expression_call {constructor : String} {arguments : List String}
    (hname : (constructor == "Nil") = false)
    (h : argument (elements n) constructor (arguments ++ ")" :: rest) = some (f, ")" :: rest)) :
    expression (n + 1) (call constructor arguments ++ rest) = some (f, rest) := by
  have hcall : call constructor arguments ++ rest =
      formPath constructor ++ (["("] ++ (arguments ++ ")" :: rest)) := by
    simp [call]
  have hclose : (")" :: rest).dropPrefix? [")"] = some rest := dropPrefix?_append [")"] rest
  rw [expression, hcall, constructor?_formPath]
  simp only [Option.bind_eq_bind, Option.bind_some, hname, Bool.false_eq_true, if_false,
    dropPrefix?_append, h, hclose]
  rfl

/-- A block makes a sequence of the elements in it. -/
theorem argument_block {constructor : String} {make : List Form → Form} {codes : List (List String)}
    {es : List Form} (hmake : sequence? constructor = some make)
    (h : ∀ rest, elements n (commaSeparated codes ++ "]" :: rest) = some (es, "]" :: rest)) :
    argument (elements n) constructor (block codes ++ rest) = some (make es, rest) := by
  have hblock : block codes ++ rest =
      blockOpening ++ (commaSeparated codes ++ "]" :: (blockClosing.tail ++ rest)) := by
    simp [block, blockOpening, blockClosing]
  have hclose : ("]" :: (blockClosing.tail ++ rest)).dropPrefix? blockClosing = some rest :=
    dropPrefix?_append blockClosing rest
  rw [argument, hmake, hblock]
  simp only [Option.bind_eq_bind, Option.bind_some, dropPrefix?_append, h, hclose]
  rfl

/-- The constructor of a sequence is called with a block. -/
theorem expression_sequence {constructor : String} {make : List Form → Form}
    {codes : List (List String)} {es : List Form} (hname : (constructor == "Nil") = false)
    (hmake : sequence? constructor = some make)
    (h : ∀ rest, elements n (commaSeparated codes ++ "]" :: rest) = some (es, "]" :: rest)) :
    expression (n + 1) (call constructor (block codes) ++ rest) = some (make es, rest) :=
  expression_call hname (argument_block hmake h)

/-- A literal is converted to a form. -/
theorem argument_literal {text : String} (h : literal? text = some f) :
    argument (elements n) "from" (text :: rest) = some (f, rest) := by
  -- the words and the sign that stand before other arguments are no literals
  have hminus : text ≠ "-" := by
    rintro rfl
    cases h
  have htrue : text ≠ "true" := by
    rintro rfl
    cases h
  have hfalse : text ≠ "false" := by
    rintro rfl
    cases h
  have hatom : argument (elements n) "from" (text :: rest) = atom? "from" (text :: rest) := rfl
  have hfrom : ("from" == "from") = true := rfl
  rw [hatom, atom?.eq_def, if_pos hfrom]
  split <;> simp_all

/-- So is one behind a minus sign. -/
theorem argument_negated {text : String} (h : negated? text = some f) :
    argument (elements n) "from" ("-" :: text :: rest) = some (f, rest) := by
  have hatom : argument (elements n) "from" ("-" :: text :: rest) =
      (negated? text).map (·, rest) := rfl
  rw [hatom, h, Option.map_some]

theorem argument_symbol {token text : String} (h : Literal.string? token = some text) :
    argument (elements n) "symbol" (token :: rest) = some (.symbol (.parse text), rest) := by
  have hatom : argument (elements n) "symbol" (token :: rest) =
      (Literal.string? token).map fun text => (.symbol (.parse text), rest) := rfl
  rw [hatom, h, Option.map_some]

theorem argument_keyword {token text : String} (h : Literal.string? token = some text) :
    argument (elements n) "keyword" (token :: rest) = some (.keyword (.parse text), rest) := by
  have hatom : argument (elements n) "keyword" (token :: rest) =
      (Literal.string? token).map fun text => (.keyword (.parse text), rest) := rfl
  rw [hatom, h, Option.map_some]

theorem length_code_pos (v : Value) : 0 < v.code.length := by
  cases v <;> simp [Value.code, call, formPath, path]

/-- Code does not begin with a bracket. -/
theorem head?_code (v : Value) (rest : List String) : (v.code ++ rest).head? = some ":" := by
  cases v <;> rfl

/-- The elements of a call are fewer tokens than the call, which bounds the recursion. -/
theorem length_lt_of_call {constructor : String} {codes : List (List String)}
    (h : (call constructor (block codes)).length ≤ n + 1) : (commaSeparated codes).length < n := by
  simp only [call, block, List.length_append, List.length_cons] at h
  omega

/-- The last element of a sequence. -/
theorem elements_last {v : Value}
    (h : expression n (v.code ++ "]" :: rest) = some (f, "]" :: rest)) :
    elements (n + 1) (v.code ++ "]" :: rest) = some ([f], "]" :: rest) := by
  rw [elements, head?_code, if_neg (by decide), h]
  rfl

/-- An element of a sequence with others behind it. -/
theorem elements_cons {v : Value} {tokens : List String} {es : List Form}
    (h : expression n (v.code ++ "," :: tokens) = some (f, "," :: tokens))
    (hes : elements n tokens = some (es, rest)) :
    elements (n + 1) (v.code ++ "," :: tokens) = some (f :: es, rest) := by
  rw [elements, head?_code, if_neg (by decide), h]
  simp only [Option.bind_eq_bind, Option.bind_some, hes]
  rfl

end

mutual

/-- The code of a value evaluates to the form that the value denotes, whatever comes behind it. -/
theorem expression_code : ∀ {v : Value} {f : Form}, v.form? = some f → ∀ {n : Nat},
    v.code.length ≤ n → ∀ rest, expression n (v.code ++ rest) = some (f, rest)
  | v, _, h, 0, hn, _ => absurd (length_code_pos v) (Nat.not_lt.2 hn)
  | .nil, _, h, n + 1, _, rest => by
    cases h
    exact expression_nil n rest
  | .literal text, _, h, n + 1, _, rest => expression_call rfl (argument_literal h)
  | .negated text, _, h, n + 1, _, rest => expression_call rfl (argument_negated h)
  | .bool b, _, h, n + 1, _, rest => by
    cases h
    refine expression_call rfl ?_
    cases b <;> rfl
  | .symbol text, _, h, n + 1, _, rest => by
    cases h
    exact expression_call rfl (argument_symbol (Literal.string?_quoteInCode text))
  | .keyword text, _, h, n + 1, _, rest => by
    cases h
    exact expression_call rfl (argument_keyword (Literal.string?_quoteInCode text))
  | .list vs, _, h, n + 1, hn, rest | .vector vs, _, h, n + 1, hn, rest
  | .map vs, _, h, n + 1, hn, rest | .set vs, _, h, n + 1, hn, rest => by
    obtain ⟨es, hes, rfl⟩ := Option.map_eq_some_iff.1 h
    exact expression_sequence rfl rfl (elements_codes hes (length_lt_of_call hn))

/-- Expressions with commas between them are evaluated one by one. -/
theorem elements_codes : ∀ {vs : List Value} {es : List Form}, forms? vs = some es → ∀ {n : Nat},
    (commaSeparated (codes vs)).length < n → ∀ rest,
      elements n (commaSeparated (codes vs) ++ "]" :: rest) = some (es, "]" :: rest)
  | _, _, _, 0, hn, _ => absurd hn (Nat.not_lt_zero _)
  | [], _, h, n + 1, _, rest => by
    cases h
    rfl
  | v :: vs, es, h, n + 1, hn, rest => by
    obtain ⟨f, hf, h⟩ := Option.bind_eq_some_iff.1 h
    obtain ⟨fs, hfs, h⟩ := Option.bind_eq_some_iff.1 h
    cases h
    rcases vs with - | ⟨w, vs⟩
    · cases hfs
      exact elements_last (expression_code hf (Nat.le_of_lt_succ hn) _)
    · have hlength : v.code.length + (commaSeparated (codes (w :: vs))).length < n := by
        simp only [codes, commaSeparated, List.length_append, List.length_cons] at hn ⊢
        omega
      have hcode : commaSeparated (codes (v :: w :: vs)) ++ "]" :: rest =
          v.code ++ "," :: (commaSeparated (codes (w :: vs)) ++ "]" :: rest) := by
        simp [codes, commaSeparated]
      rw [hcode]
      exact elements_cons (expression_code hf (by omega) _) (elements_codes hfs (by omega) rest)

end

/-- **The code of a value evaluates to the form that the value denotes.** -/
theorem evaluate_code {v : Value} {f : Form} (h : v.form? = some f) : evaluate v.code = some f := by
  have hcode := expression_code h (Nat.le_refl v.code.length) []
  rw [List.append_nil] at hcode
  rw [evaluate, hcode]

end FormTree.Template
