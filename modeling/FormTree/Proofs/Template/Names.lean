import FormTree.Form.Access
import FormTree.Proofs.Reader.Token
import FormTree.Proofs.Template.Evaluate
import FormTree.Proofs.Template.Tokens

/-!
# Names in quotes

A name that is no name of the program's language is written as a string literal, behind a hash sign
or a colon. Wherever it stands in a template, its text is what is between the quotes of the literal,
as it is written there. This is the text that the literal denotes if there is no backslash in it,
and only then: an escape denotes fewer characters than it is written with.

A place in a template is a path, the index of an element at each level. `Stands` says which tokens
parsing comes to at a place, once the signs of literals are split off.
-/

namespace FormTree

/-- Different texts are stored as different names. -/
theorem Symbol.parse_inj {a b : String} : parse a = parse b ↔ a = b :=
  ⟨fun h => by rw [← toText_parse a, h, toText_parse], congrArg parse⟩

/-- The form at a place. -/
def Form.at? : List Nat → Form → Option Form
  | [], f => some f
  | i :: path, f => do (← (← f.elements?)[i]?).at? path

namespace Template

variable {tokens inside rest part : List Token} {v w : Value} {vs es : List Value}
  {path : List Nat} {text literal : String} {n : Nat}

/-! ### Sigils -/

/-- What stands before the literal of a name: a hash sign for symbols, a colon for keywords. -/
inductive Sigil where
  | symbol
  | keyword
  deriving DecidableEq, Repr, Inhabited

namespace Sigil

/-- The character of a sigil. -/
def char : Sigil → Char
  | .symbol => '#'
  | .keyword => ':'

/-- The constructor of the forms that have the name. -/
def constructor : Sigil → String
  | .symbol => "symbol"
  | .keyword => "keyword"

/-- The value with a name. -/
def value : Sigil → String → Value
  | .symbol, text => .symbol text
  | .keyword, text => .keyword text

/-- The form with a name. -/
def form : Sigil → String → Form
  | .symbol, text => .symbol (.parse text)
  | .keyword, text => .keyword (.parse text)

/-- A name as a literal behind its sigil. -/
def quoted (sigil : Sigil) (joint : Bool) (literal : String) : List Token :=
  [.punctuation sigil.char joint, .literal literal]

/-- Different names make different forms. -/
theorem form_inj {sigil : Sigil} {a b : String} : sigil.form a = sigil.form b ↔ a = b := by
  cases sigil with
  | symbol => exact Form.symbol.injEq _ _ ▸ Symbol.parse_inj
  | keyword =>
    rw [form, form, Form.keyword.injEq, Keyword.parse, Keyword.parse, Keyword.mk.injEq]
    exact Symbol.parse_inj

theorem form?_value (sigil : Sigil) (text : String) :
    (sigil.value text).form? = some (sigil.form text) := by
  cases sigil <;> rfl

/-- A name in quotes has the text between the quotes. -/
theorem denotes_quoted (sigil : Sigil) (joint : Bool) (raw : String) (rest : List Token) :
    Denotes (sigil.quoted joint (Literal.verbatim raw) ++ rest) (sigil.value raw) rest := by
  cases sigil with
  | symbol => exact denotes_quotedSymbol joint raw rest
  | keyword =>
    refine denotes_colon joint rest ?_
    rw [ofColon, Literal.stringText?_verbatim]
    rfl

/-- The constructor applied to a literal gives the form with the text that the literal denotes. -/
theorem evaluate_call (sigil : Sigil) (h : Literal.string? literal = some text) :
    evaluate (call sigil.constructor [literal]) = some (sigil.form text) := by
  have hcall : expression (call sigil.constructor [literal]).length
      (call sigil.constructor [literal] ++ []) = some (sigil.form text, []) := by
    cases sigil with
    | symbol => exact expression_call rfl (argument_symbol h)
    | keyword => exact expression_call rfl (argument_keyword h)
  rw [List.append_nil] at hcall
  rw [evaluate, hcall]

end Sigil

/-! ### Places -/

/-- The elements of a sequence. -/
def Value.elements? : Value → Option (List Value)
  | .list vs | .vector vs | .map vs | .set vs => some vs
  | _ => none

/-- The value at a place. -/
def Value.at? : List Nat → Value → Option Value
  | [], v => some v
  | i :: path, v => do (← (← v.elements?)[i]?).at? path

/-- The value at a place in a sequence. -/
def at? (vs : List Value) : List Nat → Option Value
  | [] => none
  | i :: path => do (← vs[i]?).at? path

/-- Whether tokens begin with a sequence of values that these tokens stand for. -/
inductive Opens : List Token → List Token → Prop
  | group {bracket : Bracket} (h : bracket ≠ .invisible) (inside rest : List Token) :
      Opens (.group bracket inside :: rest) inside
  | set (joint : Bool) (inside rest : List Token) :
      Opens (.punctuation '#' joint :: .group .brace inside :: rest) inside

/-- Whether parsing tokens, one value after the other, comes to `part` at a place. -/
inductive Stands (part : List Token) : List Nat → List Token → Prop
  | here (rest : List Token) : Stands part [0] (part ++ rest)
  | next {v : Value} {tokens rest : List Token} {i : Nat} {path : List Nat}
      (hv : Denotes tokens v rest) (h : Stands part (i :: path) rest) :
      Stands part ((i + 1) :: path) tokens
  | inside {tokens inside : List Token} {path : List Nat} (hopens : Opens tokens inside)
      (h : Stands part path inside) : Stands part (0 :: path) tokens

/-! ### Values at places -/

theorem allOfTokens_nil : allOfTokens [] = .ok [] := by
  rw [allOfTokens]

/-- Tokens that are parsed begin with those of the first value. -/
theorem exists_of_allOfTokens (hv : Denotes tokens v rest) (h : allOfTokens tokens = .ok vs) :
    ∃ ws, vs = v :: ws ∧ allOfTokens rest = .ok ws := by
  obtain ⟨hlt, hv⟩ := hv
  rcases tokens with - | ⟨t, tokens⟩
  · rw [ofTokens] at hv
    cases hv
  · rw [allOfTokens, hv] at h
    change (do return v :: (← allOfTokens rest) : Except TemplateError _) = _ at h
    rcases hrest : allOfTokens rest with e | ws
    · rw [hrest] at h
      cases h
    · rw [hrest] at h
      cases h
      exact ⟨ws, rfl, rfl⟩

/-- Whatever comes first among the tokens of elements denotes an element. -/
theorem exists_denotes {t : Token} (h : allOfTokens (t :: tokens) = .ok vs) :
    ∃ v rest, Denotes (t :: tokens) v rest := by
  rw [allOfTokens] at h
  rcases hv : ofTokens (t :: tokens) with e | ⟨v, rest, hlt⟩
  · rw [hv] at h
    cases h
  · exact ⟨v, rest, hlt, hv⟩

/-- A value whose tokens begin with a sequence has the values in it for elements. -/
theorem exists_elements_of_opens (hopens : Opens tokens inside) (hv : Denotes tokens v rest) :
    ∃ es, v.elements? = some es ∧ allOfTokens inside = .ok es := by
  obtain ⟨hlt, hv⟩ := hv
  -- each constructor of forms keeps the elements that it was made of
  cases hopens with
  | @group bracket hvisible inside behind =>
    rw [ofTokens] at hv
    rcases hinside : allOfTokens inside with e | es
    · rw [hinside] at hv
      cases bracket with
      | invisible => exact absurd rfl hvisible
      | _ => cases hv
    · rw [hinside] at hv
      refine ⟨es, ?_, rfl⟩
      cases bracket with
      | invisible => exact absurd rfl hvisible
      | parenthesis | square =>
        cases hv
        rfl
      | brace =>
        change (if (es.length % 2 == 1) = true then _ else _) = _ at hv
        split at hv
        · cases hv
        · cases hv
          rfl
  | set joint inside behind =>
    rw [ofTokens, if_pos (by decide)] at hv
    rcases hinside : allOfTokens inside with e | es
    · rw [hinside] at hv
      cases hv
    · rw [hinside] at hv
      cases hv
      exact ⟨es, rfl, rfl⟩

/-- What stands at a place is the value at this place. -/
theorem Stands.at?_eq (h : Stands part path tokens) (hpart : ∀ rest, Denotes (part ++ rest) w rest)
    (hall : allOfTokens tokens = .ok vs) : at? vs path = some w := by
  induction h generalizing vs with
  | here rest =>
    obtain ⟨ws, rfl, -⟩ := exists_of_allOfTokens (hpart rest) hall
    rfl
  | next hv _ ih =>
    obtain ⟨ws, rfl, hws⟩ := exists_of_allOfTokens hv hall
    exact ih hws
  | @inside tokens inside path hopens _ ih =>
    obtain ⟨t, more, rfl⟩ : ∃ t more, tokens = t :: more := by
      cases hopens <;> exact ⟨_, _, rfl⟩
    obtain ⟨v, rest, hv⟩ := exists_denotes hall
    obtain ⟨ws, rfl, -⟩ := exists_of_allOfTokens hv hall
    obtain ⟨es, hes, hinside⟩ := exists_elements_of_opens hopens hv
    have hw := ih hinside
    rcases path with - | ⟨i, path⟩
    · cases hw
    · change (do (← (← v.elements?)[i]?).at? path) = some w
      rw [hes]
      exact hw

/-- Tokens that are parsed as one value are those of that value. -/
theorem allOfTokens_of_parse (h : parse tokens = .ok v) :
    allOfTokens (unsignedAll tokens) = .ok [v] := by
  rw [parse] at h
  rcases hv : ofTokens (unsignedAll tokens) with e | ⟨v', rest, hlt⟩
  · rw [hv] at h
    cases h
  · rw [hv] at h
    rcases rest with - | ⟨t, rest⟩
    · cases h
      exact allOfTokens_cons ⟨hlt, hv⟩ allOfTokens_nil
    · cases h

/-! ### Code and forms at places -/

theorem mem_of_at? {i : Nat} (h : v.at? (i :: path) = some w) :
    ∃ es u, v.elements? = some es ∧ es[i]? = some u ∧ u.at? path = some w := by
  obtain ⟨es, hes, h⟩ := Option.bind_eq_some_iff.1 h
  obtain ⟨u, hu, h⟩ := Option.bind_eq_some_iff.1 h
  exact ⟨es, u, hes, hu, h⟩

/-- The code of an element stands in the code of the row. -/
theorem code_infix_of_mem (h : v ∈ vs) : v.code <:+: commaSeparated (codes vs) := by
  induction vs with
  | nil => cases h
  | cons u vs ih =>
    rcases vs with - | ⟨u', vs⟩
    · obtain rfl := List.mem_singleton.1 h
      exact List.infix_rfl
    · have hcodes : commaSeparated (codes (u :: u' :: vs)) =
          u.code ++ "," :: commaSeparated (codes (u' :: vs)) := rfl
      rw [hcodes]
      rcases List.mem_cons.1 h with rfl | h
      · exact (List.prefix_append _ _).isInfix
      · exact (ih h).trans ((List.suffix_cons _ _).trans (List.suffix_append _ _)).isInfix

theorem code_infix_call (constructor : String) (h : v ∈ vs) :
    v.code <:+: call constructor (block (codes vs)) := by
  have hblock : commaSeparated (codes vs) <:+: block (codes vs) := ⟨blockOpening, blockClosing, rfl⟩
  have hcall : block (codes vs) <:+: call constructor (block (codes vs)) :=
    ⟨formPath constructor ++ ["("], [")"], by simp [call]⟩
  exact (code_infix_of_mem h).trans (hblock.trans hcall)

/-- The code of a value has that of each of its elements in it. -/
theorem code_infix_of_elements (hes : v.elements? = some es) (h : w ∈ es) : w.code <:+: v.code := by
  cases v with
  | list | vector | map | set =>
    cases hes
    exact code_infix_call _ h
  | _ => cases hes

/-- The code of a part stands in the code of the whole. -/
theorem code_infix_of_at? (h : v.at? path = some w) : w.code <:+: v.code := by
  induction path generalizing v with
  | nil =>
    cases h
    exact List.infix_rfl
  | cons i path ih =>
    obtain ⟨es, u, hes, hu, h⟩ := mem_of_at? h
    exact (ih h).trans (code_infix_of_elements hes (List.mem_of_getElem? hu))

theorem exists_of_forms? {fs : List Form} {i : Nat} (hfs : forms? vs = some fs)
    (h : vs[i]? = some v) : ∃ f, v.form? = some f ∧ fs[i]? = some f := by
  induction vs generalizing fs i with
  | nil => cases h
  | cons u vs ih =>
    obtain ⟨f, hf, hrest⟩ := Option.bind_eq_some_iff.1 hfs
    obtain ⟨gs, hgs, hcons⟩ := Option.bind_eq_some_iff.1 hrest
    cases hcons
    rcases i with - | i
    · cases h
      exact ⟨f, hf, rfl⟩
    · obtain ⟨g, hg, hgi⟩ := ih hgs h
      exact ⟨g, hg, hgi⟩

/-- The elements of a form are the forms of the elements of the value. -/
theorem exists_elements_of_form? {f : Form} (hf : v.form? = some f) (hes : v.elements? = some es) :
    ∃ fs, forms? es = some fs ∧ f.elements? = some fs := by
  cases v with
  | list | vector | map | set =>
    cases hes
    obtain ⟨fs, hfs, rfl⟩ := Option.map_eq_some_iff.1 hf
    exact ⟨fs, hfs, rfl⟩
  | _ => cases hes

/-- The form of a value has at a place the form of the value there. -/
theorem exists_of_at? {f : Form} (hf : v.form? = some f) (h : v.at? path = some w) :
    ∃ g, w.form? = some g ∧ f.at? path = some g := by
  induction path generalizing v f with
  | nil =>
    cases h
    exact ⟨f, hf, rfl⟩
  | cons i path ih =>
    obtain ⟨es, u, hes, hu, h⟩ := mem_of_at? h
    obtain ⟨fs, hfs, hfes⟩ := exists_elements_of_form? hf hes
    obtain ⟨k, hk, hki⟩ := exists_of_forms? hfs hu
    obtain ⟨g, hg, hkg⟩ := ih hk h
    refine ⟨g, hg, ?_⟩
    rw [Form.at?, hfes]
    change (do (← fs[i]?).at? path) = some g
    rw [hki]
    exact hkg

/-! ### Names in quotes -/

/-- A name in quotes, wherever it stands in a template, is made from the text between the quotes.
The code has the name there, and so has the form that it evaluates to. This is the form that the
constructor makes from the literal itself if there is no backslash between the quotes, and only
then. -/
theorem exists_named_of_stands {sigil : Sigil} {joint : Bool} (hparse : parse tokens = .ok v)
    (hplace : Stands (sigil.quoted joint literal) (0 :: path) (unsignedAll tokens))
    (hliteral : Literal.string? literal = some text) :
    ∃ raw, literal = Literal.verbatim raw ∧ v.at? path = some (sigil.value raw) ∧
      (sigil.value raw).code <:+: v.code ∧
      evaluate (sigil.value raw).code = some (sigil.form raw) ∧
      (∀ f, v.form? = some f → evaluate v.code = some f ∧ f.at? path = some (sigil.form raw)) ∧
      evaluate (call sigil.constructor [literal]) = some (sigil.form text) ∧
      (sigil.form raw = sigil.form text ↔ '\\' ∉ raw.toList) := by
  obtain ⟨raw, rfl, hraw⟩ := Literal.exists_of_string? hliteral
  have hat : at? [v] (0 :: path) = some (sigil.value raw) :=
    hplace.at?_eq (sigil.denotes_quoted joint raw) (allOfTokens_of_parse hparse)
  refine ⟨raw, rfl, hat, code_infix_of_at? hat, evaluate_code (sigil.form?_value raw), ?_,
    sigil.evaluate_call hliteral, Sigil.form_inj.trans hraw⟩
  intro f hf
  obtain ⟨g, hg, hfg⟩ := exists_of_at? hf hat
  rw [sigil.form?_value] at hg
  cases hg
  exact ⟨evaluate_code hf, hfg⟩

/-- A symbol in quotes in a set in a list, with an escape in its name. -/
theorem exists_named_in_set_in_list :
    parse [.group .parenthesis [.name "x", .punctuation '#' false,
        .group .brace (Sigil.symbol.quoted false "\"a\\nb\"")]] =
      .ok (.list [.symbol "x", .set [.symbol "a\\nb"]]) ∧
    Literal.string? "\"a\\nb\"" = some "a\nb" ∧
    ∃ raw, Value.at? [1, 0] (.list [.symbol "x", .set [.symbol "a\\nb"]]) = some (.symbol raw) ∧
      Sigil.symbol.form raw ≠ Sigil.symbol.form "a\nb" := by
  have hquoted (rest : List Token) :
      Denotes (Sigil.symbol.quoted false "\"a\\nb\"" ++ rest) (.symbol "a\\nb") rest :=
    Sigil.symbol.denotes_quoted false "a\\nb" rest
  have hset : Denotes [.punctuation '#' false,
      .group .brace (Sigil.symbol.quoted false "\"a\\nb\"")]
      (.set [.symbol "a\\nb"]) [] :=
    denotes_set false [] (allOfTokens_cons (hquoted []) allOfTokens_nil)
  have hparse : parse [.group .parenthesis [.name "x", .punctuation '#' false,
      .group .brace (Sigil.symbol.quoted false "\"a\\nb\"")]] =
      .ok (.list [.symbol "x", .set [.symbol "a\\nb"]]) :=
    parse_of_denotes (denotes_list [] (allOfTokens_cons (denotes_name "x" _)
      (allOfTokens_cons hset allOfTokens_nil)))
  have hliteral : Literal.string? "\"a\\nb\"" = some "a\nb" :=
    Literal.string?_quoteInCode "a\nb"
  obtain ⟨raw, -, hat, -, -, -, -, hiff⟩ := exists_named_of_stands hparse
    (.inside (.group (by decide) _ []) (.next (denotes_name "x" _)
      (.inside (.set false _ []) (.here [])))) hliteral
  refine ⟨hparse, hliteral, raw, hat, fun heq => hiff.1 heq ?_⟩
  cases hat
  decide

end Template

end FormTree
