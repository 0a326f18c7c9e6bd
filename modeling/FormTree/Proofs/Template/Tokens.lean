import FormTree.Form.Basic
import FormTree.Proofs.Template.Literal

/-!
# Tokens of forms

How data is written in a template. A symbol is a name of the program's language, a run of operator
characters, or a hash sign before a string literal; a keyword is a colon before a name or a string
literal; integers and strings are literals, and sequences are groups. What is no data has no tokens.

Which texts are names is left open here: nothing depends on it, since a name and a string literal
give the same symbol. The tokens are parsed into the value that the form is written as, and all of
them are taken, unless a lone minus sign stands before a literal.
-/

namespace FormTree

/-! ### Writing -/

namespace Template

/-- The tokens of operator characters: each but the last one is joined to what follows. -/
def run : List Char → List Token
  | [] => []
  | [c] => [.punctuation c false]
  | c :: rest => .punctuation c true :: run rest

/-- The tokens of an integer. -/
def integerTokens (n : Int) : List Token :=
  if 0 ≤ n then [.literal (toString n.natAbs)]
  else [.punctuation '-' false, .literal (toString n.natAbs)]

/-- The value that an integer is written as. -/
def integerValue (n : Int) : Value :=
  if 0 ≤ n then .literal (toString n.natAbs) else .negated (toString n.natAbs)

/-- The token of a text where names and string literals may stand. -/
def nameToken (isName : String → Bool) (text : String) : Token :=
  if isName text then .name text else .literal (Literal.verbatim text)

/-- The tokens of a symbol. -/
def symbolTokens (isName : String → Bool) (text : String) : List Token :=
  if isName text then [.name text]
  else if text.toList.all isOperator then run text.toList
  else [.punctuation '#' false, .literal (Literal.verbatim text)]

end Template

namespace Form

open Template

section

variable (isName : String → Bool)

mutual

/-- The tokens of a form that is data. -/
def tokens : Form → List Token
  | .nil => [.name "nil"]
  | .bool b => [.name (if b then "true" else "false")]
  | .number n => (n.toInt?.map integerTokens).getD []
  | .string s => [.literal (Literal.verbatim s)]
  | .symbol s => symbolTokens isName s.toText
  | .keyword k => [.punctuation ':' false, nameToken isName k.symbol.toText]
  | .list _ es => [.group .parenthesis (tokensOf es)]
  | .group .vector es => [.group .square (tokensOf es)]
  | .group .map es => [.group .brace (tokensOf es)]
  | .group .set es => [.punctuation '#' false, .group .brace (tokensOf es)]
  | _ => []

/-- The tokens of forms one after the other. -/
def tokensOf : List Form → List Token
  | [] => []
  | f :: rest => f.tokens ++ tokensOf rest

end

end

mutual

/-- The value that a form is written as, if it is data. -/
def template : Form → Value
  | .bool b => .bool b
  | .number n => (n.toInt?.map integerValue).getD .nil
  | .string s => .literal (Literal.verbatim s)
  | .symbol s => .symbol s.toText
  | .keyword k => .keyword k.symbol.toText
  | .list _ es => .list (templates es)
  | .group .vector es => .vector (templates es)
  | .group .map es => .map (templates es)
  | .group .set es => .set (templates es)
  | _ => .nil

/-- The values that forms are written as. -/
def templates : List Form → List Value
  | [] => []
  | f :: rest => f.template :: templates rest

end

end Form

namespace Template

variable {t : Token} {tokens rest inside : List Token} {v : Value} {vs : List Value}

/-! ### Signs of literals -/

@[simp] theorem unsigned_punctuation (c : Char) (joint : Bool) :
    (Token.punctuation c joint).unsigned = [.punctuation c joint] := rfl

@[simp] theorem unsigned_group (bracket : Bracket) (tokens : List Token) :
    (Token.group bracket tokens).unsigned = [.group bracket (unsignedAll tokens)] := rfl

/-- Signs are split off token by token. -/
theorem unsignedAll_append (tokens rest : List Token) :
    unsignedAll (tokens ++ rest) = unsignedAll tokens ++ unsignedAll rest := by
  induction tokens with
  | nil => rfl
  | cons t tokens ih => rw [List.cons_append, unsignedAll, unsignedAll, ih, List.append_assoc]

/-- A literal without a sign is left as it is. -/
theorem unsigned_literal {text : String} (h : text.toList.head? ≠ some '-') :
    (Token.literal text).unsigned = [.literal text] := by
  rw [Token.unsigned]
  split
  · rename_i hminus
    rw [hminus] at h
    exact absurd rfl h
  · rfl

theorem unsigned_verbatim (text : String) :
    (Token.literal (Literal.verbatim text)).unsigned = [.literal (Literal.verbatim text)] := by
  refine unsigned_literal ?_
  rw [Literal.verbatim, String.toList_ofList]
  simp

/-- The digits of a natural number have no sign. -/
theorem unsigned_natural (n : Nat) :
    (Token.literal (toString n)).unsigned = [.literal (toString n)] := by
  refine unsigned_literal fun hminus => ?_
  have hmem : '-' ∈ Nat.toDigits 10 n := by
    rw [← Nat.toList_repr]
    exact List.mem_of_head? hminus
  have hdigit := List.all_eq_true.1 (Numeral.all_toDigits n) _ hmem
  exact absurd hdigit (by decide)

theorem unsignedAll_run (cs : List Char) : unsignedAll (run cs) = run cs := by
  fun_induction run cs with
  | case1 => rfl
  | case2 => rfl
  | case3 c rest _ ih => rw [unsignedAll, ih, unsigned_punctuation, List.singleton_append]

theorem unsignedAll_integerTokens (n : Int) : unsignedAll (integerTokens n) = integerTokens n := by
  rw [integerTokens]
  split <;> simp only [unsignedAll, unsigned_natural, unsigned_punctuation] <;> rfl

theorem unsigned_nameToken (isName : String → Bool) (text : String) :
    (nameToken isName text).unsigned = [nameToken isName text] := by
  rw [nameToken]
  split
  · rfl
  · exact unsigned_verbatim text

theorem unsignedAll_symbolTokens (isName : String → Bool) (text : String) :
    unsignedAll (symbolTokens isName text) = symbolTokens isName text := by
  rw [symbolTokens]
  split
  · rfl
  split
  · exact unsignedAll_run _
  · simp only [unsignedAll, unsigned_verbatim, unsigned_punctuation]
    rfl

end Template

namespace Form

open Template

mutual

/-- The literals of a form have no signs. -/
theorem unsignedAll_tokens (isName : String → Bool) : ∀ f : Form,
    unsignedAll (f.tokens isName) = f.tokens isName
  | .number n => by
    rw [tokens]
    rcases n.toInt? with - | n
    · rfl
    · exact unsignedAll_integerTokens n
  | .string s => by rw [tokens, unsignedAll, unsigned_verbatim, unsignedAll, List.append_nil]
  | .symbol s => by rw [tokens, unsignedAll_symbolTokens]
  | .keyword k => by simp [tokens, unsignedAll, unsigned_nameToken]
  | .list _ es | .group .vector es | .group .map es | .group .set es => by
    simp [tokens, unsignedAll, unsignedAll_tokensOf isName es]
  | .nil | .bool _ | .char _ | .pattern _ _ | .tagged _ _ | .marked _ _ | .annotated _ _ _ _
  | .backquoted _ _ | .charLiteral _ _ | .arg _ | .comment _ _ | .comma
  | .group (.conditional _ _) _ | .group .file _ => rfl

theorem unsignedAll_tokensOf (isName : String → Bool) : ∀ es : List Form,
    unsignedAll (tokensOf isName es) = tokensOf isName es
  | [] => rfl
  | f :: rest => by
    rw [tokensOf, unsignedAll_append, unsignedAll_tokens isName f, unsignedAll_tokensOf isName rest]

end

end Form

namespace Template

variable {t : Token} {tokens rest inside : List Token} {v : Value} {vs : List Value}

/-! ### Parsing -/

/-- Whether tokens begin with those of a value and go on like this. -/
def Denotes (tokens : List Token) (v : Value) (rest : List Token) : Prop :=
  ∃ h, ofTokens tokens = .ok (v, ⟨rest, h⟩)

theorem denotes_literal (text : String) (rest : List Token) :
    Denotes (.literal text :: rest) (.literal text) rest :=
  ⟨_, by rw [ofTokens]⟩

/-- A name denotes a constant or a symbol. -/
theorem denotes_name (text : String) (rest : List Token) :
    Denotes (.name text :: rest) (ofName text) rest :=
  ⟨_, by rw [ofTokens]⟩

/-- What stands between parentheses denotes a list of its elements. -/
theorem denotes_list (rest : List Token) (h : allOfTokens inside = .ok vs) :
    Denotes (.group .parenthesis inside :: rest) (.list vs) rest :=
  ⟨_, by
    rw [ofTokens, h]
    rfl⟩

theorem denotes_vector (rest : List Token) (h : allOfTokens inside = .ok vs) :
    Denotes (.group .square inside :: rest) (.vector vs) rest :=
  ⟨_, by
    rw [ofTokens, h]
    rfl⟩

/-- What stands between braces denotes a map if its elements are even in number. -/
theorem denotes_map (rest : List Token) (h : allOfTokens inside = .ok vs)
    (heven : vs.length % 2 = 0) : Denotes (.group .brace inside :: rest) (.map vs) rest := by
  refine ⟨sizeOf_lt_cons _ _, ?_⟩
  have hodd : ¬ (vs.length % 2 == 1) = true := by simp [heven]
  rw [ofTokens, h]
  change (if (vs.length % 2 == 1) = true then _ else _) = _
  rw [if_neg hodd]
  rfl

/-- Behind a hash sign braces denote a set. -/
theorem denotes_set (joint : Bool) (rest : List Token) (h : allOfTokens inside = .ok vs) :
    Denotes (.punctuation '#' joint :: .group .brace inside :: rest) (.set vs) rest :=
  ⟨_, by
    rw [ofTokens, if_pos (by decide), h]
    rfl⟩

theorem denotes_quotedSymbol (joint : Bool) (text : String) (rest : List Token) :
    Denotes (.punctuation '#' joint :: .literal (Literal.verbatim text) :: rest)
      (.symbol text) rest :=
  ⟨_, by
    rw [ofTokens, if_pos (by decide), Literal.stringText?_verbatim]
    rfl⟩

theorem denotes_colon (joint : Bool) (rest : List Token) (h : ofColon t = .ok v) :
    Denotes (.punctuation ':' joint :: t :: rest) v rest :=
  ⟨_, by
    rw [ofTokens.eq_def]
    dsimp only
    rw [if_neg (by decide), if_neg (by decide), if_pos (by decide), h]
    rfl⟩

/-- Operator characters that stand together denote one symbol. -/
theorem denotes_operator {c : Char} (hc : isOperator c = true) (joint : Bool) (rest : List Token) :
    Denotes (.punctuation c joint :: rest) (ofOperator c joint rest).1
      (ofOperator c joint rest).2 := by
  have hne {d : Char} (hd : isOperator d = false) : ¬ (c == d) = true := by
    intro h
    rw [eq_of_beq h, hd] at hc
    cases hc
  refine ⟨Nat.lt_of_le_of_lt (sizeOf_ofOperator_le ..) (sizeOf_lt_cons ..), ?_⟩
  rw [ofTokens.eq_def]
  dsimp only
  rw [if_neg (hne rfl), if_neg (hne rfl), if_neg (hne rfl), if_pos hc]

/-- A run of operator characters ends where it was written to end. -/
theorem operatorRun_run {cs : List Char} (hne : cs ≠ []) (hall : cs.all isOperator = true)
    (rest : List Token) : operatorRun (run cs ++ rest) = (cs, rest) := by
  fun_induction run cs with
  | case1 => exact absurd rfl hne
  | case2 c =>
    have hc : isOperator c = true := by simpa using hall
    simp [operatorRun, hc]
  | case3 c cs hcs ih =>
    obtain ⟨hc, hall⟩ := Bool.and_eq_true_iff.1 hall
    have hrest := ih (fun h => hcs h) hall
    simp [operatorRun, hc, hrest]

/-- A run of operator characters is a symbol, but for a minus sign that is taken for a sign. -/
theorem denotes_run {cs : List Char} (hne : cs ≠ []) (hall : cs.all isOperator = true)
    (hrest : cs = ['-'] → ∀ text tail, rest ≠ .literal text :: tail) :
    Denotes (run cs ++ rest) (.symbol (String.ofList cs)) rest := by
  rcases cs with - | ⟨c, - | ⟨d, cs⟩⟩
  · exact absurd rfl hne
  · have hc : isOperator c = true := by simpa using hall
    have halone : ofOperator c false rest = (.symbol (String.ofList [c]), rest) := by
      rw [ofOperator.eq_def, if_neg (by decide)]
      split
      · exact absurd rfl (hrest rfl _ _)
      · rfl
    have h := denotes_operator hc false rest
    rwa [halone] at h
  · obtain ⟨hc, hall⟩ := Bool.and_eq_true_iff.1 hall
    have hjoint : ofOperator c true (run (d :: cs) ++ rest) =
        (.symbol (String.ofList (c :: d :: cs)), rest) := by
      rw [ofOperator.eq_def, if_pos rfl, operatorRun_run (List.cons_ne_nil _ _) hall]
    have h := denotes_operator hc true (run (d :: cs) ++ rest)
    rwa [hjoint] at h

/-- The tokens of a symbol are that symbol where its text is no other constant. -/
theorem denotes_symbolTokens (isName : String → Bool) {text : String} (hne : text.toList ≠ [])
    (hname : ofName text = .symbol text)
    (hrest : text = "-" → ∀ literal tail, rest ≠ .literal literal :: tail) :
    Denotes (symbolTokens isName text ++ rest) (.symbol text) rest := by
  rw [symbolTokens]
  split
  · rw [← hname]
    exact denotes_name text rest
  split
  · rename_i hall
    have h : Denotes (run text.toList ++ rest) (.symbol (String.ofList text.toList)) rest :=
      denotes_run hne hall fun h => hrest (String.toList_inj.1 h)
    rwa [String.ofList_toList] at h
  · exact denotes_quotedSymbol false text rest

theorem ofColon_nameToken (isName : String → Bool) (text : String) :
    ofColon (nameToken isName text) = .ok (.keyword text) := by
  rw [nameToken]
  split
  · rfl
  · rw [ofColon, Literal.stringText?_verbatim]
    rfl

/-- The tokens of an integer denote it, its sign included. -/
theorem denotes_integerTokens (n : Int) (rest : List Token) :
    Denotes (integerTokens n ++ rest) (integerValue n) rest := by
  rw [integerTokens, integerValue]
  split
  · exact denotes_literal _ rest
  · exact denotes_operator (by decide) false (.literal (toString n.natAbs) :: rest)

/-- The first token of a symbol is no literal. -/
theorem symbolTokens_append_ne (isName : String → Bool) {text : String} (hne : text.toList ≠ [])
    (rest tail : List Token) (literal : String) :
    symbolTokens isName text ++ rest ≠ .literal literal :: tail := by
  rw [symbolTokens]
  split
  · simp
  split
  · rcases htext : text.toList with - | ⟨c, - | ⟨d, cs⟩⟩
    · exact absurd htext hne
    · simp [run]
    · simp [run]
  · simp

/-- A first element and others are all of the tokens. -/
theorem allOfTokens_cons (h : Denotes tokens v rest) (hrest : allOfTokens rest = .ok vs) :
    allOfTokens tokens = .ok (v :: vs) := by
  obtain ⟨hlt, h⟩ := h
  rcases tokens with - | ⟨t, tokens⟩
  · rw [ofTokens] at h
    cases h
  · rw [allOfTokens, h]
    change (do return v :: (← allOfTokens rest) : Except TemplateError _) = _
    rw [hrest]
    rfl

/-- Tokens of a value with nothing behind them are parsed. -/
theorem parse_of_denotes (h : Denotes (unsignedAll tokens) v []) : parse tokens = .ok v := by
  obtain ⟨hlt, h⟩ := h
  rw [parse, h]
  rfl

end Template

end FormTree
