import FormTree.Proofs.Form.Data
import FormTree.Proofs.Number.Ratio
import FormTree.Proofs.Template.Evaluate
import FormTree.Proofs.Template.Tokens

/-!
# Templates agree with the reader

Data that is written as a template is the form that its text is read as: the tokens are parsed as a
whole, the code of the value evaluates to the form, and reading the text gives a form that says the
same. A name stands for a symbol whichever texts are names of the program's language.
-/

namespace FormTree

open Form Template

-- Powers are the core library's here, also below a library with another instance of them.
attribute [local instance (high)] instPowNat

variable {regex : RegexEngine} {f g : Form} {es : List Form}

/-! ### Parsing -/

/-- A token is not empty. -/
theorem ne_nil_of_isPlain {cs : List Char} (h : Token.isPlain cs = true) : cs ≠ [] := by
  rintro rfl
  cases h

/-- The text of a symbol that is read is that of no constant. -/
theorem ofName_of_interpret {resolver : Resolver} {s : Symbol}
    (h : Token.interpret resolver s.toText = .ok (.symbol s)) :
    ofName s.toText = .symbol s.toText := by
  unfold Token.interpret at h
  split at h
  · cases h
  split at h
  · cases h
  split at h
  · cases h
  rw [ofName, if_neg ‹_›, if_neg ‹_›, if_neg ‹_›]

/-- Whatever its size, an integer is written in digits with a sign apart. -/
theorem tokens_ofInt (isName : String → Bool) (n : Int) :
    (Form.ofInt n).tokens isName = integerTokens n := by
  rw [Form.ofInt, tokens, Number.toInt?_ofInt]
  rfl

theorem template_ofInt (n : Int) : (Form.ofInt n).template = integerValue n := by
  rw [Form.ofInt, template, Number.toInt?_ofInt]
  rfl

/-- Data that does not begin with a literal has a first token that is none. -/
theorem Form.IsData.tokens_append_ne (isName : String → Bool) (h : g.IsData regex)
    (hliteral : g.beginsWithLiteral = false) (rest tail : List Template.Token) (text : String) :
    g.tokens isName ++ rest ≠ .literal text :: tail := by
  cases h with
  | @integer n =>
    rw [Form.ofInt, beginsWithLiteral, Number.toInt?_ofInt] at hliteral
    have hneg : ¬ 0 ≤ n := by simpa using hliteral
    rw [tokens_ofInt, integerTokens, if_neg hneg]
    simp
  | string => cases hliteral
  | symbol h =>
    exact symbolTokens_append_ne isName (ne_nil_of_isPlain h.legal.isPlain_symbol.1) rest tail text
  | nil | bool | keyword | list | vector | map | set =>
    intro h
    cases h

/-- Elements are denoted one after the other, if no minus sign stands before a literal. -/
theorem allOfTokens_tokensOf (isName : String → Bool) (hes : ∀ f ∈ es, f.IsData regex)
    (hapart : es.IsChain MayPrecede)
    (h : ∀ f ∈ es, ∀ rest,
      (f.isMinus = true → ∀ text tail, rest ≠ Template.Token.literal text :: tail) →
        Denotes (f.tokens isName ++ rest) f.template rest) :
    allOfTokens (tokensOf isName es) = .ok (templates es) := by
  induction es with
  | nil => rw [tokensOf, allOfTokens, templates]
  | cons f rest ih =>
    have hrest := ih (fun g hg => hes g (List.mem_cons_of_mem f hg)) hapart.tail
      fun g hg => h g (List.mem_cons_of_mem f hg)
    refine allOfTokens_cons (h f List.mem_cons_self _ fun hminus text tail => ?_) hrest
    rcases rest with - | ⟨g, rest⟩
    · exact (List.cons_ne_nil _ _).symm
    · have hapart : f.MayPrecede g := (List.isChain_cons_cons.1 hapart).1
      exact (hes g (by simp)).tokens_append_ne isName (hapart hminus) _ tail text

theorem length_templates (es : List Form) : (templates es).length = es.length := by
  induction es with
  | nil => rfl
  | cons f rest ih => exact congrArg (· + 1) ih

/-- The tokens of data are parsed as the value that it is written as, unless a lone minus sign is
followed by a literal. -/
theorem Form.IsData.denotes_tokens (isName : String → Bool) (h : f.IsData regex) : ∀ rest,
    (f.isMinus = true → ∀ text tail, rest ≠ Template.Token.literal text :: tail) →
      Denotes (f.tokens isName ++ rest) f.template rest := by
  induction h with
  | nil => exact fun rest _ => denotes_name "nil" rest
  | bool b =>
    intro rest _
    cases b
    · exact denotes_name "false" rest
    · exact denotes_name "true" rest
  | @integer n =>
    intro rest _
    rw [tokens_ofInt, template_ofInt]
    exact denotes_integerTokens n rest
  | string => exact fun rest _ => denotes_literal _ rest
  -- a symbol that is a minus sign denotes itself only where no literal follows it
  | @symbol s h =>
    intro rest hrest
    obtain ⟨hplain, hread⟩ := h.legal.isPlain_symbol
    exact denotes_symbolTokens isName (ne_nil_of_isPlain hplain) (ofName_of_interpret hread)
      fun hminus => hrest (beq_iff_eq.2 hminus)
  | keyword => exact fun rest _ => denotes_colon false rest (ofColon_nameToken isName _)
  | list _ hes hapart ih =>
    exact fun rest _ => denotes_list rest (allOfTokens_tokensOf isName hes hapart ih)
  | vector hes hapart ih =>
    exact fun rest _ => denotes_vector rest (allOfTokens_tokensOf isName hes hapart ih)
  | @map es hes hapart heven ih =>
    intro rest _
    refine denotes_map rest (allOfTokens_tokensOf isName hes hapart ih) ?_
    rw [length_templates, heven]
  | set hes hapart ih =>
    exact fun rest _ => denotes_set false rest (allOfTokens_tokensOf isName hes hapart ih)

/-- **Data is parsed.** The tokens of data denote its template. -/
theorem Form.IsData.parse_tokens (isName : String → Bool) (h : f.IsData regex) :
    parse (f.tokens isName) = .ok f.template := by
  have hdenotes := h.denotes_tokens isName [] fun _ _ _ => (List.cons_ne_nil _ _).symm
  rw [List.append_nil, ← unsignedAll_tokens isName f] at hdenotes
  exact parse_of_denotes hdenotes

/-! ### Values -/

/-- The digits of a number denote it. -/
theorem magnitude?_toString (n : Nat) : magnitude? (toString n) = some n := by
  have hdigits : (toString n).toList = Nat.toDigits 10 n := Nat.toList_repr
  rw [magnitude?, hdigits, Numeral.value_toDigits,
    if_pos (Text.isNumeral_of_all (Numeral.all_toDigits n) Nat.toDigits_ne_nil)]

/-- A literal without escapes denotes what is between its quotes. -/
theorem literal?_verbatim {text : String} (h : text.toList.all Literal.isVerbatim = true) :
    literal? (Literal.verbatim text) = some (.string text) := by
  have hnone : magnitude? (Literal.verbatim text) = none := by
    rw [magnitude?, Literal.verbatim, String.toList_ofList]
    rfl
  rw [literal?, hnone, Literal.string?_verbatim h]
  rfl

/-- An integer with 32 bits is denoted by its literal. -/
theorem form?_integerValue {n : Int} (hle : -(2 ^ (31 : Nat)) ≤ n) (hlt : n < 2 ^ (31 : Nat)) :
    (integerValue n).form? = some (.ofInt n) := by
  rw [integerValue]
  split
  · rename_i hn
    have habs : (n.natAbs : Int) = n := Int.natAbs_of_nonneg hn
    rw [Value.form?, literal?, magnitude?_toString]
    dsimp only
    rw [if_pos (by omega), habs]
  · rename_i hn
    have habs : -(n.natAbs : Int) = n := by omega
    rw [Value.form?, negated?, magnitude?_toString]
    dsimp only
    rw [if_pos (by omega), habs]

theorem forms?_templates (h : ∀ f ∈ es, f.template.form? = some f.core) :
    forms? (templates es) = some (coreAll es) := by
  induction es with
  | nil => rw [templates, forms?, coreAll]
  | cons f rest ih =>
    have hrest := ih fun g hg => h g (List.mem_cons_of_mem f hg)
    rw [templates, forms?, h f List.mem_cons_self, hrest]
    rfl

/-- What data is written as denotes it. -/
theorem Form.IsData.form?_template (h : f.IsData regex) : f.template.form? = some f.core := by
  induction h with
  | nil | bool => rfl
  | integer hle hlt =>
    rw [template_ofInt]
    exact form?_integerValue hle hlt
  | string h =>
    refine literal?_verbatim (List.all_eq_true.2 fun c hc => ?_)
    obtain ⟨hquote, hbackslash, hreturn⟩ := h c hc
    simp [Literal.isVerbatim, hquote, hbackslash, hreturn]
  | symbol h =>
    have hparse := Symbol.parse_toText_of_interpret h.legal.isPlain_symbol.2
    exact congrArg (fun s => some (Form.symbol s)) hparse
  | keyword h =>
    have hparse := Keyword.parse_toText_of_interpret (Keyword.interpret_of_readsAsItself h)
    exact congrArg (fun k => some (Form.keyword k)) hparse
  | list _ _ _ ih | vector _ _ ih | map _ _ _ ih | set _ _ ih =>
    exact congrArg (Option.map _) (forms?_templates ih)

/-! ### Agreement -/

/-- **Templates agree with the reader.** The tokens of data are parsed to the last one, the code of
what they denote evaluates to a form that says the same as the data, and so does what is read from
its text; the two say the same as each other. -/
theorem Form.IsData.exists_parse_tokens (isName : String → Bool) (h : f.IsData regex)
    (hdepth : f.depth ≤ 256) :
    ∃ v a text b, parse (f.tokens isName) = .ok v ∧ evaluate v.code = some a ∧
      f.emit? = some text ∧ Form.ofText? regex text .standard = .ok b ∧ f.same a = true ∧
        f.same b = true ∧ b.same a = true := by
  obtain ⟨text, b, htext, hb, hfb, hbf⟩ := h.exists_ofText?_emit hdepth
  refine ⟨f.template, f.core, text, b, h.parse_tokens isName, evaluate_code h.form?_template, htext,
    hb, ?_, hfb, ?_⟩
  · exact (same_core_right f f).trans (same_of_core_eq h.isFaithful rfl)
  · exact (same_core_right b f).trans hbf

/-- A call with a lone minus sign, a negative number, a keyword with a namespace and a quoted
symbol. -/
theorem exists_parse_tokens_call :
    ∃ v a text b,
      parse ((Form.list .empty [.symbol (.simple "-"), .symbol (.simple "a-b"), .ofInt (-1),
        .map [.keyword (.parse "a/b"), .string "c"]]).tokens (· == "c")) = .ok v ∧
      evaluate v.code = some a ∧
      (Form.list .empty [.symbol (.simple "-"), .symbol (.simple "a-b"), .ofInt (-1),
        .map [.keyword (.parse "a/b"), .string "c"]]).emit? = some text ∧
      Form.ofText? .lenient text .standard = .ok b ∧
      (Form.list .empty [.symbol (.simple "-"), .symbol (.simple "a-b"), .ofInt (-1),
        .map [.keyword (.parse "a/b"), .string "c"]]).same a = true ∧
      (Form.list .empty [.symbol (.simple "-"), .symbol (.simple "a-b"), .ofInt (-1),
        .map [.keyword (.parse "a/b"), .string "c"]]).same b = true ∧ b.same a = true := by
  have hminus : (Form.symbol (.simple "-")).IsData .lenient :=
    .symbol (readsAsItself_symbol (by decide +kernel))
  have hname : (Form.symbol (.simple "a-b")).IsData .lenient :=
    .symbol (readsAsItself_symbol (by decide +kernel))
  have hkey : (Form.keyword (.parse "a/b")).IsData .lenient :=
    .keyword (readsAsItself_keyword (by decide +kernel))
  have hmap : (Form.map [.keyword (.parse "a/b"), .string "c"]).IsData .lenient := by
    refine .map ?_ (by decide) rfl
    simp only [List.mem_cons, List.not_mem_nil, or_false, forall_eq_or_imp, forall_eq]
    exact ⟨hkey, .string (by simp)⟩
  have hlist : (Form.list .empty [.symbol (.simple "-"), .symbol (.simple "a-b"), .ofInt (-1),
      .map [.keyword (.parse "a/b"), .string "c"]]).IsData .lenient := by
    refine .list _ ?_ (by decide)
    simp only [List.mem_cons, List.not_mem_nil, or_false, forall_eq_or_imp, forall_eq]
    exact ⟨hminus, hname, .integer (by decide) (by decide), hmap⟩
  exact hlist.exists_parse_tokens (· == "c") (by decide)

end FormTree
