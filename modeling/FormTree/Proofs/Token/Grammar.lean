import FormTree.Reader.Token
import Mathlib.Data.List.Infix
import Mathlib.Data.List.TakeWhile

/-!
# The grammar of tokens

Which tokens denote a symbol or keyword. A token is an optional colon, an optional namespace with a
slash behind it, and a name. A namespace may hold further slashes, a name may not, so that a text
splits in one way; but a colon at its beginning may be that of a keyword or a part of what comes
next, and it is the former where it can be.
-/

namespace FormTree.Token

open Text

/-- What stands before a name: nothing, or a text that begins with neither a digit nor a slash, and
a slash behind it. -/
inductive IsNamespace : List Char → Prop
  | absent : IsNamespace []
  | slashed {c : Char} (cs : List Char) (hdigit : isDigit c = false) (hslash : c ≠ '/') :
      IsNamespace (c :: (cs ++ ['/']))

/-- A name: a slash alone, or a text without slashes that does not begin with a digit. -/
inductive IsName : List Char → Prop
  | slash : IsName ['/']
  | plain {c : Char} {cs : List Char} (hdigit : isDigit c = false) (hslash : '/' ∉ c :: cs) :
      IsName (c :: cs)

/-- Whether a token is made of an optional colon, an optional namespace and a name. -/
structure IsSplit (token colon ns name : List Char) : Prop where
  colon_eq : colon = [] ∨ colon = [':']
  isNamespace : IsNamespace ns
  isName : IsName name
  token_eq : token = colon ++ (ns ++ name)

/-- Whether, besides, the colon at the beginning of the token is split off if it can be. -/
structure IsPreferred (token colon ns name : List Char) : Prop extends
    IsSplit token colon ns name where
  colon_of_isSplit : ∀ {ns' name' : List Char}, IsSplit token [':'] ns' name' → colon = [':']

/-- Whether the namespace is known that a text after two colons stands in: the one that what comes
before its first slash stands for, or the current namespace if it has no slash. -/
def IsResolved (resolver : Resolver) (text : List Char) : Prop :=
  if '/' ∈ text then
    ∃ ns, resolver.resolve? (String.ofList (text.takeWhile (· != '/'))) = some ns
  else ∃ ns, resolver.current? = some ns

/-- Whether a token is one of a symbol or keyword. Its namespace does not end with a colon before
the slash, and its name not with a colon; two colons stand next to each other at its beginning at
most, and if they do, the namespace that they ask for is known. -/
def IsGrammatical (resolver : Resolver) (token : List Char) : Prop :=
  ∃ colon ns name, IsPreferred token colon ns name ∧ ¬ [':', '/'] <:+ ns ∧ ¬ [':'] <:+ name ∧
    ¬ [':', ':'] <:+: token.tail ∧ ∀ text, token = ':' :: ':' :: text → IsResolved resolver text

variable {resolver : Resolver} {token colon ns name cs : List Char}

/-! ### Namespaces and names -/

theorem startsWell_cons {c : Char} : startsWell (c :: cs) = true ↔ isDigit c = false ∧ c ≠ '/' := by
  simp [startsWell]

/-- A namespace is nothing, or begins well and has its slash last. -/
theorem isNamespace_iff :
    IsNamespace ns ↔ ns = [] ∨ startsWell ns = true ∧ ∃ body, ns = body ++ ['/'] := by
  constructor
  · rintro (- | ⟨cs, hdigit, hslash⟩)
    · exact .inl rfl
    · exact .inr ⟨startsWell_cons.2 ⟨hdigit, hslash⟩, _ :: cs, rfl⟩
  · rintro (rfl | ⟨hstart, - | ⟨c, body⟩, rfl⟩)
    · exact .absent
    · cases hstart
    · obtain ⟨hdigit, hslash⟩ := startsWell_cons.1 hstart
      exact .slashed body hdigit hslash

/-- A name is a slash, or begins well and has none. -/
theorem isName_iff : IsName name ↔ name = ['/'] ∨ startsWell name = true ∧ '/' ∉ name := by
  constructor
  · rintro (- | ⟨hdigit, hslash⟩)
    · exact .inl rfl
    · exact .inr ⟨startsWell_cons.2 ⟨hdigit, fun h => hslash (h ▸ List.mem_cons_self)⟩, hslash⟩
  · rintro (rfl | ⟨hstart, hslash⟩)
    · exact .slash
    · rcases name with - | ⟨c, cs⟩
      · cases hstart
      · exact .plain (startsWell_cons.1 hstart).1 hslash

theorem IsName.ne_nil (h : IsName name) : name ≠ [] := by
  cases h <;> exact List.cons_ne_nil _ _

/-- What a text begins with tells how its first part does. -/
theorem startsWell_append {ds : List Char} (h : cs ≠ []) :
    startsWell (cs ++ ds) = startsWell cs := by
  rcases cs with - | ⟨c, cs⟩
  · exact absurd rfl h
  · rfl

/-! ### Splitting at the last slash -/

theorem all_ne_slash (h : '/' ∉ cs) : ∀ c ∈ cs, (c != '/') = true := by
  intro c hc
  rw [bne_iff_ne]
  rintro rfl
  exact h hc

/-- The last slash is the one behind the namespace, since a name has none. -/
theorem splitLast_append (hns : ns = [] ∨ ∃ body, ns = body ++ ['/']) (hname : '/' ∉ name) :
    splitLast (ns ++ name) = (ns, name) := by
  have hplain : ∀ c ∈ name.reverse, (c != '/') = true :=
    all_ne_slash fun hmem => hname (List.mem_reverse.1 hmem)
  have hstop : ns.reverse.takeWhile (· != '/') = [] := by
    rcases hns with rfl | ⟨body, rfl⟩
    · rfl
    · rw [List.reverse_append]
      rfl
  have htake : ((ns ++ name).reverse.takeWhile (· != '/')).reverse = name := by
    rw [List.reverse_append, List.takeWhile_append_of_pos hplain, hstop, List.append_nil,
      List.reverse_reverse]
  rw [splitLast, htake, List.length_append, Nat.add_sub_cancel, List.take_left]

/-- Splitting at the last slash splits the text. -/
theorem exists_splitLast_eq (cs : List Char) : ∃ ns name, splitLast cs = (ns, name) ∧
    cs = ns ++ name ∧ (ns = [] ∨ ∃ body, ns = body ++ ['/']) ∧ '/' ∉ name := by
  obtain ⟨ns, name, rfl, hns, hname⟩ : ∃ ns name, cs = ns ++ name ∧
      (ns = [] ∨ ∃ body, ns = body ++ ['/']) ∧ '/' ∉ name := by
    by_cases hslash : '/' ∈ cs
    · obtain ⟨name, body, hcs, hname⟩ := List.eq_append_cons_of_mem (List.mem_reverse.2 hslash)
      refine ⟨body.reverse ++ ['/'], name.reverse, ?_, .inr ⟨_, rfl⟩, by simpa using hname⟩
      rw [← List.reverse_reverse cs, hcs, List.reverse_append, List.reverse_cons]
    · exact ⟨[], cs, rfl, .inl rfl, hslash⟩
  exact ⟨ns, name, splitLast_append hns hname, rfl, hns, hname⟩

/-- A text that begins well splits at its last slash, or is a namespace and a slash for its name. -/
theorem parts?_of_startsWell (hstart : startsWell cs = true) (hsplit : splitLast cs = (ns, name)) :
    parts? cs =
      if startsWell name then some (ns, name)
      else if name.isEmpty && ns.dropLast.getLast? == some '/' then some (ns.dropLast, ['/'])
      else none := by
  have hslash : ¬ (cs == ['/']) = true := by
    rw [beq_iff_eq]
    rintro rfl
    cases hstart
  rw [parts?, if_neg hslash, if_neg (by simp [hstart]), hsplit]

/-- Where the slash of the namespace is all that a text ends with, the name is a slash. -/
theorem parts?_append (hns : IsNamespace ns) (hname : IsName name) :
    parts? (ns ++ name) = some (ns, name) := by
  rcases isNamespace_iff.1 hns with rfl | ⟨hstart, body, rfl⟩
  · rcases isName_iff.1 hname with rfl | ⟨hwell, hslash⟩
    · rfl
    · have hsplit : splitLast name = ([], name) := splitLast_append (.inl rfl) hslash
      rw [List.nil_append, parts?_of_startsWell hwell hsplit, if_pos hwell]
  · have htext : startsWell (body ++ ['/'] ++ name) = true := by
      rwa [startsWell_append (by simp)]
    rcases isName_iff.1 hname with rfl | ⟨hwell, hslash⟩
    · have hsplit : splitLast (body ++ ['/'] ++ ['/']) = (body ++ ['/'] ++ ['/'], []) := by
        have h : splitLast (body ++ ['/'] ++ ['/'] ++ []) = (body ++ ['/'] ++ ['/'], []) :=
          splitLast_append (.inr ⟨body ++ ['/'], rfl⟩) (by simp)
        rwa [List.append_nil] at h
      rw [parts?_of_startsWell htext hsplit, if_neg nofun, List.dropLast_concat, if_pos (by simp)]
    · rw [parts?_of_startsWell htext (splitLast_append (.inr ⟨body, rfl⟩) hslash), if_pos hwell]

/-- The namespace and the name of a text are those that it is made of. -/
theorem parts?_eq_some_iff :
    parts? cs = some (ns, name) ↔ IsNamespace ns ∧ IsName name ∧ cs = ns ++ name := by
  refine ⟨fun h => ?_, fun ⟨hns, hname, hcs⟩ => hcs ▸ parts?_append hns hname⟩
  -- a slash alone is a name; any other text begins well, and splits at its last slash
  by_cases hcs : cs = ['/']
  · subst hcs
    cases h
    exact ⟨.absent, .slash, rfl⟩
  by_cases hstart : startsWell cs = true
  · obtain ⟨before, after, hsplit, rfl, hbefore, hafter⟩ := exists_splitLast_eq cs
    rw [parts?_of_startsWell hstart hsplit] at h
    split at h
    · rename_i hwell
      cases h
      refine ⟨isNamespace_iff.2 (hbefore.imp_right fun hbody => ⟨?_, hbody⟩),
        isName_iff.2 (.inr ⟨hwell, hafter⟩), rfl⟩
      obtain ⟨body, rfl⟩ := hbody
      rwa [startsWell_append (by simp)] at hstart
    · -- the text ends with two slashes, and the last of them is the name
      obtain ⟨hlast, h⟩ := Option.ite_none_right_eq_some.1 h
      cases h
      rw [Bool.and_eq_true, List.isEmpty_iff, beq_iff_eq] at hlast
      obtain ⟨rfl, hlast⟩ := hlast
      obtain ⟨body, hbody⟩ := List.getLast?_eq_some_iff.1 hlast
      rcases hbefore with rfl | ⟨ns, rfl⟩
      · cases hstart
      · rw [List.dropLast_concat] at hbody ⊢
        subst hbody
        rw [List.append_nil, startsWell_append (by simp)] at hstart
        exact ⟨isNamespace_iff.2 (.inr ⟨hstart, body, rfl⟩), .slash, by simp⟩
  · rw [parts?, if_neg (by simpa using hcs), if_pos (by simpa using hstart)] at h
    cases h

/-! ### The colon of a keyword -/

/-- The parts behind a colon are those of the text without it. -/
theorem isSplit_append_iff {colon : List Char} (hcolon : colon = [] ∨ colon = [':']) :
    IsSplit (colon ++ cs) colon ns name ↔ parts? cs = some (ns, name) := by
  rw [parts?_eq_some_iff]
  constructor
  · intro h
    exact ⟨h.isNamespace, h.isName, List.append_cancel_left h.token_eq⟩
  · rintro ⟨hns, hname, rfl⟩
    exact ⟨hcolon, hns, hname, rfl⟩

theorem IsSplit.exists_eq_append (h : IsSplit token colon ns name) :
    ∃ cs, token = colon ++ cs ∧ parts? cs = some (ns, name) :=
  ⟨_, h.token_eq, parts?_append h.isNamespace h.isName⟩

/-- A token is checked in the split that is preferred. -/
theorem validated?_eq_some_iff :
    validated? token = some (ns, name) ↔ ∃ colon, IsPreferred token colon ns name := by
  constructor
  · intro h
    rw [validated?.eq_def] at h
    split at h
    · rename_i rest
      -- a colon in front is that of a keyword if the rest splits, and a part of the name otherwise
      rcases hparts : parts? rest with - | ⟨ns', name'⟩
      · rw [hparts] at h
        refine ⟨[], (isSplit_append_iff (.inl rfl)).2 h, fun hcolon => ?_⟩
        rw [(isSplit_append_iff (.inr rfl)).1 hcolon] at hparts
        cases hparts
      · rw [hparts] at h
        cases h
        exact ⟨[':'], (isSplit_append_iff (.inr rfl)).2 hparts, fun _ => rfl⟩
    · rename_i hcolon
      refine ⟨[], (isSplit_append_iff (.inl rfl)).2 h, fun hsplit => ?_⟩
      exact absurd hsplit.token_eq (hcolon _)
  · rintro ⟨colon, hsplit, hpreferred⟩
    obtain ⟨cs, rfl, hcs⟩ := hsplit.exists_eq_append
    rcases hsplit.colon_eq with rfl | rfl
    · rw [List.nil_append] at hpreferred ⊢
      rw [validated?.eq_def]
      split
      · rename_i rest
        rcases hparts : parts? rest with - | ⟨ns', name'⟩
        · exact hcs
        · cases hpreferred ((isSplit_append_iff (.inr rfl)).2 hparts)
      · exact hcs
    · have hread : validated? ([':'] ++ cs) = (parts? cs <|> parts? ([':'] ++ cs)) := rfl
      rw [hread, hcs]
      rfl

/-- There is one preferred split at most. -/
theorem IsPreferred.unique {colon' ns' name' : List Char} (h : IsPreferred token colon ns name)
    (h' : IsPreferred token colon' ns' name') : colon = colon' ∧ ns = ns' ∧ name = name' := by
  have hread := validated?_eq_some_iff.2 ⟨_, h⟩
  rw [validated?_eq_some_iff.2 ⟨_, h'⟩] at hread
  cases hread
  refine ⟨?_, rfl, rfl⟩
  have htoken := h.token_eq.symm.trans h'.token_eq
  exact List.append_cancel_right htoken

/-! ### Colons inside a token -/

/-- Two colons are found where they stand next to each other. -/
theorem hasDoubleColon_iff : hasDoubleColon cs = true ↔ [':', ':'] <:+: cs := by
  fun_induction hasDoubleColon cs with
  | case1 rest => simpa using (List.prefix_append [':', ':'] rest).isInfix
  | case2 c rest hcolons ih =>
    rw [ih, List.infix_cons_iff]
    refine ⟨.inr, fun h => h.resolve_left ?_⟩
    rintro ⟨rest', h⟩
    cases h
    exact hcolons rest' rfl rfl
  | case3 => simp

theorem colon_slash_isSuffix_iff :
    (ns.getLast? == some '/' && ns.dropLast.getLast? == some ':') = true ↔ [':', '/'] <:+ ns := by
  rw [Bool.and_eq_true, beq_iff_eq, beq_iff_eq, List.getLast?_eq_some_iff]
  constructor
  · rintro ⟨⟨body, rfl⟩, hcolon⟩
    rw [List.dropLast_concat, List.getLast?_eq_some_iff] at hcolon
    obtain ⟨body, rfl⟩ := hcolon
    exact ⟨body, by simp⟩
  · rintro ⟨body, rfl⟩
    exact ⟨⟨body ++ [':'], by simp⟩, by simp⟩

theorem colon_isSuffix_iff : name.getLast? = some ':' ↔ [':'] <:+ name := by
  rw [List.getLast?_eq_some_iff]
  exact exists_congr fun body => eq_comm

/-- What is left to check of a split are its colons. -/
theorem isValid_iff_of_validated? (h : validated? token = some (ns, name)) :
    isValid token = true ↔
      ¬ [':', '/'] <:+ ns ∧ ¬ [':'] <:+ name ∧ ¬ [':', ':'] <:+: token.tail := by
  rw [isValid, h]
  dsimp only
  rw [← colon_slash_isSuffix_iff, ← colon_isSuffix_iff, ← hasDoubleColon_iff, Bool.and_eq_true,
    Bool.and_eq_true, Bool.not_eq_true', Bool.not_eq_true', bne_iff_ne, and_assoc, Bool.not_eq_true,
    Bool.not_eq_true]

/-- What is checked of a token. -/
theorem isValid_iff : isValid token = true ↔ ∃ colon ns name, IsPreferred token colon ns name ∧
    ¬ [':', '/'] <:+ ns ∧ ¬ [':'] <:+ name ∧ ¬ [':', ':'] <:+: token.tail := by
  constructor
  · intro h
    rcases hread : validated? token with - | ⟨ns, name⟩
    · rw [isValid, hread] at h
      cases h
    · obtain ⟨colon, hsplit⟩ := validated?_eq_some_iff.1 hread
      exact ⟨colon, ns, name, hsplit, (isValid_iff_of_validated? hread).1 h⟩
  · rintro ⟨colon, ns, name, hsplit, h⟩
    exact (isValid_iff_of_validated? (validated?_eq_some_iff.2 ⟨colon, hsplit⟩)).2 h

/-! ### What two colons ask for -/

theorem parse_ofList_of_notMem (h : '/' ∉ cs) :
    Symbol.parse (String.ofList cs) = .simple (String.ofList cs) := by
  have hdrop : cs.dropWhile (· != '/') = [] := List.dropWhile_eq_nil_iff.2 (all_ne_slash h)
  rw [Symbol.parse, String.toList_ofList, List.span_eq_takeWhile_dropWhile, hdrop]
  split <;> rfl

/-- A text is stored around its first slash. -/
theorem parse_ofList_append {before after : List Char} (h : '/' ∉ before)
    (hne : before ≠ [] ∨ after ≠ []) :
    Symbol.parse (String.ofList (before ++ '/' :: after)) =
      ⟨some (String.ofList before), String.ofList after⟩ := by
  have htext : ¬ (String.ofList (before ++ '/' :: after) == "/") = true := by
    rw [beq_iff_eq, ← String.toList_inj, String.toList_ofList]
    intro htext
    have hsingle : before ++ '/' :: after = [] ++ '/' :: [] := htext
    rcases before with - | ⟨c, before⟩
    · exact hne.elim (absurd rfl) (absurd (List.cons.inj hsingle).2)
    · simp at hsingle
  have htake : (before ++ '/' :: after).takeWhile (· != '/') = before := by
    rw [List.takeWhile_append_of_pos (all_ne_slash h)]
    simp
  have hdrop : (before ++ '/' :: after).dropWhile (· != '/') = '/' :: after := by
    rw [List.dropWhile_append_of_pos (all_ne_slash h)]
    rfl
  rw [Symbol.parse, if_neg htext, String.toList_ofList,
    List.span_eq_takeWhile_dropWhile, htake, hdrop]

/-- Where a text has a slash, and is not one itself, its namespace is asked for. -/
theorem exists_resolved?_iff (hslash : cs ≠ ['/']) :
    (∃ k, resolved? resolver (String.ofList cs) = some k) ↔ IsResolved resolver cs := by
  rw [IsResolved]
  by_cases hmem : '/' ∈ cs
  · obtain ⟨before, after, rfl, hbefore⟩ := List.eq_append_cons_of_mem hmem
    have hne : before ≠ [] ∨ after ≠ [] := by
      rw [← not_and_or]
      rintro ⟨rfl, rfl⟩
      exact hslash rfl
    rw [if_pos hmem, resolved?, parse_ofList_append hbefore hne,
      List.takeWhile_append_of_pos (all_ne_slash hbefore)]
    simp
  · rw [if_neg hmem, resolved?, parse_ofList_of_notMem hmem]
    simp [Symbol.simple]

/-- A token denotes a name if it is valid and, with two colons, resolved. -/
theorem exists_named?_iff_isValid : (∃ f, named? resolver token = some f) ↔ isValid token = true ∧
    ∀ text, token = ':' :: ':' :: text → ∃ k, resolved? resolver (String.ofList text) = some k := by
  rw [named?.eq_def]
  by_cases hvalid : isValid token = true
  · rw [if_pos hvalid]
    split
    · simp [hvalid]
    · rename_i rest hrest
      simpa [hvalid] using fun text htext => absurd htext (hrest text)
    · rename_i hcolons _
      simpa [hvalid] using fun text htext => absurd htext (hcolons text)
  · simp [hvalid]

/-- **Names are grammatical.** A token denotes a symbol or keyword just if it is one by the
grammar. -/
theorem exists_named?_iff :
    (∃ f, named? resolver token = some f) ↔ IsGrammatical resolver token := by
  -- two colons and a slash are no token, so that a text with a slash has one before its name
  have hresolved (text : List Char) (hvalid : isValid (':' :: ':' :: text) = true) :
      (∃ k, resolved? resolver (String.ofList text) = some k) ↔ IsResolved resolver text := by
    refine exists_resolved?_iff ?_
    rintro rfl
    revert hvalid
    decide
  rw [exists_named?_iff_isValid, IsGrammatical]
  constructor
  · rintro ⟨hvalid, hk⟩
    obtain ⟨colon, ns, name, hsplit, hns, hname, hcolons⟩ := isValid_iff.1 hvalid
    refine ⟨colon, ns, name, hsplit, hns, hname, hcolons, fun text htext => ?_⟩
    exact (hresolved text (htext ▸ hvalid)).1 (hk text htext)
  · rintro ⟨colon, ns, name, hsplit, hns, hname, hcolons, hk⟩
    have hvalid := isValid_iff.2 ⟨colon, ns, name, hsplit, hns, hname, hcolons⟩
    exact ⟨hvalid, fun text htext => (hresolved text (htext ▸ hvalid)).2 (hk text htext)⟩

/-- The tokens that stand for other values would be symbols as well. -/
theorem exists_interpret_iff {text : String} :
    (∃ f, interpret resolver text = .ok f) ↔ ∃ f, named? resolver text.toList = some f := by
  have hname {text : String} (hvalid : isValid text.toList = true)
      (hcolon : text.toList.head? ≠ some ':') : ∃ f, named? resolver text.toList = some f := by
    refine exists_named?_iff_isValid.2 ⟨hvalid, fun rest hrest => ?_⟩
    rw [hrest] at hcolon
    exact absurd rfl hcolon
  by_cases hvalue : text = "nil" ∨ text = "true" ∨ text = "false"
  · rcases hvalue with rfl | rfl | rfl
    · exact iff_of_true ⟨_, rfl⟩ (hname (by decide) (by decide))
    · exact iff_of_true ⟨_, rfl⟩ (hname (by decide) (by decide))
    · exact iff_of_true ⟨_, rfl⟩ (hname (by decide) (by decide))
  · simp only [not_or] at hvalue
    obtain ⟨hnil, htrue, hfalse⟩ := hvalue
    rw [interpret, if_neg (by simpa using hnil), if_neg (by simpa using htrue),
      if_neg (by simpa using hfalse)]
    rcases named? resolver text.toList with - | f <;> simp

/-- **The grammar of tokens.** A token denotes something if and only if the grammar has it. -/
theorem exists_interpret_eq_ok_iff (resolver : Resolver) (text : String) :
    (∃ f, interpret resolver text = .ok f) ↔ IsGrammatical resolver text.toList :=
  exists_interpret_iff.trans exists_named?_iff

end FormTree.Token
