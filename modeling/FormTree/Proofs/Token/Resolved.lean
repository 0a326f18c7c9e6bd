import FormTree.Proofs.Token.Stored

/-!
# Resolved keywords

A keyword by two colons is checked as it is written and stored in the namespace that it was resolved
to, so that its text is another token. That token denotes the keyword again unless a name without a
namespace begins with a digit: behind the colons any character may begin it, behind a namespace a
digit may not.
-/

namespace FormTree

namespace NamespaceTable

/-- The names of the namespaces in a table. -/
def names (t : NamespaceTable) : List String := t.current :: (t.aliases.map Prod.snd ++ t.known)

/-- Every namespace that is resolved to is in the table. -/
theorem name_mem_names {t : NamespaceTable} {ns : Symbol}
    (h : t.toResolver.current? = some ns ∨ ∃ short, t.toResolver.resolve? short = some ns) :
    ns.name ∈ t.names := by
  rw [names]
  rcases h with h | ⟨short, h⟩
  · cases h
    exact List.mem_cons_self
  · have h : t.resolve? short = some ns := h
    rw [resolve?] at h
    split at h
    · rename_i target htarget
      cases h
      obtain ⟨_, _, haliases, -⟩ := List.lookup_eq_some_iff.1 htarget
      have hmem : target ∈ t.aliases.map Prod.snd := by simp [haliases]
      exact List.mem_cons_of_mem _ (List.mem_append_left _ hmem)
    · obtain ⟨hknown, h⟩ := Option.ite_none_right_eq_some.1 h
      cases h
      have hmem : short ∈ t.known := by simpa using hknown
      exact List.mem_cons_of_mem _ (List.mem_append_right _ hmem)

end NamespaceTable

namespace Token

open Text

/-- Whether a text is the name of a namespace: it does not begin with a digit, and it has neither
slashes nor colons in it. -/
structure IsNamespaceName (ns : List Char) : Prop where
  ne_nil : ns ≠ []
  digit : ∀ c ∈ ns.head?, isDigit c = false
  slash : '/' ∉ ns
  colon : ':' ∉ ns

variable {resolver : Resolver} {rest ns name cs : List Char}

theorem IsNamespaceName.startsWell (h : IsNamespaceName ns) : startsWell ns = true := by
  rcases ns with - | ⟨c, cs⟩
  · exact absurd rfl h.ne_nil
  · exact startsWell_cons.2 ⟨h.digit c rfl, fun hc => h.slash (hc ▸ List.mem_cons_self)⟩

/-- So are the runs of letters, digits, dots and hyphens that begin with a letter. -/
theorem IsNamespaceName.of_isAlpha {c : Char} (hc : c.isAlpha = true)
    (hcs : cs.all (fun d => d.isAlphanum || d == '.' || d == '-') = true) :
    IsNamespaceName (c :: cs) := by
  have hdigit : isDigit c = false := by
    delta Char.isAlpha Char.isUpper Char.isLower at hc
    simp [isDigit, Char.le_def, UInt32.le_iff_toNat_le] at hc ⊢
    omega
  have hne {d : Char} (halpha : d.isAlpha = false)
      (hd : (d.isAlphanum || d == '.' || d == '-') = false) : d ∉ c :: cs := by
    rw [List.mem_cons, not_or]
    constructor
    · rintro rfl
      rw [hc] at halpha
      cases halpha
    · intro hmem
      rw [List.all_eq_true.1 hcs d hmem] at hd
      cases hd
  refine ⟨List.cons_ne_nil _ _, ?_, hne (by decide) (by decide), hne (by decide) (by decide)⟩
  rintro _ ⟨⟩
  exact hdigit

/-! ### Keywords by two colons -/

/-- Of two colons the first one can be split off. -/
theorem IsSplit.exists_colon {colon : List Char} (h : IsSplit (':' :: ':' :: rest) colon ns name) :
    ∃ ns name, IsSplit (':' :: ':' :: rest) [':'] ns name := by
  have htext := h.token_eq
  have hcolon : isDigit ':' = false ∧ ':' ≠ '/' := by decide
  rcases h.colon_eq with rfl | rfl
  · rcases h.isNamespace with - | ⟨body, -, -⟩
    · rcases h.isName with - | ⟨-, hslash⟩ <;> cases htext
      refine ⟨[], ':' :: rest, .inr rfl, .absent, .plain hcolon.1 ?_, rfl⟩
      exact fun hmem => hslash (List.mem_cons_of_mem _ hmem)
    · rcases body with - | ⟨c, body⟩ <;> cases htext
      exact ⟨':' :: (body ++ ['/']), name, .inr rfl, .slashed body hcolon.1 hcolon.2, h.isName, rfl⟩
  · exact ⟨ns, name, h⟩

/-- The second colon is a part of the namespace or of the name. -/
theorem isValid_colons_iff : isValid (':' :: ':' :: rest) = true ↔
    ∃ ns name, IsNamespace ns ∧ IsName name ∧ ':' :: rest = ns ++ name ∧
      ¬ [':', '/'] <:+ ns ∧ ¬ [':'] <:+ name ∧ ¬ [':', ':'] <:+: ':' :: rest := by
  rw [isValid_iff]
  constructor
  · rintro ⟨colon, ns, name, ⟨hsplit, hpreferred⟩, h⟩
    obtain ⟨ns', name', hsplit'⟩ := hsplit.exists_colon
    obtain rfl := hpreferred hsplit'
    exact ⟨ns, name, hsplit.isNamespace, hsplit.isName, (List.cons.inj hsplit.token_eq).2, h⟩
  · rintro ⟨ns, name, hns, hname, htext, h⟩
    exact ⟨[':'], ns, name, ⟨⟨.inr rfl, hns, hname, congrArg (':' :: ·) htext⟩, fun _ => rfl⟩, h⟩

/-- A keyword by two colons is one in a namespace that the table knows. -/
theorem exists_of_resolved? {text : String} {k : Keyword} (h : resolved? resolver text = some k) :
    ∃ ns, (resolver.current? = some ns ∨ ∃ short, resolver.resolve? short = some ns) ∧
      k = ⟨⟨some ns.name, (Symbol.parse text).name⟩⟩ := by
  obtain ⟨ns, hns, rfl⟩ := Option.map_eq_some_iff.1 h
  refine ⟨ns, ?_, rfl⟩
  split at hns
  · exact .inr ⟨_, hns⟩
  · exact .inl hns

/-! ### The text of a keyword -/

/-- Behind characters other than colons two colons stand next to each other if they do in what comes
after these. -/
theorem colons_infix_append {before : List Char} (h : ':' ∉ before) :
    [':', ':'] <:+: before ++ cs ↔ [':', ':'] <:+: cs := by
  induction before with
  | nil => rfl
  | cons c before ih =>
    rw [List.mem_cons, not_or] at h
    rw [List.cons_append, List.infix_cons_iff, ih h.2]
    refine or_iff_right ?_
    rintro ⟨_, hprefix⟩
    exact h.1 (List.cons.inj hprefix).1

theorem interpret_eq_ok_iff_of_colon {text : String} {f : Form} (h : text.toList = ':' :: cs) :
    interpret resolver text = .ok f ↔ named? resolver text.toList = some f := by
  have hne (value : String) (hvalue : value.toList.head? ≠ some ':') :
      ¬ (text == value) = true := by
    rw [beq_iff_eq]
    rintro rfl
    rw [h] at hvalue
    exact hvalue rfl
  rw [interpret, if_neg (hne "nil" (by decide)), if_neg (hne "true" (by decide)),
    if_neg (hne "false" (by decide))]
  rcases named? resolver text.toList with - | g <;> simp

/-- A keyword by one colon is valid, and is stored as its text without the colon. -/
theorem named?_of_colon (h : cs.head? ≠ some ':') : named? resolver (':' :: cs) =
    if isValid (':' :: cs) then some (.keyword (.parse (String.ofList cs))) else none := by
  rcases cs with - | ⟨c, cs⟩
  · rfl
  · have hc : c ≠ ':' := fun hc => h (congrArg some hc)
    simp [named?, hc]

/-- The text of a keyword in a namespace denotes it if it is valid. -/
theorem interpret_toText_iff_isValid (resolver : Resolver) (hns : IsNamespaceName ns)
    (name : List Char) :
    interpret resolver (Keyword.mk ⟨some (String.ofList ns), String.ofList name⟩).toText =
        .ok (.keyword ⟨⟨some (String.ofList ns), String.ofList name⟩⟩) ↔
      isValid (':' :: (ns ++ '/' :: name)) = true := by
  have htext : (Keyword.mk ⟨some (String.ofList ns), String.ofList name⟩).toText.toList =
      ':' :: (ns ++ '/' :: name) := by
    simp [Keyword.toText, Symbol.toList_toText, Symbol.qualifier]
  have hhead : (ns ++ '/' :: name).head? ≠ some ':' := by
    rcases ns with - | ⟨c, ns⟩
    · exact absurd rfl hns.ne_nil
    · exact fun hc => hns.colon (Option.some.inj hc ▸ List.mem_cons_self)
  rw [interpret_eq_ok_iff_of_colon htext, htext, named?_of_colon hhead, Keyword.parse,
    parse_ofList_append hns.slash (.inl hns.ne_nil)]
  split
  · rename_i hvalid
    exact iff_of_true rfl hvalid
  · rename_i hvalid
    exact iff_of_false (Option.some_ne_none _).symm hvalid

/-! ### What is checked of it -/

/-- Behind a namespace no name begins with a digit. -/
theorem isValid_eq_false_of_not_startsWell (hns : IsNamespaceName ns)
    (hname : startsWell name = false)
    (hslash : '/' ∉ name) (hne : name ≠ []) : isValid (':' :: (ns ++ '/' :: name)) = false := by
  have hnone {body : List Char} (hbody : startsWell (body ++ ['/']) = true) :
      parts? (body ++ ['/'] ++ name) = none := by
    have hstart : startsWell (body ++ ['/'] ++ name) = true := by
      rwa [startsWell_append (by simp)]
    rw [parts?_of_startsWell hstart (splitLast_append (.inr ⟨body, rfl⟩) hslash),
      if_neg (by simp [hname]),
      if_neg (by simp [hne])]
  have htext : ns ++ '/' :: name = ns ++ ['/'] ++ name := by simp
  have hwell : startsWell (ns ++ ['/']) = true := by
    rw [startsWell_append hns.ne_nil, hns.startsWell]
  have hread : validated? (':' :: (ns ++ '/' :: name)) = none := by
    have hread : validated? (':' :: (ns ++ '/' :: name)) =
        (parts? (ns ++ '/' :: name) <|> parts? (':' :: (ns ++ '/' :: name))) := rfl
    have hcolon : parts? (':' :: ns ++ ['/'] ++ name) = none := hnone rfl
    rw [hread, htext, hnone hwell]
    exact hcolon
  rw [isValid, hread]

/-- Between the namespace and the name of a keyword there may be more namespaces. -/
theorem isValid_of_isName {between : List Char} (hns : IsNamespaceName ns) (hname : IsName name)
    (hbetween : ∃ body, between = body ++ ['/']) (hslash : ¬ [':', '/'] <:+ ns ++ between)
    (hlast : ¬ [':'] <:+ name) (hcolons : ¬ [':', ':'] <:+: between ++ name) :
    isValid (':' :: (ns ++ between ++ name)) = true := by
  obtain ⟨body, rfl⟩ := hbetween
  have hnamespace : IsNamespace (ns ++ (body ++ ['/'])) := by
    refine isNamespace_iff.2 (.inr ⟨?_, ns ++ body, by simp⟩)
    rw [startsWell_append hns.ne_nil, hns.startsWell]
  refine isValid_iff.2 ⟨[':'], _, name, ⟨⟨.inr rfl, hnamespace, hname, rfl⟩, fun _ => rfl⟩, hslash,
    hlast, ?_⟩
  rwa [List.tail_cons, List.append_assoc, colons_infix_append hns.colon]

/-- A namespace name has no colon before the slash behind it. -/
theorem not_colon_slash_isSuffix (hns : IsNamespaceName ns) : ¬ [':', '/'] <:+ ns ++ ['/'] := by
  rintro ⟨before, h⟩
  have htext : before ++ [':'] ++ ['/'] = ns ++ ['/'] := by simpa using h
  rw [← List.append_cancel_right htext] at hns
  exact hns.colon (by simp)

/-- A name by two colons that has no slash is one behind a namespace if it begins as a name does. -/
theorem isValid_iff_startsWell (hns : IsNamespaceName ns) (hslash : '/' ∉ name) (hne : name ≠ [])
    (hlast : ¬ [':'] <:+ name) (hcolons : ¬ [':', ':'] <:+: name) :
    isValid (':' :: (ns ++ '/' :: name)) = true ↔ startsWell name = true := by
  by_cases hstart : startsWell name = true
  · refine iff_of_true ?_ hstart
    have hcolons : ¬ [':', ':'] <:+: ['/'] ++ name := by
      rwa [colons_infix_append (by decide)]
    have h := isValid_of_isName hns (isName_iff.2 (.inr ⟨hstart, hslash⟩)) ⟨[], rfl⟩
      (not_colon_slash_isSuffix hns) hlast hcolons
    simpa using h
  · refine iff_of_false ?_ hstart
    rw [isValid_eq_false_of_not_startsWell hns (by simpa using hstart) hslash hne]
    exact Bool.false_ne_true

/-- A text with a slash keeps what was checked of it, whatever its first namespace is. -/
theorem isValid_parse_of_slash {body : List Char} (hns : IsNamespaceName ns) (hname : IsName name)
    (hslash : ¬ [':', '/'] <:+ ':' :: (body ++ ['/'])) (hlast : ¬ [':'] <:+ name)
    (hcolons : ¬ [':', ':'] <:+: body ++ '/' :: name) :
    isValid (':' :: (ns ++ '/' ::
      (Symbol.parse (String.ofList (body ++ '/' :: name))).name.toList)) = true := by
  by_cases hmem : '/' ∈ body
  · obtain ⟨before, after, rfl, hbefore⟩ := List.eq_append_cons_of_mem hmem
    have hparse : Symbol.parse (String.ofList (before ++ '/' :: (after ++ '/' :: name))) =
        ⟨some (String.ofList before), String.ofList (after ++ '/' :: name)⟩ :=
      parse_ofList_append hbefore (.inr (by simp))
    rw [List.append_assoc, List.cons_append] at hcolons ⊢
    rw [hparse, String.toList_ofList]
    -- what is checked before the name ends with this slash
    have hsuffix : '/' :: (after ++ ['/']) <:+ ':' :: (before ++ '/' :: after ++ ['/']) :=
      ⟨':' :: before, by simp⟩
    have hbetween : ¬ [':', '/'] <:+ ns ++ '/' :: (after ++ ['/']) := fun h =>
      hslash ((List.suffix_of_suffix_length_le h (List.suffix_append _ _) (by simp)).trans hsuffix)
    have hinfix : ¬ [':', ':'] <:+: '/' :: (after ++ ['/']) ++ name := by
      refine fun h => hcolons (h.trans ⟨before, [], by simp⟩)
    have h := isValid_of_isName hns hname ⟨'/' :: after, rfl⟩ hbetween hlast hinfix
    simpa using h
  · rw [parse_ofList_append hmem (.inr hname.ne_nil), String.toList_ofList]
    have hinfix : ¬ [':', ':'] <:+: ['/'] ++ name := fun h => hcolons (h.trans ⟨body, [], by simp⟩)
    have h := isValid_of_isName hns hname ⟨[], rfl⟩ (not_colon_slash_isSuffix hns) hlast hinfix
    simpa using h

theorem isValid_iff_of_colons (hns : IsNamespaceName ns)
    (hvalid : isValid (':' :: ':' :: rest) = true) :
    isValid (':' :: (ns ++ '/' :: (Symbol.parse (String.ofList rest)).name.toList)) = true ↔
      ¬ ∃ d cs, rest = d :: cs ∧ isDigit d = true ∧ '/' ∉ rest := by
  obtain ⟨before, name, hbefore, hname, htext, hslash, hlast, hcolons⟩ :=
      isValid_colons_iff.1 hvalid
  -- without a slash the name may begin with a digit behind two colons, and may not behind a slash
  rcases hbefore with - | ⟨body, -, -⟩
  · obtain rfl : ':' :: rest = name := htext
    have hmem : '/' ∉ rest := by
      rcases hname.eq_or with h | ⟨-, h⟩
      · cases h
      · exact fun hmem => h (List.mem_cons_of_mem _ hmem)
    have hne : rest ≠ [] := by
      rintro rfl
      exact hlast List.suffix_rfl
    rw [parse_ofList_of_notMem hmem, Symbol.simple, String.toList_ofList,
      isValid_iff_startsWell hns hmem hne (fun h => hlast (h.trans (List.suffix_cons _ _)))
        fun h => hcolons (h.trans (List.suffix_cons _ _).isInfix)]
    rcases rest with - | ⟨d, cs⟩
    · exact absurd rfl hne
    · have hd : d ≠ '/' := fun hd => hmem (hd ▸ List.mem_cons_self)
      rw [startsWell_cons]
      constructor
      · rintro ⟨hdigit, -⟩ ⟨_, _, hcons, hdigit', -⟩
        cases hcons
        rw [hdigit] at hdigit'
        cases hdigit'
      · intro h
        refine ⟨?_, hd⟩
        rw [← Bool.not_eq_true]
        exact fun hdigit => h ⟨d, cs, rfl, hdigit, hmem⟩
  -- with a slash the name is the one behind it, which has been checked already
  · obtain ⟨rfl, hrest⟩ := List.cons.inj htext
    obtain rfl : rest = body ++ '/' :: name := by
      rw [hrest]
      simp
    refine iff_of_true ?_ ?_
    · exact isValid_parse_of_slash hns hname hslash hlast
        fun h => hcolons (h.trans (List.suffix_cons _ _).isInfix)
    · rintro ⟨d, cs, -, -, hmem⟩
      exact hmem (by simp)

/-! ### Keywords from their text -/

/-- A keyword by two colons is valid as it is written, and is resolved. -/
theorem named?_colons {text : List Char} {f : Form}
    (h : named? resolver (':' :: ':' :: text) = some f) :
    isValid (':' :: ':' :: text) = true ∧
      ∃ k, resolved? resolver (String.ofList text) = some k ∧ f = .keyword k := by
  obtain ⟨hvalid, hread⟩ := Option.ite_none_right_eq_some.1 h
  obtain ⟨k, hk, rfl⟩ := Option.map_eq_some_iff.1 hread
  exact ⟨hvalid, k, hk, rfl⟩

/-- A keyword by one colon has the text of its token. -/
theorem toText_of_named? {k : Keyword} (h : named? resolver cs = some (.keyword k))
    (hcolons : ¬ [':', ':'] <+: cs) : k.toText.toList = cs := by
  have h : named? resolver cs = some (k.symbol.toForm true) := h
  obtain ⟨-, -, text, rfl, hk⟩ := exists_eq_parse_of_named? h fun _ => hcolons
  rw [Keyword.toText, hk, Symbol.toText_parse]
  simp [colonOf]

/-- **The text of a keyword.** Where all namespaces have names of their own kind, the text of a
keyword denotes the keyword that a token denotes, unless it was resolved from two colons and a name
that begins with a digit. -/
theorem interpret_keyword_toText_iff {table : NamespaceTable}
    (htable : ∀ ns ∈ table.names, IsNamespaceName ns.toList) {text : String} {k : Keyword}
    (h : interpret table.toResolver text = .ok (.keyword k)) :
    interpret table.toResolver k.toText = .ok (.keyword k) ↔
      ¬ ∃ d cs, text.toList = ':' :: ':' :: d :: cs ∧ isDigit d = true ∧ '/' ∉ d :: cs := by
  have hform : interpret table.toResolver text = .ok (k.symbol.toForm true) := h
  have hnamed : named? table.toResolver text.toList = some (.keyword k) :=
    named?_of_interpret_toForm hform
  -- only two colons make the text of the keyword another token than the one read
  by_cases hcolons : [':', ':'] <+: text.toList
  · obtain ⟨rest, htext⟩ := hcolons
    have htext : text.toList = ':' :: ':' :: rest := htext.symm
    rw [htext] at hnamed ⊢
    obtain ⟨hvalid, l, hresolved, hl⟩ := named?_colons hnamed
    obtain rfl : k = l := Form.keyword.inj hl
    obtain ⟨ns, hknown, rfl⟩ := exists_of_resolved? hresolved
    have hns := htable _ (NamespaceTable.name_mem_names hknown)
    have hread := interpret_toText_iff_isValid table.toResolver hns
      (Symbol.parse (String.ofList rest)).name.toList
    rw [String.ofList_toList, String.ofList_toList] at hread
    rw [hread, isValid_iff_of_colons hns hvalid]
    refine not_congr (exists₂_congr fun d cs => ?_)
    rw [List.cons.injEq, List.cons.injEq]
    simp only [true_and]
    exact and_congr_right fun hrest => by rw [hrest]
  · have htext : k.toText = text := by
      rw [← String.toList_inj]
      exact toText_of_named? hnamed hcolons
    rw [htext]
    refine iff_of_true h ?_
    rintro ⟨d, cs, hcs, -⟩
    exact hcolons ⟨d :: cs, hcs.symm⟩

/-- The keyword of an alias denotes itself again, a digit in the current namespace does not. -/
theorem interpret_keyword_toText_alias_and_digit :
    let table := (NamespaceTable.ofCurrent "app.core").withAlias "s" "clojure.string"
    (∀ ns ∈ table.names, IsNamespaceName ns.toList) ∧
      interpret table.toResolver "::s/a/b" = .ok (.keyword ⟨⟨some "clojure.string", "a/b"⟩⟩) ∧
      interpret table.toResolver (Keyword.mk ⟨some "clojure.string", "a/b"⟩).toText =
        .ok (.keyword ⟨⟨some "clojure.string", "a/b"⟩⟩) ∧
      interpret table.toResolver "::1" = .ok (.keyword ⟨⟨some "app.core", "1"⟩⟩) ∧
      interpret table.toResolver (Keyword.mk ⟨some "app.core", "1"⟩).toText ≠
        .ok (.keyword ⟨⟨some "app.core", "1"⟩⟩) := by
  intro table
  have hnames : table.names = ["app.core", "clojure.string", "clojure.string", "app.core"] := rfl
  have htable : ∀ ns ∈ table.names, IsNamespaceName ns.toList := by
    have happ : IsNamespaceName "app.core".toList := .of_isAlpha (by decide) (by decide)
    have hstring : IsNamespaceName "clojure.string".toList := .of_isAlpha (by decide) (by decide)
    simp only [hnames, List.forall_mem_cons]
    exact ⟨happ, hstring, hstring, happ, nofun⟩
  have halias : interpret table.toResolver "::s/a/b" =
      .ok (.keyword ⟨⟨some "clojure.string", "a/b"⟩⟩) := rfl
  have hdigit : interpret table.toResolver "::1" = .ok (.keyword ⟨⟨some "app.core", "1"⟩⟩) := rfl
  refine ⟨htable, halias, (interpret_keyword_toText_iff htable halias).2 ?_, hdigit, fun h => ?_⟩
  · rintro ⟨d, cs, hcs, hd, -⟩
    cases hcs
    cases hd
  · exact (interpret_keyword_toText_iff htable hdigit).1 h
      ⟨'1', [], by decide, by decide, by decide⟩

end Token

end FormTree
