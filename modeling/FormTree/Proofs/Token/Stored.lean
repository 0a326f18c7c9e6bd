import FormTree.Proofs.Reader.Token
import FormTree.Proofs.Token.Grammar

/-!
# What tokens store

A token is checked as a namespace and a name around its last slash, and stored as a namespace and a
name around its first one. The two agree if and only if the namespace that is checked has no slash
but the one behind it; otherwise the name that is stored has a slash in it.
-/

namespace FormTree

namespace Symbol

/-- What stands before the name in the text of a symbol: its namespace and a slash, or nothing. -/
def qualifier (s : Symbol) : List Char :=
  match s.ns with
  | none => []
  | some ns => ns.toList ++ ['/']

/-- A symbol as a form: itself, or the keyword of it. -/
def toForm (keyword : Bool) (s : Symbol) : Form :=
  if keyword then .keyword ⟨s⟩ else .symbol s

/-- The text of a symbol is its qualifier and its name. -/
theorem toList_toText (s : Symbol) : s.toText.toList = s.qualifier ++ s.name.toList := by
  rw [toText, qualifier]
  rcases s.ns with - | ns <;> simp

end Symbol

namespace Token

open Text

/-- The colon of a keyword. -/
def colonOf (keyword : Bool) : List Char := if keyword then [':'] else []

/-- Whether the name of a symbol, or keyword, is one by the grammar: it is a slash or has none, and
it begins with no digit, unless it is that of a keyword without a namespace. -/
structure IsWellNamed (keyword : Bool) (s : Symbol) : Prop where
  name : s.name.toList = ['/'] ∨ s.name.toList ≠ [] ∧ '/' ∉ s.name.toList
  digit : ∀ c ∈ s.name.toList.head?, isDigit c = true → keyword = true ∧ s.ns = none

/-- Whether a symbol, or keyword, stores the namespace and the name of a split. Where the split
counts the colon of a keyword to the namespace or to the name, it is left out of them. -/
def Stores (keyword : Bool) (s : Symbol) (colon ns name : List Char) : Prop :=
  colonOf keyword ++ s.qualifier = colon ++ ns ∧ s.name.toList = name ∨
    keyword = true ∧ s.qualifier = [] ∧ colon ++ ns = [] ∧ ':' :: s.name.toList = name

variable {resolver : Resolver} {keyword : Bool} {s : Symbol} {text : String}
  {colon ns name cs : List Char}

/-! ### Splitting at the first slash -/

theorem IsName.head?_ne_digit (h : IsName name) : ∀ c ∈ name.head?, isDigit c = false := by
  rcases h with - | ⟨hdigit, -⟩
  · rintro c ⟨⟩
    decide
  · rintro d ⟨⟩
    exact hdigit

/-- A name is a slash, or has none. -/
theorem IsName.eq_or (h : IsName name) : name = ['/'] ∨ name ≠ [] ∧ '/' ∉ name := by
  refine (isName_iff.1 h).imp_right fun hname => ⟨h.ne_nil, hname.2⟩

/-- A name alone is stored as it is. -/
theorem parse_ofList_of_isName (h : IsName name) :
    Symbol.parse (String.ofList name) = .simple (String.ofList name) := by
  rcases h.eq_or with rfl | ⟨-, hslash⟩
  · decide
  · exact parse_ofList_of_notMem hslash

/-- A namespace and a name are stored as they are, or the namespace has a slash inside, and what
comes after that is in the name that is stored. -/
theorem qualifier_parse (hns : ns = [] ∨ ∃ body, ns = body ++ ['/']) (hname : IsName name) :
    let s := Symbol.parse (String.ofList (ns ++ name))
    (s.qualifier = ns ∧ s.name.toList = name ∧ ns.count '/' ≤ 1) ∨
      ('/' ∈ s.name.toList ∧ name.length < s.name.toList.length ∧ 1 < ns.count '/') := by
  intro s
  rcases hns with rfl | ⟨body, rfl⟩
  · have hs : s = .simple (String.ofList name) := parse_ofList_of_isName hname
    rw [hs]
    exact .inl ⟨rfl, String.toList_ofList, by simp⟩
  · by_cases hslash : '/' ∈ body
    · obtain ⟨before, after, rfl, hbefore⟩ := List.eq_append_cons_of_mem hslash
      have hs : s = ⟨some (String.ofList before), String.ofList (after ++ '/' :: name)⟩ := by
        rw [← parse_ofList_append hbefore (.inr (by simp))]
        simp [s]
      rw [hs]
      refine .inr ⟨by simp, by simp; omega, by simp; omega⟩
    · have hs : s = ⟨some (String.ofList body), String.ofList name⟩ := by
        rw [← parse_ofList_append hslash (.inr hname.ne_nil)]
        simp [s]
      rw [hs]
      refine .inl ⟨by simp [Symbol.qualifier], String.toList_ofList, ?_⟩
      simp [List.count_eq_zero_of_not_mem hslash]

/-! ### What a token denotes -/

theorem named?_of_interpret_toForm (h : interpret resolver text = .ok (s.toForm keyword)) :
    named? resolver text.toList = some (s.toForm keyword) := by
  rcases named?_of_interpret h with hread | hnil | ⟨b, hbool⟩
  · exact hread
  · rcases keyword with - | - <;> cases hnil
  · rcases keyword with - | - <;> cases hbool

/-- Behind its colon the text of a token is split at the first slash. -/
theorem exists_eq_parse_of_named? (h : named? resolver cs = some (s.toForm keyword))
    (hcolons : keyword = true → ¬ [':', ':'] <+: cs) :
    isValid cs = true ∧ (keyword = false → cs.head? ≠ some ':') ∧
      ∃ rest, cs = colonOf keyword ++ rest ∧ s = Symbol.parse (String.ofList rest) := by
  rw [named?.eq_def] at h
  obtain ⟨hvalid, hread⟩ := Option.ite_none_right_eq_some.1 h
  refine ⟨hvalid, ?_⟩
  split at hread
  · rename_i rest
    obtain ⟨k, -, hk⟩ := Option.map_eq_some_iff.1 hread
    rcases keyword with - | -
    · cases hk
    · exact absurd ⟨rest, rfl⟩ (hcolons rfl)
  · rename_i rest _
    rcases keyword with - | - <;> cases hread
    exact ⟨Bool.noConfusion, rest, rfl, rfl⟩
  · rename_i hcolon
    rcases keyword with - | - <;> cases hread
    refine ⟨fun _ hhead => ?_, cs, rfl, rfl⟩
    obtain ⟨rest, rfl⟩ := List.head?_eq_some_iff.1 hhead
    exact hcolon rest rfl

/-! ### The two splits compared -/

/-- Where the colon of a keyword is in a split: it is split off, or begins the name, or the
namespace. -/
theorem IsSplit.colon_cases {rest : List Char} (h : IsSplit (colonOf keyword ++ rest) colon ns name)
    (hcolon : keyword = false → (colonOf keyword ++ rest).head? ≠ some ':') :
    (colon = colonOf keyword ∧ rest = ns ++ name) ∨
      (keyword = true ∧ colon = [] ∧ ns = [] ∧ name = ':' :: rest) ∨
        (keyword = true ∧ colon = [] ∧ ∃ body, ns = ':' :: (body ++ ['/']) ∧
          rest = body ++ ['/'] ++ name) := by
  have htoken := h.token_eq
  rcases keyword with - | -
  · rcases h.colon_eq with rfl | rfl
    · exact .inl ⟨rfl, htoken⟩
    · exact absurd (congrArg List.head? htoken) (hcolon rfl)
  · rcases h.colon_eq with rfl | rfl
    · rcases h.isNamespace with - | ⟨body, hdigit, hslash⟩
      · exact .inr (.inl ⟨rfl, rfl, rfl, htoken.symm⟩)
      · cases htoken
        exact .inr (.inr ⟨rfl, rfl, body, rfl, rfl⟩)
    · exact .inl ⟨rfl, List.append_cancel_left htoken⟩

/-- What is stored under a name of the grammar is well named. -/
theorem isWellNamed_of_isName (hname : IsName name) (h : s.name.toList = name) :
    IsWellNamed keyword s where
  name := h ▸ hname.eq_or
  digit c hc hdigit := by
    rw [h] at hc
    rw [hname.head?_ne_digit c hc] at hdigit
    cases hdigit

/-- Where the text behind the colon is a namespace and a name. -/
theorem stores_iff_of_append {before : List Char}
    (hns : before = [] ∨ ∃ body, before = body ++ ['/'])
    (hname : IsName name) (hs : s = Symbol.parse (String.ofList (before ++ name)))
    (hcolon : colonOf keyword ++ before = colon ++ ns) (hcount : ns.count '/' = before.count '/') :
    (Stores keyword s colon ns name ↔ ns.count '/' ≤ 1) ∧
      (IsWellNamed keyword s ↔ ns.count '/' ≤ 1) := by
  rw [hcount]
  -- Either the first slash is also the last one, or a slash is left inside of the name that is
  -- stored.
  rcases qualifier_parse hns hname with ⟨hqualifier, hlast, hone⟩ | ⟨hslash, hlength, htwo⟩
  · rw [← hs] at hqualifier hlast
    exact ⟨iff_of_true (.inl ⟨hqualifier ▸ hcolon, hlast⟩) hone,
      iff_of_true (isWellNamed_of_isName hname hlast) hone⟩
  · rw [← hs] at hslash hlength
    have htwo : ¬ before.count '/' ≤ 1 := Nat.not_le.2 htwo
    refine ⟨iff_of_false ?_ htwo, iff_of_false (fun h => ?_) htwo⟩
    · rintro (⟨-, hlast⟩ | ⟨-, -, -, hlast⟩)
      · rw [hlast] at hlength
        exact Nat.lt_irrefl _ hlength
      · rw [← hlast, List.length_cons] at hlength
        omega
    · rcases h.name with hlast | ⟨-, hlast⟩
      · rw [hlast] at hlength
        exact hname.ne_nil (List.length_eq_zero_iff.1 (Nat.lt_one_iff.1 hlength))
      · exact hlast hslash

/-- Where the name begins with the colon. -/
theorem stores_of_colon {rest : List Char} (hrest : rest ≠ []) (hslash : '/' ∉ rest)
    (hs : s = Symbol.parse (String.ofList rest)) :
    Stores true s [] [] (':' :: rest) ∧ IsWellNamed true s := by
  rw [parse_ofList_of_notMem hslash] at hs
  subst hs
  have hname : (Symbol.simple (String.ofList rest)).name.toList = rest := String.toList_ofList
  exact ⟨.inr ⟨rfl, rfl, rfl, congrArg (':' :: ·) hname⟩,
    ⟨.inr (by rw [hname]; exact ⟨hrest, hslash⟩), fun _ _ _ => ⟨rfl, rfl⟩⟩⟩

/-- **What a token stores.** The text of a token that denotes a symbol, or a keyword by one colon,
is that colon, the namespace with a slash and the name that are stored. They are the namespace and
the name by the grammar if and only if the namespace there has one slash at most, and otherwise what
is stored is no name by the grammar. -/
theorem stores_iff (h : interpret resolver text = .ok (s.toForm keyword))
    (hcolons : keyword = true → ¬ [':', ':'] <+: text.toList) :
    text.toList = colonOf keyword ++ (s.qualifier ++ s.name.toList) ∧
      ∃ colon ns name, IsPreferred text.toList colon ns name ∧
        (Stores keyword s colon ns name ↔ ns.count '/' ≤ 1) ∧
        (IsWellNamed keyword s ↔ ns.count '/' ≤ 1) := by
  obtain ⟨hvalid, hcolon, rest, htext, hs⟩ :=
    exists_eq_parse_of_named? (named?_of_interpret_toForm h) hcolons
  obtain ⟨colon, ns, name, hsplit, -, hlast, -⟩ := isValid_iff.1 hvalid
  constructor
  · rw [htext, ← Symbol.toList_toText, hs, Symbol.toText_parse, String.toList_ofList]
  refine ⟨colon, ns, name, hsplit, ?_⟩
  have hname := hsplit.isName
  rw [htext] at hcolon hsplit
  -- The colon is that of a keyword, or it is the whole name, or it begins the namespace.
  rcases hsplit.toIsSplit.colon_cases hcolon with
    ⟨rfl, rfl⟩ | ⟨rfl, rfl, rfl, rfl⟩ | ⟨rfl, rfl, body, rfl, rfl⟩
  · have hns := (isNamespace_iff.1 hsplit.isNamespace).imp_right And.right
    exact stores_iff_of_append hns hname hs rfl rfl
  · have hrest : rest ≠ [] := by
      rintro rfl
      exact hlast List.suffix_rfl
    have hslash : '/' ∉ rest := by
      rcases hname.eq_or with hslash | ⟨-, hslash⟩
      · cases hslash
      · exact fun hmem => hslash (List.mem_cons_of_mem _ hmem)
    obtain ⟨hstores, hwell⟩ := stores_of_colon hrest hslash hs
    exact ⟨iff_of_true hstores (Nat.zero_le 1), iff_of_true hwell (Nat.zero_le 1)⟩
  · exact stores_iff_of_append (.inr ⟨body, rfl⟩) hname hs rfl (by simp)

/-- A keyword with one slash is stored as it is checked, a symbol with two slashes is not. -/
theorem stores_iff_keyword_and_symbol :
    interpret .none ":5/a" = .ok (Symbol.toForm true ⟨some "5", "a"⟩) ∧
      IsWellNamed true ⟨some "5", "a"⟩ ∧
    interpret .none "a/b/c" = .ok (Symbol.toForm false ⟨some "a", "b/c"⟩) ∧
      ∃ colon, IsPreferred "a/b/c".toList colon ['a', '/', 'b', '/'] ['c'] ∧
        ¬ Stores false ⟨some "a", "b/c"⟩ colon ['a', '/', 'b', '/'] ['c'] ∧
        ¬ IsWellNamed false ⟨some "a", "b/c"⟩ := by
  have hkeyword : interpret .none ":5/a" = .ok (Symbol.toForm true ⟨some "5", "a"⟩) := rfl
  have hsymbol : interpret .none "a/b/c" = .ok (Symbol.toForm false ⟨some "a", "b/c"⟩) := rfl
  obtain ⟨-, colon, ns, name, hsplit, -, hwell⟩ := stores_iff hkeyword (by decide)
  obtain ⟨-, colon', ns', name', hsplit', hstores', hwell'⟩ := stores_iff hsymbol nofun
  have hread := validated?_eq_some_iff.2 ⟨colon, hsplit⟩
  have hread' := validated?_eq_some_iff.2 ⟨colon', hsplit'⟩
  have hkeyword' : validated? ":5/a".toList = some ([':', '5', '/'], ['a']) := by decide
  have hsymbol' : validated? "a/b/c".toList = some (['a', '/', 'b', '/'], ['c']) := by decide
  cases hkeyword'.symm.trans hread
  cases hsymbol'.symm.trans hread'
  refine ⟨hkeyword, hwell.2 (by decide), hsymbol, colon', hsplit', fun h => ?_, fun h => ?_⟩
  · exact absurd (hstores'.1 h) (by decide)
  · exact absurd (hwell'.1 h) (by decide)

end Token

end FormTree
