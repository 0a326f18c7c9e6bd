import FormTree.Proofs.Print.CharText
import FormTree.Proofs.Session.Spelled

/-!
# Characters in a list

A list of characters is read from its text as a list of the same characters, with commas between
them or not, and whether trivia is kept or skipped. What ends a token is of no account: after the
backslash it is a character like any other, and behind the token of one stands a space, a comma or
the parenthesis that closes the list.
-/

namespace FormTree

variable {setting : Setting} {loose : Bool} {F : Frame} {p q : Spot} {es : List Form}

/-- A token of a character is scanned as a literal of it. -/
theorem Scan.gives_charLiteral {token : List Char} {c : Char} (htoken : IsTokenOf c token)
    (hp : p.Takes token q) (hends : ∀ d ∈ q.ahead.head?, endsToken d = true) :
    Gives charLiteral p (String.ofList token, c) q := by
  obtain ⟨k, hk⟩ := Cursor.exists_standsAt p
  have hat : k.At ((String.ofList token).toList ++ q.ahead) := by
    rw [String.toList_ofList, ← hp.1]
    exact hk.pending_eq
  have hchar : Token.isCharToken (String.ofList token).toList = true := by
    rw [String.toList_ofList]
    exact htoken.1
  have hread : Triple true _ charLiteral _ := triple_charLiteral hchar htoken.2 hends
  obtain ⟨_, l, hl, rfl, hleft⟩ := hread.exists_ok hat
  exact ⟨⟨token, hp⟩, k, l, hk, hl, keeps_charLiteral.standsAt hk hl hp hleft⟩

namespace Form

/-- Whether a form is a character or a comma. -/
def IsCharOrComma : Form → Prop
  | .char _ | .comma => True
  | _ => False

/-- No exponent is in a list of characters, so that it has a text. -/
theorem overflows_list_eq_false (hes : ∀ f ∈ es, f.IsCharOrComma) (info : Metadata Form) :
    (list info es).overflows = false := by
  refine overflows_of_isFaithful (allFaithful_iff.2 fun f hf => ?_)
  have hchar := hes f hf
  cases f <;> first | rfl | exact hchar.elim

/-- Blanks may stand between two elements. -/
theorem exists_takes_separator (before after : Option Form) {cs : List Char}
    (hp : p.ahead = (Separator.between before after).text.toList ++ cs) :
    ∃ q, p.Blanks q ∧ q.ahead = cs := by
  obtain ⟨q, hq, hahead⟩ := Spot.exists_takes hp
  exact ⟨q, ⟨_, hq, Level.all_isBlank_separator before after⟩, hahead⟩

/-- The text of characters and commas in a list spells characters and commas, and the characters are
the same. Commas are kept or skipped. -/
theorem exists_spellsAll_chars (hes : ∀ f ∈ es, f.IsCharOrComma) (before : Option Form)
    (hp : p.ahead = charsWithin before es ++ [')']) :
    ∃ gs q, SpellsAll setting loose F p gs q ∧ q.ahead = [')'] ∧
      (dataOf gs).map toChar? = (dataOf es).map toChar? := by
  -- what comes before an element decides its separator, so that the induction is for any
  induction es generalizing before p with
  | nil =>
    rw [charsWithin_nil] at hp
    obtain ⟨q, hblanks, hq⟩ := exists_takes_separator before none hp
    exact ⟨[], q, .nil hblanks, hq, rfl⟩
  | cons f es ih =>
    obtain ⟨hf, hes⟩ := List.forall_mem_cons.1 hes
    rw [charsWithin_cons, List.append_assoc, List.append_assoc] at hp
    obtain ⟨q, hblanks, hq⟩ := exists_takes_separator before (some f) hp
    obtain ⟨r, hr, hahead⟩ := Spot.exists_takes hq
    obtain ⟨gs, t, hgs, ht, hdata⟩ := ih hes (some f) hahead
    cases f with
    | char c =>
      obtain ⟨token, htext, htoken⟩ := exists_charText_eq c
      rw [chars_char, htext] at hr
      obtain ⟨u, hbackslash, hrest⟩ := hr.exists_of_cons
      have hends : ∀ d ∈ r.ahead.head?, endsToken d = true := by
        rw [hahead]
        exact Level.follows_charsWithin (.char c) es (.inl rfl) []
      have hchar : Spells setting loose F q (.charLiteral (String.ofList token) c) r :=
        .charLiteral hbackslash (Scan.gives_charLiteral htoken hrest hends)
      exact ⟨_, t, .form hblanks hchar hgs, ht, congrArg (some c :: ·) hdata⟩
    | comma =>
      rw [chars_comma] at hr
      rcases hmode : setting.options.trivia with - | -
      · exact ⟨_, t, .kept hmode hblanks (.comma hr) hgs, ht, hdata⟩
      · exact ⟨_, t, .skipped hmode hblanks (.comma hr) hgs, ht, hdata⟩
    | _ => exact hf.elim

/-- Characters are seen in the cores of data. -/
theorem map_toChar?_coreAll (es : List Form) :
    (dataOf (coreAll es)).map toChar? = (dataOf es).map toChar? := by
  rw [dataOf_coreAll, coreAll_eq_map, List.map_map]
  exact List.map_congr_left fun f _ => toChar?_core f

/-- Commas between elements are no data. -/
theorem dataOf_intersperse_comma (es : List Form) : dataOf (es.intersperse .comma) = dataOf es := by
  induction es with
  | nil => rfl
  | cons f es ih =>
    rcases es with - | ⟨g, es⟩
    · rfl
    · have hcomma : dataOf (.comma :: (g :: es).intersperse .comma) = dataOf (g :: es) := ih
      have hcons (fs : List Form) :
          dataOf (f :: fs) = if f.isTrivia then dataOf fs else f :: dataOf fs := by
        rcases h : f.isTrivia with - | - <;> simp [dataOf, h]
      rw [List.intersperse_cons_cons, hcons, hcons, hcomma]

theorem isCharOrComma_of_mem_intersperse (hes : ∀ f ∈ es, f.IsCharOrComma) :
    ∀ f ∈ es.intersperse .comma, f.IsCharOrComma := by
  induction es with
  | nil => nofun
  | cons f es ih =>
    rcases es with - | ⟨g, es⟩
    · exact hes
    · obtain ⟨hf, hes⟩ := List.forall_mem_cons.1 hes
      rw [List.intersperse_cons_cons]
      exact List.forall_mem_cons.2 ⟨hf, List.forall_mem_cons.2 ⟨trivial, ih hes⟩⟩

end Form

namespace Session

variable {regex : RegexEngine} {options : Options}

/-- Whether a list of these elements has a text that is read, on its own, as a list whose data are
the characters `cs`. -/
def ReadsAsChars (regex : RegexEngine) (options : Options) (es : List Form)
    (cs : List Char) : Prop :=
  ∀ info, ∃ text info' gs q, (Form.list info es).emit? = some text ∧
    readOnly (ofText regex text options) = .ok (.list info' gs) q ∧
      (Form.dataOf gs).map Form.toChar? = cs.map some

/-- A list of characters and commas reads as the characters in it. -/
theorem readsAsChars_of_data {cs : List Char} (hes : ∀ f ∈ es, f.IsCharOrComma)
    (hdata : Form.dataOf es = cs.map .char) : ReadsAsChars regex options es cs := by
  intro info
  have hemit : (Form.list info es).emit? = some (Form.list info es).spelling :=
    Form.emit?_eq_some_iff.2 ⟨Form.overflows_list_eq_false hes info, rfl⟩
  have htext : (Form.list info es).spelling.toList =
      ['('] ++ (Form.charsWithin none es ++ [')']) := by
    rw [Form.toList_spelling, Form.chars_list]
    rfl
  obtain ⟨p, hp, hahead⟩ := Spot.exists_takes (p := .ofText (Form.list info es).spelling) htext
  obtain ⟨fs, q, hfs, hq, hchars⟩ := Form.exists_spellsAll_chars hes none hahead
  have hlist : Spells (.standard regex options) true outermost
      (.ofText (Form.list info es).spelling) _
      ⟨')' :: q.passed, []⟩ :=
    .list (F := ⟨false, 0, nestingLimit - 1⟩) hp hfs (Spot.takes_of_ahead hq)
  obtain ⟨g, r, hg, hcore, -⟩ := exists_readOnly_of_spellsNext (.form (.refl _) hlist) rfl
  cases g with
  | list info' gs =>
    have hgs : Form.coreAll gs = Form.coreAll fs := (Form.list.inj hcore).2
    refine ⟨_, info', gs, r, hemit, hg, ?_⟩
    rw [← Form.map_toChar?_coreAll, hgs, Form.map_toChar?_coreAll, hchars, hdata, List.map_map]
    rfl
  | _ => cases hcore

/-- **Characters survive printing.** Whatever characters are in a list, it is read from its text as
a list of these characters, also if commas stand between them. -/
theorem readsAsChars_list (regex : RegexEngine) (options : Options) (cs : List Char) :
    ReadsAsChars regex options (cs.map .char) cs ∧
      ReadsAsChars regex options ((cs.map .char).intersperse .comma) cs := by
  have hdata : Form.dataOf (cs.map .char) = cs.map .char := by
    simp [Form.dataOf, Form.isTrivia]
  have hchars : ∀ f ∈ cs.map Form.char, f.IsCharOrComma := by
    simp [Form.IsCharOrComma]
  constructor
  · exact readsAsChars_of_data hchars hdata
  · refine readsAsChars_of_data (Form.isCharOrComma_of_mem_intersperse hchars) ?_
    rw [Form.dataOf_intersperse_comma, hdata]

end Session

end FormTree
