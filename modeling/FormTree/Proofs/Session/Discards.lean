import FormTree.Proofs.Reader.Discards
import FormTree.Proofs.Session.Spelled

/-!
# Stacked discards in a vector

What a session reads from a vector that begins with discard marks right behind each other. Where
trivia is skipped they discard as many forms as they are; where it is kept they discard the first
form only, whatever their number.
-/

namespace FormTree.Session

variable {regex : RegexEngine} {options : Options} {levels : Nat} {text : String} {f g : Form}
  {p q : Session} {a b : Spot}

/-- A session on a text, with the default host and that many levels left. -/
def ofTextWithin (regex : RegexEngine) (levels : Nat) (text : String)
    (options : Options) : Session :=
  { ofText regex text options with state.remaining := levels }

/-- Whether a text is read on its own, with trivia kept and that many levels left, as a form that is
no trivia and in which no trivia stands right behind what is put in front of one form. -/
def ReadsAlone (regex : RegexEngine) (options : Options) (levels : Nat) (text : String)
    (f : Form) : Prop :=
  (∃ q, readOnly (ofTextWithin regex levels text { options with trivia := .keep }) = .ok f q) ∧
    f.isTrivia = false ∧ f.isTight = true

/-- The text of a vector: a discard mark for each of the first texts, then these and the others,
separated by spaces. -/
def stackedText (discarded kept : List String) : String :=
  "[" ++ String.join (List.replicate discarded.length "#_") ++
    " ".intercalate (discarded ++ kept) ++ "]"

/-! ### Single forms -/

/-- A session that is done has only blanks ahead. -/
theorem finish_eq_ok (ha : p.state.cursor.StandsAt a) (h : finish p = .ok () q) :
    a.ahead.all Text.isBlank = true := by
  rw [finish] at h
  rcases Cursor.nextForm_of_standsAt ha with ⟨c, l, r, b, hl, -⟩ |
    ⟨l, b, -, ⟨ws, hws, hall⟩, -, hend⟩
  · rw [hl] at h
    cases h
  · rw [hws.1, hend, List.append_nil, hall]

/-- Where nothing is given for the end of input, a form that is read is there. -/
theorem readOpt_of_readOnly (hend : p.options.atEnd = none) (h : readOnly p = .ok f q) :
    ∃ r, readOpt p = .ok (some f) r ∧ finish r = .ok () q := by
  obtain ⟨g, r, hread, hrest⟩ := bind_eq_ok.1 h
  obtain ⟨_, t, hfinish, hpure⟩ := bind_eq_ok.1 hrest
  cases hpure
  rw [read_eq] at hread
  rcases hopt : readOpt p with ⟨- | e, u⟩ | ⟨e, u⟩ <;> simp only [hopt] at hread
  · have hsame : u.options.atEnd = p.options.atEnd :=
      congrArg (·.options.atEnd) (setting_of_readOpt hopt)
    rw [hsame, hend] at hread
    cases hread
  · cases hread
    exact ⟨r, rfl, hfinish⟩
  · cases hread

theorem readOpt_ofTextWithin (regex : RegexEngine) (levels : Nat) (text : String)
    (options : Options) :
    readOpt (ofTextWithin regex levels text options) =
      match (FormReader.nesting (levels + 1)).run (.standard regex options) none
        (ofTextWithin regex levels text options).state with
      | .ok (.form f) s => .ok (some f) { ofTextWithin regex levels text options with state := s }
      | .ok _ s => .ok none { ofTextWithin regex levels text options with state := s }
      | .error cause s => fail cause { ofTextWithin regex levels text options with state := s } :=
  rfl

/-- A form that is the only one in its text is spelled there, and only blanks are behind it. -/
theorem exists_spellsNext_of_readOnly (hend : options.atEnd = none)
    (h : readOnly (ofTextWithin regex levels text options) = .ok f q) :
    ∃ b : Spot, SpellsNext (.standard regex options) true ⟨false, 0, levels⟩ (.ofText text) f b ∧
      b.ahead.all Text.isBlank = true := by
  obtain ⟨r, hopt, hfinish⟩ := readOpt_of_readOnly hend h
  have hrun := FormReader.isSound_nesting (.standard regex options) (levels + 1) none
    ⟨false, 0, levels⟩ (.ofText text) (ofTextWithin regex levels text options).state rfl
    (Cursor.standsAt_ofText text)
  rw [readOpt_ofTextWithin] at hopt
  split at hopt
  · rename_i g s hs
    cases hopt
    obtain ⟨-, b, hb, -, hf⟩ := hrun.of_ok hs
    exact ⟨b, hf, finish_eq_ok hb hfinish⟩
  · cases hopt
  · cases hopt

/-- A text that is read on its own is a piece of longer texts, in both modes. -/
theorem ReadsAlone.isPiece (hend : options.atEnd = none)
    (h : ReadsAlone regex options levels text f)
    (full : Bool) {mode : TriviaMode} (hfull : full = true → mode = .keep) :
    IsPiece (.standard regex { options with trivia := mode }) full levels text.toList f := by
  obtain ⟨⟨q, hq⟩, htrivia, htight⟩ := h
  have hend : ({ options with trivia := .keep } : Options).atEnd = none := hend
  obtain ⟨b, hb, hblanks⟩ := exists_spellsNext_of_readOnly hend hq
  exact isPiece_of_spellsNext hfull hb rfl hblanks htrivia htight

/-! ### The text of a stack -/

theorem intercalate_space (text : List Char) (texts : List (List Char)) :
    [' '].intercalate (text :: texts) = text ++ spaced texts := by
  induction texts generalizing text with
  | nil => simp [spaced]
  | cons t texts ih =>
    rw [List.intercalate_cons_cons, ih, spaced, spaced, List.flatMap_cons, List.append_assoc]
    rfl

/-- The text of a stack begins with as many marks as there are forms to discard. -/
theorem toList_stackedText (t : String) (discarded kept : List String) :
    (stackedText (t :: discarded) kept).toList =
      '[' :: (discardMarks (discarded.length + 1) ++
        (t.toList ++ (spaced ((discarded ++ kept).map String.toList) ++ [']']))) := by
  have hmark : "#_".toList = ['#', '_'] := by decide
  have hspace : " ".toList = [' '] := by decide
  have hopening : "[".toList = ['['] := by decide
  have hclosing : "]".toList = [']'] := by decide
  have hmarks (n : Nat) : (List.replicate n "#_").flatMap String.toList = discardMarks n := by
    rw [discardMarks, List.flatMap, List.map_replicate, hmark]
  have htexts : [' '].intercalate ((t :: discarded ++ kept).map String.toList) =
      t.toList ++ spaced ((discarded ++ kept).map String.toList) := by
    rw [List.cons_append, List.map_cons, intercalate_space]
  rw [stackedText, String.toList_append, String.toList_append, String.toList_append,
    String.toList_join, String.toList_intercalate, hmarks, hspace, hopening, hclosing, htexts]
  simp only [List.length_cons, List.append_assoc, List.cons_append, List.nil_append]

/-! ### Vectors -/

/-- Elements that are spelled between brackets are read as a vector. -/
theorem exists_readOnly_vector {es : List Form} (hp : (Spot.ofText text).Takes ['['] a)
    (h : SpellsAll (.standard regex options) true ⟨false, 0, nestingLimit - 1⟩ a es b)
    (hb : b.ahead = [']']) :
    ∃ gs q, readOnly (ofText regex text options) = .ok (.vector gs) q ∧
      Form.coreAll gs = Form.coreAll es ∧ Legal regex options outermost (.vector gs) := by
  have hclose := Spot.takes_of_ahead hb
  have hvector : Spells (.standard regex options) true outermost (.ofText text) (.vector es)
      ⟨']' :: b.passed, []⟩ :=
    Spells.group (F := ⟨false, 0, nestingLimit - 1⟩) rfl hp h hclose nofun
  obtain ⟨g, q, hq, hcore, hlegal⟩ := exists_readOnly_of_spellsNext (.form (.refl _) hvector) rfl
  cases g with
  | group group gs =>
    obtain ⟨hgroup, hgs⟩ := Form.group.inj hcore
    obtain rfl : group = .vector := by
      cases group <;> cases hgroup
      rfl
    exact ⟨gs, q, hq, hgs, hlegal⟩
  | _ => cases hcore

section

variable {t : String} {discarded kept : List String} {fs gs : List Form}

/-- Texts that read alone are pieces of a longer text. -/
theorem forall₂_isPiece (hend : options.atEnd = none) (full : Bool) {mode : TriviaMode}
    (hfull : full = true → mode = .keep)
    (h : List.Forall₂ (ReadsAlone regex options levels) kept gs) :
    List.Forall₂ (IsPiece (.standard regex { options with trivia := mode }) full levels)
      (kept.map String.toList) gs :=
  List.forall₂_map_left_iff.2 (h.imp fun _ _ h => h.isPiece hend full hfull)

theorem exists_of_mem_forall₂ {α β : Type} {R : α → β → Prop} {as : List α} {bs : List β}
    (h : List.Forall₂ R as bs) : ∀ a ∈ as, ∃ b, R a b := by
  induction h with
  | nil => nofun
  | cons hab _ ih => exact List.forall_mem_cons.2 ⟨⟨_, hab⟩, ih⟩

/-- What reads alone is no trivia. -/
theorem isTrivia_eq_false_of_readsAlone
    (h : List.Forall₂ (ReadsAlone regex options levels) kept gs) :
    ∀ g ∈ gs, g.isTrivia = false := by
  induction h with
  | nil => nofun
  | cons hg _ ih => exact List.forall_mem_cons.2 ⟨hg.2.1, ih⟩

/-- Levels enough for a stack of marks in a vector. -/
theorem exists_levels {levels n : Nat} (h : levels + n < nestingLimit) :
    ∃ m, levels ≤ m ∧ m + n = nestingLimit - 1 :=
  ⟨nestingLimit - 1 - n, by omega, by omega⟩

theorem endsToken_closing : ∀ c ∈ [']'].head?, endsToken c = true := by
  rintro c ⟨⟩
  decide

/-- Behind the bracket of the vector stand the marks and the texts. -/
theorem exists_takes_stackedText (t : String) (discarded kept : List String) :
    ∃ a, (Spot.ofText (stackedText (t :: discarded) kept)).Takes ['['] a ∧
      a.ahead = discardMarks (discarded.length + 1) ++
        (t.toList ++ (spaced ((discarded ++ kept).map String.toList) ++ [']'])) :=
  Spot.exists_takes (toList_stackedText t discarded kept)

variable (hend : options.atEnd = none) (hlevels : levels + (discarded.length + 1) < nestingLimit)
  (hf : ReadsAlone regex options levels t f)
  (hfs : List.Forall₂ (ReadsAlone regex options levels) discarded fs)
  (hgs : List.Forall₂ (ReadsAlone regex options levels) kept gs)
include hend hlevels hf hfs hgs

/-- Where trivia is kept the first text is discarded. -/
theorem exists_readOnly_stackedText_keep :
    ∃ es q, readOnly (ofText regex (stackedText (t :: discarded) kept)
      { options with trivia := .keep }) =
        .ok (.vector es) q ∧ Form.coreAll (Form.dataOf es) = Form.coreAll (fs ++ gs) := by
  obtain ⟨m, hm, hsum⟩ := exists_levels hlevels
  have hlevels : levels ≤ nestingLimit - 1 := by omega
  have hall : List.Forall₂ (ReadsAlone regex options levels) (discarded ++ kept) (fs ++ gs) :=
    List.rel_append hfs hgs
  have hdata := isTrivia_eq_false_of_readsAlone hall
  obtain ⟨a, ha, hahead⟩ := exists_takes_stackedText t discarded kept
  have hpiece := hf.isPiece hend true fun _ => rfl
  -- the marks in front take the first text only: each discards what stands behind the next one
  obtain ⟨d, b, ws, hd, hb, hws⟩ := exists_spellsTrivia_of_keep rfl hpiece hm
    (endsToken_spaced endsToken_closing) discarded.length hahead
  rw [hsum] at hd
  obtain ⟨hs, c, hhs, hc, hshown⟩ := exists_spellsAll_of_pieces
    (forall₂_isPiece hend true (fun _ => rfl) hall) hdata hlevels endsToken_closing hws hb
  obtain ⟨es, q, hes, hcore, -⟩ := exists_readOnly_vector ha (.kept rfl (.refl _) hd hhs) hc
  refine ⟨es, q, hes, ?_⟩
  calc
    Form.coreAll (Form.dataOf es) = Form.dataOf (Form.coreAll (d :: hs)) := by
      rw [← Form.dataOf_coreAll, hcore]
    _ = Form.dataOf (Form.coreAll hs) := List.filter_cons_of_neg (by simpa using hd.isTrivia)
    _ = Form.coreAll (Form.dataOf (fs ++ gs)) := by
      rw [← Form.dataOf_coreAll]
      exact congrArg Form.dataOf hshown
    _ = Form.coreAll (fs ++ gs) := by
      have hself : Form.dataOf (fs ++ gs) = fs ++ gs :=
        List.filter_eq_self.2 fun f hf => by simp [hdata f hf]
      rw [hself]

/-- Where trivia is skipped all texts that are meant to be discarded are. -/
theorem exists_readOnly_stackedText_skip :
    ∃ es q, readOnly (ofText regex (stackedText (t :: discarded) kept)
      { options with trivia := .skip }) =
        .ok (.vector es) q ∧ Form.coreAll es = Form.coreAll (Form.erasedAll gs) := by
  obtain ⟨m, hm, hsum⟩ := exists_levels hlevels
  have hlevels : levels ≤ nestingLimit - 1 := by omega
  have hnone : false = true → TriviaMode.skip = .keep := nofun
  obtain ⟨a, ha, hahead⟩ := exists_takes_stackedText t discarded kept
  rw [List.map_append, spaced_append, List.append_assoc] at hahead
  have hdiscarded := exists_of_mem_forall₂ (forall₂_isPiece hend false hnone (.cons hf hfs))
  obtain ⟨d, b, ws, hd, hb, hws⟩ := exists_spellsTrivia_of_skip rfl hm hdiscarded
    (endsToken_spaced endsToken_closing) (by rwa [List.length_map])
  rw [List.length_map, hsum] at hd
  obtain ⟨hs, c, hhs, hc, hshown⟩ := exists_spellsAll_of_pieces
    (forall₂_isPiece hend false hnone hgs) (isTrivia_eq_false_of_readsAlone hgs) hlevels
    endsToken_closing hws hb
  obtain ⟨es, q, hes, hcore, hlegal⟩ := exists_readOnly_vector ha (.skipped rfl (.refl _) hd hhs) hc
  have herased : Form.erasedAll es = es := (Form.group.inj (hlegal.erased_eq_self rfl)).2
  refine ⟨es, q, hes, ?_⟩
  rw [← herased, ← Form.erasedAll_coreAll, hcore, Form.erasedAll_coreAll]
  exact hshown

end

/-- **Stacked discards.** Let a vector begin with as many discard marks, right behind each other, as
it has texts to discard, and let each of its texts be readable on its own as one form. Where trivia
is skipped, the others are its data, as they are meant to be. Where it is kept, the first text only
is discarded: the data are those that are meant if and only if there is just one mark. -/
theorem exists_readOnly_stackedText (regex : RegexEngine) (options : Options)
    (hend : options.atEnd = none) {levels : Nat}
    {discarded kept : List String} {fs gs : List Form} (hne : discarded ≠ [])
    (hlevels : levels + discarded.length < nestingLimit)
    (hfs : List.Forall₂ (ReadsAlone regex options levels) discarded fs)
    (hgs : List.Forall₂ (ReadsAlone regex options levels) kept gs) :
    ∃ es ds q r,
      readOnly (ofText regex (stackedText discarded kept) { options with trivia := .keep }) =
          .ok (.vector es) q ∧
        readOnly (ofText regex (stackedText discarded kept) { options with trivia := .skip }) =
            .ok (.vector ds) r ∧
        Form.coreAll ds = Form.coreAll (Form.erasedAll gs) ∧
        Form.coreAll (Form.dataOf es) = Form.coreAll (fs.tail ++ gs) ∧
        (Form.coreAll (Form.dataOf es) = Form.coreAll gs ↔ discarded.length = 1) := by
  cases hfs with
  | nil => exact absurd rfl hne
  | @cons t f discarded fs hf hfs =>
    obtain ⟨es, q, hes, hdata⟩ := exists_readOnly_stackedText_keep hend hlevels hf hfs hgs
    obtain ⟨ds, r, hds, hskipped⟩ := exists_readOnly_stackedText_skip hend hlevels hf hfs hgs
    refine ⟨es, ds, q, r, hes, hds, hskipped, hdata, ?_⟩
    have hlength : discarded.length = fs.length := hfs.length_eq
    rw [hdata]
    constructor
    · intro h
      -- if the data are the same they are as many, so that no further form was discarded
      have hcount := congrArg List.length h
      rw [Form.length_coreAll, Form.length_coreAll, List.length_append] at hcount
      rw [List.length_cons]
      omega
    · intro h
      rw [List.length_cons] at h
      have hnil : fs = [] := List.length_eq_zero_iff.1 (by omega)
      rw [hnil, List.nil_append]

/-- Whether a text reads alone as a symbol is decided by reading it. -/
theorem readsAlone_symbol {levels : Nat} {text : String}
    (h : (match readOnly
          (ofTextWithin regex levels text { Options.standard with trivia := .keep }) with
      | .ok (.symbol s) _ => s == .simple text
      | _ => false) = true) : ReadsAlone regex .standard levels text (.symbol (.simple text)) := by
  split at h
  · rename_i s q hread
    rw [eq_of_beq h] at hread
    exact ⟨⟨q, hread⟩, rfl, rfl⟩
  · cases h

/-- Two marks before three symbols: skipping trivia leaves the last one, keeping it the last two. -/
theorem exists_readOnly_stackedText_symbols :
    ∃ es ds q r,
      readOnly (ofText .lenient (stackedText ["a", "b"] ["c"])
        { Options.standard with trivia := .keep }) =
          .ok (.vector es) q ∧
        readOnly (ofText .lenient (stackedText ["a", "b"] ["c"])
          { Options.standard with trivia := .skip }) =
            .ok (.vector ds) r ∧
        Form.coreAll ds = Form.coreAll (Form.erasedAll [.symbol (.simple "c")]) ∧
        Form.coreAll (Form.dataOf es) =
          Form.coreAll [.symbol (.simple "b"), .symbol (.simple "c")] ∧
        (Form.coreAll (Form.dataOf es) = Form.coreAll [.symbol (.simple "c")] ↔ 2 = 1) := by
  have ha : ReadsAlone .lenient .standard 253 "a" _ := readsAlone_symbol (by decide +kernel)
  have hb : ReadsAlone .lenient .standard 253 "b" _ := readsAlone_symbol (by decide +kernel)
  have hc : ReadsAlone .lenient .standard 253 "c" _ := readsAlone_symbol (by decide +kernel)
  exact exists_readOnly_stackedText .lenient .standard rfl (List.cons_ne_nil _ _) (by decide)
    (.cons ha (.cons hb .nil)) (.cons hc .nil)

end FormTree.Session
