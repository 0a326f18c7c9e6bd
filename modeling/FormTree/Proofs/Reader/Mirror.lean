import FormTree.Proofs.Form.Erased
import FormTree.Proofs.Reader.Complete
import FormTree.Proofs.Source.Extended

/-!
# The same text in the other mode

Text that spells tight forms in one trivia mode spells forms in the other mode too, which show the
same but for the trivia itself. Nothing else has to be the same: there may be more levels left, and
the text may go on with something that ends a token, as long as the last line of a comment is not
where it does.
-/

namespace FormTree

/-! ### Frames -/

namespace Frame

/-- Whether a frame has the scopes of another one, and at least as many levels left. -/
def Fits (F G : Frame) : Prop :=
  G.inFunction = F.inFunction ∧ G.conditionals = F.conditionals ∧ F.remaining ≤ G.remaining

variable {F G : Frame}

theorem Fits.refl (F : Frame) : F.Fits F := ⟨rfl, rfl, Nat.le_refl _⟩

/-- A frame that fits one above another is itself above one that fits. -/
theorem Fits.exists_of_up (h : F.up.Fits G) : ∃ H : Frame, H.up = G ∧ F.Fits H := by
  obtain ⟨hfunction, hconditionals, hremaining⟩ := h
  rcases G with ⟨inFunction, conditionals, - | remaining⟩
  · exact absurd hremaining (Nat.not_succ_le_zero _)
  · exact ⟨⟨inFunction, conditionals, remaining⟩, rfl, hfunction, hconditionals,
      Nat.le_of_succ_le_succ hremaining⟩

/-- Frames still fit inside of a function literal. -/
theorem Fits.function (h : F.Fits G) :
    Frame.Fits { F with inFunction := true } { G with inFunction := true } :=
  ⟨rfl, h.2⟩

/-- Frames still fit inside of a conditional. -/
theorem Fits.conditional (h : F.Fits G) :
    Frame.Fits { F with conditionals := F.conditionals + 1 }
      { G with conditionals := G.conditionals + 1 } :=
  ⟨h.1, congrArg (· + 1) h.2.1, h.2.2⟩

theorem Fits.inConditional_eq (h : F.Fits G) : G.inConditional = F.inConditional := by
  rw [inConditional, inConditional, h.2.1]

end Frame

/-! ### Text that goes on -/

namespace Spot

variable {ext : List Char} {p p' q : Spot}

/-- A text begins with the same character when more comes after it. -/
theorem IsExtended.head?_eq_some {c : Char} (h : p.IsExtended ext p')
    (hp : p.ahead.head? = some c) :
    p'.ahead.head? = some c := by
  rw [h.head?_eq (by rintro hnil; rw [hnil] at hp; cases hp), hp]

/-- Blanks are passed in the extended text as well. -/
theorem IsExtended.exists_blanks (h : p.IsExtended ext p') (hp : p.Blanks q) :
    ∃ q', p'.Blanks q' ∧ q.IsExtended ext q' := by
  obtain ⟨ws, hws, hall⟩ := hp
  obtain ⟨q', hq', hq⟩ := h.exists_takes hws
  exact ⟨q', ⟨ws, hq', hall⟩, hq⟩

theorem IsExtended.exists_opensConditional {splicing : Bool} (h : p.IsExtended ext p')
    (hp : OpensConditional splicing p q) :
    ∃ q', OpensConditional splicing p' q' ∧ q.IsExtended ext q' := by
  obtain ⟨r, t, hsplicing, hblanks, hopen⟩ := hp
  obtain ⟨r', hr', hr⟩ := h.exists_takes hsplicing
  obtain ⟨t', ht', ht⟩ := hr.exists_blanks hblanks
  obtain ⟨q', hq', hq⟩ := ht.exists_takes hopen
  exact ⟨q', ⟨r', t', hr', ht', hq'⟩, hq⟩

/-- What ends a token does not make it a number. -/
theorem IsExtended.beginsNumber_eq (hext : ∀ c ∈ ext.head?, endsToken c = true)
    (h : p.IsExtended ext p') (c : Char) : beginsNumber c p'.ahead = beginsNumber c p.ahead := by
  rw [beginsNumber, beginsNumber, h]
  rcases p.ahead with - | ⟨d, rest⟩
  · rcases ext with - | ⟨d, rest⟩
    · rfl
    · have hdigit := Level.isDigit_eq_false_of_endsToken (hext d rfl)
      simp [hdigit]
  · rfl

end Spot

/-! ### Mirrored forms -/

/-- Whether `R` spells, wherever a text goes on as after `p`, a tight form there that shows the same
as `f`, and up to where it goes on as after `q`. -/
def Mirrored (full : Bool) (ext : List Char) (R : Frame → Spot → Form → Spot → Prop) (F : Frame)
    (p : Spot) (f : Form) (q : Spot) : Prop :=
  ∀ G p', F.Fits G → p.IsExtended ext p' →
    ∃ g q', R G p' g q' ∧ q.IsExtended ext q' ∧ g.shown full = f.shown full ∧ g.isTight = true

/-- Whether the elements of a sequence are spelled so. -/
def MirroredAll (full : Bool) (ext : List Char) (R : Frame → Spot → List Form → Spot → Prop)
    (F : Frame) (p : Spot) (es : List Form) (q : Spot) : Prop :=
  ∀ G p', F.Fits G → p.IsExtended ext p' →
    ∃ gs q', R G p' gs q' ∧ q.IsExtended ext q' ∧ Form.shownAll full gs = Form.shownAll full es ∧
      Form.allTight gs = true

variable {regex : RegexEngine} {options : Options} {loose full : Bool} {ext : List Char}
  {F : Frame} {p q r t : Spot} {f g : Form} {es : List Form}

/-- A form that is scanned after its opening is spelled as it is, if what the text goes on with does
not change where scanning stops. -/
theorem mirrored_scanned {α : Type} {R : Frame → Spot → Form → Spot → Prop}
    {edge : List Char → Prop}
    {m : Scan α} {a : α} {opening : List Char} (hm : Scan.Carries edge m) (hc : p.Takes opening q)
    (h : Scan.Gives m q a r) (hedge : r.ahead = [] → edge ext) (htight : f.isTight = true)
    (hrule : ∀ G p' q' r', p'.Takes opening q' → q.IsExtended ext q' → Scan.Gives m q' a r' →
      R G p' f r') :
    Mirrored full ext R F p f r := by
  intro G p' _ hp
  obtain ⟨q', hc', hq⟩ := hp.exists_takes hc
  obtain ⟨r', h', hr⟩ := h.carry hm hq hedge
  exact ⟨f, r', hrule G p' q' r' hc' hq h', hr, rfl, htight⟩

/-! ### Atoms -/

section

variable (hext : ∀ c ∈ ext.head?, endsToken c = true)
include hext

/-- A number ends where the token does, so that the extension does not add to it. -/
theorem mirrored_number {c : Char} {n : Number} (hc : p.Takes [c] q)
    (hbegins : beginsNumber c q.ahead = true) (h : Scan.Gives (Scan.number c) q n r) :
    Mirrored full ext (Spells (.standard regex options) loose) F p (.number n) r := by
  have hedge : ∀ c ∈ ext.head?, endsNumber c = true :=
    fun c hc => endsNumber_of_endsToken (hext c hc)
  refine mirrored_scanned (Scan.carries_number c) hc h (fun _ => hedge) rfl ?_
  intro G p' q' r' hc' hq h'
  exact .number hc' ((hq.beginsNumber_eq hext c).trans hbegins) h'

/-- A token is the same, since the extension ends tokens. -/
theorem mirrored_token {c : Char} {text : String} (hc : p.Takes [c] q)
    (hplain : isTrigger c = false ∧ Text.isBlank c = false ∧ beginsNumber c q.ahead = false)
    (h : Scan.Gives (Scan.token c) q text r)
    (hread : Token.interpret Resolver.standard text = .ok f) :
    Mirrored full ext (Spells (.standard regex options) loose) F p f r := by
  have htight : f.isTight = true := by
    rcases atom_of_interpret hread with rfl | ⟨b, rfl⟩ | ⟨s, rfl⟩ | ⟨k, rfl⟩ <;> rfl
  refine mirrored_scanned (Scan.carries_token c) hc h (fun _ => hext) htight ?_
  intro G p' q' r' hc' hq h'
  rw [← hq.beginsNumber_eq hext c] at hplain
  exact .token hc' hplain h' hread

theorem mirrored_charLiteral {token : String} {c : Char} (hc : p.Takes ['\\'] q)
    (h : Scan.Gives Scan.charLiteral q (token, c) r) :
    Mirrored full ext (Spells (.standard regex options) loose) F p (.charLiteral token c) r :=
  mirrored_scanned Scan.carries_charLiteral hc h (fun _ => hext) rfl
    fun _ _ _ _ hc' _ h' => .charLiteral hc' h'

theorem mirrored_arg {text : String} {ref : ArgRef} (hc : p.Takes ['%'] q)
    (h : Scan.Gives (Scan.token '%') q text r) (href : Level.argRef? text.toList.tail = some ref) :
    Mirrored full ext (Spells (.standard regex options) loose) F p (.arg ref) r :=
  mirrored_scanned (Scan.carries_token '%') hc h (fun _ => hext) rfl
    fun _ _ _ _ hc' _ h' => .arg hc' h' href

theorem mirrored_symbolic {c : Char} {text : String} {x : Binary64}
    (hc : p.Takes ['#', '#', c] q) (h : Scan.Gives (Scan.token c) q text r)
    (hvalue : symbolicValue? text = some x) :
    Mirrored full ext (Spells (.standard regex options) loose) F p (.number (.float x)) r :=
  mirrored_scanned (Scan.carries_token c) hc h (fun _ => hext) rfl
    fun _ _ _ _ hc' _ h' => .symbolic hc' h' hvalue

end

theorem mirrored_string {text : String} (hc : p.Takes ['"'] q)
    (h : Scan.Gives Scan.string q text r) :
    Mirrored full ext (Spells (.standard regex options) loose) F p (.string text) r :=
  mirrored_scanned Scan.carries_string hc h (fun _ => True.intro) rfl
    fun _ _ _ _ hc' _ h' => .string hc' h'

/-- A pattern has its end in itself. -/
theorem mirrored_pattern {source : String} (hc : p.Takes ['#', '"'] q)
    (h : Scan.Gives Scan.pattern q source r)
    (hread : (Host.standard regex).patterns source = .ok f) :
    Mirrored full ext (Spells (.standard regex options) loose) F p f r := by
  have htight : f.isTight = true := by
    obtain rfl := Host.eq_pattern_of_compilePattern hread
    rfl
  exact mirrored_scanned Scan.carries_pattern hc h (fun _ => True.intro) htight
    fun _ _ _ _ hc' _ h' => .pattern hc' h' hread

/-! ### What is put in front of a form -/

/-- What is put in front of a form stands before a tight one, in both modes. -/
theorem isTight_operand (htrivia : f.isTrivia = false) (hshown : g.shown full = f.shown full)
    (htight : g.isTight = true) : (!g.isTrivia && g.isTight) = true := by
  rw [htight, ← Form.isTrivia_shown full g, hshown, Form.isTrivia_shown, htrivia]
  rfl

section

variable (h : Mirrored full ext (SpellsNext (.standard regex options) loose) F q f r)
  (htrivia : f.isTrivia = false)
include h htrivia

/-- A mark stands before a form that shows the same. -/
theorem mirrored_marked {mark : Mark} {opening : List Char} (hmark : mark.opening? = some opening)
    (hc : p.Takes opening q) (heval : mark = .eval → (Host.standard regex).evaluation = .enabled)
    (hunquote : mark = .unquote → ∃ c, q.ahead.head? = some c ∧ c ≠ '@') :
    Mirrored full ext (Spells (.standard regex options) loose) F.up p (.marked mark f) r := by
  intro G p' hup hp
  obtain ⟨G, rfl, hG⟩ := hup.exists_of_up
  obtain ⟨q', hc', hq⟩ := hp.exists_takes hc
  obtain ⟨g, r', hg, hr, hshown, htight⟩ := h G q' hG hq
  have hunquote' : mark = .unquote → ∃ c, q'.ahead.head? = some c ∧ c ≠ '@' := by
    intro hmark
    obtain ⟨c, hhead, hne⟩ := hunquote hmark
    exact ⟨c, hq.head?_eq_some hhead, hne⟩
  refine ⟨.marked mark g, r', .marked hmark hc' heval hunquote' hg, hr, ?_,
    isTight_operand htrivia hshown htight⟩
  rw [Form.shown_marked, Form.shown_marked, hshown]

theorem mirrored_discard (hc : p.Takes ['#', '_'] q) :
    Mirrored full ext (SpellsTrivia (.standard regex options) loose)
      F.up p (.marked .discard f) r := by
  intro G p' hup hp
  obtain ⟨G, rfl, hG⟩ := hup.exists_of_up
  obtain ⟨q', hc', hq⟩ := hp.exists_takes hc
  obtain ⟨g, r', hg, hr, hshown, htight⟩ := h G q' hG hq
  refine ⟨.marked .discard g, r', .discard hc' hg, hr, ?_, isTight_operand htrivia hshown htight⟩
  rw [Form.shown_marked, Form.shown_marked, hshown]

/-- The kind of a note, and whether an object may be annotated, show in what is shown. -/
theorem mirrored_annotated {kind : NoteKind} {object : Form} (position : Option Position)
    (hobject : Mirrored full ext (SpellsNext (.standard regex options) loose) F r object t)
    (hobjectTrivia : object.isTrivia = false) (hc : p.Takes ['^'] q ∨ p.Takes ['#', '^'] q)
    (hkind : Level.noteKind? f = some kind) (hannotatable : object.isAnnotatable = true) :
    Mirrored full ext (Spells (.standard regex options) loose) F.up p
      (.annotated kind f object position) t := by
  intro G p' hup hp
  obtain ⟨G, rfl, hG⟩ := hup.exists_of_up
  obtain ⟨q', hc', hq⟩ : ∃ q', (p'.Takes ['^'] q' ∨ p'.Takes ['#', '^'] q') ∧
      q.IsExtended ext q' := by
    rcases hc with hc | hc
    · obtain ⟨q', hc', hq⟩ := hp.exists_takes hc
      exact ⟨q', .inl hc', hq⟩
    · obtain ⟨q', hc', hq⟩ := hp.exists_takes hc
      exact ⟨q', .inr hc', hq⟩
  obtain ⟨note, r', hnote, hr, hnoteShown, hnoteTight⟩ := h G q' hG hq
  obtain ⟨g, t', hg, ht, hshown, htight⟩ := hobject G r' hG hr
  -- Neither the kind nor whether it may be annotated changes when trivia are no longer shown.
  have hkind : Level.noteKind? note = some kind := by
    rw [← Form.noteKind?_shown full, hnoteShown, Form.noteKind?_shown, hkind]
  have hannotatable : g.isAnnotatable = true := by
    rw [← Form.isAnnotatable_shown full, hshown, Form.isAnnotatable_shown, hannotatable]
  refine ⟨_, t', .annotated hc' hnote hkind hg hannotatable, ht, ?_, ?_⟩
  · rw [Form.shown_annotated, Form.shown_annotated, hnoteShown, hshown]
  · rw [Form.isTight, isTight_operand hobjectTrivia hshown htight, Bool.and_true]
    exact isTight_operand htrivia hnoteShown hnoteTight

/-- Forms that show the same become the same behind a backquote. -/
theorem mirrored_backquoted {gensyms : List (Symbol × Symbol)} (hc : p.Takes ['\x60'] q)
    (hplain : f.IsPlain) (hread : Level.backquote f gensyms = .ok g) :
    Mirrored full ext (Spells (.standard regex options) loose) F.up p g r := by
  intro G p' hup hp
  obtain ⟨G, rfl, hG⟩ := hup.exists_of_up
  obtain ⟨q', hc', hq⟩ := hp.exists_takes hc
  obtain ⟨e, r', he, hr, hshown, htight⟩ := h G q' hG hq
  obtain ⟨hsplicing, rfl⟩ := (Level.backquote_eq_ok_iff hplain).1 hread
  have hliteral : e.isLiteral = f.isLiteral := by
    rw [← Form.isLiteral_shown full, hshown, Form.isLiteral_shown]
  have hback : Level.backquote e gensyms =
      .ok (if f.isLiteral then e else .backquoted e gensyms) := by
    refine (Level.backquote_eq_ok_iff he.isPlain).2 ⟨?_, ?_⟩
    · rw [← Form.isSplicing_shown full, hshown, Form.isSplicing_shown, hsplicing]
    · rw [hliteral]
  refine ⟨_, r', .backquoted hc' he hback, hr, ?_, ?_⟩
  · split
    · exact hshown
    · rw [Form.shown_backquoted, Form.shown_backquoted, hshown]
  · split
    · exact htight
    · exact isTight_operand htrivia hshown htight

end

/-- A function literal has the parenthesis of its list. -/
theorem mirrored_function
    (h : Mirrored full ext (SpellsNext (.standard regex options) loose)
      { F with inFunction := true } q f r)
    (htrivia : f.isTrivia = false) (hc : p.Takes ['#'] q) (hopening : q.ahead.head? = some '(')
    (hF : F.inFunction = false) :
    Mirrored full ext (Spells (.standard regex options) loose) F.up p (.marked .function f) r := by
  intro G p' hup hp
  obtain ⟨G, rfl, hG⟩ := hup.exists_of_up
  obtain ⟨q', hc', hq⟩ := hp.exists_takes hc
  obtain ⟨g, r', hg, hr, hshown, htight⟩ := h _ q' hG.function hq
  refine ⟨.marked .function g, r',
    .function hc' (hq.head?_eq_some hopening) (hG.1.trans hF) hg, hr, ?_,
    isTight_operand htrivia hshown htight⟩
  rw [Form.shown_marked, Form.shown_marked, hshown]

/-- What is read with a tag is decided by what is shown of the form. -/
theorem mirrored_tagged {c : Char} {tag : Symbol}
    (htag : Mirrored full ext (SpellsNext (.standard regex options) loose) F q (.symbol tag) r)
    (h : Mirrored full ext (SpellsNext (.standard regex options) loose) F r f t)
    (htrivia : f.isTrivia = false) (hc : p.Takes ['#'] q) (hahead : q.ahead.head? = some c)
    (htrigger : HashTrigger.ofChar? c = none)
    (hread : Level.interpretTagged (.standard regex options) F.inConditional tag f = .ok g) :
    Mirrored full ext (Spells (.standard regex options) loose) F.up p g t := by
  intro G p' hup hp
  obtain ⟨G, rfl, hG⟩ := hup.exists_of_up
  obtain ⟨q', hc', hq⟩ := hp.exists_takes hc
  obtain ⟨m, r', hm, hr, hsymbol, -⟩ := htag G q' hG hq
  obtain rfl := Form.eq_symbol_of_shown hsymbol
  obtain ⟨e, t', he, ht, hshown, htight⟩ := h G r' hG hr
  have hkept : Level.interpretTagged (.standard regex options) G.inConditional tag e =
      .ok (.tagged tag e) := by
    rw [hG.inConditional_eq]
    -- the tag is known and its form a string, or the literal is kept whatever its form
    obtain ⟨rfl, ⟨text, rfl⟩ | hall⟩ := Level.interpretTagged_eq_ok hread
    · obtain rfl := Form.eq_string_of_shown hshown
      exact hread
    · exact hall e
  obtain ⟨rfl, -⟩ := Level.interpretTagged_eq_ok hread
  refine ⟨.tagged tag e, t', .tagged hc' (hq.head?_eq_some hahead) htrigger hm he hkept, ht, ?_,
    isTight_operand htrivia hshown htight⟩
  rw [Form.shown_tagged, Form.shown_tagged, hshown]

/-! ### Sequences -/

section

variable (h : MirroredAll full ext (SpellsAll (.standard regex options) loose) F q es r)
include h

/-- A list shows the same if its elements do. -/
theorem mirrored_list (info : Metadata Form) (hc : p.Takes ['('] q) (hclose : r.Takes [')'] t) :
    Mirrored full ext (Spells (.standard regex options) loose) F.up p (.list info es) t := by
  intro G p' hup hp
  obtain ⟨G, rfl, hG⟩ := hup.exists_of_up
  obtain ⟨q', hc', hq⟩ := hp.exists_takes hc
  obtain ⟨gs, r', hgs, hr, hshown, htight⟩ := h G q' hG hq
  obtain ⟨t', hclose', ht⟩ := hr.exists_takes hclose
  refine ⟨_, t', .list hc' hgs hclose', ht, ?_, htight⟩
  rw [Form.shown_list, Form.shown_list, hshown]

theorem mirrored_group {group : Group} {opening : List Char} {close : Char}
    (hbrackets : group.brackets? = some (opening, close)) (hc : p.Takes opening q)
    (hclose : r.Takes [close] t) (heven : group = .map → (Form.dataOf es).length % 2 = 0) :
    Mirrored full ext (Spells (.standard regex options) loose) F.up p (.group group es) t := by
  intro G p' hup hp
  obtain ⟨G, rfl, hG⟩ := hup.exists_of_up
  obtain ⟨q', hc', hq⟩ := hp.exists_takes hc
  obtain ⟨gs, r', hgs, hr, hshown, htight⟩ := h G q' hG hq
  obtain ⟨t', hclose', ht⟩ := hr.exists_takes hclose
  have heven' : group = .map → (Form.dataOf gs).length % 2 = 0 := by
    intro hmap
    rw [← Form.length_dataOf_shownAll full, hshown, Form.length_dataOf_shownAll, heven hmap]
  refine ⟨_, t', .group hbrackets hc' hgs hclose' heven', ht, ?_, htight⟩
  rw [Form.shown_group, Form.shown_group, hshown]

end

/-- The check of a conditional looks at data only, and so do both modes. -/
theorem mirrored_conditional {u : Spot} {splicing : Bool} (position : Option Position)
    (h : MirroredAll full ext (SpellsAll (.standard regex options) loose)
      { F with conditionals := F.conditionals + 1 } r es t)
    (hmode : options.conditionals ≠ .disabled) (hc : p.Takes ['#', '?'] q)
    (hopening : OpensConditional splicing q r) (hclose : t.Takes [')'] u)
    (hfault : Level.conditionalFault? splicing es = none) :
    Mirrored full ext (Spells (.standard regex options) loose) F.up p
      (.group (.conditional splicing position) es) u := by
  intro G p' hup hp
  obtain ⟨G, rfl, hG⟩ := hup.exists_of_up
  obtain ⟨q', hc', hq⟩ := hp.exists_takes hc
  obtain ⟨r', hopening', hr⟩ := hq.exists_opensConditional hopening
  obtain ⟨gs, t', hgs, ht, hshown, htight⟩ := h _ r' hG.conditional hr
  obtain ⟨u', hclose', hu⟩ := ht.exists_takes hclose
  have hfault' : Level.conditionalFault? splicing gs = none := by
    rw [← Form.conditionalFault?_shownAll full, hshown, Form.conditionalFault?_shownAll, hfault]
  refine ⟨_, u', .conditional hmode hc' hopening' hgs hclose' hfault', hu, ?_, htight⟩
  rw [Form.shown_group, Form.shown_group, hshown]
  rfl

/-! ### Trivia -/

/-- A comment that runs to the end of the text runs on if the text does. -/
theorem mirrored_comment {style : CommentStyle} {text : String}
    (hc : p.Takes (match style with | .line => [';'] | .shebang => ['#', '!']) q)
    (h : Scan.Gives Scan.line q text r) (hend : r.ahead = [] → ext = []) :
    Mirrored full ext (SpellsTrivia (.standard regex options) loose) F p (.comment style text) r :=
  mirrored_scanned Scan.carries_line hc h hend rfl fun _ _ _ _ hc' _ h' => .comment hc' h'

theorem mirrored_comma (hc : p.Takes [','] q) :
    Mirrored full ext (SpellsTrivia (.standard regex options) loose) F p .comma q := by
  intro G p' _ hp
  obtain ⟨q', hc', hq⟩ := hp.exists_takes hc
  exact ⟨.comma, q', .comma hc', hq, rfl, rfl⟩

/-- Blanks are the same in both modes. -/
theorem mirrored_next (hblanks : p.Blanks q)
    (h : Mirrored full ext (Spells (.standard regex options) loose) F q f r) :
    Mirrored full ext (SpellsNext (.standard regex options) loose) F p f r := by
  intro G p' hG hp
  obtain ⟨q', hblanks', hq⟩ := hp.exists_blanks hblanks
  obtain ⟨g, r', hg, hr, hshown, htight⟩ := h G q' hG hq
  exact ⟨g, r', .form hblanks' hg, hr, hshown, htight⟩

/-! ### Elements -/

theorem mirroredAll_nil (hblanks : p.Blanks q) :
    MirroredAll full ext (SpellsAll (.standard regex options) loose) F p [] q := by
  intro G p' _ hp
  obtain ⟨q', hblanks', hq⟩ := hp.exists_blanks hblanks
  exact ⟨[], q', .nil hblanks', hq, rfl, rfl⟩

/-- An element that is no trivia is one in both modes. -/
theorem mirroredAll_form (hblanks : p.Blanks q)
    (h : Mirrored full ext (Spells (.standard regex options) loose) F q f r)
    (htrivia : f.isTrivia = false)
    (hrest : MirroredAll full ext (SpellsAll (.standard regex options) loose) F r es t) :
    MirroredAll full ext (SpellsAll (.standard regex options) loose) F p (f :: es) t := by
  intro G p' hG hp
  obtain ⟨q', hblanks', hq⟩ := hp.exists_blanks hblanks
  obtain ⟨g, r', hg, hr, hshown, htight⟩ := h G q' hG hq
  obtain ⟨gs, t', hgs, ht, hshownAll, htightAll⟩ := hrest G r' hG hr
  refine ⟨g :: gs, t', .form hblanks' hg hgs, ht, ?_, ?_⟩
  · rw [Form.shownAll_cons full hg.isTrivia_eq_false, Form.shownAll_cons full htrivia, hshown,
      hshownAll]
  · rw [Form.allTight, htight, htightAll]
    rfl

/-- Trivia among the elements is kept in the one mode and skipped in the other one. Only if it is
kept in both does it show. -/
theorem mirroredAll_trivia {fs : List Form} (hblanks : p.Blanks q)
    (h : Mirrored full ext (SpellsTrivia (.standard regex options) loose) F q f r)
    (hfs : fs = f :: es ∨ fs = es ∧ full = false)
    (hfull : full = true → options.trivia = .keep) (htrivia : f.isTrivia = true)
    (hrest : MirroredAll full ext (SpellsAll (.standard regex options) loose) F r es t) :
    MirroredAll full ext (SpellsAll (.standard regex options) loose) F p fs t := by
  intro G p' hG hp
  obtain ⟨q', hblanks', hq⟩ := hp.exists_blanks hblanks
  obtain ⟨g, r', hg, hr, hshown, htight⟩ := h G q' hG hq
  obtain ⟨gs, t', hgs, ht, hshownAll, htightAll⟩ := hrest G r' hG hr
  -- the mode of the mirror decides whether the trivia is an element there
  rcases hmode : options.trivia with - | -
  · refine ⟨g :: gs, t', .kept hmode hblanks' hg hgs, ht, ?_, ?_⟩
    · rcases hfs with rfl | ⟨rfl, rfl⟩
      · rcases full with - | -
        · rw [Form.shownAll_cons_of_isTrivia hg.isTrivia, Form.shownAll_cons_of_isTrivia htrivia,
            hshownAll]
        · exact congrArg₂ List.cons hshown hshownAll
      · rw [Form.shownAll_cons_of_isTrivia hg.isTrivia, hshownAll]
    · rw [Form.allTight, htight, htightAll]
      rfl
  · refine ⟨gs, t', .skipped hmode hblanks' hg hgs, ht, ?_, htightAll⟩
    rcases hfs with rfl | ⟨rfl, rfl⟩
    · rcases full with - | -
      · rw [Form.shownAll_cons_of_isTrivia htrivia, hshownAll]
      · rw [hfull rfl] at hmode
        cases hmode
    · exact hshownAll

/-! ### Texts -/

/-- From forms that are legal where trivia is skipped nothing is erased. -/
theorem Legal.erased_eq_self (h : Legal regex options F f) (hskip : options.trivia = .skip) :
    f.erased = f := by
  refine Form.erased_eq_self f fun g hg => ?_
  obtain ⟨G, hG, -⟩ := h.exists_of_mem_nodes hg
  exact hG.isTrivia_eq_false hskip

theorem LegalAll.erasedAll_eq_self (h : LegalAll regex options F es)
    (hskip : options.trivia = .skip) :
    Form.erasedAll es = es := by
  refine Form.erasedAll_eq_self es fun g hg => ?_
  obtain ⟨G, hG, -⟩ := h.exists_of_mem_nodes hg
  exact hG.isTrivia_eq_false hskip

/-- Behind a backquote that gives a tight form stands no trivia: literals are none. -/
theorem isTight_of_backquote {gensyms : List (Symbol × Symbol)} (hplain : f.IsPlain)
    (hread : Level.backquote f gensyms = .ok g) (htight : g.isTight = true) :
    (!f.isTrivia && f.isTight) = true := by
  obtain ⟨-, rfl⟩ := (Level.backquote_eq_ok_iff hplain).1 hread
  split at htight
  · rename_i hliteral
    cases f <;> first | rfl | cases hliteral
  · exact htight

/-- In a tight text no trivia is found where a form is needed. -/
theorem SpellsNext.isTrivia_eq_false
    (htight : loose = true → (!f.isTrivia && f.isTight) = true)
    (hmode : loose = true → options.trivia = .keep)
    (h : SpellsNext (.standard regex options) loose F p f q) : f.isTrivia = false := by
  cases h with
  | form _ h => exact h.isTrivia_eq_false
  | kept hloose _ _ h =>
    have htight := htight hloose
    rw [h.isTrivia] at htight
    cases htight
  | skipped hloose hskip _ _ _ =>
    have hskip : options.trivia = .skip := hskip
    rw [hmode hloose] at hskip
    cases hskip

/-- What is asked of two modes and of an extension of the text, for what is spelled in the mode `l`
to be mirrored in the mode `r`: the extension ends a token, loose texts are read with trivia kept,
and where forms are to show in full, neither mode skips trivia. -/
structure Mirrorable (loose full : Bool) (l r : TriviaMode) (ext : List Char) : Prop where
  endsToken : ∀ c ∈ ext.head?, FormTree.endsToken c = true
  eq_keep : loose = true → l = .keep
  both_eq_keep : full = true → l = .keep ∧ r = .keep

section

variable {l r : TriviaMode} {loose' : Bool} (hmodes : Mirrorable loose full l r ext)
include hmodes

mutual

/-- A tight form that is spelled in one mode is mirrored in the other one. -/
theorem Spells.mirrored : ∀ {F : Frame} {p q : Spot} {f : Form},
    Spells (.standard regex { options with trivia := l }) loose F p f q →
    (loose = true → f.isTight = true) →
      Mirrored full ext (Spells (.standard regex { options with trivia := r }) loose') F p f q
  | _, _, _, _, .number hc hbegins h, _ => mirrored_number hmodes.endsToken hc hbegins h
  | _, _, _, _, .token hc hplain h hread, _ => mirrored_token hmodes.endsToken hc hplain h hread
  | _, _, _, _, .string hc h, _ => mirrored_string hc h
  | _, _, _, _, .charLiteral hc h, _ => mirrored_charLiteral hmodes.endsToken hc h
  | _, _, _, _, .arg hc h href, _ => mirrored_arg hmodes.endsToken hc h href
  | _, _, _, _, .pattern hc h hread, _ => mirrored_pattern hc h hread
  | _, _, _, _, .symbolic hc h hvalue, _ => mirrored_symbolic hmodes.endsToken hc h hvalue
  | _, _, _, _, .marked hmark hc heval hunquote h, htight =>
    mirrored_marked (h.mirrored htight) (h.isTrivia_eq_false htight hmodes.eq_keep) hmark hc heval
      hunquote
  | _, _, _, _, .function hc hopening hF h, htight =>
    mirrored_function (h.mirrored htight) (h.isTrivia_eq_false htight hmodes.eq_keep) hc hopening hF
  | _, _, _, _, .annotated hc hnote hkind hobject hannotatable, htight => by
    have hboth := fun hloose => Bool.and_eq_true_iff.1 (htight hloose)
    have hfirst := fun hloose => (hboth hloose).1
    have hsecond := fun hloose => (hboth hloose).2
    exact mirrored_annotated (hnote.mirrored hfirst)
      (hnote.isTrivia_eq_false hfirst hmodes.eq_keep) _ (hobject.mirrored hsecond)
      (hobject.isTrivia_eq_false hsecond hmodes.eq_keep) hc hkind hannotatable
  | _, _, _, _, .backquoted hc h hread, htight => by
    have hoperand := fun hloose => isTight_of_backquote h.isPlain hread (htight hloose)
    exact mirrored_backquoted (h.mirrored hoperand)
      (h.isTrivia_eq_false hoperand hmodes.eq_keep) hc h.isPlain hread
  | _, _, _, _, .tagged hc hahead htrigger htag h hread, htight => by
    obtain ⟨rfl, -⟩ := Level.interpretTagged_eq_ok hread
    exact mirrored_tagged (htag.mirrored fun _ => rfl) (h.mirrored htight)
      (h.isTrivia_eq_false htight hmodes.eq_keep) hc hahead htrigger hread
  | _, _, _, _, .list hc h hclose, htight =>
    mirrored_list (h.mirrored htight fun hnil => nomatch hclose.1.symm.trans hnil) _ hc hclose
  | _, _, _, _, .group hbrackets hc h hclose heven, htight =>
    mirrored_group (h.mirrored htight fun hnil => nomatch hclose.1.symm.trans hnil) hbrackets hc
      hclose heven
  | _, _, _, _, .conditional hmode hc hopening h hclose hfault, htight =>
    mirrored_conditional _ (h.mirrored htight fun hnil => nomatch hclose.1.symm.trans hnil) hmode hc
      hopening hclose hfault

/-- Trivia is mirrored where it is spelled, a discarded form as a tight one. -/
theorem SpellsTrivia.mirrored : ∀ {F : Frame} {p q : Spot} {f : Form},
    SpellsTrivia (.standard regex { options with trivia := l }) loose F p f q →
    (loose = true → f.isTight = true) → (q.ahead = [] → ext = []) →
      Mirrored full ext (SpellsTrivia (.standard regex { options with trivia := r }) loose') F p f q
  | _, _, _, _, .comment hc h, _, hend => mirrored_comment hc h hend
  | _, _, _, _, .comma hc, _, _ => mirrored_comma hc
  | _, _, _, _, .discard hc h, htight, _ =>
    mirrored_discard (h.mirrored htight) (h.isTrivia_eq_false htight hmodes.eq_keep) hc

/-- Behind what is put in front of a form no trivia is skipped, so that both modes find it. -/
theorem SpellsNext.mirrored : ∀ {F : Frame} {p q : Spot} {f : Form},
    SpellsNext (.standard regex { options with trivia := l }) loose F p f q →
    (loose = true → (!f.isTrivia && f.isTight) = true) →
      Mirrored full ext (SpellsNext (.standard regex { options with trivia := r }) loose') F p f q
  | _, _, _, _, .form hblanks h, htight =>
    mirrored_next hblanks (h.mirrored fun hloose => (Bool.and_eq_true_iff.1 (htight hloose)).2)
  | _, _, _, f, .kept hloose _ _ h, htight => by
    have htight := htight hloose
    rw [h.isTrivia] at htight
    cases htight
  | _, _, _, _, .skipped hloose hskip _ _ _, _ => by
    have hskip : l = .skip := hskip
    rw [hmodes.eq_keep hloose] at hskip
    cases hskip

/-- Elements are mirrored with trivia dropped or kept between them. -/
theorem SpellsAll.mirrored : ∀ {F : Frame} {p q : Spot} {es : List Form},
    SpellsAll (.standard regex { options with trivia := l }) loose F p es q →
    (loose = true → Form.allTight es = true) → (q.ahead = [] → ext = []) →
      MirroredAll full ext
        (SpellsAll (.standard regex { options with trivia := r }) loose') F p es q
  | _, _, _, _, .nil hblanks, _, _ => mirroredAll_nil hblanks
  | _, _, _, _, .form hblanks h hrest, htight, hend => by
    have hboth := fun hloose => Bool.and_eq_true_iff.1 (htight hloose)
    exact mirroredAll_form hblanks (h.mirrored fun hloose => (hboth hloose).1) h.isTrivia_eq_false
      (hrest.mirrored (fun hloose => (hboth hloose).2) hend)
  | _, _, _, _, .kept _ hblanks h hrest, htight, hend => by
    obtain ⟨cs, hcs⟩ := hrest.exists_takes
    have hboth := fun hloose => Bool.and_eq_true_iff.1 (htight hloose)
    have hhead := h.mirrored (fun hloose => (hboth hloose).1)
      fun hnil => hend (hcs.ahead_eq_nil hnil)
    exact mirroredAll_trivia hblanks hhead (.inl rfl) (fun h => (hmodes.both_eq_keep h).2)
      h.isTrivia (hrest.mirrored (fun hloose => (hboth hloose).2) hend)
  | _, _, _, _, .skipped hskip hblanks h hrest, htight, hend => by
    have hskip : l = .skip := hskip
    -- loose texts are read with trivia kept, and so is what shows in full
    have hstrict : loose ≠ true := by
      intro hloose
      rw [hmodes.eq_keep hloose] at hskip
      cases hskip
    have hpart : full = false := by
      rw [Bool.eq_false_iff]
      intro hshown
      rw [(hmodes.both_eq_keep hshown).1] at hskip
      cases hskip
    obtain ⟨cs, hcs⟩ := hrest.exists_takes
    exact mirroredAll_trivia hblanks
      (h.mirrored (fun hloose => absurd hloose hstrict) fun hnil => hend (hcs.ahead_eq_nil hnil))
      (.inr ⟨rfl, hpart⟩) (fun h => (hmodes.both_eq_keep h).2) h.isTrivia
      (hrest.mirrored htight hend)

end

end

end FormTree
