import FormTree.Proofs.Reader.Atoms
import FormTree.Proofs.Reader.Prefixed
import FormTree.Proofs.Reader.Spelled

/-!
# Reading at a spot

What the steps of a level do where the text is known: from a state that stands at a spot they
succeed and leave a state at another one. Here are the steps that look at single characters, what it
means that a level reads a form between two places, and the atoms.
-/

namespace FormTree

open Cursor Read

/-! ### States at a spot -/

namespace State

/-- Whether a state stands at a spot in a frame. -/
def StandsAt (s : State) (F : Frame) (p : Spot) : Prop := s.frame = F ∧ s.cursor.StandsAt p

/-- Whether, besides, it may hand the character before the spot back. -/
def StandsAfter (s : State) (F : Frame) (p : Spot) : Prop := s.StandsAt F p ∧ s.cursor.held = none

variable {s t : State} {F G : Frame} {p : Spot}

/-- A state with the same cursor stands at the same spot. -/
theorem StandsAt.reframe (h : s.StandsAt F p) (hcursor : t.cursor = s.cursor)
    (hframe : s.frame = F → t.frame = G) : t.StandsAt G p :=
  ⟨hframe h.1, hcursor ▸ h.2⟩

end State

namespace Spot

variable {total : Bool} {F : Frame} {p q r : Spot} {c : Char}

/-- The next character at a spot is the first one ahead. -/
theorem Takes.triple_next (hc : p.Takes [c] q) :
    Triple total (State.StandsAt · F p) (scan next) fun b s => b = some c ∧ s.StandsAfter F q := by
  refine .of_ok fun s hs => ?_
  obtain ⟨k, hk, hq, hheld⟩ := next_of_standsAt hs.2 hc
  exact ⟨some c, { s with cursor := k }, scan_eq_ok.2 ⟨k, hk, rfl⟩, rfl, ⟨hs.1, hq⟩, hheld⟩

/-- At the end of a text there is no next character. -/
theorem triple_next_nil (hp : p.ahead = []) :
    Triple total (State.StandsAt · F p) (scan next) fun b s => b = none ∧ s.StandsAt F p :=
  .of_ok fun s hs => ⟨none, s, scan_eq_ok.2 ⟨s.cursor, next_of_standsAt_nil hs.2 hp, rfl⟩, rfl, hs⟩

theorem Takes.triple_nextCharacter (hc : p.Takes [c] q) :
    Triple total (State.StandsAt · F p) nextCharacter fun b s => b = c ∧ s.StandsAfter F q :=
  .bind_eq hc.triple_next (.pure fun _ hs => ⟨rfl, hs⟩)

/-- A character that was just taken is put back. -/
theorem Takes.triple_unread (hc : p.Takes [c] q) :
    Triple total (State.StandsAfter · F q) (scan (unread c)) fun _ s => s.StandsAt F p :=
  .of_ok fun s hs => ⟨(), { s with cursor := s.cursor.handBack c }, rfl, hs.1.1,
    hs.1.2.handBack hs.2 hc⟩

/-- Behind blanks stands the first character of a form. -/
theorem Blanks.triple_nextForm (hblanks : p.Blanks q) (hc : q.Takes [c] r)
    (hblank : Text.isBlank c = false) :
    Triple total (State.StandsAt · F p) (scan nextForm) fun b s =>
      b = some c ∧ s.StandsAfter F r := by
  obtain ⟨ws, hws, hall⟩ := hblanks
  refine .of_ok fun s hs => ?_
  have hahead : s.cursor.At (ws ++ c :: r.ahead) := by
    rw [Cursor.At, hs.2.pending_eq, hws.1, hc.1]
    rfl
  obtain ⟨k, hk, hpast⟩ := nextForm_of_at hblank hall hahead
  -- scanning keeps to the text, so what is left tells where it has stopped
  have hstands : k.StandsAt r :=
    Scan.keeps_nextForm.standsAt hs.2 hk (hws.trans hc) hpast.1
  exact ⟨some c, { s with cursor := k }, scan_eq_ok.2 ⟨k, hk, rfl⟩, rfl, ⟨hs.1, hstands⟩, hpast.2⟩

/-- Behind blanks stands nothing at the end of a text. -/
theorem Blanks.triple_nextForm_nil (hblanks : p.Blanks q) (hq : q.ahead = []) :
    Triple total (State.StandsAt · F p) (scan nextForm) fun b s => b = none ∧ s.StandsAt F q := by
  obtain ⟨ws, hws, hall⟩ := hblanks
  refine .of_ok fun s hs => ?_
  have hahead : s.cursor.At ws := by
    rw [Cursor.At, hs.2.pending_eq, hws.1, hq, List.append_nil]
  obtain ⟨k, hk, hat⟩ := nextForm_of_at_blanks hall hahead
  have hstands : k.StandsAt q := by
    refine Scan.keeps_nextForm.standsAt hs.2 hk hws ?_
    rw [hq]
    exact hat
  exact ⟨none, { s with cursor := k }, scan_eq_ok.2 ⟨k, hk, rfl⟩, rfl, hs.1, hstands⟩

end Spot

/-- What scanning takes and gives at a spot is what it takes and gives there. -/
theorem Scan.Gives.triple_scan {α : Type} {total : Bool} {F : Frame} {p q : Spot} {m : Scan α}
    {a : α} (h : Scan.Gives m p a q) (hkeeps : Scan.Keeps m) (hblind : Scan.Blind m) :
    Triple total (State.StandsAt · F p) (scan m) fun b s => b = a ∧ s.StandsAt F q := by
  refine .of_ok fun s hs => ?_
  obtain ⟨k, hk, hq⟩ := h.exists_eq_ok hkeeps hblind hs.2
  exact ⟨a, { s with cursor := k }, scan_eq_ok.2 ⟨k, hk, rfl⟩, rfl, hs.1, hq⟩

/-! ### What levels read -/

/-- Whether what a step gives has the core of a form, and the state stands at a spot. -/
def Step.HasCore (give : Form → Step) (f : Form) (F : Frame) (r : Spot) (step : Step) (s : State) :
    Prop :=
  ∃ g, step = give g ∧ g.core = f.core ∧ s.StandsAt F r

/-- Whether a level reads a form between two places, and what it makes of it. -/
def ReadsAs (give : Form → Step) (regex : RegexEngine) (options : Options) (F : Frame) (p : Spot)
    (f : Form) (r : Spot) : Prop :=
  ∃ c q, p.Takes [c] q ∧ opens c = true ∧
    Triple true (State.StandsAfter · F q)
      (Level.start (.nesting F.remaining) (.standard regex options) c)
      (Step.HasCore give f F r)

/-- Whether a level reads a form that is no trivia. -/
abbrev ReadsForm (regex : RegexEngine) (options : Options) := ReadsAs Step.form regex options

/-- Whether a level reads trivia. -/
abbrev ReadsTrivia (regex : RegexEngine) (options : Options) :=
    ReadsAs (Level.trivia (.standard regex options)) regex options

/-- Whether levels find a form, whatever else they are waiting for. -/
def ReadsNext (regex : RegexEngine) (options : Options) (F : Frame) (p : Spot) (f : Form)
    (r : Spot) : Prop :=
  ∀ closer, Level.Awaits closer →
    Triple true (State.StandsAt · F p)
      ((FormReader.nesting (F.remaining + 1)).run (.standard regex options) closer) fun out s =>
        ∃ g, out = .form g ∧ g.core = f.core ∧ s.StandsAt F r

/-- Whether levels find what closes a sequence after a place, or the end of input there. -/
def ReadsEnd (regex : RegexEngine) (options : Options) (F : Frame) (p r : Spot) : Prop :=
  (∀ close t, Level.IsCloser close → r.Takes [close] t →
    Triple true (State.StandsAt · F p)
      ((FormReader.nesting (F.remaining + 1)).run (.standard regex options) (some close))
        fun out s => out = .closed ∧ s.StandsAt F t) ∧
  (r.ahead = [] →
    Triple true (State.StandsAt · F p)
      ((FormReader.nesting (F.remaining + 1)).run (.standard regex options) none) fun out s =>
        out = .endOfInput ∧ s.StandsAt F r)

/-- Whether levels find forms one after the other, and then no more. -/
def ReadsAll (regex : RegexEngine) (options : Options) (F : Frame) : Spot → List Form → Spot → Prop
  | p, [], r => ReadsEnd regex options F p r
  | p, f :: es, r => ∃ q, ReadsNext regex options F p f q ∧ ReadsAll regex options F q es r

variable {regex : RegexEngine} {options : Options} {F : Frame} {p q r t : Spot}

section

variable {give : Form → Step} {f g : Form}

/-- A step that gives a form has its core. -/
theorem hasCore_pure {P : State → Prop} (hcore : g.core = f.core)
    (h : ∀ s, P s → s.StandsAt F r) :
    Triple true P (pure (give g) : Read Step) (Step.HasCore give f F r) :=
  .pure fun s hs => ⟨g, rfl, hcore, h s hs⟩

/-! ### Atoms -/

/-- A character that is neither blank nor a trigger opens a form: a token. -/
theorem opens_of_not_isTrigger {c : Char} (hblank : Text.isBlank c = false)
    (htrigger : isTrigger c = false) : opens c = true := by
  have hne {d : Char} (hd : isTrigger d = true) : c ≠ d := by
    rintro rfl
    rw [htrigger] at hd
    cases hd
  simp [opens, hblank, hne (d := ')') (by decide), hne (d := ']') (by decide),
    hne (d := '\x7d') (by decide)]

theorem opens_of_isDigit {c : Char} (h : Text.isDigit c = true) : opens c = true := by
  have hnumber := Number.endsNumber_of_isDigit h
  simp only [endsNumber, Bool.or_eq_false_iff] at hnumber
  exact opens_of_not_isTrigger hnumber.1 hnumber.2

/-- The next character after a sign is looked at and handed back. -/
theorem triple_signed {c : Char} {Q : Step → State → Prop}
    (hsign : isSign c = true) (hnumber : q.ahead.head?.any Text.isDigit = true →
      Triple true (State.StandsAt · F q) (Level.number c) Q)
    (htoken : q.ahead.head?.any Text.isDigit = false →
      Triple true (State.StandsAt · F q) (Level.token (.standard regex options) c) Q) :
    Triple true (State.StandsAfter · F q)
      (Level.start (.nesting F.remaining) (.standard regex options) c) Q := by
  have hstart : Level.start (.nesting F.remaining) (.standard regex options) c =
      Level.signed (.standard regex options) c := by
    simp only [isSign, Bool.or_eq_true, beq_iff_eq] at hsign
    rcases hsign with rfl | rfl <;> rfl
  rw [hstart]
  -- at the end of the text there is no character to hand back
  rcases hahead : q.ahead with - | ⟨d, rest⟩
  · rw [hahead] at htoken
    exact .bind_eq ((Spot.triple_next_nil hahead).pre fun _ hs => hs.1) (htoken rfl)
  · have hd := Spot.takes_of_ahead hahead
    rw [hahead] at hnumber htoken
    refine .bind_eq (hd.triple_next.pre fun _ hs => hs.1) (.bind hd.triple_unread fun _ => ?_)
    rcases hdigit : Text.isDigit d with - | -
    · exact .ite_false (by simp) (htoken hdigit)
    · exact .ite_true rfl (hnumber hdigit)

/-- What is scanned as a number is read as one, where a number begins. -/
theorem readsForm_number {c : Char} {n : Number} (hc : p.Takes [c] q)
    (hbegins : beginsNumber c q.ahead = true) (h : Scan.Gives (Scan.number c) q n r) :
    ReadsForm regex options F p (.number n) r := by
  have hnumber : Triple true (State.StandsAt · F q) (Level.number c)
      (Step.HasCore .form (.number n) F r) :=
    .bind_eq (h.triple_scan (Scan.keeps_number c) (Scan.blind_number c))
      (hasCore_pure rfl fun _ h => h)
  rcases hdigit : Text.isDigit c with - | -
  · rw [beginsNumber, hdigit, Bool.false_or, Bool.and_eq_true] at hbegins
    obtain ⟨hsign, hhead⟩ := hbegins
    refine ⟨c, q, hc, ?_, triple_signed hsign (fun _ => hnumber) fun hnone => ?_⟩
    · simp only [isSign, Bool.or_eq_true, beq_iff_eq] at hsign
      rcases hsign with rfl | rfl <;> decide
    · rw [hhead] at hnone
      cases hnone
  · refine ⟨c, q, hc, opens_of_isDigit hdigit, ?_⟩
    rw [Level.start, if_pos hdigit]
    exact hnumber.pre fun _ hs => hs.1

/-- What is scanned as a token is read as what it denotes, where no number begins. -/
theorem readsForm_token {c : Char} {text : String} (hc : p.Takes [c] q)
    (hplain : isTrigger c = false ∧ Text.isBlank c = false ∧ beginsNumber c q.ahead = false)
    (h : Scan.Gives (Scan.token c) q text r)
    (hread : Token.interpret Resolver.standard text = .ok f) : ReadsForm regex options F p f r := by
  obtain ⟨htrigger, hblank, hbegins⟩ := hplain
  rw [beginsNumber, Bool.or_eq_false_iff] at hbegins
  obtain ⟨hdigit, hsigned⟩ := hbegins
  have htoken : Triple true (State.StandsAt · F q) (Level.token (.standard regex options) c)
      (Step.HasCore .form f F r) := by
    refine .bind_eq (h.triple_scan (Scan.keeps_token c) (Scan.blind_token c)) ?_
    have hok : Token.interpret (Setting.standard regex options).host.resolver text = .ok f := hread
    rw [hok]
    exact hasCore_pure rfl fun _ h => h
  refine ⟨c, q, hc, opens_of_not_isTrigger hblank htrigger, ?_⟩
  -- A sign looks at the next character first, to find out whether a number begins.
  rcases hsign : isSign c with - | -
  · have hnone : Trigger.ofChar? c = none := by
      rw [isTrigger, Option.isSome_eq_false_iff, Option.isNone_iff_eq_none] at htrigger
      exact htrigger
    rw [Level.start, if_neg (by simp [hdigit]), hnone]
    dsimp only
    have hsign : ¬ (c == '+' || c == '-') = true := by simpa [isSign] using hsign
    rw [if_neg hsign]
    exact htoken.pre fun _ hs => hs.1
  · rw [hsign, Bool.true_and] at hsigned
    refine triple_signed hsign (fun hhead => ?_) fun _ => htoken
    rw [hsigned] at hhead
    cases hhead

/-- What begins with a character that is dispatched on. -/
theorem readsAs_of_start {c : Char} (hc : p.Takes [c] q) (hopens : opens c = true)
    (h : Triple true (State.StandsAt · F q)
      (Level.start (.nesting F.remaining) (.standard regex options) c) (Step.HasCore give f F r)) :
    ReadsAs give regex options F p f r :=
  ⟨c, q, hc, hopens, h.pre fun _ hs => hs.1⟩

/-- What begins with a hash sign and a character that is dispatched on. -/
theorem readsAs_of_startHash {c : Char} {trigger : HashTrigger} (hc : p.Takes ['#', c] q)
    (htrigger : HashTrigger.ofChar? c = some trigger)
    (h : Triple true (State.StandsAfter · F q)
      (Level.startHash (.nesting F.remaining) (.standard regex options) trigger)
        (Step.HasCore give f F r)) : ReadsAs give regex options F p f r := by
  obtain ⟨m, hm, hmc⟩ := hc.exists_of_cons
  have hstart : Level.start (.nesting F.remaining) (.standard regex options) '#' =
      Level.hash (.nesting F.remaining) (.standard regex options) := rfl
  refine readsAs_of_start hm (by decide) ?_
  rw [hstart]
  refine .bind_eq hmc.triple_nextCharacter ?_
  rw [htrigger]
  exact h

theorem readsForm_string {text : String} (hc : p.Takes ['"'] q)
    (h : Scan.Gives Scan.string q text r) : ReadsForm regex options F p (.string text) r :=
  readsAs_of_start hc (by decide)
    (.bind_eq (h.triple_scan Scan.keeps_string Scan.blind_string) (hasCore_pure rfl fun _ h => h))

theorem readsForm_charLiteral {token : String} {c : Char} (hc : p.Takes ['\\'] q)
    (h : Scan.Gives Scan.charLiteral q (token, c) r) :
    ReadsForm regex options F p (.charLiteral token c) r :=
  readsAs_of_start hc (by decide)
    (.bind_eq (h.triple_scan Scan.keeps_charLiteral Scan.blind_charLiteral)
      (hasCore_pure rfl fun _ h => h))

theorem readsForm_arg {text : String} {ref : ArgRef} (hc : p.Takes ['%'] q)
    (h : Scan.Gives (Scan.token '%') q text r)
    (href : Level.argRef? text.toList.tail = some ref) :
    ReadsForm regex options F p (.arg ref) r := by
  have harg : Triple true (State.StandsAt · F q) Level.arg (Step.HasCore .form (.arg ref) F r) := by
    refine .bind_eq (h.triple_scan (Scan.keeps_token _) (Scan.blind_token _)) ?_
    rw [href]
    exact hasCore_pure rfl fun _ h => h
  exact readsAs_of_start hc (by decide) harg

/-- A pattern is read as what the host makes of its source. -/
theorem readsForm_pattern {source : String} (hc : p.Takes ['#', '"'] q)
    (h : Scan.Gives Scan.pattern q source r)
    (hread : (Host.standard regex).patterns source = .ok f) :
    ReadsForm regex options F p f r := by
  have hpattern : Triple true (State.StandsAt · F q) (Level.pattern (.standard regex options))
      (Step.HasCore .form f F r) := by
    refine .bind_eq (h.triple_scan Scan.keeps_pattern Scan.blind_pattern) ?_
    have hok : (Setting.standard regex options).host.patterns source = .ok f := hread
    rw [hok]
    exact hasCore_pure rfl fun _ h => h
  exact readsAs_of_startHash hc rfl (hpattern.pre fun _ hs => hs.1)

theorem readsForm_symbolic {c : Char} {text : String} {x : Binary64}
    (hc : p.Takes ['#', '#', c] q) (h : Scan.Gives (Scan.token c) q text r)
    (hvalue : symbolicValue? text = some x) :
    ReadsForm regex options F p (.number (.float x)) r := by
  have happend : p.Takes (['#', '#'] ++ [c]) q := hc
  obtain ⟨m, hm, hmc⟩ := happend.exists_of_append
  have hsymbolic : Triple true (State.StandsAt · F m) Level.symbolic
      (Step.HasCore .form (.number (.float x)) F r) := by
    refine .bind_eq hmc.triple_nextCharacter ?_
    refine .bind_eq ((h.triple_scan (Scan.keeps_token c) (Scan.blind_token c)).pre
      fun _ hs => hs.1) ?_
    -- the reader compares the token with the three names in the same order
    unfold symbolicValue? at hvalue
    split at hvalue
    · rename_i h₁
      cases hvalue
      exact .ite_true h₁ (hasCore_pure rfl fun _ h => h)
    · rename_i h₁
      refine .ite_false h₁ ?_
      split at hvalue
      · rename_i h₂
        cases hvalue
        exact .ite_true h₂ (hasCore_pure rfl fun _ h => h)
      · rename_i h₂
        refine .ite_false h₂ ?_
        split at hvalue
        · rename_i h₃
          cases hvalue
          exact .ite_true h₃ (hasCore_pure rfl fun _ h => h)
        · cases hvalue
  exact readsAs_of_startHash hm rfl (hsymbolic.pre fun _ hs => hs.1)

end

end FormTree
