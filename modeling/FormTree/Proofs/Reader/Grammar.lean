import FormTree.Proofs.Form.Legal
import FormTree.Proofs.Source.Span

/-!
# The grammar of forms

What text spells a form. The grammar relates two places in a text to the form that is spelled
between them: its rules are those of the constructs, and the tokens at its leaves are what scanning
takes and gives there. Every position that a form records is that of a character which its own rule
names.

Blanks may stand before any form. So may trivia, which is kept as a form of its own or skipped.
Where trivia stands before a form that a mark, an annotation, a backquote or a tag is waiting for,
keeping it makes it that form; a **tight** text has no trivia there, and `loose` says whether other
texts are admitted as well.
-/

namespace FormTree

/-- Whether only blanks stand between two places. -/
def Spot.Blanks (p q : Spot) : Prop :=
  ∃ ws, p.Takes ws q ∧ ws.all Text.isBlank = true

/-- Whether a character is a sign. -/
def isSign (c : Char) : Bool := c == '+' || c == '-'

/-- Whether a number begins with `c`, with `rest` after it: with a digit, or a sign and a digit. -/
def beginsNumber (c : Char) (rest : List Char) : Bool :=
  Text.isDigit c || (isSign c && rest.head?.any Text.isDigit)

/-- What a mark is written as. The parenthesis of a function literal belongs to its list, and a
discarded form is trivia. -/
def Mark.opening? : Mark → Option (List Char)
  | .quote => some ['\'']
  | .deref => some ['@']
  | .unquote => some ['~']
  | .unquoteSplicing => some ['~', '@']
  | .eval => some ['#', '=']
  | .var => some ['#', '\'']
  | .function | .discard => none

/-- What stands before and after the elements of a vector, map or set. -/
def Group.brackets? : Group → Option (List Char × Char)
  | .vector => some (['['], ']')
  | .map => some (['\x7b'], '\x7d')
  | .set => some (['#', '\x7b'], '\x7d')
  | .conditional _ _ | .file => none

/-- The symbolic value of a token. -/
def symbolicValue? (token : String) : Option Binary64 :=
  if token == "Inf" then some (.infinity false)
  else if token == "-Inf" then some (.infinity true)
  else if token == "NaN" then some .nan
  else none

/-- Whether what stands between two places opens the body of a conditional. -/
def OpensConditional (splicing : Bool) (p q : Spot) : Prop :=
  ∃ r t, p.Takes (if splicing then ['@'] else []) r ∧ r.Blanks t ∧ t.Takes ['('] q

mutual

/-- What spells a form that is no trivia, from its first character to its last. -/
inductive Spells (setting : Setting) (loose : Bool) : Frame → Spot → Form → Spot → Prop
  | number {F : Frame} {p q r : Spot} {c : Char} {n : Number} (hc : p.Takes [c] q)
    (hbegins : beginsNumber c q.ahead = true) (h : Scan.Gives (Scan.number c) q n r) :
    Spells setting loose F p (.number n) r
  | token {F : Frame} {p q r : Spot} {c : Char} {text : String} {f : Form} (hc : p.Takes [c] q)
    (hplain : isTrigger c = false ∧ Text.isBlank c = false ∧ beginsNumber c q.ahead = false)
    (h : Scan.Gives (Scan.token c) q text r)
    (hread : Token.interpret setting.host.resolver text = .ok f) : Spells setting loose F p f r
  | string {F : Frame} {p q r : Spot} {text : String} (hc : p.Takes ['"'] q)
    (h : Scan.Gives Scan.string q text r) : Spells setting loose F p (.string text) r
  | charLiteral {F : Frame} {p q r : Spot} {token : String} {c : Char} (hc : p.Takes ['\\'] q)
    (h : Scan.Gives Scan.charLiteral q (token, c) r) :
    Spells setting loose F p (.charLiteral token c) r
  | arg {F : Frame} {p q r : Spot} {text : String} {ref : ArgRef} (hc : p.Takes ['%'] q)
    (h : Scan.Gives (Scan.token '%') q text r)
    (href : Level.argRef? text.toList.tail = some ref) : Spells setting loose F p (.arg ref) r
  | pattern {F : Frame} {p q r : Spot} {source : String} {f : Form} (hc : p.Takes ['#', '"'] q)
    (h : Scan.Gives Scan.pattern q source r) (hread : setting.host.patterns source = .ok f) :
    Spells setting loose F p f r
  | symbolic {F : Frame} {p q r : Spot} {c : Char} {text : String} {x : Binary64}
    (hc : p.Takes ['#', '#', c] q) (h : Scan.Gives (Scan.token c) q text r)
    (hvalue : symbolicValue? text = some x) : Spells setting loose F p (.number (.float x)) r
  | marked {F : Frame} {p q r : Spot} {mark : Mark} {opening : List Char} {f : Form}
    (hmark : mark.opening? = some opening) (hc : p.Takes opening q)
    (heval : mark = .eval → setting.host.evaluation = .enabled)
    (hunquote : mark = .unquote → ∃ c, q.ahead.head? = some c ∧ c ≠ '@')
    (h : SpellsNext setting loose F q f r) : Spells setting loose F.up p (.marked mark f) r
  | function {F : Frame} {p q r : Spot} {f : Form} (hc : p.Takes ['#'] q)
    (hopening : q.ahead.head? = some '(') (hF : F.inFunction = false)
    (h : SpellsNext setting loose { F with inFunction := true } q f r) :
    Spells setting loose F.up p (.marked .function f) r
  | annotated {F : Frame} {p q r t : Spot} {kind : NoteKind} {note object : Form}
    (hc : p.Takes ['^'] q ∨ p.Takes ['#', '^'] q) (hnote : SpellsNext setting loose F q note r)
    (hkind : Level.noteKind? note = some kind) (hobject : SpellsNext setting loose F r object t)
    (hannotatable : object.isAnnotatable = true) :
    Spells setting loose F.up p
      (.annotated kind note object (if Level.isList object then some q.position else none)) t
  | backquoted {F : Frame} {p q r : Spot} {f g : Form} {gensyms : List (Symbol × Symbol)}
    (hc : p.Takes ['\x60'] q) (h : SpellsNext setting loose F q f r)
    (hread : Level.backquote f gensyms = .ok g) : Spells setting loose F.up p g r
  | tagged {F : Frame} {p q r t : Spot} {c : Char} {tag : Symbol} {f g : Form}
    (hc : p.Takes ['#'] q) (hahead : q.ahead.head? = some c)
    (htrigger : HashTrigger.ofChar? c = none)
    (htag : SpellsNext setting loose F q (.symbol tag) r) (h : SpellsNext setting loose F r f t)
    (hread : Level.interpretTagged setting F.inConditional tag f = .ok g) :
    Spells setting loose F.up p g t
  | list {F : Frame} {p q r t : Spot} {es : List Form} (hc : p.Takes ['('] q)
    (h : SpellsAll setting loose F q es r) (hclose : r.Takes [')'] t) :
    Spells setting loose F.up p
      (.list (if es.isEmpty then .empty else .at? (some q.position)) es) t
  | group {F : Frame} {p q r t : Spot} {g : Group} {opening : List Char} {close : Char}
    {es : List Form} (hbrackets : g.brackets? = some (opening, close)) (hc : p.Takes opening q)
    (h : SpellsAll setting loose F q es r) (hclose : r.Takes [close] t)
    (heven : g = .map → (Form.dataOf es).length % 2 = 0) :
    Spells setting loose F.up p (.group g es) t
  | conditional {F : Frame} {p q r t u : Spot} {splicing : Bool} {es : List Form}
    (hmode : setting.options.conditionals ≠ .disabled) (hc : p.Takes ['#', '?'] q)
    (hopening : OpensConditional splicing q r)
    (h : SpellsAll setting loose { F with conditionals := F.conditionals + 1 } r es t)
    (hclose : t.Takes [')'] u) (hfault : Level.conditionalFault? splicing es = none) :
    Spells setting loose F.up p (.group (.conditional splicing (some r.position)) es) u

/-- What spells trivia. -/
inductive SpellsTrivia (setting : Setting) (loose : Bool) : Frame → Spot → Form → Spot → Prop
  | comment {F : Frame} {p q r : Spot} {style : CommentStyle} {text : String}
    (hc : p.Takes (match style with | .line => [';'] | .shebang => ['#', '!']) q)
    (h : Scan.Gives Scan.line q text r) : SpellsTrivia setting loose F p (.comment style text) r
  | comma {F : Frame} {p q : Spot} (hc : p.Takes [','] q) : SpellsTrivia setting loose F p .comma q
  | discard {F : Frame} {p q r : Spot} {f : Form} (hc : p.Takes ['#', '_'] q)
    (h : SpellsNext setting loose F q f r) :
    SpellsTrivia setting loose F.up p (.marked .discard f) r

/-- What spells the next form, with what may stand before it. -/
inductive SpellsNext (setting : Setting) (loose : Bool) : Frame → Spot → Form → Spot → Prop
  | form {F : Frame} {p q r : Spot} {f : Form} (hblanks : p.Blanks q)
    (h : Spells setting loose F q f r) : SpellsNext setting loose F p f r
  | kept {F : Frame} {p q r : Spot} {f : Form} (hloose : loose = true)
    (hmode : setting.options.trivia = .keep) (hblanks : p.Blanks q)
    (h : SpellsTrivia setting loose F q f r) : SpellsNext setting loose F p f r
  | skipped {F : Frame} {p q r t : Spot} {f g : Form} (hloose : loose = true)
    (hmode : setting.options.trivia = .skip) (hblanks : p.Blanks q)
    (h : SpellsTrivia setting loose F q f r) (hnext : SpellsNext setting loose F r g t) :
    SpellsNext setting loose F p g t

/-- What spells the elements of a sequence, with what may stand between them and after the last. -/
inductive SpellsAll (setting : Setting) (loose : Bool) : Frame → Spot → List Form → Spot → Prop
  | nil {F : Frame} {p q : Spot} (hblanks : p.Blanks q) : SpellsAll setting loose F p [] q
  | form {F : Frame} {p q r t : Spot} {f : Form} {es : List Form} (hblanks : p.Blanks q)
    (h : Spells setting loose F q f r) (hrest : SpellsAll setting loose F r es t) :
    SpellsAll setting loose F p (f :: es) t
  | kept {F : Frame} {p q r t : Spot} {f : Form} {es : List Form}
    (hmode : setting.options.trivia = .keep) (hblanks : p.Blanks q)
    (h : SpellsTrivia setting loose F q f r) (hrest : SpellsAll setting loose F r es t) :
    SpellsAll setting loose F p (f :: es) t
  | skipped {F : Frame} {p q r t : Spot} {f : Form} {es : List Form}
    (hmode : setting.options.trivia = .skip) (hblanks : p.Blanks q)
    (h : SpellsTrivia setting loose F q f r) (hrest : SpellsAll setting loose F r es t) :
    SpellsAll setting loose F p es t

end

/-! ### Stretches of text -/

variable {setting : Setting} {loose : Bool}

/-- Blanks are characters that are passed. -/
theorem Spot.Blanks.exists_takes {p q : Spot} (h : p.Blanks q) : ∃ cs, p.Takes cs q := by
  obtain ⟨ws, hws, -⟩ := h
  exact ⟨ws, hws⟩

/-- The opening of a conditional is characters that are passed, with blanks before its
parenthesis. -/
theorem OpensConditional.exists_takes {splicing : Bool} {p q : Spot}
    (h : OpensConditional splicing p q) : ∃ cs, p.Takes cs q := by
  obtain ⟨r, t, hsplicing, ⟨ws, hws, -⟩, hopen⟩ := h
  exact ⟨_, (hsplicing.trans hws).trans hopen⟩

/-- Between places with another one between them stand characters if they do between those. -/
theorem Spot.exists_takes_trans {p q r : Spot} (h : ∃ cs, p.Takes cs q) (h' : ∃ cs, q.Takes cs r) :
    ∃ cs, p.Takes cs r := by
  obtain ⟨cs, h⟩ := h
  obtain ⟨ds, h'⟩ := h'
  exact ⟨cs ++ ds, h.trans h'⟩

open Spot in
mutual

/-- A form is spelled by a stretch of text. -/
theorem Spells.exists_takes : ∀ {F : Frame} {p q : Spot} {f : Form},
    Spells setting loose F p f q → ∃ cs, p.Takes cs q
  | _, _, _, _, .number hc _ h | _, _, _, _, .token hc _ h _ | _, _, _, _, .string hc h
  | _, _, _, _, .charLiteral hc h | _, _, _, _, .arg hc h _ | _, _, _, _, .pattern hc h _
  | _, _, _, _, .symbolic hc h _ => exists_takes_trans ⟨_, hc⟩ h.1
  | _, _, _, _, .marked _ hc _ _ h => exists_takes_trans ⟨_, hc⟩ h.exists_takes
  | _, _, _, _, .function hc _ _ h => exists_takes_trans ⟨_, hc⟩ h.exists_takes
  | _, _, _, _, .annotated hc hnote _ hobject _ =>
    exists_takes_trans (hc.elim (fun hc => ⟨_, hc⟩) fun hc => ⟨_, hc⟩)
      (exists_takes_trans hnote.exists_takes hobject.exists_takes)
  | _, _, _, _, .backquoted hc h _ => exists_takes_trans ⟨_, hc⟩ h.exists_takes
  | _, _, _, _, .tagged hc _ _ htag h _ =>
    exists_takes_trans ⟨_, hc⟩ (exists_takes_trans htag.exists_takes h.exists_takes)
  | _, _, _, _, .list hc h hclose =>
    exists_takes_trans ⟨_, hc⟩ (exists_takes_trans h.exists_takes ⟨_, hclose⟩)
  | _, _, _, _, .group _ hc h hclose _ =>
    exists_takes_trans ⟨_, hc⟩ (exists_takes_trans h.exists_takes ⟨_, hclose⟩)
  | _, _, _, _, .conditional _ hc hopening h hclose _ =>
    exists_takes_trans (exists_takes_trans ⟨_, hc⟩ hopening.exists_takes)
      (exists_takes_trans h.exists_takes ⟨_, hclose⟩)

/-- What is spelled as trivia takes up a part of the text. -/
theorem SpellsTrivia.exists_takes : ∀ {F : Frame} {p q : Spot} {f : Form},
    SpellsTrivia setting loose F p f q → ∃ cs, p.Takes cs q
  | _, _, _, _, .comment hc h => exists_takes_trans ⟨_, hc⟩ h.1
  | _, _, _, _, .comma hc => ⟨_, hc⟩
  | _, _, _, _, .discard hc h => exists_takes_trans ⟨_, hc⟩ h.exists_takes

/-- What is spelled next takes up a part of the text, blanks and skipped trivia included. -/
theorem SpellsNext.exists_takes : ∀ {F : Frame} {p q : Spot} {f : Form},
    SpellsNext setting loose F p f q → ∃ cs, p.Takes cs q
  | _, _, _, _, .form hblanks h => exists_takes_trans hblanks.exists_takes h.exists_takes
  | _, _, _, _, .kept _ _ hblanks h => exists_takes_trans hblanks.exists_takes h.exists_takes
  | _, _, _, _, .skipped _ _ hblanks h hnext =>
    exists_takes_trans hblanks.exists_takes
      (exists_takes_trans h.exists_takes hnext.exists_takes)

/-- Elements are spelled by a stretch of text. -/
theorem SpellsAll.exists_takes : ∀ {F : Frame} {p q : Spot} {es : List Form},
    SpellsAll setting loose F p es q → ∃ cs, p.Takes cs q
  | _, _, _, _, .nil hblanks => hblanks.exists_takes
  | _, _, _, _, .form hblanks h hrest =>
    exists_takes_trans hblanks.exists_takes (exists_takes_trans h.exists_takes hrest.exists_takes)
  | _, _, _, _, .kept _ hblanks h hrest =>
    exists_takes_trans hblanks.exists_takes (exists_takes_trans h.exists_takes hrest.exists_takes)
  | _, _, _, _, .skipped _ hblanks h hrest =>
    exists_takes_trans hblanks.exists_takes (exists_takes_trans h.exists_takes hrest.exists_takes)

end

end FormTree
