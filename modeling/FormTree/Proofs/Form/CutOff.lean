import FormTree.Proofs.Reader.Legal

/-!
# Forms with a comment cut off

Where a text is cut off inside of a comment, what has been read is the same up to the text of that
comment, which is the last thing in the form. The steps of a level treat both forms in the same way:
none looks at what a comment says.
-/

namespace FormTree

open Scan

/-- Whether two forms are the same up to the text of a comment at their end, and the same altogether
if `c`, the character at which the comment was cut off, ends its line. -/
inductive Form.CutOff (c : Char) : Form → Form → Prop
  | refl (f : Form) : CutOff c f f
  | comment (style : CommentStyle) {a b : String} (h : endsLine c = true → a = b) :
    CutOff c (.comment style a) (.comment style b)
  | tagged (tag : Symbol) {f g : Form} (h : CutOff c f g) : CutOff c (.tagged tag f) (.tagged tag g)
  | marked (mark : Mark) {f g : Form} (h : CutOff c f g) :
    CutOff c (.marked mark f) (.marked mark g)
  | annotated (kind : NoteKind) (note : Form) (position : Option Position) {f g : Form}
    (h : CutOff c f g) :
    CutOff c (.annotated kind note f position) (.annotated kind note g position)
  | backquoted (gensyms : List (Symbol × Symbol)) {f g : Form} (h : CutOff c f g) :
    CutOff c (.backquoted f gensyms) (.backquoted g gensyms)

variable {regex : RegexEngine} {c : Char} {f g : Form}

namespace Form.CutOff

/-- A comment that ends its line is not cut off. -/
theorem eq_of_endsLine (h : CutOff c f g) (hc : endsLine c = true) : f = g := by
  induction h with
  | refl f => rfl
  | comment style h => rw [h hc]
  | tagged tag _ ih => rw [ih]
  | marked mark _ ih => rw [ih]
  | annotated kind note position _ ih => rw [ih]
  | backquoted gensyms _ ih => rw [ih]

/-- Annotations may stand before both forms or before neither: a comment takes none. -/
theorem isAnnotatable_eq (h : CutOff c f g) : f.isAnnotatable = g.isAnnotatable := by
  cases h <;> rfl

/-- Both forms are notes of the same kind, or neither is one. -/
theorem noteKind?_eq (h : CutOff c f g) : Level.noteKind? f = Level.noteKind? g := by
  cases h <;> rfl

/-- A list is never cut off. -/
theorem isList_eq (h : CutOff c f g) : Level.isList f = Level.isList g := by
  cases h <;> rfl

/-- There are no symbols in a comment. -/
theorem collect_eq (h : CutOff c f g) (gensyms : Gensyms) :
    gensyms.collect f = gensyms.collect g := by
  induction h with
  | refl f => rfl
  | comment style h => simp only [Gensyms.collect]
  | tagged tag _ ih => simpa only [Gensyms.collect] using ih
  | marked mark _ ih => cases mark <;> simp only [Gensyms.collect, ih]
  | annotated kind note position _ ih => simpa only [Gensyms.collect] using ih
  | backquoted gensyms _ ih => simp only [Gensyms.collect]

end Form.CutOff

/-- Whether two replies are both refusals, or forms of which one is cut off. -/
inductive ReplyCutOff (c : Char) : Except Cause Form → Except Cause Form → Prop
  | ok {f g : Form} (h : f.CutOff c g) : ReplyCutOff c (.ok f) (.ok g)
  | error {d e : Cause} : ReplyCutOff c (.error d) (.error e)

namespace Level

/-- What stands behind a backquote may end with a comment that is cut off; it is backquoted all the
same. -/
theorem replyCutOff_backquote (h : f.CutOff c g) (gensyms : List (Symbol × Symbol)) :
    ReplyCutOff c (backquote f gensyms) (backquote g gensyms) := by
  cases h with
  | refl f =>
    cases backquote f gensyms with
    | ok g => exact .ok (.refl g)
    | error e => exact .error
  | comment style h => exact .ok (.backquoted gensyms (.comment style h))
  | tagged tag h => exact .ok (.backquoted gensyms (.tagged tag h))
  | marked mark h =>
    cases mark <;> first | exact .error | exact .ok (.backquoted gensyms (.marked _ h))
  | annotated kind note position h =>
    exact .ok (.backquoted gensyms (.annotated kind note position h))
  | backquoted inner h => exact .ok (.backquoted gensyms (.backquoted inner h))

/-- The default host keeps a tagged form whatever it is, or keeps strings only, and a string is
never cut off. -/
theorem replyCutOff_interpretTagged (options : Options) (inConditional : Bool) (tag : Symbol)
    (h : f.CutOff c g) :
    ReplyCutOff c (interpretTagged (.standard regex options) inConditional tag f)
      (interpretTagged (.standard regex options) inConditional tag g) := by
  rcases hf : interpretTagged (.standard regex options) inConditional tag f with e | f'
  · rcases hg : interpretTagged (.standard regex options) inConditional tag g with e' | g'
    · exact .error
    · obtain ⟨-, ⟨text, rfl⟩ | hall⟩ := interpretTagged_eq_ok hg
      · cases h
        rw [hf] at hg
        cases hg
      · rw [hall f] at hf
        cases hf
  · obtain ⟨rfl, ⟨text, rfl⟩ | hall⟩ := interpretTagged_eq_ok hf
    · cases h
      rw [hf]
      exact .ok (.refl _)
    · rw [hall g]
      exact .ok (.tagged tag h)

end Level

end FormTree
