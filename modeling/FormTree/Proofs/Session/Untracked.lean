import FormTree.Proofs.Reader.Untracked
import FormTree.Proofs.Session.Compared

/-!
# Hiding positions changes nothing else

A session on a text whose positions are hidden is answered call by call like one on the text itself:
its forms are the same without positions, its errors have the same causes, but for the line in the
one that tells where a sequence began, and no position.
-/

namespace FormTree.Session

open Cursor

/-- What becomes of an answer where positions are hidden. What the options have for the end of input
is given as it is. -/
inductive HidesPlaces (options : Options) :
    Except ReadError (Option Form) → Except ReadError (Option Form) → Prop
  | none : HidesPlaces options (.ok none) (.ok none)
  | form (f : Form) : HidesPlaces options (.ok (some f)) (.ok (some f.unplaced))
  | atEnd {f : Form} (h : options.atEnd = some f) :
      HidesPlaces options (.ok (some f)) (.ok (some f))
  | error (cause : Cause) (position : Option Position) :
    HidesPlaces options (.error ⟨cause, position⟩) (.error ⟨cause.withoutLine, none⟩)

variable {regex : RegexEngine} {options : Options}

/-- What a comparison without positions says of answers, in terms of forms and errors. -/
theorem hidesPlaces_of_compared {a b : Except ReadError (Option Form)}
    (h : ExceptRel (ErrorsCompared (.untracked regex options))
      (AnswersCompared (.untracked regex options)) a b) :
    HidesPlaces options a b := by
  cases h with
  | ok h =>
    cases h with
    | none => exact .none
    | @form f g hfg =>
      obtain rfl : g = f.unplaced := hfg.1
      exact .form f
    | atEnd h => exact .atEnd h
  | @error e f hef =>
    obtain ⟨cause, position⟩ := e
    obtain ⟨_, _⟩ := f
    obtain ⟨rfl, hplaces⟩ := hef
    obtain rfl := Option.isNone_iff_eq_none.1 hplaces
    exact .error cause position

/-- **Hiding positions changes nothing else.** Whatever calls are made, a session on a text whose
positions are hidden gives the answers of one on the text itself without their positions. Forms
without positions have the same text and say the same. -/
theorem answers_untracked (regex : RegexEngine) (text : String) (options : Options)
    (rs : List Request) :
    List.Forall₂ (HidesPlaces options) ((ofText regex text options).answers rs)
        ((ofCursor (Cursor.ofText text).untracked options (.standard regex)).answers rs) ∧
      ∀ f : Form, f.unplaced.emit? = f.emit? ∧
        ∀ g, f.unplaced.same g = f.same g ∧ g.same f.unplaced = g.same f := by
  have hcompared : Compared (.untracked regex options) (ofText regex text options)
      (ofCursor (Cursor.ofText text).untracked options (.standard regex)) :=
    ⟨rfl, rfl, ⟨rfl, rfl, rfl, rfl⟩⟩
  have hside := sideBySide_of_not_excused rfl (fun _ => False.elim) hcompared rs
  exact ⟨hside.answers.imp fun _ _ => hidesPlaces_of_compared,
    fun f => ⟨f.emit?_unplaced, f.same_unplaced⟩⟩

end FormTree.Session
