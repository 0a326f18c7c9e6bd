import FormTree.Proofs.Form.Faithful
import FormTree.Proofs.Print.Chars
import FormTree.Proofs.Reader.Deliver
import FormTree.Proofs.Reader.Legal

/-!
# Reading forms back

A form **reads back** in a frame if reading its text there, before anything that may follow it,
gives a form with its core, provided that it is faithful, and otherwise no form that says the same.
The loops of a level are described here for texts of forms that read back.
-/

namespace FormTree

open Cursor Read

/-- Whether a text may follow that of a form: after a comment a line break has to, and after any
other form something that ends a token. -/
def Form.Follows (f : Form) (tail : List Char) : Prop :=
  ∀ c ∈ tail.head?, if f.endsWithComment then c = '\n' else endsToken c = true

/-- Whether the form that a step gives satisfies `p`. -/
def Step.Gives (p : Form → Prop) : Step → Prop
  | .form g => p g
  | .skip => False

/-- Whether the form that a level finds satisfies `p`. -/
def Outcome.Gives (p : Form → Prop) : Outcome → Prop
  | .form g => p g
  | _ => False

/-- What is asked of a step that reads the text of a form with `tail` after it: if all is `well` it
gives the core of that form, and otherwise no form that says the same. -/
def Step.Restores (well : Bool) (f : Form) (F : Frame) (tail : List Char) : Step → State → Prop :=
  Verdict well (fun step s => step.Gives (·.core = f.core) ∧ s.Before F tail)
    (·.Gives (f.same · = false))

/-- Whether a character may begin a form: blanks and closing delimiters do not. -/
def opens (c : Char) : Bool :=
  !Text.isBlank c && c != ')' && c != ']' && c != '\x7d'

/-- No blank opens a form. -/
theorem isBlank_of_opens {c : Char} (h : opens c = true) : Text.isBlank c = false := by
  simp only [opens, Bool.and_eq_true, Bool.not_eq_true'] at h
  exact h.1.1.1

/-- Whether the steps of a level that stands in a frame read the text of a form back. -/
def ReadsBack (regex : RegexEngine) (options : Options) (F : Frame) (f : Form) : Prop :=
  ∃ c cs, f.chars = c :: cs ∧ opens c = true ∧ (c = '@' → f.isDeref = true) ∧
    ∀ tail, f.Follows tail →
      Triple f.isFaithful (State.Past · F (cs ++ tail))
        (Level.start (.nesting F.remaining) (.standard regex options) c)
        (Step.Restores f.isFaithful f F tail)

/-- A step that makes a form of what it has read. -/
theorem Triple.restores {α : Type} {w : Bool} {P : State → Prop} {m : Read α}
    {good : α → State → Prop} {bad : α → Prop} {mk : α → Form} {f : Form} {F : Frame}
    {tail : List Char} (hm : Triple w P m (Verdict w good bad))
    (hgood : ∀ a s, good a s → (mk a).core = f.core ∧ s.Before F tail)
    (hbad : ∀ a, bad a → f.same (mk a) = false) :
    Triple w P (do return .form (mk (← m)) : Read Step) (Step.Restores w f F tail) :=
  hm.verdict_bind (fun _ a => .pure fun s hs => hgood a s hs) fun a ha => .pure fun _ _ => hbad a ha

namespace Level

variable {below : FormReader} {setting : Setting} {closer : Option Char}

/-! ### Reading one form -/

/-- Whether a level is not waiting for a character that begins a form. -/
def Awaits (closer : Option Char) : Prop := ∀ c, closer = some c → opens c = false

theorem awaits_none : Awaits none := nofun

section

variable {regex : RegexEngine} {options : Options} {F : Frame} {f : Form} {tail : List Char}

/-- **Levels read back.** A form that reads back is found behind blanks, whatever closer a level is
waiting for. -/
theorem triple_run (h : ReadsBack regex options F f) (hcloser : Awaits closer) (ws : List Char)
    (hws : ws.all Text.isBlank = true) (htail : f.Follows tail) :
    Triple f.isFaithful (State.Before · F (ws ++ (f.chars ++ tail)))
      ((FormReader.nesting (F.remaining + 1)).run (.standard regex options) closer)
      (Verdict f.isFaithful (fun out s => out.Gives (·.core = f.core) ∧ s.Before F tail)
        (·.Gives (f.same · = false))) := by
  obtain ⟨c, cs, hcs, hopens, -, hstart⟩ := h
  have hclosed : ¬ (some c == closer) = true := by
    intro heq
    rw [hcloser c (eq_of_beq heq).symm] at hopens
    cases hopens
  have hread : (FormReader.nesting (F.remaining + 1)).run (.standard regex options) closer =
      (read (.nesting F.remaining) (.standard regex options) closer : Read Outcome) := rfl
  rw [hread, read_eq, hcs]
  refine .bind_eq (triple_nextForm hws (isBlank_of_opens hopens)) (.ite_false hclosed ?_)
  refine (hstart tail htail).verdict_bind (fun _ step => ?_) fun step hstep => ?_
  · rcases step with g | -
    · exact .pure fun _ hs => hs
    · exact fun _ hs => hs.1.elim
  · rcases step with g | -
    · exact .pure fun _ _ => hstep
    · exact hstep.elim

/-- A form one level further down. -/
theorem triple_nested (h : ReadsBack regex options F f) (ws : List Char)
    (hws : ws.all Text.isBlank = true) (htail : f.Follows tail) :
    Triple f.isFaithful (State.Before · F.up (ws ++ (f.chars ++ tail)))
      (nested (.nesting (F.remaining + 1)) (.standard regex options))
      (Verdict f.isFaithful (fun g s => g.core = f.core ∧ s.Before F.up tail)
        (f.same · = false)) := by
  have hrun : Triple f.isFaithful (State.Before · F (ws ++ (f.chars ++ tail)))
      (do
        match ← (FormReader.nesting (F.remaining + 1)).run (.standard regex options) none with
        | .form f => return f
        | _ => throw .endOfInput : Read Form)
      (Verdict f.isFaithful (fun g s => g.core = f.core ∧ s.Before F tail)
        (f.same · = false)) := by
    refine (triple_run h awaits_none ws hws htail).verdict_bind (fun _ out => ?_) fun out hout => ?_
    · rcases out with g | - | -
      · exact .pure fun _ hs => hs
      · exact fun _ hs => hs.1.elim
      · exact fun _ hs => hs.1.elim
    · rcases out with g | - | -
      · exact .pure fun _ _ => hout
      · exact hout.elim
      · exact hout.elim
  -- Going down takes one from the budget and coming back gives it back, whatever was read.
  exact triple_descend hrun (fun s hs => ⟨hs.ne_zero, hs.down⟩) fun g s hg =>
    hg.imp fun hg => ⟨hg.1, hg.2.up⟩

end

/-! ### Sequences -/

/-- Whether `c` closes a sequence. -/
def IsCloser (c : Char) : Prop := c = ')' ∨ c = ']' ∨ c = '\x7d'

/-- No closing delimiter opens a form. -/
theorem IsCloser.opens_eq_false {c : Char} (h : IsCloser c) : opens c = false := by
  rcases h with rfl | rfl | rfl <;> decide

theorem IsCloser.isBlank_eq_false {c : Char} (h : IsCloser c) : Text.isBlank c = false := by
  rcases h with rfl | rfl | rfl <;> decide

/-- A closing delimiter ends a token. -/
theorem IsCloser.endsToken {c : Char} (h : IsCloser c) : endsToken c = true := by
  rcases h with rfl | rfl | rfl <;> decide

/-- A level that waits for a closing delimiter reads forms up to it. -/
theorem IsCloser.awaits {c : Char} (h : IsCloser c) : Awaits (some c) := by
  rintro _ ⟨⟩
  exact h.opens_eq_false

/-- Printed separators are blanks. -/
theorem all_isBlank_separator (before after : Option Form) :
    (Separator.between before after).text.toList.all Text.isBlank = true := by
  rcases Separator.between before after with - | - | - <;> decide

/-- In a sequence every element is followed by what may follow it. -/
theorem follows_charsWithin (f : Form) (rest : List Form) {close : Char} (hclose : IsCloser close)
    (tail : List Char) : f.Follows (Form.charsWithin (some f) rest ++ close :: tail) := by
  have hline : "\n".toList = ['\n'] := by decide
  have hspace : " ".toList = [' '] := by decide
  have hnone : "".toList = [] := by decide
  intro c hc
  -- after a comment comes a line break, after any other element what ends a token
  rcases rest with - | ⟨g, rest⟩
  · rw [Form.charsWithin_nil, Separator.between] at hc
    by_cases hcomment : f.endsWithComment = true
    · rw [if_pos hcomment, Separator.text, hline] at hc
      rw [if_pos hcomment]
      exact (Option.some.inj hc).symm
    · rw [if_neg hcomment, Separator.text, hnone] at hc
      rw [if_neg hcomment, ← Option.some.inj hc]
      exact hclose.endsToken
  · rw [Form.charsWithin_cons, Separator.between] at hc
    by_cases hcomment : f.endsWithComment = true
    · rw [if_pos hcomment, Separator.text, hline] at hc
      rw [if_pos hcomment]
      exact (Option.some.inj hc).symm
    · rw [if_neg hcomment] at hc
      rw [if_neg hcomment]
      by_cases hcomma : g.isComma = true
      · obtain rfl : g = .comma := by
          cases g with
          | comma => rfl
          | _ => cases hcomma
        rw [if_pos hcomma, Separator.text, hnone, Form.chars_comma] at hc
        rw [← Option.some.inj hc]
        decide
      · rw [if_neg hcomma, Separator.text, hspace] at hc
        rw [← Option.some.inj hc]
        decide

/-- Whether the elements of a sequence read back, up to whatever closes it. -/
def AllReadBack (regex : RegexEngine) (options : Options) (F : Frame) (es : List Form) : Prop :=
  ∀ before line close tail, IsCloser close →
    Triple (Form.allFaithful es) (State.Before · F (Form.charsWithin before es ++ close :: tail))
      (collect (.nesting (F.remaining + 1)) (.standard regex options) line close : Read (List Form))
      (Verdict (Form.allFaithful es)
        (fun gs s => Form.coreAll gs = Form.coreAll es ∧ s.At F tail)
        (Form.sameAll es · = false))

section

variable {regex : RegexEngine} {options : Options} {F : Frame}

theorem allReadBack_nil : AllReadBack regex options F [] := by
  intro before line close tail hclose
  have hread : (FormReader.nesting (F.remaining + 1)).run (.standard regex options) (some close) =
      (read (.nesting F.remaining) (.standard regex options) (some close) : Read Outcome) := rfl
  have hclosed : Triple true (State.Before · F (Form.charsWithin before [] ++ close :: tail))
      (read (.nesting F.remaining) (.standard regex options) (some close) : Read Outcome)
      fun out s => out = .closed ∧ s.At F tail := by
    rw [Form.charsWithin_nil, read_eq]
    refine .bind_eq (triple_nextForm (all_isBlank_separator _ _) hclose.isBlank_eq_false) ?_
    exact .ite_true (beq_self_eq_true _) (.pure fun s hs => ⟨rfl, hs.at⟩)
  rw [collect_eq, hread]
  exact .bind_eq hclosed (.pure fun s hs => ⟨rfl, hs⟩)

/-- Elements read back if the first one does and the rest does behind it. -/
theorem allReadBack_cons {f : Form} {es : List Form} (hf : ReadsBack regex options F f)
    (hes : AllReadBack regex options F es) : AllReadBack regex options F (f :: es) := by
  intro before line close tail hclose
  have hrun := triple_run hf hclose.awaits _ (all_isBlank_separator before (some f))
    (follows_charsWithin f es hclose tail)
  have hrest := hes (some f) line close tail hclose
  rw [Form.charsWithin_cons, collect_eq, List.append_assoc, List.append_assoc, Form.allFaithful]
  -- a first element that says something else settles the matter, whatever the others give
  refine hrun.verdict (fun _ out => ?_) fun out hout => ?_
  · rcases out with g | - | -
    · refine .of_and fun hg => hrest.verdict_map (fun gs s hs => ⟨?_, hs.2⟩) fun gs hgs => ?_
      · exact congrArg₂ List.cons hg hs.1
      · rw [Form.sameAll, hgs, Bool.and_false]
    · exact fun _ hs => hs.1.elim
    · exact fun _ hs => hs.1.elim
  · rcases out with g | - | -
    · refine .map (.trivial _ fun _ _ => True.intro) fun gs _ _ => ?_
      have hg : f.same g = false := hout
      rw [Form.sameAll, hg, Bool.false_and]
    · exact hout.elim
    · exact hout.elim

/-- The elements of a sequence, one level further down. -/
theorem triple_sequence {es : List Form} (hes : AllReadBack regex options F es) {close : Char}
    (hclose : IsCloser close) (tail : List Char) :
    Triple (Form.allFaithful es)
      (State.At · F.up (Form.charsWithin none es ++ close :: tail))
      (sequence (.nesting (F.remaining + 1)) (.standard regex options) close)
      (Verdict (Form.allFaithful es)
        (fun gs s => Form.coreAll gs = Form.coreAll es ∧ s.At F.up tail)
        (Form.sameAll es · = false)) := by
  refine .bind triple_position fun position => ?_
  refine triple_descend (hes none (position.map Position.line) close tail hclose) ?_ ?_
  · exact fun s hs => ⟨hs.before.ne_zero, hs.before.down⟩
  · exact fun gs s hgs => hgs.imp fun hgs => ⟨hgs.1, hgs.2.up⟩

end

end Level

end FormTree
