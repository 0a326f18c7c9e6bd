import FormTree.Proofs.Reader.Atoms
import FormTree.Proofs.Reader.Prefixed

/-!
# Sequences read back, and so do legal forms

A sequence reads back if its elements do. With this every construct is accounted for, and by
induction on what makes a form legal every legal form reads back where it stands.
-/

namespace FormTree

open Read

section

variable {regex : RegexEngine} {options : Options} {F : Frame} {es : List Form}

/-! ### Sequences -/

/-- Sequences with different elements are different. -/
theorem same_group_eq_false {g h : Group} {fs gs : List Form} (hgs : Form.sameAll fs gs = false) :
    (Form.group g fs).same (.group h gs) = false := by
  rw [Form.same, hgs, Bool.and_false]

/-- The elements of a sequence, after its opening delimiter, and the form that is made of them. -/
theorem Level.triple_bracketed {mk : List Form → Form} {f : Form}
    (hes : AllReadBack regex options F es)
    {close : Char} (hclose : IsCloser close) (tail : List Char)
    (hcore : ∀ gs, Form.coreAll gs = Form.coreAll es → (mk gs).core = f.core)
    (hsame : ∀ gs, Form.sameAll es gs = false → f.same (mk gs) = false) :
    Triple (Form.allFaithful es) (State.Past · F.up (Form.charsWithin none es ++ ([close] ++ tail)))
      (do return .form (mk (← sequence (.nesting (F.remaining + 1))
        (.standard regex options) close)))
      (Step.Restores (Form.allFaithful es) f F.up tail) :=
  ((triple_sequence hes hclose tail).pre fun _ hs => hs.at).restores
    (fun gs _ hs => ⟨hcore gs hs.1, hs.2.before⟩) hsame

/-- A list reads back if its elements do; its position is no part of its core. -/
theorem readsBack_list (info : Metadata Form) (hes : Level.AllReadBack regex options F es) :
    ReadsBack regex options F.up (.list info es) := by
  refine ⟨'(', _, Form.chars_list info es, by decide, nofun, fun tail _ => ?_⟩
  have hstart : Level.start (.nesting F.up.remaining) (.standard regex options) '(' =
      Level.list (.nesting (F.remaining + 1)) (.standard regex options) := rfl
  rw [hstart, List.append_assoc]
  refine .bind triple_position fun position => ?_
  refine Level.triple_bracketed hes (.inl rfl) tail (fun gs hgs => ?_) fun gs hgs => ?_
  · exact congrArg (Form.list .empty) hgs
  · rw [Form.same, hgs]

theorem readsBack_vector (hes : Level.AllReadBack regex options F es) :
    ReadsBack regex options F.up (.group .vector es) := by
  have hopening : Delimiter.vector.opening.toList = ['['] := by decide
  have hclosing : Delimiter.vector.closing.toList = [']'] := by decide
  have hchars := Form.chars_group (g := .vector) rfl es
  rw [hopening, hclosing, List.singleton_append] at hchars
  refine ⟨'[', _, hchars, by decide, nofun, fun tail _ => ?_⟩
  rw [List.append_assoc]
  exact Level.triple_bracketed hes (.inr (.inl rfl)) tail
    (fun gs hgs => congrArg (Form.group .vector) hgs) fun gs hgs => same_group_eq_false hgs

theorem readsBack_set (hes : Level.AllReadBack regex options F es) :
    ReadsBack regex options F.up (.group .set es) := by
  have hopening : Delimiter.set.opening.toList = ['#', '\x7b'] := by decide
  have hclosing : Delimiter.set.closing.toList = ['\x7d'] := by decide
  have hchars := Form.chars_group (g := .set) rfl es
  rw [hopening, hclosing, List.cons_append, List.singleton_append] at hchars
  refine ⟨'#', _, hchars, by decide, nofun, fun tail _ => ?_⟩
  rw [List.cons_append, List.append_assoc]
  refine Level.triple_start_hash rfl ?_
  exact Level.triple_bracketed hes (.inr (.inr rfl)) tail
    (fun gs hgs => congrArg (Form.group .set) hgs) fun gs hgs => same_group_eq_false hgs

/-- A map reads back only with an even number of data, which legal maps have. -/
theorem readsBack_map (hes : Level.AllReadBack regex options F es)
    (heven : (Form.dataOf es).length % 2 = 0) : ReadsBack regex options F.up (.group .map es) := by
  have hopening : Delimiter.map.opening.toList = ['\x7b'] := by decide
  have hclosing : Delimiter.map.closing.toList = ['\x7d'] := by decide
  have hchars := Form.chars_group (g := .map) rfl es
  rw [hopening, hclosing, List.singleton_append] at hchars
  refine ⟨'\x7b', _, hchars, by decide, nofun, fun tail _ => ?_⟩
  have hstart : Level.start (.nesting F.up.remaining) (.standard regex options) '\x7b' =
      Level.map (.nesting (F.remaining + 1)) (.standard regex options) := rfl
  have hsequence := Level.triple_sequence hes (.inr (.inr rfl)) tail
  rw [hstart, List.append_assoc]
  refine (hsequence.pre fun _ hs => hs.at).verdict_bind (fun _ gs => .of_and fun hgs => ?_)
    fun gs hgs => ?_
  · have hlength : (Form.dataOf gs).length = (Form.dataOf es).length := by
      rw [← Form.length_coreAll, ← Form.dataOf_coreAll, hgs, Form.dataOf_coreAll,
        Form.length_coreAll]
    refine .ite_false (by simp [hlength, heven]) (.pure fun s hs => ⟨?_, hs.before⟩)
    exact congrArg (Form.group .map) hgs
  · exact .ite .throw (.pure fun _ _ => same_group_eq_false hgs)

/-! ### Conditionals -/

/-- The text between the question mark and the elements of a conditional tells whether it
splices. -/
theorem Level.triple_conditionalOpening {total : Bool} {G : Frame} (splicing : Bool)
    (tail : List Char) :
    Triple total (State.Past · G ((if splicing then ['@', '('] else ['(']) ++ tail))
      conditionalOpening fun a s => a = ('(', splicing) ∧ s.At G tail := by
  rcases splicing with - | -
  · refine .bind_eq ((triple_nextCharacter '(').pre fun _ hs => hs.at) ?_
    exact .ite_false (by decide) (.ite_false (by decide) (.pure fun s hs => ⟨rfl, hs.at⟩))
  · refine .bind_eq ((triple_nextCharacter '@').pre fun _ hs => hs.at) (.ite_true rfl ?_)
    have hnext : Triple total (State.At · G ('(' :: tail)) nextNonBlank fun c s =>
        c = '(' ∧ s.At G tail :=
      .bind_eq (triple_nextForm_cons (by decide)) (.pure fun s hs => ⟨rfl, hs.at⟩)
    exact .bind_eq (hnext.pre fun _ hs => hs.at) (.pure fun s hs => ⟨rfl, hs⟩)

/-- A conditional reads back where its elements do with one more conditional around them. -/
theorem readsBack_conditional {inFunction : Bool} {conditionals remaining : Nat} {splicing : Bool}
    (position : Option Position) (hmode : options.conditionals ≠ .disabled)
    (hes : Level.AllReadBack regex options ⟨inFunction, conditionals + 1, remaining⟩ es)
    (hbranches : Level.conditionalFault? splicing es = none) :
    ReadsBack regex options ⟨inFunction, conditionals, remaining + 1⟩
      (.group (.conditional splicing position) es) := by
  let E : Frame := ⟨inFunction, conditionals, remaining + 1⟩
  let G : Frame := ⟨inFunction, conditionals + 1, remaining⟩
  have hopening : (Delimiter.conditional splicing).opening.toList =
      '#' :: '?' :: (if splicing then ['@', '('] else ['(']) := by
    rcases splicing with - | - <;> decide
  have hclosing : ")".toList = [')'] := by decide
  have hchars := Form.chars_group (g := .conditional splicing position) rfl es
  rw [hopening, Delimiter.closing, hclosing, List.cons_append, List.cons_append] at hchars
  refine ⟨'#', _, hchars, by decide, (absurd · (by decide)), fun tail _ => ?_⟩
  rw [List.cons_append, List.append_assoc, List.append_assoc]
  refine Level.triple_start_hash (c := '?') rfl ?_
  have hsequence : Triple (Form.allFaithful es)
      (State.At · G.up (Form.charsWithin none es ++ ')' :: tail)) _ _ :=
    Level.triple_sequence hes (.inl rfl) tail
  refine .ite_false hmode (.bind_eq (Level.triple_conditionalOpening splicing _) ?_)
  refine .ite_false (by decide) (.bind triple_position fun p => ?_)
  -- the scope is entered behind the opening and left behind the closing parenthesis
  refine triple_within (P := (State.At · G.up (Form.charsWithin none es ++ ')' :: tail)))
    (Q := Verdict (Form.allFaithful es)
      (fun step s => step.Gives (·.core = .group (.conditional splicing none) (Form.coreAll es)) ∧
        s.At G.up tail)
      (·.Gives ((Form.group (.conditional splicing position) es).same · = false)))
    (hsequence.verdict_bind (fun _ gs => .of_and fun hgs => ?_) fun gs hgs => ?_) ?_ ?_
  · have hfault : Level.conditionalFault? splicing gs = none := by
      rw [← Form.conditionalFault?_coreAll, hgs, Form.conditionalFault?_coreAll, hbranches]
    rw [hfault]
    refine .pure fun s hs => ⟨?_, hs⟩
    exact congrArg (Form.group (.conditional splicing none)) hgs
  · rcases Level.conditionalFault? splicing gs with - | fault
    · exact .pure fun _ _ => same_group_eq_false hgs
    · exact .throw
  · exact fun s hs => hs.reframe rfl State.frame_enter_conditional
  · exact fun step s hs => hs.imp fun hs =>
      ⟨hs.1, hs.2.before.reframe rfl (State.frame_leave_conditional (F := E))⟩

/-! ### Legal forms -/

mutual

/-- Every legal form reads back where it stands. -/
theorem Legal.readsBack (hkeep : options.trivia = .keep) : ∀ {F : Frame} {f : Form},
    Legal regex options F f → ReadsBack regex options F f
  | _, _, .nil _ => readsBack_nil
  | _, _, .bool _ b => readsBack_bool b
  | _, _, .number _ h => readsBack_number h
  | _, _, .string _ s => readsBack_string s
  | _, _, .symbol _ hplain hread => readsBack_symbol hplain hread
  | _, _, .keyword _ hplain => readsBack_keyword hplain
  | _, _, .pattern _ hbody hread => readsBack_pattern hbody hread
  | _, _, .tagged (.symbol _ hplain hread) hform htagged =>
    readsBack_tagged hkeep hplain (readsBack_symbol hplain hread) (hform.readsBack hkeep) htagged
  | _, _, .marked hfunction hdiscard hform =>
    readsBack_marked hfunction hdiscard (hform.readsBack hkeep)
  | _, _, .function h => readsBack_function (h.readsBack hkeep)
  | _, _, .annotated position hnote hobject hkind hannotatable =>
    readsBack_annotated position (hnote.readsBack hkeep) (hobject.readsBack hkeep)
      hkind hannotatable
  | _, _, .backquoted gensyms hform hliteral hsplicing =>
    readsBack_backquoted gensyms (hform.readsBack hkeep) hliteral hsplicing
  | _, _, .charLiteral _ htoken hread => readsBack_charLiteral htoken hread
  | _, _, .arg _ h => readsBack_arg h
  | _, _, .comment _ style htext _ => readsBack_comment hkeep style htext
  | _, _, .comma _ _ => readsBack_comma hkeep
  | _, _, .list _ h => readsBack_list _ (h.allReadBack hkeep)
  | _, _, .vector h => readsBack_vector (h.allReadBack hkeep)
  | _, _, .set h => readsBack_set (h.allReadBack hkeep)
  | _, _, .map h heven => readsBack_map (h.allReadBack hkeep) heven
  | _, _, .conditional position hmode h hbranches =>
    readsBack_conditional position hmode (h.allReadBack hkeep) hbranches

/-- Legal elements read back one after the other. -/
theorem LegalAll.allReadBack (hkeep : options.trivia = .keep) : ∀ {F : Frame} {es : List Form},
    LegalAll regex options F es → Level.AllReadBack regex options F es
  | _, _, .nil _ => Level.allReadBack_nil
  | _, _, .cons h hrest => Level.allReadBack_cons (h.readsBack hkeep) (hrest.allReadBack hkeep)

end

end

end FormTree
