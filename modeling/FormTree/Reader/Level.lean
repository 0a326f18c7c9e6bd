import FormTree.Reader.Step

/-!
# Reading at every level

A level skips blanks and trivia, takes the first character of a form and does what that character
begins. A step **settles** if it leaves the scopes and the budget as it found them and lengthens
what is left to read by no more than a given slack: what hands a character back has a slack of one,
and whatever takes that character first makes up for it. All steps of a level settle, and the first
character of a form shortens what is left, so that a level keeps the promise of a form reader and
levels can be stacked: `FormReader.nesting n` reads with `n` levels and refuses to go further.
-/

namespace FormTree

open Cursor

namespace State

theorem SameFrame.refl (s : State) : s.SameFrame s := ⟨rfl, rfl⟩

theorem SameFrame.trans {s t u : State} (h : s.SameFrame t) (h' : t.SameFrame u) :
    s.SameFrame u :=
  ⟨h'.1.trans h.1, h'.2.trans h.2⟩

end State

section

variable {α β : Type}

/-- Every run, failed ones included, leaves the budget and what `view` shows of the scopes as they
were, and what is left to read longer by `slack` at most. -/
structure Settles (view : Scopes → Scopes) (slack : Nat) (m : Read α) : Prop where
  size_le : ∀ s, (stateOf (m s)).size ≤ s.size + slack
  scopes_eq : ∀ s, view (stateOf (m s)).scopes = view s.scopes
  remaining_eq : ∀ s, (stateOf (m s)).remaining = s.remaining

namespace Settles

variable {view : Scopes → Scopes} {slack : Nat}

/-- Where the whole of the scopes is viewed, the frame is kept. -/
theorem frame {m : Read α} (hm : Settles id slack m) (s : State) :
    s.SameFrame (stateOf (m s)) :=
  ⟨hm.scopes_eq s, hm.remaining_eq s⟩

/-- What leaves all of the scopes leaves what any view shows of them. -/
theorem seen {m : Read α} (hm : Settles id slack m) : Settles view slack m :=
  ⟨hm.size_le, fun s => congrArg view (hm.scopes_eq s), hm.remaining_eq⟩

/-- What lengthens nothing does not lengthen it by more than the slack either. -/
theorem loosen {m : Read α} (hm : Settles view 0 m) : Settles view slack m :=
  ⟨fun s => Nat.le_trans (hm.size_le s) (Nat.le_add_right _ _), hm.scopes_eq, hm.remaining_eq⟩

theorem pure (a : α) : Settles view slack (Pure.pure a : Read α) :=
  ⟨fun _ => Nat.le_add_right _ _, fun _ => rfl, fun _ => rfl⟩

theorem throw (e : Cause) : Settles view slack (MonadExcept.throw e : Read α) :=
  ⟨fun _ => Nat.le_add_right _ _, fun _ => rfl, fun _ => rfl⟩

/-- What hands nothing back may be followed by what hands some back, but not the other way
around. -/
theorem bind {m : Read α} {f : α → Read β} (hm : Settles view 0 m)
    (hf : ∀ a, Settles view slack (f a)) : Settles view slack (m >>= f) := by
  constructor <;> intro s <;> rw [stateOf_bind]
  · have hs := hm.size_le s
    cases h : m s with
    | ok a s' => rw [h] at hs; exact Nat.le_trans ((hf a).size_le s') (Nat.add_le_add_right hs _)
    | error e s' => rw [h] at hs; exact Nat.le_trans hs (Nat.le_add_right _ _)
  · have hs := hm.scopes_eq s
    cases h : m s with
    | ok a s' => rw [h] at hs; exact ((hf a).scopes_eq s').trans hs
    | error e s' => rw [h] at hs; exact hs
  · have hs := hm.remaining_eq s
    cases h : m s with
    | ok a s' => rw [h] at hs; exact ((hf a).remaining_eq s').trans hs
    | error e s' => rw [h] at hs; exact hs

theorem ite {c : Prop} [Decidable c] {m n : Read α} (hm : Settles view slack m)
    (hn : Settles view slack n) : Settles view slack (if c then m else n) := by
  split
  · exact hm
  · exact hn

/-- A run that succeeds keeps the frame. -/
theorem frame_of_ok {m : Read α} (hm : Settles id slack m) {s s' : State} {a : α}
    (h : m s = .ok a s') : s.SameFrame s' := by
  have := hm.frame s
  rwa [h] at this

/-- A run that fails keeps the frame. -/
theorem frame_of_error {m : Read α} (hm : Settles id slack m) {s s' : State} {e : Cause}
    (h : m s = .error e s') : s.SameFrame s' := by
  have := hm.frame s
  rwa [h] at this

/-- A run that succeeds leaves no more to read. -/
theorem size_le_of_ok {m : Read α} (hm : Settles view 0 m) {s s' : State} {a : α}
    (h : m s = .ok a s') : s'.size ≤ s.size := by
  have := hm.size_le s
  rwa [h] at this

/-- A run that fails leaves no more to read. -/
theorem size_le_of_error {m : Read α} (hm : Settles view 0 m) {s s' : State} {e : Cause}
    (h : m s = .error e s') : s'.size ≤ s.size := by
  have := hm.size_le s
  rwa [h] at this

end Settles

end

/-! ### Steps settle -/

namespace Read

variable {α β : Type} {view : Scopes → Scopes}

/-- Scanning touches nothing but the cursor. -/
theorem scan_eq_ok {m : Scan α} {s t : State} {a : α} :
    scan m s = .ok a t ↔ ∃ k, m s.cursor = .ok a k ∧ t = { s with cursor := k } := by
  rw [scan]
  rcases m s.cursor with ⟨b, k⟩ | ⟨e, k⟩
  · constructor
    · intro h
      cases h
      exact ⟨k, rfl, rfl⟩
    · rintro ⟨_, h, rfl⟩
      cases h
      rfl
  · simp

/-- What shrinks the cursor settles as a reading function. -/
theorem settles_scan {m : Scan α} (hm : Shrinks Cursor.size m) : Settles view 0 (scan m) := by
  constructor <;> intro s <;> unfold scan <;> cases h : m s.cursor
  · exact hm.le_of_ok h
  · exact hm.le_of_error h
  all_goals rfl

theorem settles_ofExcept (r : Except Cause α) : Settles view 0 (ofExcept r : Read α) := by
  cases r
  · exact .throw _
  · exact .pure _

theorem settles_position : Settles view 0 position :=
  ⟨fun _ => Nat.le_refl _, fun _ => rfl, fun _ => rfl⟩

theorem settles_scopes : Settles view 0 scopes :=
  ⟨fun _ => Nat.le_refl _, fun _ => rfl, fun _ => rfl⟩

theorem settles_nextCharacter : Settles view 0 nextCharacter :=
  .bind (settles_scan shrinks_next) fun c => by
    cases c
    · exact .throw _
    · exact .pure _

/-- Handing a character back and going on has a slack of one. -/
theorem settles_unread_bind {m : Read α} (c : Char) (hm : Settles view 0 m) :
    Settles view 1 (scan (unread c) >>= fun _ => m) :=
  ⟨fun s => Nat.le_trans (hm.size_le _) (size_handBack_le s.cursor c), fun _ => hm.scopes_eq _,
    fun _ => hm.remaining_eq _⟩

/-- What is done with the next character may have a slack of one. -/
theorem settles_next_bind {f : Option Char → Read β} (hnone : Settles view 0 (f none))
    (hsome : ∀ c, Settles view 1 (f (some c))) : Settles view 0 (scan next >>= f) := by
  have hf (c : Option Char) : Settles view 1 (f c) := by
    cases c
    · exact hnone.loosen
    · exact hsome _
  have hseen : Settles view 1 (scan next >>= f) := .bind (settles_scan shrinks_next) hf
  refine ⟨fun s => ?_, hseen.scopes_eq, hseen.remaining_eq⟩
  rw [stateOf_bind]
  unfold scan
  cases h : next s.cursor with
  | error e k => exact shrinks_next.le_of_error h
  | ok c k =>
    cases c with
    | none => exact Nat.le_trans (hnone.size_le _) (shrinks_next.le_of_ok h)
    | some c => exact Nat.le_trans ((hsome c).size_le _) (size_lt_of_next h)

/-- A character that was delivered makes up for one that is handed back. -/
theorem settles_nextCharacter_bind {f : Char → Read β} (hf : ∀ c, Settles view 1 (f c)) :
    Settles view 0 (nextCharacter >>= f) := by
  unfold nextCharacter
  rw [bind_assoc]
  exact settles_next_bind (.throw _) hf

/-- Delivering the first character of a form leaves less to read. -/
theorem size_lt_of_scan_nextForm {s s' : State} {c : Char}
    (h : scan nextForm s = .ok (some c) s') : s'.size < s.size := by
  obtain ⟨k, hk, rfl⟩ := scan_eq_ok.1 h
  exact size_lt_of_nextForm hk

/-- A change of the state a run leaves is a change of that state alone. -/
theorem stateOf_mapState (f : State → State) (r : EStateM.Result Cause State α) :
    stateOf (mapState f r) = f (stateOf r) := by
  cases r <;> rfl

/-- The level that is taken for a descent is given back, whether the descent fails or not. -/
theorem settles_descend {m : Read α} (hm : Settles view 0 m) : Settles view 0 (descend m) := by
  constructor <;> intro s <;> unfold descend <;> split
  any_goals first | rfl | exact Nat.le_refl _
  · rw [stateOf_mapState]
    exact hm.size_le { s with remaining := s.remaining - 1 }
  · rw [stateOf_mapState]
    exact hm.scopes_eq { s with remaining := s.remaining - 1 }
  · rw [stateOf_mapState]
    have := hm.remaining_eq { s with remaining := s.remaining - 1 }
    dsimp only at this ⊢
    omega

/-- A run inside a scope leaves the scopes as entering and leaving that one does. -/
theorem scopes_within {scope : Scope} {slack : Nat} {m : Read α}
    (hm : Settles (·.leave scope) slack m) (s : State) :
    (stateOf (within scope m s)).scopes = (s.scopes.enter scope).leave scope := by
  unfold within
  rw [stateOf_mapState]
  exact hm.scopes_eq { s with scopes := s.scopes.enter scope }

/-- Entering and leaving a scope reads nothing. -/
theorem size_within_le {scope : Scope} {slack : Nat} {m : Read α} (hm : Settles view slack m)
    (s : State) : (stateOf (within scope m s)).size ≤ s.size + slack := by
  unfold within
  rw [stateOf_mapState]
  exact hm.size_le { s with scopes := s.scopes.enter scope }

/-- Entering and leaving a scope does not touch the budget. -/
theorem remaining_within {scope : Scope} {slack : Nat} {m : Read α} (hm : Settles view slack m)
    (s : State) : (stateOf (within scope m s)).remaining = s.remaining := by
  unfold within
  rw [stateOf_mapState]
  exact hm.remaining_eq { s with scopes := s.scopes.enter scope }

/-- Where leaving a scope undoes entering it, what is run inside of it settles. -/
theorem settles_within {scope : Scope} {slack : Nat} {m : Read α}
    (hm : Settles (·.leave scope) slack m)
    (hs : ∀ scopes : Scopes, (scopes.enter scope).leave scope = scopes) :
    Settles id slack (within scope m) :=
  ⟨size_within_le hm, fun s => (scopes_within hm s).trans (hs _), remaining_within hm⟩

end Read

/-- A form reader that keeps its promise settles. -/
theorem settles_of_advances {s : State} {r : EStateM.Result Cause State Outcome}
    (h : Advances s r) : (stateOf r).size ≤ s.size ∧ s.SameFrame (stateOf r) := by
  match r with
  | .ok (.form _) _ => exact ⟨Nat.le_of_lt h.1, h.2⟩
  | .ok .endOfInput _ => exact h
  | .ok .closed _ => exact h
  | .error _ _ => exact h

namespace Level

open Read

variable (below : FormReader) (setting : Setting)

/-- The reader of the level below keeps the frame. -/
theorem settles_below (closer : Option Char) : Settles id 0 (below.run setting closer) := by
  have h (s : State) := settles_of_advances (below.advances setting closer s)
  exact ⟨fun s => (h s).1, fun s => (h s).2.1, fun s => (h s).2.2⟩

theorem settles_nested : Settles id 0 (nested below setting) :=
  settles_descend <| .bind (settles_below below setting none) fun r => by
    cases r <;> first | exact .pure _ | exact .throw _

/-- The loop over the elements of a sequence as a program. -/
theorem collect_eq (line : Option Nat) (close : Char) :
    (collect below setting line close : Read (List Form)) = (do
      match ← below.run setting (some close) with
      | .form f => (f :: ·) <$> (collect below setting line close : Read (List Form))
      | .closed => return []
      | .endOfInput => throw (.endInSequence line) : Read (List Form)) := by
  funext s
  rw [collect.eq_def, bind_apply]
  rcases below.run setting (some close) s with ⟨f | - | -, s₁⟩ | ⟨e, s₁⟩
  · refine Eq.trans ?_ (map_apply _ (collect below setting line close : Read _) s₁).symm
    dsimp only
    cases collect below setting line close s₁ <;> rfl
  · rfl
  · rfl
  · rfl

/-- Collecting forms up to a delimiter keeps the frame, however many there are. -/
theorem settles_collect (line : Option Nat) (close : Char) :
    Settles id 0 (collect below setting line close) := by
  have hb := settles_below below setting (some close)
  suffices h : ∀ s, (stateOf (collect below setting line close s)).size ≤ s.size ∧
      s.SameFrame (stateOf (collect below setting line close s)) from
    ⟨fun s => (h s).1, fun s => (h s).2.1, fun s => (h s).2.2⟩
  intro s
  -- by the rounds of the loop, each of which leaves the frame as it found it
  fun_induction collect below setting line close s with
  | case1 s f s₁ h fs s₂ hr ih =>
    rw [hr] at ih
    exact ⟨Nat.le_trans ih.1 (hb.size_le_of_ok h), (hb.frame_of_ok h).trans ih.2⟩
  | case2 s f s₁ h e s₂ hr ih =>
    rw [hr] at ih
    exact ⟨Nat.le_trans ih.1 (hb.size_le_of_ok h), (hb.frame_of_ok h).trans ih.2⟩
  | case3 s s₁ h => exact ⟨hb.size_le_of_ok h, hb.frame_of_ok h⟩
  | case4 s s₁ h => exact ⟨hb.size_le_of_ok h, hb.frame_of_ok h⟩
  | case5 s e s₁ h => exact ⟨hb.size_le_of_error h, hb.frame_of_error h⟩

theorem settles_sequence (close : Char) : Settles id 0 (sequence below setting close) :=
  .bind settles_position fun _ => settles_descend (settles_collect ..)

theorem settles_marked (mark : Mark) : Settles id 0 (marked below setting mark) :=
  .bind (settles_nested below setting) fun _ => .pure _

theorem settles_list : Settles id 0 (list below setting) :=
  .bind settles_position fun _ => .bind (settles_sequence ..) fun _ => .pure _

theorem settles_map : Settles id 0 (map below setting) :=
  .bind (settles_sequence ..) fun _ => .ite (.throw _) (.pure _)

theorem settles_annotated : Settles id 0 (annotated below setting) := by
  refine .bind settles_position fun _ => .bind (settles_nested ..) fun note => ?_
  cases noteKind? note with
  | none => exact .throw _
  | some kind => exact .bind (settles_nested ..) fun _ => .ite (.pure _) (.throw _)

/-- Taking the generated symbols changes the innermost backquote only. -/
theorem settles_takeGensyms (f : Form) :
    Settles (·.leave .backquote) 0 (takeGensyms f) := by
  constructor <;> intro s <;> unfold takeGensyms <;> split
  any_goals first | rfl | exact Nat.le_refl _
  · rename_i h
    simp [stateOf, Scopes.leave, h]

theorem settles_backquoted : Settles id 0 (backquoted below setting) :=
  settles_within
    (.bind (settles_nested ..).seen fun _ => .bind (settles_takeGensyms _) fun _ =>
      .bind (settles_ofExcept _) fun _ => .pure _)
    fun _ => rfl

theorem settles_unquoted : Settles id 0 (unquoted below setting) :=
  settles_nextCharacter_bind fun c =>
    .ite (settles_marked ..).loosen (settles_unread_bind c (settles_marked ..))

theorem settles_arg : Settles id 0 arg := by
  refine .bind (settles_scan (Scan.shrinks_token _)) fun token => ?_
  cases argRef? token.toList.tail
  · exact .throw _
  · exact .pure _

theorem settles_pattern : Settles id 0 (pattern setting) := by
  refine .bind (settles_scan Scan.shrinks_pattern) fun source => ?_
  cases setting.host.patterns source
  · exact .throw _
  · exact .pure _

theorem settles_symbolic : Settles id 0 symbolic :=
  .bind settles_nextCharacter fun _ => .bind (settles_scan (Scan.shrinks_token _)) fun _ =>
    .ite (.pure _) (.ite (.pure _) (.ite (.pure _) (.throw _)))

theorem settles_nextNonBlank : Settles id 0 nextNonBlank :=
  .bind (settles_scan shrinks_nextForm) fun c => by
    cases c
    · exact .throw _
    · exact .pure _

theorem settles_conditionalOpening : Settles id 0 conditionalOpening :=
  .bind settles_nextCharacter fun _ =>
    .ite (.bind settles_nextNonBlank fun _ => .pure _)
      (.ite (.bind settles_nextNonBlank fun _ => .pure _) (.pure _))

theorem settles_conditional : Settles id 0 (conditional below setting) := by
  refine .ite (.throw _) (.bind settles_conditionalOpening fun (c, splicing) => ?_)
  refine .ite (.throw _) (.bind settles_position fun _ => settles_within ?_ fun _ => rfl)
  refine .bind (settles_sequence ..).seen fun es => ?_
  cases conditionalFault? splicing es
  · exact .pure _
  · exact .throw _

theorem settles_tagged : Settles id 0 (tagged below setting) := by
  refine .bind (settles_nested ..) fun tag => ?_
  split
  · exact .bind (settles_nested ..) fun _ => .bind settles_scopes fun _ =>
      .bind (settles_ofExcept _) fun _ => .pure _
  · exact .throw _

/-- A function literal is refused inside of another one. -/
theorem function_apply (s : State) :
    function below setting s =
      if s.scopes.inFunction then .error .nestedFunction s
      else (do return .form (.marked .function (← functionBody below setting)) : Read Step) s := by
  change (if s.scopes.inFunction then _ else _ : Read Step) s = _
  split <;> rfl

/-- The parenthesis of a function literal is handed back, so that the literal has a slack of one. It
is read outside of any other, so that leaving its scope undoes entering it. -/
theorem settles_function : Settles id 1 (function below setting) := by
  have hbody (view : Scopes → Scopes) : Settles view 1 (do
      scan (unread '(')
      nested below setting : Read Form) :=
    settles_unread_bind '(' (settles_nested below setting).seen
  suffices h : ∀ s, (stateOf (function below setting s)).size ≤ s.size + 1 ∧
      s.SameFrame (stateOf (function below setting s)) from
    ⟨fun s => (h s).1, fun s => (h s).2.1, fun s => (h s).2.2⟩
  intro s
  rw [function_apply]
  split
  · exact ⟨Nat.le_succ _, .refl s⟩
  · rename_i hs
    have hleave : (s.scopes.enter .function).leave .function = s.scopes := by
      rw [Bool.not_eq_true] at hs
      simp only [Scopes.enter, Scopes.leave, ← hs]
    have hsize : (stateOf (functionBody below setting s)).size ≤ s.size + 1 :=
      size_within_le (hbody id) s
    have hframe : s.SameFrame (stateOf (functionBody below setting s)) :=
      ⟨(scopes_within (hbody _) s).trans hleave, remaining_within (hbody id) s⟩
    rw [stateOf_bind]
    cases h : functionBody below setting s with
    | ok body s' => rw [h] at hsize hframe; exact ⟨hsize, hframe⟩
    | error e s' => rw [h] at hsize hframe; exact ⟨hsize, hframe⟩

/-- Behind a hash sign one character at most is handed back: the parenthesis of a function
literal. -/
theorem settles_startHash (trigger : HashTrigger) :
    Settles id 1 (startHash below setting trigger) := by
  cases trigger with
  | note => exact (settles_annotated ..).loosen
  | var => exact (settles_marked ..).loosen
  | pattern => exact (settles_pattern ..).loosen
  | function => exact settles_function ..
  | set => exact .bind (settles_sequence ..) fun _ => .pure _
  | eval => exact .ite (settles_marked ..).loosen (.throw _)
  | shebang => exact .bind (settles_scan Scan.shrinks_line) fun _ => .pure _
  | unreadable => exact .throw _
  | discard => exact .bind (settles_nested ..) fun _ => .pure _
  | conditional => exact (settles_conditional ..).loosen
  | symbolic => exact settles_symbolic.loosen

/-- With the hash sign it is none, since that parenthesis was delivered before. -/
theorem settles_hash : Settles id 0 (hash below setting) :=
  settles_nextCharacter_bind fun c => by
    cases HashTrigger.ofChar? c with
    | some trigger => exact settles_startHash ..
    | none => exact settles_unread_bind c (settles_tagged ..)

theorem settles_startTrigger (c : Char) (trigger : Trigger) :
    Settles id 0 (startTrigger below setting c trigger) := by
  cases trigger with
  | string => exact .bind (settles_scan Scan.shrinks_string) fun _ => .pure _
  | comment => exact .bind (settles_scan Scan.shrinks_line) fun _ => .pure _
  | comma => exact .pure _
  | quote => exact settles_marked ..
  | deref => exact settles_marked ..
  | note => exact settles_annotated ..
  | backquote => exact settles_backquoted ..
  | unquote => exact settles_unquoted ..
  | list => exact settles_list ..
  | vector => exact .bind (settles_sequence ..) fun _ => .pure _
  | map => exact settles_map ..
  | unmatched => exact .throw _
  | character => exact .bind (settles_scan Scan.shrinks_charLiteral) fun _ => .pure _
  | arg => exact settles_arg
  | hash => exact settles_hash ..

theorem settles_number (c : Char) : Settles id 0 (number c) :=
  .bind (settles_scan (Scan.shrinks_number _)) fun _ => .pure _

theorem settles_token (c : Char) : Settles id 0 (token setting c) :=
  .bind (settles_scan (Scan.shrinks_token _)) fun _ => .bind (settles_ofExcept _) fun _ => .pure _

theorem settles_signed (c : Char) : Settles id 0 (signed setting c) :=
  settles_next_bind (settles_token ..) fun d =>
    settles_unread_bind d (.ite (settles_number _) (settles_token ..))

/-- Whatever a form starts with, reading it settles. -/
theorem settles_start (c : Char) : Settles id 0 (start below setting c) := by
  refine .ite (settles_number _) ?_
  split
  · exact settles_startTrigger ..
  · exact .ite (settles_signed ..) (settles_token ..)

/-! ### Levels -/

/-- Reads one form, or finds the delimiter that is waited for or the end of input. -/
def read (closer : Option Char) (s : State) : EStateM.Result Cause State Outcome :=
  match _hc : scan nextForm s with
  | .error e s₁ => .error e s₁
  | .ok none s₁ => .ok .endOfInput s₁
  | .ok (some c) s₁ =>
    if some c == closer then .ok .closed s₁
    else
      match _hf : start below setting c s₁ with
      | .error e s₂ => .error e s₂
      | .ok (.form f) s₂ => .ok (.form f) s₂
      | .ok .skip s₂ => read closer s₂
termination_by s.size
decreasing_by
  exact Nat.lt_of_le_of_lt ((settles_start below setting c).size_le_of_ok _hf)
    (size_lt_of_scan_nextForm _hc)

/-- The loop over what is skipped as a program. -/
theorem read_eq (closer : Option Char) :
    (read below setting closer : Read Outcome) = (do
      match ← scan nextForm with
      | none => return .endOfInput
      | some c =>
        if some c == closer then return .closed
        else
          match ← start below setting c with
          | .form f => return .form f
          | .skip => (read below setting closer : Read Outcome) : Read Outcome) := by
  funext s
  rw [read.eq_def, bind_apply]
  rcases scan nextForm s with ⟨- | c, s₁⟩ | ⟨e, s₁⟩
  · rfl
  · dsimp only
    split
    · rfl
    · rw [bind_apply]
      rcases start below setting c s₁ with ⟨f | -, s₂⟩ | ⟨e, s₂⟩ <;> rfl
  · rfl

/-- A level keeps the promise of a form reader. -/
theorem advances_read (closer : Option Char) (s : State) :
    Advances s (read below setting closer s) := by
  have hblank : Settles id 0 (scan nextForm) := settles_scan shrinks_nextForm
  have hstart (c : Char) := settles_start below setting c
  fun_induction read below setting closer s with
  | case1 s e s₁ hc => exact ⟨hblank.size_le_of_error hc, hblank.frame_of_error hc⟩
  | case2 s s₁ hc => exact ⟨hblank.size_le_of_ok hc, hblank.frame_of_ok hc⟩
  | case3 s c s₁ hc _ => exact ⟨hblank.size_le_of_ok hc, hblank.frame_of_ok hc⟩
  | case4 s c s₁ hc _ e s₂ hf =>
    exact ⟨Nat.le_trans ((hstart c).size_le_of_error hf) (hblank.size_le_of_ok hc),
      (hblank.frame_of_ok hc).trans ((hstart c).frame_of_error hf)⟩
  | case5 s c s₁ hc _ f s₂ hf =>
    exact ⟨Nat.lt_of_le_of_lt ((hstart c).size_le_of_ok hf) (size_lt_of_scan_nextForm hc),
      (hblank.frame_of_ok hc).trans ((hstart c).frame_of_ok hf)⟩
  | case6 s c s₁ hc _ s₂ hf ih =>
    have hs := Nat.lt_of_le_of_lt ((hstart c).size_le_of_ok hf) (size_lt_of_scan_nextForm hc)
    have hframe := (hblank.frame_of_ok hc).trans ((hstart c).frame_of_ok hf)
    revert ih
    generalize read below setting closer s₂ = r
    match r with
    | .ok (.form _) _ => exact fun ih => ⟨Nat.lt_trans ih.1 hs, hframe.trans ih.2⟩
    | .ok .endOfInput _ =>
      exact fun ih => ⟨Nat.le_of_lt (Nat.lt_of_le_of_lt ih.1 hs), hframe.trans ih.2⟩
    | .ok .closed _ =>
      exact fun ih => ⟨Nat.le_of_lt (Nat.lt_of_le_of_lt ih.1 hs), hframe.trans ih.2⟩
    | .error _ _ =>
      exact fun ih => ⟨Nat.le_of_lt (Nat.lt_of_le_of_lt ih.1 hs), hframe.trans ih.2⟩

end Level

namespace FormReader

/-- Refuses to read. -/
def refuse : FormReader where
  run _ _ s := .error .nestedTooDeeply s
  advances _ _ s := ⟨Nat.le_refl _, .refl s⟩

/-- The level above a form reader. -/
def above (below : FormReader) : FormReader where
  run setting closer s := Level.read below setting closer s
  advances setting closer s := Level.advances_read below setting closer s

/-- Reads forms with `n` levels, the outermost included. -/
def nesting : Nat → FormReader
  | 0 => refuse
  | n + 1 => above (nesting n)

end FormReader

end FormTree
