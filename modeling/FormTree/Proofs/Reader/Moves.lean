import FormTree.Proofs.Source.Moves
import FormTree.Reader.Level

/-!
# How reading moves a cursor

Every step of a level only moves the cursor of its state, if the form reader below does, and so do
readers of any number of levels. Nothing that reads makes up a fault: it refuses what it has read,
or a fault of the source comes through at once.
-/

namespace FormTree

variable {α : Type}

namespace Read

/-- Scanning moves the cursor of a state as it moves a cursor. -/
theorem moves_scan {m : Scan α} (hm : Moves id m) : Moves State.cursor (scan m) := by
  intro s
  have hs := hm s.cursor
  unfold scan
  generalize m s.cursor = r at hs
  cases hs with
  | ok h => exact .ok h
  | refused he h => exact .refused he h
  | failed he h hnext => exact .failed he h hnext

theorem moves_position : Moves State.cursor position := fun _ => .ok .refl

theorem moves_scopes : Moves State.cursor scopes := fun _ => .ok .refl

theorem moves_nextCharacter : Moves State.cursor nextCharacter :=
  .bind (moves_scan Scan.moves_next) fun c => by
    cases c
    · exact .throw rfl
    · exact .pure _

/-- A change of the state beside its cursor is no move. -/
theorem led_mapState {f : State → State} (hf : ∀ s, (f s).cursor = s.cursor) {k : Cursor}
    {r : EStateM.Result Cause State α} (h : Led id State.cursor k r) :
    Led id State.cursor k (mapState f r) := by
  cases h with
  | ok h => exact .ok (by rwa [hf])
  | refused he h => exact .refused he (by rwa [hf])
  | failed he h hnext => exact .failed he h (by rwa [hf])

/-- Scopes are no part of the cursor. -/
theorem moves_within {m : Read α} (scope : Scope) (hm : Moves State.cursor m) :
    Moves State.cursor (within scope m) := by
  intro s
  refine led_mapState ?_ (hm { s with scopes := s.scopes.enter scope })
  exact fun _ => rfl

/-- Nor are levels. -/
theorem moves_descend {m : Read α} (hm : Moves State.cursor m) :
    Moves State.cursor (descend m) := by
  intro s
  unfold descend
  split
  · exact .refused rfl .refl
  · refine led_mapState ?_ (hm { s with remaining := s.remaining - 1 })
    exact fun _ => rfl

end Read

namespace Level

open Read

/-! ### What refuses forms and tokens -/

section

variable {e : Cause}

/-- A token that is refused is no fault of the source. -/
theorem fault?_of_interpret {resolver : Resolver} {token : String}
    (h : Token.interpret resolver token = .error e) : e.fault? = none := by
  rw [Token.eq_invalidToken_of_interpret h]
  rfl

/-- Nor is what must not stand behind a backquote. -/
theorem fault?_of_backquote {f : Form} {gensyms : List (Symbol × Symbol)}
    (h : backquote f gensyms = .error e) : e.fault? = none := by
  unfold backquote at h
  split at h <;> cases h
  rfl

/-- A record is refused for itself, or because the message of the refusal has no text. -/
theorem fault?_of_makeRecord {type : RecordType} {name : Symbol} {f : Form}
    (h : makeRecord type name f = .error e) : e.fault? = none := by
  have hreply {r : Except String Form} (h : r.mapError Cause.invalidRecord = .error e) :
      e.fault? = none := by
    rcases r with message | g <;> cases h
    rfl
  unfold makeRecord at h
  split at h
  · dsimp only at h
    split at h
    · exact hreply h
    · cases h
      rfl
  · split at h
    · exact hreply h
    · cases h
      unfold invalidKey
      split <;> rfl
  · cases h
    rfl

/-- Nor is a record that is refused. -/
theorem fault?_of_record {host : Host} {name : Symbol} {f : Form}
    (h : record host name f = .error e) : e.fault? = none := by
  unfold record at h
  split at h
  · cases h
    rfl
  · split at h
    · cases h
      rfl
    · exact fault?_of_makeRecord h

theorem fault?_of_interpretTagged {setting : Setting} {inConditional : Bool} {tag : Symbol}
    {f : Form} (h : interpretTagged setting inConditional tag f = .error e) : e.fault? = none := by
  unfold interpretTagged at h
  split at h
  · cases h
  · split at h
    · exact fault?_of_record h
    · split at h <;> cases h <;> rfl

end

/-! ### Steps -/

theorem moves_takeGensyms (f : Form) : Moves State.cursor (takeGensyms f) := by
  intro s
  unfold takeGensyms
  split <;> exact .ok .refl

theorem moves_arg : Moves State.cursor arg := by
  refine .bind (moves_scan (Scan.moves_token _)) fun token => ?_
  cases argRef? token.toList.tail
  · exact .throw rfl
  · exact .pure _

theorem moves_symbolic : Moves State.cursor symbolic :=
  .bind moves_nextCharacter fun _ => .bind (moves_scan (Scan.moves_token _)) fun _ =>
    .ite (.pure _) (.ite (.pure _) (.ite (.pure _) (.throw rfl)))

theorem moves_nextNonBlank : Moves State.cursor nextNonBlank :=
  .bind (moves_scan Scan.moves_nextForm) fun c => by
    cases c
    · exact .throw rfl
    · exact .pure _

theorem moves_conditionalOpening : Moves State.cursor conditionalOpening :=
  .bind moves_nextCharacter fun _ =>
    .ite (.bind moves_nextNonBlank fun _ => .pure _)
      (.ite (.bind moves_nextNonBlank fun _ => .pure _) (.pure _))

theorem moves_number (c : Char) : Moves State.cursor (number c) :=
  .bind (moves_scan (Scan.moves_number _)) fun _ => .pure _

variable {below : FormReader} {setting : Setting}

theorem moves_pattern : Moves State.cursor (pattern setting) := by
  refine .bind (moves_scan Scan.moves_pattern) fun source => ?_
  cases setting.host.patterns source
  · exact .throw rfl
  · exact .pure _

theorem moves_token (c : Char) : Moves State.cursor (token setting c) :=
  .bind (moves_scan (Scan.moves_token _)) fun _ =>
    .bind (.ofExcept fun _ => fault?_of_interpret) fun _ => .pure _

theorem moves_signed (c : Char) : Moves State.cursor (signed setting c) := by
  refine .bind (moves_scan Scan.moves_next) fun d => ?_
  cases d with
  | none => exact moves_token c
  | some d =>
    exact .bind (moves_scan (Scan.moves_unread d)) fun _ => .ite (moves_number c) (moves_token c)

section

variable (hbelow : ∀ closer, Moves State.cursor (below.run setting closer))
include hbelow

theorem moves_nested : Moves State.cursor (nested below setting) :=
  moves_descend <| .bind (hbelow none) fun r => by
    cases r <;> first | exact .pure _ | exact .throw rfl

/-- Collecting goes on until it is closed, or fails where reading an element failed. -/
theorem moves_collect (line : Option Nat) (close : Char) :
    Moves State.cursor (collect below setting line close) := by
  intro s
  have hs := hbelow (some close) s
  fun_induction collect below setting line close s with
  | case1 s f s₁ h fs s₂ hrest ih =>
    rw [h] at hs
    have ih := ih (hbelow _ _)
    rw [hrest] at ih
    exact .ok (hs.reaches.trans ih.reaches)
  | case2 s f s₁ h e s₂ hrest ih =>
    rw [h] at hs
    have ih := ih (hbelow _ _)
    rw [hrest] at ih
    exact .after hs.reaches ih.error
  | case3 s s₁ h => rw [h] at hs; exact .ok hs.reaches
  | case4 s s₁ h => rw [h] at hs; exact .refused rfl hs.reaches
  | case5 s e s₁ h => rw [h] at hs; exact hs.error

theorem moves_sequence (close : Char) : Moves State.cursor (sequence below setting close) :=
  .bind moves_position fun _ => moves_descend (moves_collect hbelow _ close)

theorem moves_marked (mark : Mark) : Moves State.cursor (marked below setting mark) :=
  .bind (moves_nested hbelow) fun _ => .pure _

theorem moves_list : Moves State.cursor (list below setting) :=
  .bind moves_position fun _ => .bind (moves_sequence hbelow _) fun _ => .pure _

theorem moves_map : Moves State.cursor (map below setting) :=
  .bind (moves_sequence hbelow _) fun _ => .ite (.throw rfl) (.pure _)

theorem moves_annotated : Moves State.cursor (annotated below setting) := by
  refine .bind moves_position fun _ => .bind (moves_nested hbelow) fun note => ?_
  cases noteKind? note with
  | none => exact .throw rfl
  | some kind => exact .bind (moves_nested hbelow) fun _ => .ite (.pure _) (.throw rfl)

theorem moves_backquoted : Moves State.cursor (backquoted below setting) :=
  moves_within .backquote <| .bind (moves_nested hbelow) fun _ =>
    .bind (moves_takeGensyms _) fun _ =>
      .bind (.ofExcept fun _ => fault?_of_backquote) fun _ => .pure _

theorem moves_unquoted : Moves State.cursor (unquoted below setting) :=
  .bind moves_nextCharacter fun _ => .ite (moves_marked hbelow _)
    (.bind (moves_scan (Scan.moves_unread _)) fun _ => moves_marked hbelow _)

theorem moves_conditional : Moves State.cursor (conditional below setting) := by
  refine .ite (.throw rfl) (.bind moves_conditionalOpening fun (c, splicing) => ?_)
  refine .ite (.throw rfl) (.bind moves_position fun _ => moves_within .conditional ?_)
  refine .bind (moves_sequence hbelow _) fun es => ?_
  cases conditionalFault? splicing es
  · exact .pure _
  · exact .throw rfl

theorem moves_tagged : Moves State.cursor (tagged below setting) := by
  refine .bind (moves_nested hbelow) fun tag => ?_
  split
  · exact .bind (moves_nested hbelow) fun _ => .bind moves_scopes fun _ =>
      .bind (.ofExcept fun _ => fault?_of_interpretTagged) fun _ => .pure _
  · exact .throw rfl

theorem moves_function : Moves State.cursor (function below setting) :=
  .bind moves_scopes fun _ => .ite (.throw rfl) <|
    .bind (moves_within .function <| .bind (moves_scan (Scan.moves_unread _)) fun _ =>
      moves_nested hbelow) fun _ => .pure _

/-- Every construct behind a hash sign only moves the cursor. -/
theorem moves_startHash (trigger : HashTrigger) :
    Moves State.cursor (startHash below setting trigger) := by
  cases trigger with
  | note => exact moves_annotated hbelow
  | var => exact moves_marked hbelow _
  | pattern => exact moves_pattern
  | function => exact moves_function hbelow
  | set => exact .bind (moves_sequence hbelow _) fun _ => .pure _
  | eval => exact .ite (moves_marked hbelow _) (.throw rfl)
  | shebang => exact .bind (moves_scan Scan.moves_line) fun _ => .pure _
  | unreadable => exact .throw rfl
  | discard => exact .bind (moves_nested hbelow) fun _ => .pure _
  | conditional => exact moves_conditional hbelow
  | symbolic => exact moves_symbolic

theorem moves_hash : Moves State.cursor (hash below setting) :=
  .bind moves_nextCharacter fun c => by
    cases HashTrigger.ofChar? c with
    | some trigger => exact moves_startHash hbelow trigger
    | none => exact .bind (moves_scan (Scan.moves_unread c)) fun _ => moves_tagged hbelow

theorem moves_startTrigger (c : Char) (trigger : Trigger) :
    Moves State.cursor (startTrigger below setting c trigger) := by
  cases trigger with
  | string => exact .bind (moves_scan Scan.moves_string) fun _ => .pure _
  | comment => exact .bind (moves_scan Scan.moves_line) fun _ => .pure _
  | comma => exact .pure _
  | quote => exact moves_marked hbelow _
  | deref => exact moves_marked hbelow _
  | note => exact moves_annotated hbelow
  | backquote => exact moves_backquoted hbelow
  | unquote => exact moves_unquoted hbelow
  | list => exact moves_list hbelow
  | vector => exact .bind (moves_sequence hbelow _) fun _ => .pure _
  | map => exact moves_map hbelow
  | unmatched => exact .throw rfl
  | character => exact .bind (moves_scan Scan.moves_charLiteral) fun _ => .pure _
  | arg => exact moves_arg
  | hash => exact moves_hash hbelow

/-- One step of a level only moves the cursor. -/
theorem moves_start (c : Char) : Moves State.cursor (start below setting c) := by
  refine .ite (moves_number c) ?_
  split
  · exact moves_startTrigger hbelow _ _
  · exact .ite (moves_signed c) (moves_token c)

/-- A level only moves the cursor, if the one below it does. -/
theorem moves_read (closer : Option Char) : Moves State.cursor (read below setting closer) := by
  intro s
  have hs := moves_scan Scan.moves_nextForm s
  have hstart (c : Char) := moves_start hbelow c
  fun_induction read below setting closer s with
  | case1 s e s₁ hc => rw [hc] at hs; exact hs.error
  | case2 s s₁ hc => rw [hc] at hs; exact .ok hs.reaches
  | case3 s c s₁ hc _ => rw [hc] at hs; exact .ok hs.reaches
  | case4 s c s₁ hc _ e s₂ hf =>
    rw [hc] at hs
    have hfailed := hstart c s₁
    rw [hf] at hfailed
    exact .after hs.reaches hfailed.error
  | case5 s c s₁ hc _ f s₂ hf =>
    rw [hc] at hs
    exact .ok (hs.reaches.trans ((hstart c).of_ok hf))
  | case6 s c s₁ hc _ s₂ hf ih =>
    rw [hc] at hs
    exact .after (hs.reaches.trans ((hstart c).of_ok hf)) (ih (moves_scan Scan.moves_nextForm _))

end

end Level

/-- Reading only moves the cursor, however deeply forms may nest. -/
theorem FormReader.moves_nesting {setting : Setting} :
    ∀ n closer, Moves State.cursor ((nesting n).run setting closer)
  | 0, _ => fun _ => .refused rfl .refl
  | n + 1, closer => Level.moves_read (moves_nesting n) closer

end FormTree
