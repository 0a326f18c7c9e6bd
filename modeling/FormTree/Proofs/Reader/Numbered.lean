import FormTree.Proofs.Form.Numbered
import FormTree.Proofs.Reader.Compared
import FormTree.Proofs.Reader.Legal

/-!
# How readers number symbols

No reading takes the number of a generated symbol back, be it one that fails, and no number is given
twice. A reading function **counts** if the number that it leaves is no smaller than the one that it
began with, and the forms that it gives are numbered between the two. Functions that are composed
have ranges that follow one another. What is read and then left out, as a discarded form is, only
leaves a gap.

The symbols of a backquote are generated when its form has been read, and what is below has left the
scopes as they were by then, so that nothing is registered with the backquote before that.
-/

namespace FormTree

open Cursor Read

variable {α β : Type}

/-- Whether a run that began with `l` symbols generated has taken none back and gives, if it
succeeded, a value that is as `Q` says of the number that it leaves. -/
def Counted (l : Nat) (Q : Nat → α → Prop) : EStateM.Result Cause State α → Prop
  | .ok a s => l ≤ s.generated ∧ Q s.generated a
  | .error _ s => l ≤ s.generated

namespace Counted

variable {l n : Nat} {Q R : Nat → α → Prop} {r : EStateM.Result Cause State α}

/-- A run is counted from an earlier number on. -/
theorem from_le (hl : l ≤ n) (hR : ∀ m a, Q m a → R m a) (h : Counted n Q r) : Counted l R r := by
  rcases r with ⟨a, s⟩ | ⟨e, s⟩
  · exact ⟨Nat.le_trans hl h.1, hR _ a h.2⟩
  · exact Nat.le_trans hl h

/-- What is done to the state besides numbering does not matter. -/
theorem mapState {f : State → State} (hf : ∀ s, (f s).generated = s.generated)
    (h : Counted l Q r) : Counted l Q (mapState f r) := by
  rcases r with ⟨a, s⟩ | ⟨e, s⟩
  · rwa [Read.mapState, Counted, hf]
  · rwa [Read.mapState, Counted, hf]

end Counted

/-- Whether all runs that begin with `l` symbols generated are counted. -/
def Counts (l : Nat) (m : Read α) (Q : Nat → α → Prop) : Prop :=
  ∀ s, s.generated = l → Counted l Q (m s)

namespace Counts

variable {l : Nat} {m : Read α} {Q : Nat → α → Prop} {R : Nat → β → Prop}

theorem pure {a : α} (ha : Q l a) : Counts l (Pure.pure a) Q := by
  rintro s rfl
  exact ⟨Nat.le_refl _, ha⟩

theorem throw (e : Cause) : Counts l (MonadExcept.throw e) Q := by
  rintro s rfl
  exact Nat.le_refl s.generated

/-- Composition: numbers that the first step has used are below those of the second. -/
theorem bind {f : α → Read β} (hm : Counts l m Q)
    (hf : ∀ n a, l ≤ n → Q n a → Counts n (f a) R) : Counts l (m >>= f) R := by
  intro s hs
  have hrun := hm s hs
  rw [bind_apply]
  rcases hms : m s with ⟨a, t⟩ | ⟨e, t⟩ <;> rw [hms] at hrun
  · exact (hf _ a hrun.1 hrun.2 t rfl).from_le hrun.1 fun _ _ h => h
  · exact hrun

/-- Before a run may stand one that generates nothing. -/
theorem after {f : α → Read β} (hm : Counts l m fun n _ => n = l) (hf : ∀ a, Counts l (f a) R) :
    Counts l (m >>= f) R :=
  hm.bind fun _ a _ hn => hn ▸ hf a

theorem ite {c : Prop} [Decidable c] {n : Read α} (hm : Counts l m Q) (hn : Counts l n Q) :
    Counts l (if c then m else n) Q := by
  split
  · exact hm
  · exact hn

/-- Scanning uses no numbers. -/
theorem scan (m : Scan α) : Counts l (Read.scan m) fun n _ => n = l := by
  rintro s rfl
  unfold Read.scan
  split
  · exact ⟨Nat.le_refl s.generated, rfl⟩
  · exact Nat.le_refl s.generated

theorem position : Counts l Read.position fun n _ => n = l := by
  rintro s rfl
  exact ⟨Nat.le_refl s.generated, rfl⟩

theorem scopes : Counts l Read.scopes fun n _ => n = l := by
  rintro s rfl
  exact ⟨Nat.le_refl s.generated, rfl⟩

theorem ofExcept {x : Except Cause α} (hx : ∀ a, x = .ok a → Q l a) :
    Counts l (MonadExcept.ofExcept x) Q := by
  rcases x with e | a
  · exact throw e
  · exact pure (hx a rfl)

theorem nextCharacter : Counts l Read.nextCharacter fun n _ => n = l := by
  refine .after (.scan _) fun c => ?_
  rcases c with - | c
  · exact .throw _
  · exact .pure rfl

/-- Scopes use no numbers. -/
theorem within (scope : Scope) (hm : Counts l m Q) : Counts l (Read.within scope m) Q := by
  intro s hs
  refine .mapState ?_ (hm { s with scopes := s.scopes.enter scope } hs)
  exact fun _ => rfl

theorem descend (hm : Counts l m Q) : Counts l (Read.descend m) Q := by
  rintro s rfl
  unfold Read.descend
  split
  · exact Nat.le_refl s.generated
  · refine .mapState ?_ (hm { s with remaining := s.remaining - 1 } rfl)
    exact fun _ => rfl

end Counts

/-- Whether a form that a step gives is numbered. -/
def Step.Numbered (l m : Nat) : Step → Prop
  | .form f => Form.Numbered l m f.nodes
  | .skip => True

/-- Whether a form that a level finds is numbered. -/
def Outcome.Numbered (l m : Nat) : Outcome → Prop
  | .form f => Form.Numbered l m f.nodes
  | _ => True

/-- What has been skipped before a form leaves a gap. -/
theorem Outcome.Numbered.from_le {k l m : Nat} (hk : k ≤ l) :
    ∀ {r : Outcome}, r.Numbered l m → r.Numbered k m
  | .form _, h => Form.Numbered.loosen h hk (Nat.le_refl m)
  | .endOfInput, _ | .closed, _ => trivial

/-- An atom is numbered by any range. -/
theorem Form.numbered_atom {l m : Nat} {f : Form} (hlm : l ≤ m) (hf : f.isAtom = true) :
    Numbered l m f.nodes := by
  cases f with
  | tagged | marked | annotated | backquoted | list | group => cases hf
  | _ => exact .cons rfl trivial (.nil hlm)

namespace Level

variable {regex : RegexEngine} {options : Options} {l m : Nat}

/-- Trivia is numbered even if it is skipped. -/
theorem numbered_trivia {f : Form} (h : Form.Numbered l m f.nodes) (setting : Setting) :
    (trivia setting f).Numbered l m := by
  unfold trivia
  split
  · exact h
  · trivial

/-- Where nothing has been registered with a backquote, its symbols have the next numbers. -/
theorem takeGensyms_of_nil (f : Form) {s : State} {outer : List (List (Symbol × Symbol))}
    (hs : s.scopes.gensyms = [] :: outer) :
    takeGensyms f s = .ok (Gensyms.numbered s.generated f.autoNames).pairs
      { s with generated := s.generated + f.autoNames.length } := by
  obtain ⟨cursor, ⟨gensyms, inFunction, conditionals⟩, remaining, generated⟩ := s
  subst hs
  unfold takeGensyms
  dsimp only
  rw [Form.collect_eq_numbered]
  rfl

/-- A backquote around a numbered form is numbered, be it left out again. -/
theorem numbered_backquote {f g : Form} (hf : Form.Numbered l m f.nodes)
    (h : backquote f (Gensyms.numbered m f.autoNames).pairs = .ok g) :
    Form.Numbered l (m + f.autoNames.length) g.nodes := by
  unfold backquote at h
  split at h
  · cases h
  · rename_i info es
    obtain ⟨position, rfl⟩ := hf.orderly _ (Form.self_mem_nodes _)
    dsimp only at h
    rw [if_pos (Metadata.isEmpty_withoutPosition_at? position)] at h
    cases h
    exact hf.backquoted
  · cases h
    split
    · exact hf.loosen (Nat.le_refl l) (Nat.le_add_right _ _)
    · exact hf.backquoted

/-! ### Steps that read no forms -/

theorem counts_number (c : Char) : Counts l (number c) (Step.Numbered l) :=
  .after (.scan _) fun _ => .pure (Form.numbered_atom (Nat.le_refl l) rfl)

theorem counts_token (setting : Setting) (c : Char) :
    Counts l (token setting c) (Step.Numbered l) := by
  refine .after (.scan _) fun text => .bind (Q := fun _ f => f.isAtom = true) ?_ fun n f hn hf => ?_
  · refine .ofExcept fun f hf => ?_
    rcases atom_of_interpret hf with rfl | ⟨b, rfl⟩ | ⟨s, rfl⟩ | ⟨k, rfl⟩ <;> rfl
  · exact .pure (Form.numbered_atom hn hf)

theorem counts_signed (setting : Setting) (c : Char) :
    Counts l (signed setting c) (Step.Numbered l) := by
  refine .after (.scan _) fun d => ?_
  rcases d with - | d
  · exact counts_token setting c
  · exact .after (.scan _) fun _ => .ite (counts_number c) (counts_token setting c)

theorem counts_arg : Counts l arg (Step.Numbered l) := by
  refine .after (.scan _) fun token => ?_
  rcases argRef? token.toList.tail with - | ref
  · exact .throw _
  · exact .pure (Form.numbered_atom (Nat.le_refl l) rfl)

theorem counts_pattern : Counts l (pattern (.standard regex options)) (Step.Numbered l) := by
  refine .after (.scan _) fun source => ?_
  rcases hread : (Host.standard regex).patterns source with message | f <;> dsimp only
  · exact .throw _
  · rw [Host.eq_pattern_of_compilePattern hread]
    exact .pure (Form.numbered_atom (Nat.le_refl l) rfl)

theorem counts_symbolic : Counts l symbolic (Step.Numbered l) := by
  have hnumber (n : Number) : (Step.form (.number n)).Numbered l l :=
    Form.numbered_atom (Nat.le_refl l) rfl
  refine .after .nextCharacter fun _ => .after (.scan _) fun _ => ?_
  exact .ite (.pure (hnumber _)) (.ite (.pure (hnumber _)) (.ite (.pure (hnumber _)) (.throw _)))

theorem counts_nextNonBlank : Counts l nextNonBlank fun n _ => n = l := by
  refine .after (.scan _) fun c => ?_
  rcases c with - | c
  · exact .throw _
  · exact .pure rfl

theorem counts_conditionalOpening : Counts l conditionalOpening fun n _ => n = l :=
  .after .nextCharacter fun _ => .ite (.after counts_nextNonBlank fun _ => .pure rfl) <|
    .ite (.after counts_nextNonBlank fun _ => .pure rfl) (.pure rfl)

/-! ### Steps -/

section

variable {below : FormReader}
  (hbelow : ∀ closer l, Counts l (below.run (.standard regex options) closer) (Outcome.Numbered l))
include hbelow

/-- Forms further down use numbers from the same range. -/
theorem counts_nested :
    Counts l (nested below (.standard regex options)) fun m f => Form.Numbered l m f.nodes := by
  refine .descend <| .bind (hbelow none l) fun n r _ hr => ?_
  rcases r with f | - | -
  · exact .pure hr
  · exact .throw _
  · exact .throw _

/-- Elements use consecutive ranges. -/
theorem counts_collect (line : Option Nat) (close : Char) :
    Counts l (collect below (.standard regex options) line close) fun m es =>
      Form.Numbered l m (Form.nodesOf es) := by
  intro s hs
  have hb := hbelow (some close) l s hs
  fun_induction collect below (.standard regex options) line close s generalizing l with
  | case1 s f s₁ hr fs s₂ hrest ih =>
    rw [hr] at hb
    have ih := ih rfl (hbelow _ _ _ rfl)
    rw [hrest] at ih
    exact ⟨Nat.le_trans hb.1 ih.1, hb.2.append ih.2⟩
  | case2 s f s₁ hr e s₂ hrest ih =>
    rw [hr] at hb
    have ih := ih rfl (hbelow _ _ _ rfl)
    rw [hrest] at ih
    exact Nat.le_trans hb.1 ih
  | case3 s s₁ hr =>
    rw [hr] at hb
    exact ⟨hb.1, .nil hb.1⟩
  | case4 s s₁ hr =>
    rw [hr] at hb
    exact hb.1
  | case5 s e s₁ hr =>
    rw [hr] at hb
    exact hb

theorem counts_sequence (close : Char) :
    Counts l (sequence below (.standard regex options) close) fun m es =>
      Form.Numbered l m (Form.nodesOf es) :=
  .after .position fun _ => .descend (counts_collect hbelow _ close)

theorem counts_group (g : Group) (close : Char) :
    Counts l (do return .form (.group g (← sequence below (.standard regex options) close)))
      (Step.Numbered l) :=
  .bind (counts_sequence hbelow close) fun _ _ _ hes => .pure (hes.cons rfl trivial)

theorem counts_marked (mark : Mark) :
    Counts l (marked below (.standard regex options) mark) (Step.Numbered l) :=
  .bind (counts_nested hbelow) fun _ _ _ hf => .pure (hf.cons rfl trivial)

theorem counts_list : Counts l (list below (.standard regex options)) (Step.Numbered l) := by
  refine .after .position fun position => .bind (counts_sequence hbelow _) fun _ es _ hes => ?_
  refine .pure (hes.cons rfl ⟨if es.isEmpty then none else position, ?_⟩)
  split <;> rfl

theorem counts_map : Counts l (map below (.standard regex options)) (Step.Numbered l) :=
  .bind (counts_sequence hbelow _) fun _ _ _ hes => .ite (.throw _) (.pure (hes.cons rfl trivial))

theorem counts_annotated : Counts l (annotated below (.standard regex options))
    (Step.Numbered l) := by
  refine .after .position fun position => .bind (counts_nested hbelow) fun _ note _ hnote => ?_
  rcases noteKind? note with - | kind
  · exact .throw _
  · refine .bind (counts_nested hbelow) fun _ object _ hobject => .ite (.pure ?_) (.throw _)
    exact (hnote.append hobject).cons rfl trivial

/-- Nothing has been registered with a backquote when its form has been read: below, scopes are left
as they were. -/
theorem counts_backquoted : Counts l (backquoted below (.standard regex options))
    (Step.Numbered l) := by
  intro s hs
  refine .mapState ?_ ?_
  · exact fun _ => rfl
  have hform := counts_nested hbelow { s with scopes := s.scopes.enter .backquote } hs
  have hsettles := settles_nested below (.standard regex options)
  rw [bind_apply]
  rcases hf : nested below (.standard regex options)
    { s with scopes := s.scopes.enter .backquote } with
    ⟨f, t⟩ | ⟨e, t⟩ <;> rw [hf] at hform
  · have hscopes : t.scopes = s.scopes.enter .backquote := (hsettles.frame_of_ok hf).1
    have hgensyms : t.scopes.gensyms = [] :: s.scopes.gensyms := by
      rw [hscopes]
      rfl
    have hle := Nat.le_trans hform.1 (Nat.le_add_right t.generated f.autoNames.length)
    dsimp only
    rw [bind_apply, takeGensyms_of_nil f hgensyms]
    dsimp only
    rcases hg : backquote f (Gensyms.numbered t.generated f.autoNames).pairs with e | g
    · exact hle
    · exact ⟨hle, numbered_backquote hform.2 hg⟩
  · exact hform

/-- An unquote uses the numbers of its form. -/
theorem counts_unquoted : Counts l (unquoted below (.standard regex options)) (Step.Numbered l) :=
  .after .nextCharacter fun _ => .ite (counts_marked hbelow _) <|
    .after (.scan _) fun _ => counts_marked hbelow _

theorem counts_conditional :
    Counts l (conditional below (.standard regex options)) (Step.Numbered l) := by
  refine .ite (.throw _) (.after counts_conditionalOpening fun (c, splicing) => ?_)
  refine .ite (.throw _) (.after .position fun position => .within .conditional ?_)
  refine .bind (counts_sequence hbelow _) fun _ es _ hes => ?_
  rcases conditionalFault? splicing es with - | fault
  · exact .pure (hes.cons rfl trivial)
  · exact .throw _

/-- The default host keeps a tagged form, or refuses it. -/
theorem counts_tagged : Counts l (tagged below (.standard regex options)) (Step.Numbered l) := by
  refine .bind (counts_nested hbelow) fun k tag hk _ => ?_
  split
  · refine .bind (counts_nested hbelow) fun n f hn hf => .after .scopes fun scopes => ?_
    refine .bind (Q := fun m g => Form.Numbered l m g.nodes) (.ofExcept fun g hg => ?_) ?_
    · obtain rfl := (interpretTagged_eq_ok hg).1
      exact (hf.loosen hk (Nat.le_refl n)).cons rfl trivial
    · exact fun _ _ _ hg => .pure hg
  · exact .throw _

theorem counts_function : Counts l (function below (.standard regex options))
    (Step.Numbered l) := by
  refine .after .scopes fun scopes => .ite (.throw _) ?_
  refine .bind (Q := fun m f => Form.Numbered l m f.nodes) ?_ fun _ _ _ hf => ?_
  · exact .within .function (.after (.scan _) fun _ => counts_nested hbelow)
  · exact .pure (hf.cons rfl trivial)

theorem counts_startHash (trigger : HashTrigger) :
    Counts l (startHash below (.standard regex options) trigger) (Step.Numbered l) := by
  cases trigger with
  | note => exact counts_annotated hbelow
  | var => exact counts_marked hbelow _
  | pattern => exact counts_pattern
  | function => exact counts_function hbelow
  | set => exact counts_group hbelow _ _
  | eval =>
    unfold startHash
    exact .ite (counts_marked hbelow _) (.throw _)
  | shebang =>
    exact .after (.scan _) fun _ =>
      .pure (numbered_trivia (Form.numbered_atom (Nat.le_refl l) rfl) _)
  | unreadable => exact .throw _
  | discard =>
    refine .bind (counts_nested hbelow) fun m f _ hf => .pure (numbered_trivia ?_ _)
    exact hf.cons rfl trivial
  | conditional => exact counts_conditional hbelow
  | symbolic => exact counts_symbolic

theorem counts_hash : Counts l (hash below (.standard regex options)) (Step.Numbered l) := by
  refine .after .nextCharacter fun c => ?_
  rcases HashTrigger.ofChar? c with - | trigger
  · exact .after (.scan _) fun _ => counts_tagged hbelow
  · exact counts_startHash hbelow trigger

theorem counts_startTrigger (c : Char) (trigger : Trigger) :
    Counts l (startTrigger below (.standard regex options) c trigger) (Step.Numbered l) := by
  have hatom {f : Form} (hf : f.isAtom = true) : Form.Numbered l l f.nodes :=
    Form.numbered_atom (Nat.le_refl l) hf
  cases trigger with
  | string => exact .after (.scan _) fun _ => .pure (hatom rfl)
  | comment => exact .after (.scan _) fun _ => .pure (numbered_trivia (hatom rfl) _)
  | comma => exact .pure (numbered_trivia (hatom rfl) _)
  | quote => exact counts_marked hbelow _
  | deref => exact counts_marked hbelow _
  | note => exact counts_annotated hbelow
  | backquote => exact counts_backquoted hbelow
  | unquote => exact counts_unquoted hbelow
  | list => exact counts_list hbelow
  | vector => exact counts_group hbelow _ _
  | map => exact counts_map hbelow
  | unmatched => exact .throw _
  | character => exact .after (.scan _) fun _ => .pure (hatom rfl)
  | arg => exact counts_arg
  | hash => exact counts_hash hbelow

/-- **One step of a level counts**: what it gives has the numbers that it has used. -/
theorem counts_start (c : Char) :
    Counts l (start below (.standard regex options) c) (Step.Numbered l) := by
  refine .ite (counts_number c) ?_
  split
  · exact counts_startTrigger hbelow _ _
  · exact .ite (counts_signed _ c) (counts_token _ c)

/-! ### Levels -/

/-- A level counts if the form reader below does. What it skips leaves a gap before the form that it
finds. -/
theorem counts_read (closer : Option Char) :
    Counts l (read below (.standard regex options) closer) (Outcome.Numbered l) := by
  intro s hs
  have hscan := Counts.scan nextForm s hs
  have hstart (c : Char) : Counts l (start below (.standard regex options) c) (Step.Numbered l) :=
    counts_start hbelow c
  fun_induction read below (.standard regex options) closer s generalizing l with
  | case1 s e s₁ hc => rwa [hc] at hscan
  | case2 s s₁ hc =>
    rw [hc] at hscan
    exact ⟨hscan.1, trivial⟩
  | case3 s c s₁ hc _ =>
    rw [hc] at hscan
    exact ⟨hscan.1, trivial⟩
  | case4 s c s₁ hc _ e s₂ hf =>
    rw [hc] at hscan
    have hfailed := hstart c s₁ hscan.2
    rwa [hf] at hfailed
  | case5 s c s₁ hc _ f s₂ hf =>
    rw [hc] at hscan
    have hform := hstart c s₁ hscan.2
    rwa [hf] at hform
  | case6 s c s₁ hc _ s₂ hf ih =>
    rw [hc] at hscan
    have hskip := hstart c s₁ hscan.2
    rw [hf] at hskip
    exact (ih rfl (Counts.scan nextForm s₂ rfl) (counts_start hbelow)).from_le hskip.1 fun _ _ =>
      .from_le hskip.1

end

end Level

/-- Readers of any number of levels count, with the default host. -/
theorem FormReader.counts_nesting (regex : RegexEngine) (options : Options) :
    ∀ n closer l, Counts l ((nesting n).run (.standard regex options) closer) (Outcome.Numbered l)
  | 0, _, _ => fun _ hs => Nat.le_of_eq hs.symm
  | n + 1, closer, _ => Level.counts_read (counts_nesting regex options n) closer

end FormTree
