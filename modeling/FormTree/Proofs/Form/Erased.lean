import FormTree.Proofs.Form.Core
import FormTree.Proofs.Form.Nodes

/-!
# Forms without their trivia

Erasing removes trivia from every sequence in a form, however deep. What a form means to the reader
does not change: erased elements are the data of a sequence, and they pass the checks that data
pass. Trivia that stands right behind a mark, an annotation, a backquote or a tag is no element of a
sequence, and is not removed; a **tight** form has none there.
-/

namespace FormTree.Form

mutual

/-- The form without the trivia in its sequences. -/
def erased : Form → Form
  | .tagged tag f => .tagged tag f.erased
  | .marked mark f => .marked mark f.erased
  | .annotated kind note object position => .annotated kind note.erased object.erased position
  | .backquoted f gensyms => .backquoted f.erased gensyms
  | .list info es => .list info (erasedAll es)
  | .group g es => .group g (erasedAll es)
  | f => f

/-- The forms that are no trivia, without the trivia in their sequences. -/
def erasedAll : List Form → List Form
  | [] => []
  | f :: rest => if f.isTrivia then erasedAll rest else f.erased :: erasedAll rest

end

mutual

/-- Whether no trivia stands right behind what is put in front of one form. -/
def isTight : Form → Bool
  | .tagged _ f | .marked _ f | .backquoted f _ => !f.isTrivia && f.isTight
  | .annotated _ note object _ =>
    !note.isTrivia && note.isTight && (!object.isTrivia && object.isTight)
  | .list _ es | .group _ es => allTight es
  | _ => true

/-- Whether no trivia stands right behind what is put in front of one form, anywhere in these. -/
def allTight : List Form → Bool
  | [] => true
  | f :: rest => f.isTight && allTight rest

end

variable {f g : Form} {es fs : List Form}

/-! ### Checks -/

@[simp] theorem isTrivia_erased (f : Form) : f.erased.isTrivia = f.isTrivia := by
  cases f with
  | marked mark f => cases mark <;> rfl
  | _ => rfl

@[simp] theorem isLiteral_erased (f : Form) : f.erased.isLiteral = f.isLiteral := by
  cases f <;> rfl

@[simp] theorem toKeyword?_erased (f : Form) : f.erased.toKeyword? = f.toKeyword? := by
  cases f <;> rfl

@[simp] theorem isSequential_erased (f : Form) : f.erased.isSequential = f.isSequential := by
  cases f with
  | group g es => cases g <;> rfl
  | _ => rfl

@[simp] theorem isAnnotatable_erased (f : Form) : f.erased.isAnnotatable = f.isAnnotatable := by
  cases f with
  | group g es => cases g <;> rfl
  | _ => rfl

@[simp] theorem noteKind?_erased (f : Form) : Level.noteKind? f.erased = Level.noteKind? f := by
  cases f with
  | group g es => cases g <;> rfl
  | _ => rfl

@[simp] theorem isSplicing_erased (f : Form) : f.erased.isSplicing = f.isSplicing := by
  cases f with
  | marked mark f => cases mark <;> rfl
  | _ => rfl

/-! ### Sequences -/

theorem erasedAll_eq_map (es : List Form) : erasedAll es = (dataOf es).map erased := by
  induction es with
  | nil => rfl
  | cons f rest ih =>
    rw [erasedAll, dataOf, List.filter_cons]
    rcases f.isTrivia with - | -
    · exact congrArg (f.erased :: ·) ih
    · exact ih

/-- What is left of a sequence is data. -/
theorem dataOf_erasedAll (es : List Form) : dataOf (erasedAll es) = erasedAll es := by
  rw [erasedAll_eq_map, dataOf, List.filter_eq_self]
  intro g hg
  obtain ⟨f, hf, rfl⟩ := List.mem_map.1 hg
  rw [isTrivia_erased]
  exact (List.mem_filter.1 hf).2

/-- As many elements are left as there are data. -/
theorem length_erasedAll (es : List Form) : (erasedAll es).length = (dataOf es).length := by
  rw [erasedAll_eq_map, List.length_map]

/-- What is wrong with a branch shows without the trivia inside of it. -/
theorem branchFault?_erased (splicing : Bool) (feature form : Form) :
    Level.branchFault? splicing feature.erased form.erased =
      Level.branchFault? splicing feature form := by
  rw [Level.branchFault?, Level.branchFault?, toKeyword?_erased, isSequential_erased]

/-- Whether data is fit for a conditional does not depend on the trivia in it. -/
theorem conditionalFault?_erasedAll (splicing : Bool) (es : List Form) :
    Level.conditionalFault? splicing (erasedAll es) = Level.conditionalFault? splicing es := by
  have hpairs := findSome?_branchFault?_map (branchFault?_erased splicing) (dataOf es)
  rw [Level.conditionalFault?, dataOf_erasedAll, length_erasedAll, erasedAll_eq_map, hpairs]
  rfl

mutual

/-- Erasing trivia and dropping what the text does not show may be done in any order. -/
theorem erased_core : ∀ f : Form, f.core.erased = f.erased.core
  | .tagged tag f => congrArg (tagged tag) f.erased_core
  | .marked mark f => congrArg (marked mark) f.erased_core
  | .annotated kind note object _ => by
    rw [core, erased, erased, core, note.erased_core, object.erased_core]
  | .backquoted f _ => congrArg (backquoted · []) f.erased_core
  | .list _ es => congrArg (list .empty) (erasedAll_coreAll es)
  | .group g es => congrArg (group g.core) (erasedAll_coreAll es)
  | .nil | .bool _ | .number _ | .char _ | .string _ | .symbol _ | .keyword _ | .pattern _ _
  | .charLiteral _ _ | .arg _ | .comment _ _ | .comma => rfl

theorem erasedAll_coreAll : ∀ es : List Form, erasedAll (coreAll es) = coreAll (erasedAll es)
  | [] => rfl
  | f :: rest => by
    rw [coreAll, erasedAll, erasedAll, isTrivia_core]
    rcases f.isTrivia with - | -
    · change f.core.erased :: erasedAll (coreAll rest) = f.erased.core :: coreAll (erasedAll rest)
      rw [f.erased_core, erasedAll_coreAll rest]
    · exact erasedAll_coreAll rest

end

mutual

/-- Whether a form is tight shows in its core. -/
theorem isTight_core : ∀ f : Form, f.core.isTight = f.isTight
  | .tagged _ f | .marked _ f | .backquoted f _ => by
    rw [core, isTight, isTight, isTrivia_core, f.isTight_core]
  | .annotated _ note object _ => by
    rw [core, isTight, isTight, isTrivia_core, isTrivia_core, note.isTight_core,
      object.isTight_core]
  | .list _ es | .group _ es => allTight_coreAll es
  | .nil | .bool _ | .number _ | .char _ | .string _ | .symbol _ | .keyword _ | .pattern _ _
  | .charLiteral _ _ | .arg _ | .comment _ _ | .comma => rfl

theorem allTight_coreAll : ∀ es : List Form, allTight (coreAll es) = allTight es
  | [] => rfl
  | f :: rest => by rw [coreAll, allTight, allTight, f.isTight_core, allTight_coreAll rest]

end

/-! ### Forms without trivia -/

mutual

/-- Where no node is trivia nothing is erased. -/
theorem erased_eq_self : ∀ f : Form, (∀ g ∈ f.nodes, g.isTrivia = false) → f.erased = f
  | .tagged tag f, h => congrArg (tagged tag) (f.erased_eq_self (List.forall_mem_cons.1 h).2)
  | .marked mark f, h => congrArg (marked mark) (f.erased_eq_self (List.forall_mem_cons.1 h).2)
  | .annotated kind note object position, h => by
    obtain ⟨hnote, hobject⟩ := List.forall_mem_append.1 (List.forall_mem_cons.1 h).2
    rw [erased, note.erased_eq_self hnote, object.erased_eq_self hobject]
  | .backquoted f gensyms, h =>
    congrArg (backquoted · gensyms) (f.erased_eq_self (List.forall_mem_cons.1 h).2)
  | .list info es, h => congrArg (list info) (erasedAll_eq_self es (List.forall_mem_cons.1 h).2)
  | .group g es, h => congrArg (group g) (erasedAll_eq_self es (List.forall_mem_cons.1 h).2)
  | .nil, _ | .bool _, _ | .number _, _ | .char _, _ | .string _, _ | .symbol _, _ | .keyword _, _
  | .pattern _ _, _ | .charLiteral _ _, _ | .arg _, _ | .comment _ _, _ | .comma, _ => rfl

theorem erasedAll_eq_self : ∀ es : List Form, (∀ g ∈ nodesOf es, g.isTrivia = false) →
    erasedAll es = es
  | [], _ => rfl
  | f :: rest, h => by
    obtain ⟨hf, hrest⟩ := List.forall_mem_append.1 h
    have htrivia : f.isTrivia = false := hf f (self_mem_nodes f)
    rw [erasedAll, htrivia, f.erased_eq_self hf, erasedAll_eq_self rest hrest]
    rfl

end

/-! ### What forms show -/

/-- What a form shows: its core, `full` or without trivia. -/
def shown (full : Bool) (f : Form) : Form :=
  if full then f.core else f.erased.core

/-- What forms show, one after the other. -/
def shownAll (full : Bool) (es : List Form) : List Form :=
  if full then coreAll es else coreAll (erasedAll es)

variable (full : Bool)

@[simp] theorem shown_true (f : Form) : f.shown true = f.core := rfl

@[simp] theorem shown_false (f : Form) : f.shown false = f.erased.core := rfl

@[simp] theorem shownAll_true (es : List Form) : shownAll true es = coreAll es := rfl

@[simp] theorem shownAll_false (es : List Form) : shownAll false es = coreAll (erasedAll es) := rfl

@[simp] theorem shown_tagged (tag : Symbol) (f : Form) :
    (tagged tag f).shown full = .tagged tag (f.shown full) := by
  cases full <;> rfl

@[simp] theorem shown_marked (mark : Mark) (f : Form) :
    (marked mark f).shown full = .marked mark (f.shown full) := by
  cases full <;> rfl

@[simp] theorem shown_annotated (kind : NoteKind) (note object : Form)
    (position : Option Position) :
    (annotated kind note object position).shown full =
      .annotated kind (note.shown full) (object.shown full) none := by
  cases full <;> rfl

@[simp] theorem shown_backquoted (f : Form) (gensyms : List (Symbol × Symbol)) :
    (backquoted f gensyms).shown full = .backquoted (f.shown full) [] := by
  cases full <;> rfl

@[simp] theorem shown_list (info : Metadata Form) (es : List Form) :
    (list info es).shown full = .list .empty (shownAll full es) := by
  cases full <;> rfl

@[simp] theorem shown_group (g : Group) (es : List Form) :
    (group g es).shown full = .group g.core (shownAll full es) := by
  cases full <;> rfl

/-- What is no trivia is shown. -/
theorem shownAll_cons (htrivia : f.isTrivia = false) (es : List Form) :
    shownAll full (f :: es) = f.shown full :: shownAll full es := by
  rcases full with - | -
  · rw [shownAll_false, erasedAll, htrivia]
    rfl
  · rfl

/-- Trivia is left out where forms are not shown in full. -/
theorem shownAll_cons_of_isTrivia (htrivia : f.isTrivia = true) (es : List Form) :
    shownAll false (f :: es) = shownAll false es := by
  rw [shownAll_false, erasedAll, htrivia]
  rfl

@[simp] theorem isTrivia_shown (f : Form) : (f.shown full).isTrivia = f.isTrivia := by
  cases full <;> simp

@[simp] theorem isLiteral_shown (f : Form) : (f.shown full).isLiteral = f.isLiteral := by
  cases full <;> simp

@[simp] theorem isAnnotatable_shown (f : Form) :
    (f.shown full).isAnnotatable = f.isAnnotatable := by
  cases full <;> simp

@[simp] theorem noteKind?_shown (f : Form) :
    Level.noteKind? (f.shown full) = Level.noteKind? f := by
  cases full <;> simp

@[simp] theorem isSplicing_shown (f : Form) : (f.shown full).isSplicing = f.isSplicing := by
  cases full <;> simp

/-- Showing forms keeps the number of data, in full or not. -/
theorem length_dataOf_shownAll (es : List Form) :
    (dataOf (shownAll full es)).length = (dataOf es).length := by
  rcases full with - | -
  · rw [shownAll_false, dataOf_coreAll, length_coreAll, dataOf_erasedAll, length_erasedAll]
  · rw [shownAll_true, dataOf_coreAll, length_coreAll]

/-- The check of a conditional comes out the same for what is shown. -/
theorem conditionalFault?_shownAll (splicing : Bool) (es : List Form) :
    Level.conditionalFault? splicing (shownAll full es) = Level.conditionalFault? splicing es := by
  rcases full with - | -
  · rw [shownAll_false, conditionalFault?_coreAll, conditionalFault?_erasedAll]
  · rw [shownAll_true, conditionalFault?_coreAll]

variable {full}

/-- A symbol shows nothing but itself. -/
theorem eq_symbol_of_shown {s : Symbol} (h : g.shown full = (symbol s).shown full) :
    g = .symbol s := by
  cases full <;> cases g <;> cases h <;> rfl

theorem eq_string_of_shown {s : String} (h : g.shown full = (string s).shown full) :
    g = .string s := by
  cases full <;> cases g <;> cases h <;> rfl

end FormTree.Form
