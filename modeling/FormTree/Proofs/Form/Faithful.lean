import FormTree.Proofs.Form.Core
import FormTree.Proofs.Print.Spelling
import FormTree.Reader.Trigger

/-!
# Faithful forms

Four things in a form have a text that reads as something else: an unquote right before a
dereference, whose marks together are those of a splicing unquote; a tag that begins with a
character that begins a construct of its own after a hash sign; a keyword whose text is no token for
it, as when a namespace was filled in before a name that begins with a digit; and a decimal whose
text has an exponent beyond 64 bits. What is no number equals nothing, itself included. A form is
**faithful** if there is nothing of the kind in it.
-/

namespace FormTree

/-- Whether the text of a number reads as a number that equals it. -/
def Number.isFaithful : Number → Bool
  | .float x => !x.isNaN
  | .decimal d => !d.overflows
  | _ => true

/-- Whether the default host reads the text of a keyword as that keyword. -/
def Keyword.isFaithful (k : Keyword) : Bool :=
  match Token.interpret Resolver.standard k.toText with
  | .ok (.keyword l) => k == l
  | _ => false

/-- Whether a tag is one after a hash sign. -/
def Symbol.isTag (s : Symbol) : Bool :=
  s.toText.toList.head?.all fun c => (HashTrigger.ofChar? c).isNone

namespace Form

/-- Whether a form is a dereference. -/
def isDeref : Form → Bool
  | .marked .deref _ => true
  | _ => false

mutual

/-- Whether nothing in a form has a text that reads as something else. -/
def isFaithful : Form → Bool
  | .number n => n.isFaithful
  | .keyword k => k.isFaithful
  | .tagged tag f => tag.isTag && f.isFaithful
  | .marked mark f => !(mark == .unquote && f.isDeref) && f.isFaithful
  | .annotated _ note object _ => note.isFaithful && object.isFaithful
  | .backquoted f _ => f.isFaithful
  | .list _ es | .group _ es => allFaithful es
  | _ => true

/-- Whether all forms of a sequence are faithful. -/
def allFaithful : List Form → Bool
  | [] => true
  | f :: rest => f.isFaithful && allFaithful rest

end

theorem allFaithful_iff {es : List Form} :
    allFaithful es = true ↔ ∀ f ∈ es, f.isFaithful = true := by
  induction es with
  | nil => simp [allFaithful]
  | cons f rest ih => simp [allFaithful, ih]

/-- Only what is no number is unequal to itself. -/
theorem same_number {n : Number} (h : n.isFaithful = true) : n.same n = true := by
  cases n with
  | float x =>
    simp only [Number.isFaithful, Bool.not_eq_true'] at h
    simp [Number.same, Binary64.same, h]
  | _ => simp [Number.same]

mutual

/-- A faithful form says the same as itself. -/
theorem same_self : ∀ f : Form, f.isFaithful = true → f.same f = true
  | .number _, hf => same_number hf
  | .tagged _ f, hf | .marked _ f, hf => by
    obtain ⟨-, hf⟩ := Bool.and_eq_true_iff.1 hf
    simp [same, same_self f hf]
  | .annotated _ note object _, hf => by
    obtain ⟨hnote, hobject⟩ := Bool.and_eq_true_iff.1 hf
    simp [same, same_self note hnote, same_self object hobject]
  | .backquoted f _, hf => same_self f hf
  | .list _ es, hf => sameAll_self es hf
  | .group g es, hf => by
    cases g <;> simp [same, Group.same, sameAll_self es hf]
  | .nil, _ | .bool _, _ | .char _, _ | .string _, _ | .symbol _, _ | .keyword _, _
  | .pattern _ _, _ | .charLiteral _ _, _ | .arg _, _ | .comment _ _, _ | .comma, _ => by
    simp [same]

/-- Faithful elements equal themselves, one by one. -/
theorem sameAll_self : ∀ es : List Form, allFaithful es = true → sameAll es es = true
  | [], _ => rfl
  | f :: rest, h => by
    obtain ⟨hf, hrest⟩ := Bool.and_eq_true_iff.1 h
    simp [sameAll, same_self f hf, sameAll_self rest hrest]

end

/-! ### Cores -/

/-- A dereference is seen from the core. -/
theorem isDeref_core (f : Form) : f.core.isDeref = f.isDeref := by
  cases f with
  | marked mark f => cases mark <;> rfl
  | _ => rfl

mutual

/-- Whether a form is faithful depends on its core. -/
theorem isFaithful_core : ∀ f : Form, f.core.isFaithful = f.isFaithful
  | .tagged _ f => by simp only [core, isFaithful, isFaithful_core f]
  | .marked _ f => by simp only [core, isFaithful, isDeref_core, isFaithful_core f]
  | .annotated _ note object _ => by
    simp only [core, isFaithful, isFaithful_core note, isFaithful_core object]
  | .backquoted f _ => by simp only [core, isFaithful, isFaithful_core f]
  | .list _ es | .group _ es => by simp only [core, isFaithful, allFaithful_coreAll es]
  | .nil | .bool _ | .number _ | .char _ | .string _ | .symbol _ | .keyword _ | .pattern _ _
  | .charLiteral _ _ | .arg _ | .comment _ _ | .comma => rfl

theorem allFaithful_coreAll : ∀ es : List Form, allFaithful (coreAll es) = allFaithful es
  | [] => rfl
  | f :: rest => by
    simp only [coreAll, allFaithful, isFaithful_core f, allFaithful_coreAll rest]

end

/-- Groups are compared by what their cores keep. -/
theorem same_core_group (g h : Group) : g.core.same h = g.same h := by
  cases g <;> cases h <;> rfl

mutual

/-- The core of a form says what the form says. -/
theorem same_core : ∀ f g : Form, f.core.same g = f.same g
  | .tagged _ f, g => by cases g <;> simp only [core, same, same_core f]
  | .marked _ f, g => by cases g <;> simp only [core, same, same_core f]
  | .annotated _ note object _, g => by
    cases g <;> simp only [core, same, same_core note, same_core object]
  | .backquoted f _, g => by cases g <;> simp only [core, same, same_core f]
  | .list _ es, g => by cases g <;> simp only [core, same, sameAll_coreAll es]
  | .group a es, g => by cases g <;> simp only [core, same, sameAll_coreAll es, same_core_group]
  | .pattern _ _, g => by cases g <;> rfl
  | .nil, _ | .bool _, _ | .number _, _ | .char _, _ | .string _, _ | .symbol _, _ | .keyword _, _
  | .charLiteral _ _, _ | .arg _, _ | .comment _ _, _ | .comma, _ => rfl

theorem sameAll_coreAll : ∀ es fs : List Form, sameAll (coreAll es) fs = sameAll es fs
  | [], _ => rfl
  | f :: rest, fs => by
    cases fs <;> simp only [coreAll, sameAll, same_core f, sameAll_coreAll rest]

end

theorem same_core_group_right (g h : Group) : g.same h.core = g.same h := by
  cases g <;> cases h <;> rfl

mutual

/-- What a form is compared with may be replaced by its core as well. -/
theorem same_core_right : ∀ f g : Form, f.same g.core = f.same g
  | f, .tagged _ g => by cases f <;> simp only [core, same, same_core_right _ g]
  | f, .marked _ g => by cases f <;> simp only [core, same, same_core_right _ g]
  | f, .annotated _ note object _ => by
    cases f <;> simp only [core, same, same_core_right _ note, same_core_right _ object]
  | f, .backquoted g _ => by cases f <;> simp only [core, same, same_core_right _ g]
  | f, .list _ es => by cases f <;> simp only [core, same, sameAll_coreAll_right _ es]
  | f, .group a es => by
    cases f <;> simp only [core, same, sameAll_coreAll_right _ es, same_core_group_right]
  | f, .pattern _ _ => by cases f <;> rfl
  | _, .nil | _, .bool _ | _, .number _ | _, .char _ | _, .string _ | _, .symbol _ | _, .keyword _
  | _, .charLiteral _ _ | _, .arg _ | _, .comment _ _ | _, .comma => rfl

theorem sameAll_coreAll_right : ∀ fs es : List Form, sameAll fs (coreAll es) = sameAll fs es
  | _, [] => rfl
  | fs, f :: rest => by
    cases fs <;> simp only [coreAll, sameAll, same_core_right _ f, sameAll_coreAll_right _ rest]

end

/-- A faithful form says the same as any form with its core. -/
theorem same_of_core_eq {f g : Form} (hf : f.isFaithful = true) (h : f.core = g.core) :
    f.same g = true := by
  rw [← same_core_right, ← h, same_core_right]
  exact same_self f hf

end Form

end FormTree
