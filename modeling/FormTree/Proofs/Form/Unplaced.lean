import FormTree.Proofs.Form.Faithful

/-!
# Forms without positions

A form is **unplaced** by dropping what it records of positions: the metadata of its lists, and the
positions of its annotations and conditionals. What its text shows, what it says and the symbols
that are to be generated for it stay the same, and so does whatever looks at nothing else.
-/

namespace FormTree

theorem Group.core_core (g : Group) : g.core.core = g.core := by
  cases g <;> rfl

namespace Form

mutual

/-- The form without positions. -/
def unplaced : Form → Form
  | .tagged tag f => .tagged tag f.unplaced
  | .marked mark f => .marked mark f.unplaced
  | .annotated kind note object _ => .annotated kind note.unplaced object.unplaced none
  | .backquoted f gensyms => .backquoted f.unplaced gensyms
  | .list _ es => .list .empty (unplacedAll es)
  | .group g es => .group g.core (unplacedAll es)
  | f => f

/-- The forms without positions. -/
def unplacedAll : List Form → List Form
  | [] => []
  | f :: rest => f.unplaced :: unplacedAll rest

end

mutual

/-- Dropping positions does not change the core. -/
theorem core_unplaced : ∀ f : Form, f.unplaced.core = f.core
  | .tagged _ f => by simp only [unplaced, core, core_unplaced f]
  | .marked _ f => by simp only [unplaced, core, core_unplaced f]
  | .annotated _ note object _ => by
    simp only [unplaced, core, core_unplaced note, core_unplaced object]
  | .backquoted f _ => by simp only [unplaced, core, core_unplaced f]
  | .list _ es => by simp only [unplaced, core, coreAll_unplacedAll es]
  | .group g es => by simp only [unplaced, core, Group.core_core, coreAll_unplacedAll es]
  | .nil | .bool _ | .number _ | .char _ | .string _ | .symbol _ | .keyword _ | .pattern _ _
  | .charLiteral _ _ | .arg _ | .comment _ _ | .comma => rfl

/-- The same for elements. -/
theorem coreAll_unplacedAll : ∀ es : List Form, coreAll (unplacedAll es) = coreAll es
  | [] => rfl
  | f :: rest => by simp only [unplacedAll, coreAll, core_unplaced f, coreAll_unplacedAll rest]

end

/-- A form without positions has the same text. -/
theorem emit?_unplaced (f : Form) : f.unplaced.emit? = f.emit? := by
  rw [← emit?_core, core_unplaced, emit?_core]

/-- A form without positions says the same, seen from either side. -/
theorem same_unplaced (f g : Form) :
    f.unplaced.same g = f.same g ∧ g.same f.unplaced = g.same f := by
  constructor
  · rw [← same_core, core_unplaced, same_core]
  · rw [← same_core_right, core_unplaced, same_core_right]

/-! ### Symbols to generate -/

mutual

/-- Positions have no symbols in them, so that the same are registered. -/
theorem collect_unplaced (gensyms : Gensyms) : ∀ f : Form,
    gensyms.collect f.unplaced = gensyms.collect f
  | .tagged _ f => by simp only [unplaced, Gensyms.collect, collect_unplaced gensyms f]
  | .marked mark f => by
    cases mark <;> simp only [unplaced, Gensyms.collect, collect_unplaced gensyms f]
  | .annotated _ _ object _ => by
    simp only [unplaced, Gensyms.collect, collect_unplaced gensyms object]
  | .backquoted f _ => by simp only [unplaced, Gensyms.collect]
  | .list _ es | .group _ es => by
    simp only [unplaced, Gensyms.collect, collectAll_unplacedAll gensyms es]
  | .nil | .bool _ | .number _ | .char _ | .string _ | .symbol _ | .keyword _ | .pattern _ _
  | .charLiteral _ _ | .arg _ | .comment _ _ | .comma => rfl

theorem collectAll_unplacedAll (gensyms : Gensyms) : ∀ es : List Form,
    gensyms.collectAll (unplacedAll es) = gensyms.collectAll es
  | [] => rfl
  | f :: rest => by
    simp only [unplacedAll, Gensyms.collectAll, collect_unplaced gensyms f,
      collectAll_unplacedAll _ rest]

end

end Form

end FormTree
