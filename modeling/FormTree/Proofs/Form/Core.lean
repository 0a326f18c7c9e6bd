import FormTree.Print.Form
import FormTree.Proofs.Form.Alike
import FormTree.Reader.Step

/-!
# The core of a form

The **core** of a form is what its text shows: positions, generated symbols and the metadata of
lists are dropped, and every pattern counts as compiled. A form and its core have the same text and
pass the same checks, and forms with the same core say the same, unless there is a number in them
that equals nothing. Alike forms have the same core.
-/

namespace FormTree

/-- A group without its position. -/
def Group.core : Group → Group
  | .conditional splicing _ => .conditional splicing none
  | g => g

namespace Form

mutual

/-- The form without what its text does not show. -/
def core : Form → Form
  | .pattern source _ => .pattern source true
  | .tagged tag f => .tagged tag f.core
  | .marked mark f => .marked mark f.core
  | .annotated kind note object _ => .annotated kind note.core object.core none
  | .backquoted f _ => .backquoted f.core []
  | .list _ es => .list .empty (coreAll es)
  | .group g es => .group g.core (coreAll es)
  | f => f

/-- The cores of forms. -/
def coreAll : List Form → List Form
  | [] => []
  | f :: rest => f.core :: coreAll rest

end

variable {f g : Form} {es fs : List Form}

@[simp] theorem isTrivia_core (f : Form) : f.core.isTrivia = f.isTrivia := by
  cases f with
  | marked mark f => cases mark <;> rfl
  | _ => rfl

@[simp] theorem isComma_core (f : Form) : f.core.isComma = f.isComma := by
  cases f <;> rfl

@[simp] theorem isLiteral_core (f : Form) : f.core.isLiteral = f.isLiteral := by
  cases f <;> rfl

@[simp] theorem toKeyword?_core (f : Form) : f.core.toKeyword? = f.toKeyword? := by
  cases f <;> rfl

@[simp] theorem toChar?_core (f : Form) : f.core.toChar? = f.toChar? := by
  cases f <;> rfl

@[simp] theorem isSequential_core (f : Form) : f.core.isSequential = f.isSequential := by
  cases f with
  | group g es => cases g <;> rfl
  | _ => rfl

@[simp] theorem isAnnotatable_core (f : Form) : f.core.isAnnotatable = f.isAnnotatable := by
  cases f with
  | group g es => cases g <;> rfl
  | _ => rfl

@[simp] theorem noteKind?_core (f : Form) : Level.noteKind? f.core = Level.noteKind? f := by
  cases f with
  | group g es => cases g <;> rfl
  | _ => rfl

/-- Whether a form is a splicing unquote. -/
def isSplicing : Form → Bool
  | .marked .unquoteSplicing _ => true
  | _ => false

@[simp] theorem isSplicing_core (f : Form) : f.core.isSplicing = f.isSplicing := by
  cases f with
  | marked mark f => cases mark <;> rfl
  | _ => rfl

@[simp] theorem endsWithComment_core : ∀ f : Form, f.core.endsWithComment = f.endsWithComment
  | .tagged _ f => by simpa only [core, endsWithComment] using endsWithComment_core f
  | .marked _ f => by simpa only [core, endsWithComment] using endsWithComment_core f
  | .annotated _ _ f _ => by simpa only [core, endsWithComment] using endsWithComment_core f
  | .backquoted f _ => by simpa only [core, endsWithComment] using endsWithComment_core f
  | .nil | .bool _ | .number _ | .char _ | .string _ | .symbol _ | .keyword _ | .pattern _ _
  | .charLiteral _ _ | .arg _ | .comment _ _ | .comma | .list _ _ | .group _ _ => rfl

theorem coreAll_eq_map (es : List Form) : coreAll es = es.map core := by
  induction es with
  | nil => rfl
  | cons f rest ih => exact congrArg (f.core :: ·) ih

/-- Forgetting what cores forget keeps trivia, and so the number of elements. -/
theorem length_coreAll (es : List Form) : (coreAll es).length = es.length := by
  rw [coreAll_eq_map, List.length_map]

/-- A form is trivia if its core is, so that data may be taken before or after. -/
theorem dataOf_coreAll (es : List Form) : dataOf (coreAll es) = coreAll (dataOf es) := by
  induction es with
  | nil => rfl
  | cons f rest ih =>
    simp only [dataOf, coreAll, List.filter_cons, isTrivia_core]
    split
    · exact congrArg (f.core :: ·) ih
    · exact ih

/-- What is wrong with a branch shows in the cores of its feature and its form. -/
theorem branchFault?_core (splicing : Bool) (feature form : Form) :
    Level.branchFault? splicing feature.core form.core =
      Level.branchFault? splicing feature form := by
  rw [Level.branchFault?, Level.branchFault?, toKeyword?_core, isSequential_core]

/-- What changes no branch changes no pair of data into a faulty one or back. -/
theorem findSome?_branchFault?_map {splicing : Bool} {m : Form → Form}
    (h : ∀ feature form, Level.branchFault? splicing (m feature) (m form) =
      Level.branchFault? splicing feature form) (data : List Form) :
    ((pairsOf (data.map m)).findSome? fun (feature, form) =>
        Level.branchFault? splicing feature form) =
      (pairsOf data).findSome? fun (feature, form) =>
        Level.branchFault? splicing feature form := by
  fun_induction pairsOf data with
  | case1 feature form rest ih => simp only [List.map_cons, pairsOf, List.findSome?_cons, h, ih]
  | case2 data hdata =>
    rcases data with - | ⟨f, - | ⟨g, rest⟩⟩
    · rfl
    · rfl
    · exact absurd rfl (hdata f g rest)

/-- Whether data is fit for a conditional depends on its core. -/
theorem conditionalFault?_coreAll (splicing : Bool) (es : List Form) :
    Level.conditionalFault? splicing (coreAll es) = Level.conditionalFault? splicing es := by
  have hpairs := findSome?_branchFault?_map (branchFault?_core splicing) (dataOf es)
  rw [Level.conditionalFault?, dataOf_coreAll, length_coreAll, coreAll_eq_map, hpairs]
  rfl

/-! ### Text -/

/-- Separators depend on the kinds of the forms around them, which cores keep. -/
theorem between_core (before after : Option Form) :
    Separator.between (before.map core) (after.map core) = Separator.between before after := by
  rcases before with - | f <;> rcases after with - | g <;> simp [Separator.between]

theorem delimiter?_core (g : Group) : g.core.delimiter? = g.delimiter? := by
  cases g <;> rfl

mutual

/-- **The core decides the text.** What a core forgets is printed nowhere. -/
theorem pieces_core : ∀ f : Form, f.core.pieces = f.pieces
  | .tagged _ f => by simp only [core, pieces, pieces_core f]
  | .marked _ f => by simp only [core, pieces, pieces_core f]
  | .annotated _ note object _ => by simp only [core, pieces, pieces_core note, pieces_core object]
  | .backquoted f _ => by simp only [core, pieces, pieces_core f]
  | .list _ es => by
    have h := piecesWithin_coreAll none es
    simp only [Option.map_none] at h
    simp only [core, pieces, h]
  | .group g es => by
    have h := piecesWithin_coreAll none es
    simp only [Option.map_none] at h
    simp only [core, pieces, h, delimiter?_core, piecesByLine_coreAll true es]
  | .nil | .bool _ | .number _ | .char _ | .string _ | .symbol _ | .keyword _ | .pattern _ _
  | .charLiteral _ _ | .arg _ | .comment _ _ | .comma => rfl

theorem piecesWithin_coreAll (before : Option Form) : ∀ es : List Form,
    piecesWithin (before.map core) (coreAll es) = piecesWithin before es
  | [] => by
    have h := between_core before none
    simp only [Option.map_none] at h
    simp only [coreAll, piecesWithin, h]
  | f :: rest => by
    have h := between_core before (some f)
    have hrest := piecesWithin_coreAll (some f) rest
    simp only [Option.map_some] at h hrest
    simp only [coreAll, piecesWithin, h, hrest, pieces_core f]

theorem piecesByLine_coreAll : ∀ (first : Bool) (es : List Form),
    piecesByLine first (coreAll es) = piecesByLine first es
  | _, [] => rfl
  | first, f :: rest => by
    simp only [coreAll, piecesByLine, pieces_core f, piecesByLine_coreAll false rest]

end

/-- A form has the text of its core. -/
@[simp] theorem emit?_core (f : Form) : f.core.emit? = f.emit? := by
  rw [emit?, emit?, print?, print?, pieces_core]

/-! ### Metadata -/

/-- Whether a form carries no metadata but its position, if it is a list. -/
def IsPlain (f : Form) : Prop :=
  ∀ info es, f = .list info es → info.withoutPosition.isEmpty = true

/-- Only lists have metadata, so that every other form is plain. -/
theorem isPlain_of_isList {f : Form} (h : Level.isList f = false) : f.IsPlain := by
  rintro info es rfl
  cases h

end Form

/-! ### Alike forms -/

theorem GroupAlike.core_eq {a b : Group} (h : GroupAlike a b) : a.core = b.core := by
  cases h <;> rfl

mutual

/-- Forms that are alike have the same core: they differ in positions and generated names. -/
theorem Alike.core_eq : ∀ {f g : Form}, Alike f g → f.core = g.core
  | _, _, .tagged _ h => by simp only [Form.core, h.core_eq]
  | _, _, .marked _ h => by simp only [Form.core, h.core_eq]
  | _, _, .annotated _ hnote hobject _ => by
    simp only [Form.core, hnote.core_eq, hobject.core_eq]
  | _, _, .backquoted h _ => by simp only [Form.core, h.core_eq]
  | _, _, .list _ h => by simp only [Form.core, h.coreAll_eq]
  | _, _, .group hgroup h => by simp only [Form.core, hgroup.core_eq, h.coreAll_eq]
  | _, _, .nil | _, _, .bool _ | _, _, .number _ | _, _, .char _ | _, _, .string _
  | _, _, .symbol _ | _, _, .keyword _ | _, _, .pattern _ _ | _, _, .charLiteral _ _
  | _, _, .arg _ | _, _, .comment _ _ | _, _, .comma => rfl

theorem AlikeAll.coreAll_eq : ∀ {es fs : List Form}, AlikeAll es fs →
    Form.coreAll es = Form.coreAll fs
  | _, _, .nil => rfl
  | _, _, .cons h hs => by simp only [Form.coreAll, h.core_eq, hs.coreAll_eq]

end

end FormTree
