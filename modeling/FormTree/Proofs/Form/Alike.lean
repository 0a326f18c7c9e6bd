import Mathlib.Data.List.Forall2
import FormTree.Form.Access
import FormTree.Reader.Gensym

/-!
# Forms that differ in positions and generated names only

Two forms are **alike** if they are the same tree with the same atoms and differ at most in the
values of recorded positions and in the numbers inside generated symbols. Which positions are
recorded has to be the same, and so have to be the names that symbols were generated for, with their
order. Reading the same text from another place gives alike forms, and whatever looks at neither
positions nor generated names cannot tell them apart: alike forms have the same data and the same
symbols to generate.
-/

namespace FormTree

/-- Whether two generated symbols for one name are the same up to the number in them. -/
inductive GensymAlike : Symbol × Symbol → Symbol × Symbol → Prop
  | refl (p : Symbol × Symbol) : GensymAlike p p
  | fresh (s : Symbol) (m n : Nat) :
    GensymAlike (s, Gensyms.fresh s m) (s, Gensyms.fresh s n)

/-- Whether two groups are of one kind and both record a position or neither. -/
inductive GroupAlike : Group → Group → Prop
  | refl (g : Group) : GroupAlike g g
  | conditional (splicing : Bool) {p q : Option Position} (h : p.isSome = q.isSome) :
    GroupAlike (.conditional splicing p) (.conditional splicing q)

/-- Whether the metadata of two lists is the same, or that of a position in both. -/
inductive InfoAlike : Metadata Form → Metadata Form → Prop
  | refl (m : Metadata Form) : InfoAlike m m
  | position (p q : Position) : InfoAlike (.at? (some p)) (.at? (some q))

mutual

/-- Whether two forms are the same up to positions and generated names. -/
inductive Alike : Form → Form → Prop
  | nil : Alike .nil .nil
  | bool (b : Bool) : Alike (.bool b) (.bool b)
  | number (n : Number) : Alike (.number n) (.number n)
  | char (c : Char) : Alike (.char c) (.char c)
  | string (s : String) : Alike (.string s) (.string s)
  | symbol (s : Symbol) : Alike (.symbol s) (.symbol s)
  | keyword (k : Keyword) : Alike (.keyword k) (.keyword k)
  | pattern (source : String) (compiled : Bool) :
    Alike (.pattern source compiled) (.pattern source compiled)
  | charLiteral (token : String) (c : Char) : Alike (.charLiteral token c) (.charLiteral token c)
  | arg (ref : ArgRef) : Alike (.arg ref) (.arg ref)
  | comment (style : CommentStyle) (text : String) :
      Alike (.comment style text) (.comment style text)
  | comma : Alike .comma .comma
  | tagged (tag : Symbol) {f g : Form} (h : Alike f g) : Alike (.tagged tag f) (.tagged tag g)
  | marked (mark : Mark) {f g : Form} (h : Alike f g) : Alike (.marked mark f) (.marked mark g)
  | annotated (kind : NoteKind) {m n f g : Form} {p q : Option Position} (hnote : Alike m n)
    (hobject : Alike f g) (hposition : p.isSome = q.isSome) :
    Alike (.annotated kind m f p) (.annotated kind n g q)
  | backquoted {f g : Form} {ps qs : List (Symbol × Symbol)} (h : Alike f g)
    (hgensyms : List.Forall₂ GensymAlike ps qs) : Alike (.backquoted f ps) (.backquoted g qs)
  | list {m n : Metadata Form} {es fs : List Form} (hinfo : InfoAlike m n) (h : AlikeAll es fs) :
    Alike (.list m es) (.list n fs)
  | group {a b : Group} {es fs : List Form} (hgroup : GroupAlike a b) (h : AlikeAll es fs) :
    Alike (.group a es) (.group b fs)

/-- Whether two sequences of forms are alike, element by element. -/
inductive AlikeAll : List Form → List Form → Prop
  | nil : AlikeAll [] []
  | cons {f g : Form} {fs gs : List Form} (h : Alike f g) (hs : AlikeAll fs gs) :
    AlikeAll (f :: fs) (g :: gs)

end

mutual

/-- Every form is alike to itself. -/
theorem Alike.refl : ∀ f : Form, Alike f f
  | .nil => .nil
  | .bool b => .bool b
  | .number n => .number n
  | .char c => .char c
  | .string s => .string s
  | .symbol s => .symbol s
  | .keyword k => .keyword k
  | .pattern source compiled => .pattern source compiled
  | .charLiteral token c => .charLiteral token c
  | .arg ref => .arg ref
  | .comment style text => .comment style text
  | .comma => .comma
  | .tagged tag f => .tagged tag (Alike.refl f)
  | .marked mark f => .marked mark (Alike.refl f)
  | .annotated kind note object _ => .annotated kind (Alike.refl note) (Alike.refl object) rfl
  | .backquoted f _ => .backquoted (Alike.refl f) (List.forall₂_same.2 fun _ _ => .refl _)
  | .list info es => .list (.refl info) (AlikeAll.refl es)
  | .group g es => .group (.refl g) (AlikeAll.refl es)

theorem AlikeAll.refl : ∀ es : List Form, AlikeAll es es
  | [] => .nil
  | f :: rest => .cons (Alike.refl f) (AlikeAll.refl rest)

end

/-! ### What alike forms have in common -/

namespace Alike

variable {f g : Form}

/-- Alike forms are of the same kind, so that both are trivia or neither. -/
theorem isTrivia_eq (h : Alike f g) : f.isTrivia = g.isTrivia := by
  cases h with
  | marked mark _ => cases mark <;> rfl
  | _ => rfl

/-- A keyword is alike to itself only. -/
theorem toKeyword_eq (h : Alike f g) : f.toKeyword? = g.toKeyword? := by
  cases h <;> rfl

end Alike

namespace AlikeAll

variable {es fs : List Form}

/-- Alike elements are as many. -/
theorem length_eq : ∀ {es fs : List Form}, AlikeAll es fs → es.length = fs.length
  | _, _, .nil => rfl
  | _, _, .cons _ hs => congrArg (· + 1) hs.length_eq

theorem of_forall₂ (h : List.Forall₂ Alike es fs) : AlikeAll es fs := by
  induction h with
  | nil => exact .nil
  | cons hfg _ ih => exact .cons hfg ih

theorem isEmpty_eq (h : AlikeAll es fs) : es.isEmpty = fs.isEmpty := by
  cases h <;> rfl

/-- Trivia is dropped from both alike. -/
theorem dataOf : ∀ {es fs : List Form}, AlikeAll es fs → AlikeAll (Form.dataOf es) (Form.dataOf fs)
  | _, _, .nil => .nil
  | f :: _, g :: _, .cons h hs => by
    simp only [Form.dataOf, List.filter_cons, h.isTrivia_eq]
    split
    · exact .cons h hs.dataOf
    · exact hs.dataOf

end AlikeAll

/-! ### Generated symbols -/

section

variable {ps qs : List (Symbol × Symbol)}

theorem GensymAlike.fst_eq {p q : Symbol × Symbol} (h : GensymAlike p q) : p.1 = q.1 := by
  cases h <;> rfl

/-- Registered pairs that correspond are registered for the same names. -/
theorem isSome_lookup_eq (h : List.Forall₂ GensymAlike ps qs) (s : Symbol) :
    (ps.lookup s).isSome = (qs.lookup s).isSome := by
  induction h with
  | nil => rfl
  | @cons p q _ _ hpq _ ih =>
    obtain ⟨a, b⟩ := p
    obtain ⟨c, d⟩ := q
    obtain rfl : a = c := hpq.fst_eq
    simp only [List.lookup_cons]
    split
    · rfl
    · exact ih

/-- Registering a name keeps the pairs in correspondence: it is new to both or to neither. -/
theorem forall₂_register {g h : Gensyms} (hgh : List.Forall₂ GensymAlike g.pairs h.pairs)
    (s : Symbol) : List.Forall₂ GensymAlike (g.register s).pairs (h.register s).pairs := by
  unfold Gensyms.register
  rw [isSome_lookup_eq hgh]
  split
  · exact hgh
  · exact List.rel_append hgh (.cons (.fresh ..) .nil)

mutual

/-- Alike forms have the same symbols to generate, in the same order. -/
theorem Alike.forall₂_collect : ∀ {a b : Form}, Alike a b → ∀ {g h : Gensyms},
    List.Forall₂ GensymAlike g.pairs h.pairs →
      List.Forall₂ GensymAlike (g.collect a).pairs (h.collect b).pairs
  | _, _, .symbol s, g, h, hgh => by
    unfold Gensyms.collect
    split
    · exact forall₂_register hgh s
    · exact hgh
  | _, _, .tagged _ hf, _, _, hgh => by
    simpa only [Gensyms.collect] using hf.forall₂_collect hgh
  | _, _, .marked mark hf, _, _, hgh => by
    cases mark <;> simp only [Gensyms.collect] <;>
      first | exact hgh | exact hf.forall₂_collect hgh
  | _, _, .annotated _ _ hf _, _, _, hgh => by
    simpa only [Gensyms.collect] using hf.forall₂_collect hgh
  | _, _, .backquoted _ _, _, _, hgh => by simpa only [Gensyms.collect] using hgh
  | _, _, .list _ hes, _, _, hgh => by
    simpa only [Gensyms.collect] using hes.forall₂_collectAll hgh
  | _, _, .group _ hes, _, _, hgh => by
    simpa only [Gensyms.collect] using hes.forall₂_collectAll hgh
  | _, _, .nil, _, _, hgh | _, _, .bool _, _, _, hgh | _, _, .number _, _, _, hgh
  | _, _, .char _, _, _, hgh | _, _, .string _, _, _, hgh | _, _, .keyword _, _, _, hgh
  | _, _, .pattern _ _, _, _, hgh | _, _, .charLiteral _ _, _, _, hgh | _, _, .arg _, _, _, hgh
  | _, _, .comment _ _, _, _, hgh | _, _, .comma, _, _, hgh => by
    simpa only [Gensyms.collect] using hgh

/-- The same for elements, from left to right. -/
theorem AlikeAll.forall₂_collectAll : ∀ {as bs : List Form}, AlikeAll as bs → ∀ {g h : Gensyms},
    List.Forall₂ GensymAlike g.pairs h.pairs →
      List.Forall₂ GensymAlike (g.collectAll as).pairs (h.collectAll bs).pairs
  | _, _, .nil, _, _, hgh => by simpa only [Gensyms.collectAll] using hgh
  | _, _, .cons hf hs, _, _, hgh => by
    simpa only [Gensyms.collectAll] using hs.forall₂_collectAll (hf.forall₂_collect hgh)

end

end

end FormTree
