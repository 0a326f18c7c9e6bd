import FormTree.Proofs.Print.Parts
import FormTree.Proofs.Form.Numbered
import Mathlib.Data.List.Induction

/-!
# Symbols that occur in a form

A symbol **occurs** in a form if one of its pieces is that symbol, and symbols occur in the order in
which they are printed. In a backquoted form this is meant without what is under an unquote or
another backquote: that is shielded from it. The names of a backquote should be the symbols that
occur then and end with a hash sign, each of them once.

Registering follows the forms that a form is put in front of and the elements of sequences. The note
of an annotated form is neither of these, and a tag is no form. So what is registered are the
symbols that occur in the form without its notes and tags, in their order. These are all symbols
that should be registered if no note and no tag has one.
-/

namespace FormTree

/-- The symbol that a piece is. -/
def Piece.toSymbol? : Piece → Option Symbol
  | .symbol s => some s
  | _ => none

namespace Form

/-- The symbols that occur in a form, in the order in which they are printed. -/
def occurring (f : Form) : List Symbol := f.pieces.filterMap Piece.toSymbol?

mutual

/-- The form with `nil` under each unquote and each backquote. -/
def shielded : Form → Form
  | .tagged tag f => .tagged tag f.shielded
  | .marked .unquote _ => .marked .unquote .nil
  | .marked .unquoteSplicing _ => .marked .unquoteSplicing .nil
  | .marked mark f => .marked mark f.shielded
  | .annotated kind note object position =>
    .annotated kind note.shielded object.shielded position
  | .backquoted _ gensyms => .backquoted .nil gensyms
  | .list info es => .list info (shieldedAll es)
  | .group kind es => .group kind (shieldedAll es)
  | f => f

/-- Forms with `nil` under each unquote and each backquote. -/
def shieldedAll : List Form → List Form
  | [] => []
  | f :: rest => f.shielded :: shieldedAll rest

end

mutual

/-- The form without its notes and tags, in front of whatever they stand. -/
def unnoted : Form → Form
  | .tagged _ f | .annotated _ _ f _ => f.unnoted
  | .marked mark f => .marked mark f.unnoted
  | .backquoted f gensyms => .backquoted f.unnoted gensyms
  | .list info es => .list info (unnotedAll es)
  | .group kind es => .group kind (unnotedAll es)
  | f => f

/-- Forms without their notes and tags. -/
def unnotedAll : List Form → List Form
  | [] => []
  | f :: rest => f.unnoted :: unnotedAll rest

end

mutual

/-- The symbols that occur in the notes and tags of a form, but not under an unquote or a
backquote. -/
def noted : Form → List Symbol
  | .tagged tag f => tag :: f.noted
  | .marked .unquote _ | .marked .unquoteSplicing _ | .backquoted _ _ => []
  | .marked _ f => f.noted
  | .annotated _ note object _ => note.shielded.occurring ++ object.noted
  | .list _ es | .group _ es => notedOf es
  | _ => []

/-- The symbols that occur in the notes and tags of forms. -/
def notedOf : List Form → List Symbol
  | [] => []
  | f :: rest => f.noted ++ notedOf rest

end

/-- The names that symbols should be generated for if the form is backquoted: those that occur in
it, but not under an unquote or another backquote, in the order of their first occurrence. -/
def quotedNames (f : Form) : List Symbol :=
  (f.shielded.occurring.filter Gensyms.isAuto).eraseDups

/-! ### What occurs -/

/-- A string is no symbol. -/
theorem filterMap_stringPieces (s : String) : (stringPieces s).filterMap Piece.toSymbol? = [] := by
  refine List.filterMap_eq_nil_iff.2 fun p hp => ?_
  rcases of_mem_stringPieces hp with ⟨_, e, rfl, -⟩ | ⟨run, rfl, -⟩ <;> rfl

/-- Neither are separators. -/
theorem filterMap_piecesWithin (es : List Form) (before : Option Form) :
    (piecesWithin before es).filterMap Piece.toSymbol? = es.flatMap occurring := by
  induction es generalizing before with
  | nil => rw [piecesWithin]; rfl
  | cons f rest ih =>
    rw [piecesWithin, List.filterMap_cons, List.filterMap_append, ih, List.flatMap_cons]
    rfl

/-- Lines are put between the elements; the symbols are those of the elements. -/
theorem filterMap_piecesByLine (es : List Form) (first : Bool) :
    (piecesByLine first es).filterMap Piece.toSymbol? = es.flatMap occurring := by
  induction es generalizing first with
  | nil => rw [piecesByLine]; rfl
  | cons f rest ih =>
    cases first <;> rw [piecesByLine] <;>
      simp only [List.filterMap_cons, List.filterMap_append, List.flatMap_cons, ih,
        Piece.toSymbol?, occurring, Bool.false_eq_true, if_false, if_true]

@[simp] theorem occurring_nil : Form.nil.occurring = [] := rfl

@[simp] theorem occurring_symbol (s : Symbol) : (Form.symbol s).occurring = [s] := rfl

@[simp] theorem occurring_string (text : String) : (Form.string text).occurring = [] := by
  rw [occurring, pieces, List.filterMap_cons, List.filterMap_append, filterMap_stringPieces]
  rfl

@[simp] theorem occurring_arg (ref : ArgRef) : (Form.arg ref).occurring = [] := by
  cases ref <;> rfl

@[simp] theorem occurring_tagged (tag : Symbol) (f : Form) :
    (Form.tagged tag f).occurring = tag :: f.occurring := by
  rw [occurring, pieces]
  rfl

@[simp] theorem occurring_marked (mark : Mark) (f : Form) :
    (Form.marked mark f).occurring = f.occurring := by
  rw [occurring, pieces]
  rfl

@[simp] theorem occurring_backquoted (f : Form) (gensyms : List (Symbol × Symbol)) :
    (Form.backquoted f gensyms).occurring = f.occurring := by
  rw [occurring, pieces]
  rfl

@[simp] theorem occurring_annotated (kind : NoteKind) (note object : Form)
    (position : Option Position) :
    (Form.annotated kind note object position).occurring =
      note.occurring ++ object.occurring := by
  rw [occurring, pieces, List.filterMap_cons, List.filterMap_append]
  rfl

/-- Delimiters are no symbols either. -/
theorem filterMap_delimited (d : Delimiter) (es : List Form) :
    (Piece.opening d :: (piecesWithin none es ++ [.closing d])).filterMap Piece.toSymbol? =
      es.flatMap occurring := by
  rw [List.filterMap_cons, List.filterMap_append, filterMap_piecesWithin]
  exact List.append_nil _

@[simp] theorem occurring_list (info : Metadata Form) (es : List Form) :
    (Form.list info es).occurring = es.flatMap occurring := by
  rw [occurring, pieces, filterMap_delimited]

@[simp] theorem occurring_group (kind : Group) (es : List Form) :
    (Form.group kind es).occurring = es.flatMap occurring := by
  cases kind <;> rw [occurring, pieces] <;>
    first | exact filterMap_delimited _ es | exact filterMap_piecesByLine es true

/-! ### What is registered -/

mutual

/-- What is registered for a form are the symbols that occur in it without its notes and tags. -/
theorem autos_eq_filter : ∀ f : Form,
    f.autos = f.unnoted.shielded.occurring.filter Gensyms.isAuto
  | .symbol s => by
    simp [autos, unnoted, shielded, List.filter_singleton, cond_eq_ite]
  | .tagged _ f => by
    rw [autos, unnoted, autos_eq_filter f]
  | .annotated _ _ f _ => by
    rw [autos, unnoted, autos_eq_filter f]
  | .marked mark f => by
    cases mark <;> simp [autos, unnoted, shielded, autos_eq_filter f]
  | .list _ es | .group _ es => by
    simp [autos, unnoted, shielded, autosOf_eq_filter es]
  | .backquoted _ _ | .string _ | .arg _ => by simp [autos, unnoted, shielded]
  | .nil | .bool _ | .number _ | .char _ | .keyword _ | .pattern _ _ | .charLiteral _ _
  | .comment _ _ | .comma => rfl

theorem autosOf_eq_filter : ∀ es : List Form,
    autosOf es = ((shieldedAll (unnotedAll es)).flatMap occurring).filter Gensyms.isAuto
  | [] => rfl
  | f :: rest => by
    rw [autosOf, unnotedAll, shieldedAll, List.flatMap_cons, List.filter_append, autos_eq_filter f,
      autosOf_eq_filter rest]

end

mutual

/-- Without its notes and tags, a form has the same symbols in the same order, but for those in
notes and tags. -/
theorem sublist_occurring_unnoted : ∀ f : Form,
    f.unnoted.shielded.occurring.Sublist f.shielded.occurring
  | .tagged _ f => by
    rw [unnoted, shielded, occurring_tagged]
    exact (sublist_occurring_unnoted f).cons _
  | .annotated _ _ f _ => by
    rw [unnoted, shielded, occurring_annotated]
    exact (sublist_occurring_unnoted f).trans (List.sublist_append_right _ _)
  | .marked mark f => by
    cases mark <;> simp [unnoted, shielded, sublist_occurring_unnoted f]
  | .list _ es | .group _ es => by
    simp [unnoted, shielded, sublist_occurring_unnotedAll es]
  | .backquoted _ _ | .symbol _ | .nil | .bool _ | .number _ | .char _ | .string _ | .keyword _
  | .pattern _ _ | .charLiteral _ _ | .arg _ | .comment _ _ | .comma => by
    simp [unnoted, shielded]

theorem sublist_occurring_unnotedAll : ∀ es : List Form,
    ((shieldedAll (unnotedAll es)).flatMap occurring).Sublist ((shieldedAll es).flatMap occurring)
  | [] => .slnil
  | f :: rest =>
    (sublist_occurring_unnoted f).append (sublist_occurring_unnotedAll rest)

end

mutual

/-- The symbols that occur in a form are those without its notes and tags, and those in them. -/
theorem perm_occurring : ∀ f : Form,
    f.shielded.occurring.Perm (f.unnoted.shielded.occurring ++ f.noted)
  | .tagged tag f => by
    rw [unnoted, shielded, noted, occurring_tagged]
    exact ((perm_occurring f).cons tag).trans List.perm_middle.symm
  | .annotated _ note f _ => by
    rw [unnoted, shielded, noted, occurring_annotated]
    exact ((perm_occurring f).append_left _).trans (List.perm_append_comm_assoc _ _ _)
  | .marked mark f => by
    cases mark <;> simp [unnoted, shielded, noted, perm_occurring f]
  | .list _ es | .group _ es => by
    simp [unnoted, shielded, noted, perm_occurringAll es]
  | .backquoted _ _ | .symbol _ | .nil | .bool _ | .number _ | .char _ | .string _ | .keyword _
  | .pattern _ _ | .charLiteral _ _ | .arg _ | .comment _ _ | .comma => by
    simp [unnoted, shielded, noted]

theorem perm_occurringAll : ∀ es : List Form,
    ((shieldedAll es).flatMap occurring).Perm
      ((shieldedAll (unnotedAll es)).flatMap occurring ++ notedOf es)
  | [] => .nil
  | f :: rest => by
    rw [shieldedAll, unnotedAll, shieldedAll, notedOf, List.flatMap_cons, List.flatMap_cons]
    refine ((perm_occurring f).append (perm_occurringAll rest)).trans ?_
    rw [List.append_assoc, List.append_assoc]
    exact (List.perm_append_comm_assoc _ _ _).append_left _

end

/-! ### Names -/

/-- Adding names one after the other keeps the first occurrence of each. -/
theorem foldl_addName (ss : List Symbol) : ss.foldl Gensyms.addName [] = ss.eraseDups := by
  induction ss using List.reverseRecOn with
  | nil => rfl
  | append_singleton ss s ih =>
    rw [List.foldl_append, ih, List.foldl_cons, List.foldl_nil, Gensyms.addName,
      List.eraseDups_append, List.removeAll, List.filter_singleton]
    by_cases h : s ∈ ss
    · simp [h]
    · simp [h, List.eraseDups_cons]

/-- **The names of a backquote are those of the form without its notes and tags.** -/
theorem autoNames_eq_quotedNames (f : Form) : f.autoNames = f.unnoted.quotedNames := by
  rw [autoNames, foldl_addName, autos_eq_filter, quotedNames]

/-- The names of a backquote are the automatic ones among the symbols that occur. -/
theorem mem_quotedNames {s : Symbol} {f : Form} :
    s ∈ f.quotedNames ↔ Gensyms.isAuto s = true ∧ s ∈ f.shielded.occurring := by
  rw [quotedNames, List.mem_eraseDups, List.mem_filter, and_comm]

/-- A name that is not registered stands in a note or tag. -/
theorem mem_quotedNames_iff {s : Symbol} {f : Form} :
    s ∈ f.quotedNames ↔ s ∈ f.autoNames ∨ Gensyms.isAuto s = true ∧ s ∈ f.noted := by
  rw [autoNames_eq_quotedNames, mem_quotedNames, mem_quotedNames, (perm_occurring f).mem_iff,
    List.mem_append, and_or_left]

/-- With no name in a note or tag, all names are registered, and in their order. -/
theorem autoNames_eq_of_noted {f : Form} (h : f.noted.filter Gensyms.isAuto = []) :
    f.autoNames = f.quotedNames := by
  have hsublist := (sublist_occurring_unnoted f).filter Gensyms.isAuto
  have hlength := ((perm_occurring f).filter Gensyms.isAuto).length_eq
  rw [List.filter_append, h, List.append_nil] at hlength
  rw [autoNames_eq_quotedNames, quotedNames, hsublist.eq_of_length hlength.symm, quotedNames]

/-! ### Backquotes -/

/-- Whether a node is a backquote of some kind, by what is backquoted and the symbols generated. -/
def quotes (kind : Form → List (Symbol × Symbol) → Bool) : Form → Bool
  | .backquoted f gensyms => kind f gensyms
  | _ => false

/-- A backquote of a kind is found among nodes by evaluation. -/
theorem exists_of_any_quotes {kind : Form → List (Symbol × Symbol) → Bool} {nodes : List Form}
    (h : nodes.any (quotes kind) = true) :
    ∃ f gensyms, .backquoted f gensyms ∈ nodes ∧ kind f gensyms = true := by
  obtain ⟨g, hmem, hg⟩ := List.any_eq_true.1 h
  cases g with
  | backquoted f gensyms => exact ⟨f, gensyms, hmem, hg⟩
  | _ => exact absurd hg Bool.false_ne_true

end Form

end FormTree
