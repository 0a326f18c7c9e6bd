import FormTree.Proofs.Form.Nodes
import FormTree.Proofs.Reader.Invariant

/-!
# Forms without marks to evaluate

A form is **free of evaluation** if the mark that asks the reader to evaluate stands nowhere in it:
not in what is discarded, not in a note, a conditional or a tagged form, and not in the values of
the metadata of a list either. Where the mark is refused, what a level builds from forms that are
free of evaluation is so again, and that is all that levels build, as long as the host does not
bring such a mark in.
-/

namespace FormTree

/-- Whether there is no mark to evaluate anywhere in a form, the metadata of its lists included. -/
inductive Form.EvalFree : Form → Prop
  | atom {f : Form} (h : f.isAtom = true) : EvalFree f
  | tagged (tag : Symbol) {f : Form} (h : EvalFree f) : EvalFree (.tagged tag f)
  | marked {mark : Mark} {f : Form} (hmark : mark ≠ .eval) (h : EvalFree f) :
    EvalFree (.marked mark f)
  | annotated (kind : NoteKind) (position : Option Position) {note object : Form}
    (hnote : EvalFree note) (hobject : EvalFree object) :
    EvalFree (.annotated kind note object position)
  | backquoted (gensyms : List (Symbol × Symbol)) {f : Form} (h : EvalFree f) :
    EvalFree (.backquoted f gensyms)
  | list {info : Metadata Form} {es : List Form} (hinfo : ∀ entry ∈ info.entries, EvalFree entry.2)
    (h : ∀ f ∈ es, EvalFree f) : EvalFree (.list info es)
  | group (g : Group) {es : List Form} (h : ∀ f ∈ es, EvalFree f) : EvalFree (.group g es)

namespace Form.EvalFree

variable {f g : Form}

/-- All nodes of a form that is free of evaluation are. -/
theorem of_mem_nodes (hf : f.EvalFree) (hg : g ∈ f.nodes) : g.EvalFree := by
  induction hf with
  | @atom f h =>
    cases f with
    | tagged | marked | annotated | backquoted | list | group => cases h
    | _ => exact List.mem_singleton.1 hg ▸ .atom h
  | tagged tag h ih =>
    rcases List.mem_cons.1 hg with rfl | hg
    · exact .tagged tag h
    · exact ih hg
  | marked hmark h ih =>
    rcases List.mem_cons.1 hg with rfl | hg
    · exact .marked hmark h
    · exact ih hg
  | annotated kind position hnote hobject ihnote ihobject =>
    rcases List.mem_cons.1 hg with rfl | hg
    · exact .annotated kind position hnote hobject
    · exact (List.mem_append.1 hg).elim ihnote ihobject
  | backquoted gensyms h ih =>
    rcases List.mem_cons.1 hg with rfl | hg
    · exact .backquoted gensyms h
    · exact ih hg
  | list hinfo h _ ih =>
    rcases List.mem_cons.1 hg with rfl | hg
    · exact .list hinfo h
    · obtain ⟨e, he, hg⟩ := mem_nodesOf.1 hg
      exact ih e he hg
  | group kind h ih =>
    rcases List.mem_cons.1 hg with rfl | hg
    · exact .group kind h
    · obtain ⟨e, he, hg⟩ := mem_nodesOf.1 hg
      exact ih e he hg

/-- So there is no mark to evaluate among them. -/
theorem notMem_nodes (hf : f.EvalFree) (g : Form) : .marked .eval g ∉ f.nodes := by
  intro hmem
  rcases hf.of_mem_nodes hmem with h | - | ⟨hmark, -⟩
  · cases h
  · exact hmark rfl

/-- The metadata of a position has numbers only. -/
theorem of_mem_at? {position : Option Position} {entry : Keyword × Form}
    (h : entry ∈ (Metadata.at? position).entries) : entry.2.EvalFree := by
  rcases position with - | p
  · cases h
  · simp only [Metadata.at?, List.mem_cons, List.not_mem_nil, or_false] at h
    rcases h with rfl | rfl <;> exact .atom rfl

/-- Metadata as a map has the values of the metadata and their keys. -/
theorem toForm {info : Metadata Form} (hinfo : ∀ entry ∈ info.entries, entry.2.EvalFree) :
    info.toForm.EvalFree := by
  refine .group .map fun f hf => ?_
  obtain ⟨⟨k, v⟩, hentry, hf⟩ := List.mem_flatMap.1 hf
  simp only [List.mem_cons, List.not_mem_nil, or_false] at hf
  rcases hf with rfl | rfl
  · exact .atom rfl
  · exact hinfo _ hentry

/-- Quoting brings the metadata of a list into the form, and nothing that was not there. -/
theorem backquote {gensyms : List (Symbol × Symbol)} (hf : f.EvalFree)
    (h : Level.backquote f gensyms = .ok g) : g.EvalFree := by
  unfold Level.backquote at h
  split at h
  · cases h
  · rename_i info es
    have hquoted : EvalFree (.backquoted (.list info es) gensyms) := .backquoted gensyms hf
    have hinfo : ∀ entry ∈ info.entries, entry.2.EvalFree := by
      cases hf with
      | atom h => cases h
      | list hinfo _ => exact hinfo
    cases h
    split
    · exact hquoted
    · refine .list nofun ?_
      simp only [List.forall_mem_cons]
      exact ⟨.atom rfl, hquoted, .backquoted [] (toForm hinfo), nofun⟩
  · cases h
    split
    · exact hf
    · exact .backquoted gensyms hf

/-- Where marks to evaluate are refused, what levels build from forms without them has none. -/
theorem hereditary {evaluation : EvalPolicy} (h : evaluation ≠ .enabled) :
    Hereditary evaluation EvalFree where
  atom := .atom
  marked mark hmark hf := .marked (fun heval => h (hmark heval)) hf
  annotated kind position hnote hobject := .annotated kind position hnote hobject
  backquote := backquote
  list position hes := by
    refine .list ?_ hes
    split
    · exact nofun
    · exact fun entry => of_mem_at?
  group g hes := .group g hes

end Form.EvalFree

end FormTree
