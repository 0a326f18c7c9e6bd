import FormTree.Proofs.Reader.Complete

/-!
# Positions that forms record

Lists with elements, conditionals and annotated lists record where they were read. A node is
**placed** in a text if it records a position just if it is one of these, and if that is the
position of its own character there: of a parenthesis for a list or a conditional, of a caret for an
annotated list. Whatever is spelled in a text is placed in it, as long as what the host makes of
patterns and tagged forms is.
-/

namespace FormTree

/-- Whether `c` stands at a position of a text. -/
def IsAt (text : List Char) (c : Char) (position : Position) : Prop :=
  ∃ p q : Spot, p.text = text ∧ p.Takes [c] q ∧ q.position = position

/-- A character that is passed stands at the position behind which it leaves. -/
theorem Spot.Takes.isAt {p q : Spot} {c : Char} (h : p.Takes [c] q) : IsAt q.text c q.position :=
  ⟨p, q, h.text_eq.symm, h, rfl⟩

/-- After a caret, or a hash sign and a caret, a place has the position of the caret. -/
theorem isAt_caret {p q : Spot} (h : p.Takes ['^'] q ∨ p.Takes ['#', '^'] q) :
    IsAt q.text '^' q.position := by
  rcases h with h | h
  · exact h.isAt
  · obtain ⟨r, -, hr⟩ := h.exists_of_cons
    exact hr.isAt

/-- The position of a conditional is that of its parenthesis. -/
theorem OpensConditional.isAt {splicing : Bool} {p q : Spot} (h : OpensConditional splicing p q) :
    IsAt q.text '(' q.position := by
  obtain ⟨_, _, -, -, hopen⟩ := h
  exact hopen.isAt

namespace Form

/-- Whether what a node records of its position is right. -/
def IsPlaced (text : List Char) : Form → Prop
  | .list info es =>
    if es.isEmpty then info = .empty
    else ∃ l, info = .at? (some l) ∧ IsAt text '(' l
  | .group (.conditional _ position) _ => ∃ l, position = some l ∧ IsAt text '(' l
  | .annotated _ _ object position =>
    if Level.isList object then ∃ l, position = some l ∧ IsAt text '^' l
    else position = none
  | _ => True

/-- Whether what is recorded of positions in a form is right everywhere. -/
def AllPlaced (text : List Char) (f : Form) : Prop := ∀ g ∈ f.nodes, g.IsPlaced text

variable {text : List Char} {f g note object : Form} {es : List Form}

theorem allPlaced_tagged {tag : Symbol} (h : f.AllPlaced text) : (tagged tag f).AllPlaced text :=
  List.forall_mem_cons.2 ⟨trivial, h⟩

theorem allPlaced_marked {mark : Mark} (h : f.AllPlaced text) : (marked mark f).AllPlaced text :=
  List.forall_mem_cons.2 ⟨trivial, h⟩

theorem allPlaced_backquoted {gensyms : List (Symbol × Symbol)} (h : f.AllPlaced text) :
    (backquoted f gensyms).AllPlaced text :=
  List.forall_mem_cons.2 ⟨trivial, h⟩

/-- An annotated list has the position of the caret, and no other annotated form has one. -/
theorem allPlaced_annotated {kind : NoteKind} {l : Position} (hl : IsAt text '^' l)
    (hnote : note.AllPlaced text) (hobject : object.AllPlaced text) :
    (annotated kind note object (if Level.isList object then some l else none)).AllPlaced text := by
  refine List.forall_mem_cons.2 ⟨?_, List.forall_mem_append.2 ⟨hnote, hobject⟩⟩
  rw [IsPlaced]
  split
  · exact ⟨l, rfl, hl⟩
  · rfl

/-- Elements are placed together if each of them is. -/
theorem allPlaced_nodesOf (h : ∀ f ∈ es, f.AllPlaced text) : ∀ g ∈ nodesOf es, g.IsPlaced text := by
  intro g hg
  obtain ⟨f, hf, hg⟩ := mem_nodesOf.1 hg
  exact h f hf g hg

/-- A list that has elements records its parenthesis. -/
theorem allPlaced_list {l : Position} (hl : IsAt text '(' l) (h : ∀ f ∈ es, f.AllPlaced text) :
    (list (if es.isEmpty then .empty else .at? (some l)) es).AllPlaced text := by
  refine List.forall_mem_cons.2 ⟨?_, allPlaced_nodesOf h⟩
  rw [IsPlaced]
  split
  · rfl
  · exact ⟨l, rfl, hl⟩

/-- A sequence is placed if it and its elements are. -/
theorem allPlaced_group {kind : Group} (hkind : (group kind es).IsPlaced text)
    (h : ∀ f ∈ es, f.AllPlaced text) : (group kind es).AllPlaced text :=
  List.forall_mem_cons.2 ⟨hkind, allPlaced_nodesOf h⟩

/-- A list that is placed carries no metadata but its position, so that a backquote leaves it as it
is written. -/
theorem AllPlaced.isPlain (h : f.AllPlaced text) : f.IsPlain := by
  rintro info es rfl
  have hself : (list info es).IsPlaced text := h _ (self_mem_nodes _)
  rw [IsPlaced] at hself
  split at hself
  · subst hself
    rfl
  · obtain ⟨l, rfl, -⟩ := hself
    exact Metadata.isEmpty_withoutPosition_at? _

/-- A backquote records no position of its own. -/
theorem AllPlaced.of_backquote {gensyms : List (Symbol × Symbol)} (h : f.AllPlaced text)
    (hread : Level.backquote f gensyms = .ok g) : g.AllPlaced text := by
  obtain ⟨-, rfl⟩ := (Level.backquote_eq_ok_iff h.isPlain).1 hread
  split
  · exact h
  · exact allPlaced_backquoted h

/-- Tokens denote atoms, which record no position. -/
theorem allPlaced_of_interpret {resolver : Resolver} {token : String}
    (h : Token.interpret resolver token = .ok f) : f.AllPlaced text := by
  rcases atom_of_interpret h with rfl | ⟨b, rfl⟩ | ⟨s, rfl⟩ | ⟨k, rfl⟩ <;>
    exact List.forall_mem_singleton.2 trivial

end Form

/-- Whether what a host makes of patterns, and of tagged forms that are placed, is placed. -/
structure Setting.KeepsPlaces (setting : Setting) (text : List Char) : Prop where
  pattern : ∀ source f, setting.host.patterns source = .ok f → f.AllPlaced text
  tagged : ∀ inConditional tag f g, Level.interpretTagged setting inConditional tag f = .ok g →
    f.AllPlaced text → g.AllPlaced text

/-- The default host keeps patterns and tagged forms as they are. -/
theorem Setting.keepsPlaces_standard {regex : RegexEngine} (options : Options)
    (text : List Char) : (Setting.standard regex options).KeepsPlaces text where
  pattern source f h := by
    obtain rfl := Host.eq_pattern_of_compilePattern h
    exact List.forall_mem_singleton.2 trivial
  tagged inConditional tag f g h hf := by
    obtain ⟨rfl, -⟩ := Level.interpretTagged_eq_ok h
    exact Form.allPlaced_tagged hf

/-! ### What is spelled is placed -/

section

variable {setting : Setting} {loose : Bool} {F : Frame} {p q : Spot} {f : Form}

theorem Spot.text_eq_of_exists_takes (h : ∃ cs, p.Takes cs q) : q.text = p.text := by
  obtain ⟨cs, h⟩ := h
  exact h.text_eq

theorem OpensConditional.text_eq {splicing : Bool} (h : OpensConditional splicing p q) :
    q.text = p.text :=
  Spot.text_eq_of_exists_takes h.exists_takes

/-- What is spelled lies in one text. -/
theorem Spells.text_eq (h : Spells setting loose F p f q) : q.text = p.text :=
  Spot.text_eq_of_exists_takes h.exists_takes

theorem SpellsTrivia.text_eq (h : SpellsTrivia setting loose F p f q) : q.text = p.text :=
  Spot.text_eq_of_exists_takes h.exists_takes

theorem SpellsNext.text_eq (h : SpellsNext setting loose F p f q) : q.text = p.text :=
  Spot.text_eq_of_exists_takes h.exists_takes

end

open Form in
mutual

theorem Spells.allPlaced {setting : Setting} {loose : Bool} {text : List Char}
    (hs : setting.KeepsPlaces text) : ∀ {F : Frame} {p q : Spot} {f : Form},
    Spells setting loose F p f q → p.text = text → f.AllPlaced text
  -- by induction on how the text spells a form; atoms record no position
  | _, _, _, _, .number _ _ _, _ | _, _, _, _, .string _ _, _ | _, _, _, _, .charLiteral _ _, _
  | _, _, _, _, .arg _ _ _, _ | _, _, _, _, .symbolic _ _ _, _ =>
      List.forall_mem_singleton.2 trivial
  | _, _, _, _, .token _ _ _ hread, _ => allPlaced_of_interpret hread
  | _, _, _, _, .pattern _ _ hread, _ => hs.pattern _ _ hread
  | _, _, _, _, .marked _ hc _ _ h, htext =>
    allPlaced_marked (h.allPlaced hs (hc.text_eq.trans htext))
  | _, _, _, _, .function hc _ _ h, htext =>
    allPlaced_marked (h.allPlaced hs (hc.text_eq.trans htext))
  | _, _, _, _, .annotated (q := q) hc hnote _ hobject _, htext => by
    have hq : q.text = text := (hc.elim (·.text_eq) (·.text_eq)).trans htext
    exact allPlaced_annotated (hq ▸ isAt_caret hc) (hnote.allPlaced hs hq)
      (hobject.allPlaced hs (hnote.text_eq.trans hq))
  | _, _, _, _, .backquoted hc h hread, htext =>
    (h.allPlaced hs (hc.text_eq.trans htext)).of_backquote hread
  | _, _, _, _, .tagged hc _ _ htag h hread, htext =>
    hs.tagged _ _ _ _ hread (h.allPlaced hs (htag.text_eq.trans (hc.text_eq.trans htext)))
  | _, _, _, _, .list (q := q) hc h _, htext => by
    have hq : q.text = text := hc.text_eq.trans htext
    exact allPlaced_list (hq ▸ hc.isAt) (h.allPlaced hs hq)
  | _, _, _, _, .group (g := g) hbrackets hc h _ _, htext => by
    refine allPlaced_group ?_ (h.allPlaced hs (hc.text_eq.trans htext))
    cases g with
    | conditional splicing position => cases hbrackets
    | _ => trivial
  | _, _, _, _, .conditional (r := r) _ hc hopening h _ _, htext => by
    have hr : r.text = text := hopening.text_eq.trans (hc.text_eq.trans htext)
    exact allPlaced_group ⟨r.position, rfl, hr ▸ hopening.isAt⟩ (h.allPlaced hs hr)

/-- Trivia is placed: comments and commas record nothing, and a discarded form is one. -/
theorem SpellsTrivia.allPlaced {setting : Setting} {loose : Bool} {text : List Char}
    (hs : setting.KeepsPlaces text) : ∀ {F : Frame} {p q : Spot} {f : Form},
    SpellsTrivia setting loose F p f q → p.text = text → f.AllPlaced text
  | _, _, _, _, .comment _ _, _ | _, _, _, _, .comma _, _ => List.forall_mem_singleton.2 trivial
  | _, _, _, _, .discard hc h, htext => allPlaced_marked (h.allPlaced hs (hc.text_eq.trans htext))

/-- Forms record the positions of their own characters in the text that spells them. -/
theorem SpellsNext.allPlaced {setting : Setting} {loose : Bool} {text : List Char}
    (hs : setting.KeepsPlaces text) : ∀ {F : Frame} {p q : Spot} {f : Form},
    SpellsNext setting loose F p f q → p.text = text → f.AllPlaced text
  | _, _, _, _, .form hblanks h, htext => h.allPlaced hs (hblanks.text_eq.trans htext)
  | _, _, _, _, .kept _ _ hblanks h, htext => h.allPlaced hs (hblanks.text_eq.trans htext)
  | _, _, _, _, .skipped _ _ hblanks h hnext, htext =>
    hnext.allPlaced hs (h.text_eq.trans (hblanks.text_eq.trans htext))

/-- Elements are placed one by one. -/
theorem SpellsAll.allPlaced {setting : Setting} {loose : Bool} {text : List Char}
    (hs : setting.KeepsPlaces text) : ∀ {F : Frame} {p q : Spot} {es : List Form},
    SpellsAll setting loose F p es q → p.text = text → ∀ f ∈ es, f.AllPlaced text
  | _, _, _, _, .nil _, _ => List.forall_mem_nil _
  | _, _, _, _, .form hblanks h hrest, htext => by
    have hq := hblanks.text_eq.trans htext
    exact List.forall_mem_cons.2 ⟨h.allPlaced hs hq, hrest.allPlaced hs (h.text_eq.trans hq)⟩
  | _, _, _, _, .kept _ hblanks h hrest, htext => by
    have hq := hblanks.text_eq.trans htext
    exact List.forall_mem_cons.2 ⟨h.allPlaced hs hq, hrest.allPlaced hs (h.text_eq.trans hq)⟩
  | _, _, _, _, .skipped _ hblanks h hrest, htext =>
    hrest.allPlaced hs (h.text_eq.trans (hblanks.text_eq.trans htext))

end

end FormTree
