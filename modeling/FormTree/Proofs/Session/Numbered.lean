import FormTree.Proofs.Form.Occurring
import FormTree.Proofs.Reader.Numbered
import FormTree.Proofs.Session.Calls

/-!
# The symbols that a session generates

A session numbers the symbols that it generates for as long as it lives. A call that fails may use
numbers up, and so may what is discarded, but no number is used again: with the default host all
symbols generated in the forms that calls give are different. What they are generated for are the
names that occur in what is backquoted, but for those in notes and tags.
-/

namespace FormTree.Session

/-- The number of symbols that a session has generated. -/
def generated (p : Session) : Nat := p.state.generated

/-- The forms that some calls give. -/
def forms (p : Session) (rs : List Request) : List Form :=
  (p.answers rs).filterMap fun answer => answer.toOption.join

/-- The forms of a first call come before those of the others. -/
theorem forms_cons (p : Session) (r : Request) (rs : List Request) :
    p.forms (r :: rs) =
      (answer (call r p)).toOption.join.toList ++ (stateOf (call r p)).forms rs := by
  rw [forms, answers, List.filterMap_cons]
  rcases (answer (call r p)).toOption.join with - | f <;> rfl

/-- Whether a run that began with `l` symbols generated has taken none back, and the forms that it
gives are numbered after that. -/
def CountsForms {α : Type} (forms : α → List Form) (l : Nat) :
    EStateM.Result ReadError Session α → Prop
  | .ok a p => Form.Numbered l p.generated (Form.nodesOf (forms a))
  | .error _ p => l ≤ p.generated

theorem CountsForms.map {α β : Type} {as : α → List Form} {bs : β → List Form} {f : α → β}
    {l : Nat} {m : Call α} {p : Session} (hf : ∀ a, bs (f a) = as a) (h : CountsForms as l (m p)) :
    CountsForms bs l ((f <$> m) p) := by
  rw [map_apply]
  rcases hm : m p with ⟨a, q⟩ | ⟨e, q⟩ <;> rw [hm] at h
  · rw [CountsForms, hf]
    exact h
  · exact h

section

variable {regex : RegexEngine} {p : Session} (hhost : p.host = .standard regex)
include hhost

/-- A call that reads a form numbers the symbols generated in it. -/
theorem countsForms_readOpt : CountsForms Option.toList p.generated (readOpt p) := by
  have hreader := FormReader.counts_nesting regex p.options (p.state.remaining + 1) none _ p.state
    rfl
  have hsetting : p.setting = .standard regex p.options := by rw [setting, hhost]
  rw [readOpt, if_neg (hhost ▸ Host.evaluation_standard_ne_unknown regex), reader, hsetting]
  split <;> rename_i hr <;> rw [hr] at hreader
  · rw [CountsForms, Option.toList_some, Form.nodesOf_singleton]
    exact hreader.2
  · exact .nil hreader.1
  · exact hreader

/-- The forms of a file have ranges of numbers that follow one another. -/
theorem countsForms_readAll : CountsForms id p.generated (readAll p) := by
  have h := countsForms_readOpt hhost
  have hframe := sameFrame_readOpt p
  fun_induction readAll p with
  | case1 p f p₁ hr fs p₂ hrest ih =>
    rw [hr] at h hframe
    have hhost₁ : p₁.host = .standard regex := hframe.host_eq.trans hhost
    have hfs := ih hhost₁ (countsForms_readOpt hhost₁) (sameFrame_readOpt p₁)
    rw [hrest] at hfs
    rw [CountsForms, id, ← List.singleton_append, Form.nodesOf_append]
    exact h.append hfs
  | case2 p f p₁ hr e p₂ hrest ih =>
    rw [hr] at h hframe
    have hhost₁ : p₁.host = .standard regex := hframe.host_eq.trans hhost
    have hfailed := ih hhost₁ (countsForms_readOpt hhost₁) (sameFrame_readOpt p₁)
    rw [hrest] at hfailed
    exact Nat.le_trans h.le hfailed
  | case3 p p₁ hr =>
    rw [hr] at h
    exact h
  | case4 p e p₁ hr =>
    rw [hr] at h
    exact h

/-- So does one that reads a file. -/
theorem countsForms_readToEnd : CountsForms (fun f => [f]) p.generated (readToEnd p) := by
  have h := countsForms_readAll hhost
  rcases hread : readToEnd p with ⟨f, q⟩ | ⟨e, q⟩
  · obtain ⟨es, hes, rfl⟩ := map_eq_ok.1 hread
    rw [hes] at h
    rw [CountsForms, Form.nodesOf_singleton]
    exact h.cons rfl trivial
  · rw [map_eq_error.1 hread] at h
    exact h

theorem countsForms_read (hend : p.options.atEnd = none) :
    CountsForms (fun f => [f]) p.generated (read p) := by
  have h := countsForms_readOpt hhost
  have hframe := sameFrame_readOpt p
  rw [read_eq]
  rcases hr : readOpt p with ⟨- | f, q⟩ | ⟨e, q⟩ <;> rw [hr] at h hframe
  · have hend' : q.options.atEnd = none := by
      rw [← hend]
      exact congrArg _ hframe.options_eq
    simp only [hend']
    exact h.le
  · exact h
  · exact h

/-- A call takes no number back, and the form that it gives is numbered. -/
theorem countsForms_call (r : Request) (hend : r = .read → p.options.atEnd = none) :
    CountsForms Option.toList p.generated (call r p) := by
  cases r with
  | read => exact (countsForms_read hhost (hend rfl)).map fun _ => rfl
  | readOpt => exact countsForms_readOpt hhost
  | readToEnd => exact (countsForms_readToEnd hhost).map fun _ => rfl
  | finish =>
    have h : CountsForms (fun _ => []) p.generated (finish p) := by
      unfold finish
      split
      · exact .nil (Nat.le_refl _)
      · exact Nat.le_refl p.generated
      · exact Nat.le_refl p.generated
    exact h.map fun _ => rfl

/-- So are the forms that several calls give, taken together. -/
theorem numbered_forms (rs : List Request) (hend : .read ∈ rs → p.options.atEnd = none) :
    Form.Numbered p.generated (p.after rs).generated (Form.nodesOf (p.forms rs)) := by
  induction rs generalizing p with
  | nil => exact .nil (Nat.le_refl _)
  | cons r rs ih =>
    have hcall := countsForms_call hhost r fun hr => hend (hr ▸ List.mem_cons_self)
    have hframe := sameFrame_call r p
    have hrest := ih (hframe.host_eq.trans hhost) fun hmem => by
      rw [hframe.options_eq]
      exact hend (List.mem_cons_of_mem r hmem)
    rw [forms_cons, Form.nodesOf_append]
    refine Form.Numbered.append ?_ hrest
    rcases hr : call r p with ⟨f, q⟩ | ⟨e, q⟩ <;> rw [hr] at hcall
    · exact hcall
    · exact .nil hcall

end

/-- **No symbol is generated twice.** With the default host, in the forms that some calls give, one
after the other and failed ones among them, all symbols generated for backquotes are different. Each
backquote has one for each of its names, which are different as well, so that names and symbols
correspond. Lists have no metadata but their positions, so that no backquote is there. -/
theorem nodup_generated (regex : RegexEngine) (k : Cursor) (options : Options) (rs : List Request)
    (hend : .read ∈ rs → options.atEnd = none) :
    let nodes := Form.nodesOf ((ofCursor k options (.standard regex)).forms rs)
    (nodes.flatMap Form.generated).Nodup ∧
      (∀ f gensyms, .backquoted f gensyms ∈ nodes →
        gensyms.map Prod.fst = f.autoNames ∧ (gensyms.map Prod.fst).Nodup ∧
          (gensyms.map Prod.snd).Nodup) ∧
      ∀ info es, .list info es ∈ nodes → ∃ position, info = .at? position := by
  intro nodes
  have hhost : (ofCursor k options (.standard regex)).host = .standard regex := rfl
  have hnumbered := numbered_forms hhost rs hend
  refine ⟨hnumbered.nodup, fun f gensyms h => ?_, fun info es h => hnumbered.orderly _ h⟩
  obtain ⟨l, rfl⟩ := hnumbered.orderly _ h
  rw [Gensyms.map_fst_numbered]
  exact ⟨rfl, f.nodup_autoNames, Gensyms.nodup_snd_numbered l f.autoNames⟩

/-- Two backquotes, one inside of the other, and after a call that fails a third one, which has
symbols of its own for the same names. -/
theorem nodup_generated_nested :
    let rs := [.readOpt, .readOpt, .readToEnd]
    let nodes := Form.nodesOf ((ofCursor (.ofText "`(a# `b# a#) `] `[a# b#]") .standard
      (.standard .lenient)).forms rs)
    (Request.read ∈ rs → Options.standard.atEnd = none) ∧
      nodes.flatMap Form.generated =
        [.simple "a__2__auto__", .simple "b__1__auto__", .simple "a__3__auto__",
          .simple "b__4__auto__"] ∧
      (nodes.flatMap Form.generated).Nodup ∧
      (∀ f gensyms, .backquoted f gensyms ∈ nodes →
        gensyms.map Prod.fst = f.autoNames ∧ (gensyms.map Prod.fst).Nodup ∧
          (gensyms.map Prod.snd).Nodup) ∧
      ∀ info es, .list info es ∈ nodes → ∃ position, info = .at? position := by
  intro rs nodes
  have hend : Request.read ∈ rs → Options.standard.atEnd = none := fun _ => rfl
  exact ⟨hend, by decide +kernel, nodup_generated _ _ .standard rs hend⟩

/-- **Which names symbols are generated for.** With the default host, a backquote in a form that
some calls give has a symbol for each unqualified name with a hash sign at its end that occurs in
what is backquoted, outside of notes, tags, unquotes and other backquotes, once and in the order of
first occurrence. Names that occur nowhere but in a note or tag have none. So if there is no name in
a note or tag, those with a symbol are all names that should have one. -/
theorem map_fst_gensyms (regex : RegexEngine) (k : Cursor) (options : Options) (rs : List Request)
    (hend : .read ∈ rs → options.atEnd = none) (f : Form) (gensyms : List (Symbol × Symbol))
    (h : .backquoted f gensyms ∈ Form.nodesOf ((ofCursor k options (.standard regex)).forms rs)) :
    gensyms.map Prod.fst = f.unnoted.quotedNames ∧ (gensyms.map Prod.fst).Nodup ∧
      (∀ s, s ∈ f.quotedNames ↔
        s ∈ gensyms.map Prod.fst ∨ Gensyms.isAuto s = true ∧ s ∈ f.noted) ∧
      (f.noted.filter Gensyms.isAuto = [] → gensyms.map Prod.fst = f.quotedNames) := by
  have hhost : (ofCursor k options (.standard regex)).host = .standard regex := rfl
  obtain ⟨l, rfl⟩ := (numbered_forms hhost rs hend).orderly _ h
  rw [Gensyms.map_fst_numbered]
  exact ⟨f.autoNames_eq_quotedNames, f.nodup_autoNames, fun s => Form.mem_quotedNames_iff,
    Form.autoNames_eq_of_noted⟩

/-- A name that is a type hint, for which no symbol is generated. -/
theorem map_fst_gensyms_hint :
    let rs := [.readOpt]
    let nodes :=
      Form.nodesOf ((ofCursor (.ofText "`^a# b") .standard (.standard .lenient)).forms rs)
    (Request.read ∈ rs → Options.standard.atEnd = none) ∧
      ∃ f gensyms, .backquoted f gensyms ∈ nodes ∧
        gensyms.map Prod.fst = [] ∧ f.quotedNames = [.simple "a#"] ∧
        gensyms.map Prod.fst = f.unnoted.quotedNames ∧ (gensyms.map Prod.fst).Nodup ∧
          (∀ s, s ∈ f.quotedNames ↔
            s ∈ gensyms.map Prod.fst ∨ Gensyms.isAuto s = true ∧ s ∈ f.noted) ∧
          (f.noted.filter Gensyms.isAuto = [] → gensyms.map Prod.fst = f.quotedNames) := by
  intro rs nodes
  have hend : Request.read ∈ rs → Options.standard.atEnd = none := fun _ => rfl
  obtain ⟨f, gensyms, hmem, hf⟩ := Form.exists_of_any_quotes
    (by decide +kernel : nodes.any (Form.quotes fun f gensyms =>
      decide (gensyms.map Prod.fst = [] ∧ f.quotedNames = [.simple "a#"])) = true)
  obtain ⟨hnone, hnames⟩ := of_decide_eq_true hf
  exact ⟨hend, f, gensyms, hmem, hnone, hnames,
    map_fst_gensyms _ _ .standard rs hend f gensyms hmem⟩

end FormTree.Session
