import FormTree.Proofs.Reader.Legal
import FormTree.Proofs.Session.Restart

/-!
# The forms that sessions give

With the default host every form that a session gives is legal at the outermost level, also after
calls that failed. So all of its nodes are well-formed, and it nests within the limit.
-/

namespace FormTree.Session

/-- The frame of the outermost level. -/
def outermost : Frame := ⟨false, 0, nestingLimit⟩

/-- Whether a session with these options and the default host stands at the outermost level. -/
def Stands (regex : RegexEngine) (options : Options) (p : Session) : Prop :=
  p.options = options ∧ p.host = .standard regex ∧ p.state.frame = outermost

theorem stands_ofText (regex : RegexEngine) (text : String) (options : Options) :
    (ofText regex text options).Stands regex options :=
  ⟨rfl, rfl, rfl⟩

/-- Whatever is called, a session stands at the outermost level after it. -/
theorem stands_after (regex : RegexEngine) (k : Cursor) (options : Options) (rs : List Request) :
    ((ofCursor k options (.standard regex)).after rs).Stands regex options := by
  have hframe := sameFrame_after (ofCursor k options (.standard regex)) rs
  refine ⟨hframe.options_eq, hframe.host_eq, ?_⟩
  rw [State.frame, hframe.state.1, hframe.state.2]
  rfl

/-- A call at the outermost level reads with as many levels as forms may nest. -/
theorem readOpt_of_stands {p : Session} {regex : RegexEngine} {options : Options}
    (h : p.Stands regex options) :
    readOpt p =
      match (FormReader.nesting (outermost.remaining + 1)).run (.standard regex options)
        none p.state with
      | .ok (.form f) s => .ok (some f) { p with state := s }
      | .ok _ s => .ok none { p with state := s }
      | .error cause s => fail cause { p with state := s } := by
  obtain ⟨hoptions, hhost, hstate⟩ := h
  have hremaining : p.state.remaining = outermost.remaining := (State.frame_eq_iff.1 hstate).2.2
  simp only [readOpt, reader, setting, hoptions, hhost, hremaining]
  rfl

/-- A form read at the outermost level is legal there, and that is where reading goes on. -/
theorem legal_of_readOpt {p q : Session} {regex : RegexEngine} {options : Options} {f : Form}
    (hp : p.Stands regex options)
    (h : readOpt p = .ok (some f) q) : Legal regex options outermost f ∧
    q.Stands regex options := by
  have hreader := FormReader.isLegal_nesting regex options (outermost.remaining + 1)
  rw [readOpt_of_stands hp] at h
  split at h
  · rename_i g s hg
    cases h
    obtain ⟨hlegal, hframe⟩ := hreader.yields none _ p.state _ s hp.2.2 hg
    exact ⟨hlegal, hp.1, hp.2.1, hframe⟩
  · cases h
  · cases h

/-- So are all forms up to the end of input. -/
theorem legalAll_of_readAll {p q : Session} {regex : RegexEngine}
    {options : Options} {es : List Form} (hp : p.Stands regex options) (h : readAll p = .ok es q) :
    LegalAll regex options outermost es := by
  fun_induction readAll p generalizing es with
  | case1 p f p₁ hf fs p₂ hfs ih =>
    cases h
    obtain ⟨hlegal, hp₁⟩ := legal_of_readOpt hp hf
    exact .cons hlegal (ih hp₁ hfs)
  | case2 => cases h
  | case3 =>
    cases h
    exact .nil outermost
  | case4 => cases h

/-- Whether a call has succeeded with a value of that kind. -/
def gives {α : Type} (kind : α → Bool) : EStateM.Result ReadError Session α → Bool
  | .ok a _ => kind a
  | .error _ _ => false

/-- A result that is as asked for is found by evaluation. -/
theorem exists_of_gives {α : Type} {kind : α → Bool} {r : EStateM.Result ReadError Session α}
    (h : gives kind r = true) : ∃ a q, r = .ok a q ∧ kind a = true := by
  rcases r with ⟨a, q⟩ | ⟨e, q⟩
  · exact ⟨a, q, rfl, h⟩
  · cases h

theorem exists_of_gives_isSome {r : EStateM.Result ReadError Session (Option Form)}
    (h : gives Option.isSome r = true) : ∃ f q, r = .ok (some f) q := by
  obtain ⟨out, q, hr, hout⟩ := exists_of_gives h
  obtain ⟨f, rfl⟩ := Option.isSome_iff_exists.1 hout
  exact ⟨f, q, hr⟩

/-- **Forms that are read are well-formed.** Every node is as its construct requires, none is trivia
if that is skipped, and forms nest 256 levels at most. -/
theorem isWellFormed_of_readOpt (regex : RegexEngine) (k : Cursor) (options : Options)
    (rs : List Request) {f : Form}
    {q : Session} (h : readOpt ((ofCursor k options (.standard regex)).after rs) = .ok (some f) q) :
    (∀ g ∈ f.nodes, g.IsWellFormed ∧ (options.trivia = .skip → g.isTrivia = false)) ∧
      f.depth ≤ 256 := by
  obtain ⟨hf, -⟩ := legal_of_readOpt (stands_after regex k options rs) h
  refine ⟨fun g hg => ?_, hf.depth_le⟩
  obtain ⟨G, hG, -⟩ := hf.exists_of_mem_nodes hg
  exact ⟨hG.isWellFormed, hG.isTrivia_eq_false⟩

/-- A conditional in a function literal, read after a call that failed. -/
theorem exists_isWellFormed_of_readOpt :
    ∃ f q, readOpt ((ofCursor (.ofText ")#(#?(:clj ^a [%1 \\b]))")
        { Options.standard with conditionals := .allow } (.standard .lenient)).after [.read]) =
          .ok (some f) q ∧
      (∀ g ∈ f.nodes, g.IsWellFormed ∧ (TriviaMode.keep = .skip → g.isTrivia = false)) ∧
        f.depth ≤ 256 := by
  obtain ⟨f, q, h⟩ : ∃ f q, readOpt ((ofCursor (.ofText ")#(#?(:clj ^a [%1 \\b]))")
      { Options.standard with conditionals := .allow } (.standard .lenient)).after [.read]) =
        .ok (some f) q :=
    exists_of_gives_isSome (by decide +kernel)
  exact ⟨f, q, h, isWellFormed_of_readOpt _ _ _ _ h⟩

end FormTree.Session
