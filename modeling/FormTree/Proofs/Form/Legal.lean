import FormTree.Proofs.Form.Nodes
import FormTree.Reader.Step

/-!
# Legal forms

A form is **legal** if the reader may give it, with the default host, where it stands: inside of a
function literal or not, inside of a conditional or not, and with a budget of levels further down.
The rules say of every construct what its parts are and what else is asked of them: tokens have to
be plain, names have to be what their token denotes, and sequences have to pass the check that
belongs to them.
-/

namespace FormTree

-- Powers are the core library's here, also below a library with another instance of them.
attribute [local instance (high)] instPowNat

/-- Where a form stands. -/
structure Frame where
  inFunction : Bool
  /-- how many conditionals are around it -/
  conditionals : Nat
  /-- how many levels further down forms may nest -/
  remaining : Nat
  deriving DecidableEq, Repr

namespace Frame

/-- Whether there is a conditional around. -/
def inConditional (F : Frame) : Bool := 0 < F.conditionals

/-- The frame around, one level further up. -/
def up (F : Frame) : Frame := { F with remaining := F.remaining + 1 }

/-- A frame is determined by the one above it. -/
theorem up_injective {F G : Frame} (h : F.up = G.up) : F = G := by
  rcases F with ⟨_, _, _⟩
  rcases G with ⟨_, _, _⟩
  simpa [up] using h

end Frame

/-- Whether characters are a token from its first character to its end: it does not begin like a
number or with a trigger, and nothing in it ends a token. -/
def Token.isPlain : List Char → Bool
  | [] => false
  | c :: rest =>
    !Text.isDigit c && !isTrigger c && !Text.isBlank c &&
      !((c == '+' || c == '-') && rest.head?.any Text.isDigit) && rest.all (!endsToken ·)

/-- Whether characters are the token of a character literal: the first one is free. -/
def Token.isCharToken : List Char → Bool
  | [] => false
  | _ :: rest => rest.all (!endsToken ·)

/-- Whether characters are the body of a pattern: quotes in it have a backslash before them. -/
def Scan.isPatternBody : List Char → Bool
  | [] => true
  | '"' :: _ => false
  | ['\\'] => false
  | '\\' :: _ :: rest => isPatternBody rest
  | _ :: rest => isPatternBody rest

/-- Whether a number is as its literal is read: a ratio that is no integer, or a decimal whose scale
has 64 bits. -/
def Number.IsNormal : Number → Prop
  | .ratio q => q.den ≠ 1
  | .decimal d => Numeral.fitsInt64 d.scale = true
  | _ => True

mutual

/-- The forms that the reader may give. -/
inductive Legal (regex : RegexEngine) (options : Options) : Frame → Form → Prop
  | nil (F : Frame) : Legal regex options F .nil
  | bool (F : Frame) (b : Bool) : Legal regex options F (.bool b)
  | number (F : Frame) {n : Number} (h : n.IsNormal) : Legal regex options F (.number n)
  | string (F : Frame) (s : String) : Legal regex options F (.string s)
  | symbol (F : Frame) {s : Symbol} (hplain : Token.isPlain s.toText.toList = true)
    (hread : Token.interpret Resolver.standard s.toText = .ok (.symbol s)) :
    Legal regex options F (.symbol s)
  | keyword (F : Frame) {k : Keyword} (hplain : Token.isPlain k.toText.toList = true) :
    Legal regex options F (.keyword k)
  | pattern (F : Frame) {source : String} {compiled : Bool}
    (hbody : Scan.isPatternBody source.toList = true)
    (hread : (Host.standard regex).patterns source = .ok (.pattern source compiled)) :
    Legal regex options F (.pattern source compiled)
  | tagged {F : Frame} {tag : Symbol} {f : Form} (htag : Legal regex options F (.symbol tag))
    (hform : Legal regex options F f)
    (hread : Level.interpretTagged ⟨options, .standard regex⟩ F.inConditional tag f =
      .ok (.tagged tag f)) :
    Legal regex options F.up (.tagged tag f)
  | marked {F : Frame} {mark : Mark} {f : Form} (hfunction : mark ≠ .function)
    (hdiscard : mark = .discard → options.trivia = .keep) (hform : Legal regex options F f) :
    Legal regex options F.up (.marked mark f)
  | function {conditionals remaining : Nat} {info : Metadata Form} {es : List Form}
    (h : Legal regex options ⟨true, conditionals, remaining⟩ (.list info es)) :
    Legal regex options ⟨false, conditionals, remaining + 1⟩ (.marked .function (.list info es))
  | annotated {F : Frame} {kind : NoteKind} {note object : Form} (position : Option Position)
    (hnote : Legal regex options F note) (hobject : Legal regex options F object)
    (hkind : Level.noteKind? note = some kind) (hannotatable : object.isAnnotatable = true) :
    Legal regex options F.up (.annotated kind note object position)
  | backquoted {F : Frame} {f : Form} (gensyms : List (Symbol × Symbol))
      (hform : Legal regex options F f)
    (hliteral : f.isLiteral = false) (hsplicing : ∀ g, f ≠ .marked .unquoteSplicing g) :
    Legal regex options F.up (.backquoted f gensyms)
  | charLiteral (F : Frame) {token : String} {c : Char}
    (htoken : Token.isCharToken token.toList = true) (hread : Scan.charForToken token = .ok c) :
    Legal regex options F (.charLiteral token c)
  | arg (F : Frame) {ref : ArgRef} (h : ∀ n, ref = .index n → 0 < n ∧ n < 2 ^ (32 : Nat)) :
    Legal regex options F (.arg ref)
  | comment (F : Frame) (style : CommentStyle) {text : String}
    (htext : text.toList.all (!Scan.endsLine ·) = true) (hkeep : options.trivia = .keep) :
    Legal regex options F (.comment style text)
  | comma (F : Frame) (hkeep : options.trivia = .keep) : Legal regex options F .comma
  | list {F : Frame} {info : Metadata Form} {es : List Form}
    (hinfo : info.withoutPosition.isEmpty = true) (h : LegalAll regex options F es) :
    Legal regex options F.up (.list info es)
  | vector {F : Frame} {es : List Form} (h : LegalAll regex options F es) :
    Legal regex options F.up (.group .vector es)
  | set {F : Frame} {es : List Form} (h : LegalAll regex options F es) :
    Legal regex options F.up (.group .set es)
  | map {F : Frame} {es : List Form} (h : LegalAll regex options F es)
    (heven : (Form.dataOf es).length % 2 = 0) :
    Legal regex options F.up (.group .map es)
  | conditional {inFunction : Bool} {conditionals remaining : Nat} {splicing : Bool}
    {es : List Form} (position : Option Position) (hmode : options.conditionals ≠ .disabled)
    (h : LegalAll regex options ⟨inFunction, conditionals + 1, remaining⟩ es)
    (hbranches : Level.conditionalFault? splicing es = none) :
    Legal regex options ⟨inFunction, conditionals, remaining + 1⟩
      (.group (.conditional splicing position) es)

/-- Whether all forms of a sequence are legal. -/
inductive LegalAll (regex : RegexEngine) (options : Options) : Frame → List Form → Prop
  | nil (F : Frame) : LegalAll regex options F []
  | cons {F : Frame} {f : Form} {rest : List Form} (h : Legal regex options F f)
    (hrest : LegalAll regex options F rest) : LegalAll regex options F (f :: rest)

end

/-! ### Nodes of legal forms -/

section

variable {regex : RegexEngine} {options : Options} {F : Frame}

/-- Each of legal elements is legal where they stand. -/
theorem LegalAll.of_mem {es : List Form} {f : Form}
    (h : LegalAll regex options F es) (hf : f ∈ es) :
    Legal regex options F f := by
  induction es with
  | nil => cases hf
  | cons g rest ih =>
    obtain - | ⟨hg, hrest⟩ := h
    rcases List.mem_cons.1 hf with rfl | hf
    · exact hg
    · exact ih hrest hf

/-- If the nodes inside of a legal form are legal where they stand, so are all of its nodes. -/
theorem Legal.exists_of_mem_cons {f g : Form} {inner : List Form} (h : Legal regex options F f)
    (hinner : g ∈ inner → ∃ G : Frame, Legal regex options G g ∧
      (F.inFunction = true → G.inFunction = true))
    (hg : g ∈ f :: inner) :
    ∃ G : Frame, Legal regex options G g ∧ (F.inFunction = true → G.inFunction = true) := by
  rcases List.mem_cons.1 hg with rfl | hg
  · exact ⟨F, h, id⟩
  · exact hinner hg

mutual

/-- Every node of a legal form is legal where it stands, which is inside of a function literal if
the form is. -/
theorem Legal.exists_of_mem_nodes : ∀ {F : Frame} {f : Form},
    Legal regex options F f → ∀ {g : Form},
    g ∈ f.nodes → ∃ G : Frame, Legal regex options G g ∧ (F.inFunction = true → G.inFunction = true)
  | _, _, .tagged htag hform hread, _, hg =>
    Legal.exists_of_mem_cons (.tagged htag hform hread) hform.exists_of_mem_nodes hg
  | _, _, .marked hfunction hdiscard hform, _, hg =>
    Legal.exists_of_mem_cons (.marked hfunction hdiscard hform) hform.exists_of_mem_nodes hg
  | _, _, .function h, g, hg => by
    refine Legal.exists_of_mem_cons (.function h) (fun hg => ?_) hg
    -- inside of the literal the flag is set, so that nothing is left to show of it
    obtain ⟨G, hG, -⟩ := h.exists_of_mem_nodes hg
    exact ⟨G, hG, nofun⟩
  | _, _, .annotated position hnote hobject hkind hannotatable, _, hg =>
    Legal.exists_of_mem_cons (.annotated position hnote hobject hkind hannotatable)
      (fun hg =>
        (List.mem_append.1 hg).elim hnote.exists_of_mem_nodes hobject.exists_of_mem_nodes) hg
  | _, _, .backquoted gensyms hform hliteral hsplicing, _, hg =>
    Legal.exists_of_mem_cons (.backquoted gensyms hform hliteral hsplicing)
      hform.exists_of_mem_nodes hg
  | _, _, .list hinfo h, _, hg => Legal.exists_of_mem_cons (.list hinfo h) h.exists_of_mem_nodes hg
  | _, _, .vector h, _, hg => Legal.exists_of_mem_cons (.vector h) h.exists_of_mem_nodes hg
  | _, _, .set h, _, hg => Legal.exists_of_mem_cons (.set h) h.exists_of_mem_nodes hg
  | _, _, .map h heven, _, hg => Legal.exists_of_mem_cons (.map h heven) h.exists_of_mem_nodes hg
  | _, _, .conditional position hmode h hbranches, _, hg =>
    Legal.exists_of_mem_cons (.conditional position hmode h hbranches) h.exists_of_mem_nodes hg
  | F, _, .nil _, _, hg => ⟨F, List.mem_singleton.1 hg ▸ .nil F, id⟩
  | F, _, .bool _ b, _, hg => ⟨F, List.mem_singleton.1 hg ▸ .bool F b, id⟩
  | F, _, .number _ h, _, hg => ⟨F, List.mem_singleton.1 hg ▸ .number F h, id⟩
  | F, _, .string _ s, _, hg => ⟨F, List.mem_singleton.1 hg ▸ .string F s, id⟩
  | F, _, .symbol _ hplain hread, _, hg => ⟨F, List.mem_singleton.1 hg ▸ .symbol F hplain hread, id⟩
  | F, _, .keyword _ hplain, _, hg => ⟨F, List.mem_singleton.1 hg ▸ .keyword F hplain, id⟩
  | F, _, .pattern _ hbody hread, _, hg => ⟨F, List.mem_singleton.1 hg ▸ .pattern F hbody hread, id⟩
  | F, _, .charLiteral _ htoken hread, _, hg =>
    ⟨F, List.mem_singleton.1 hg ▸ .charLiteral F htoken hread, id⟩
  | F, _, .arg _ h, _, hg => ⟨F, List.mem_singleton.1 hg ▸ .arg F h, id⟩
  | F, _, .comment _ style htext hkeep, _, hg =>
    ⟨F, List.mem_singleton.1 hg ▸ .comment F style htext hkeep, id⟩
  | F, _, .comma _ hkeep, _, hg => ⟨F, List.mem_singleton.1 hg ▸ .comma F hkeep, id⟩

theorem LegalAll.exists_of_mem_nodes : ∀ {F : Frame} {es : List Form}, LegalAll regex options F es →
    ∀ {g : Form}, g ∈ Form.nodesOf es →
      ∃ G : Frame, Legal regex options G g ∧ (F.inFunction = true → G.inFunction = true)
  | _, _, .nil _, _, hg => nomatch hg
  | _, _, .cons h hrest, _, hg =>
    (List.mem_append.1 hg).elim h.exists_of_mem_nodes hrest.exists_of_mem_nodes

end

mutual

/-- A legal form nests no deeper than it may. -/
theorem Legal.depth_le : ∀ {F : Frame} {f : Form}, Legal regex options F f → f.depth ≤ F.remaining
  | _, _, .tagged _ hform _ => Nat.succ_le_succ hform.depth_le
  | _, _, .marked _ _ hform => Nat.succ_le_succ hform.depth_le
  | _, _, .function h => Nat.succ_le_succ h.depth_le
  | _, _, .annotated _ hnote hobject _ _ =>
    Nat.succ_le_succ (Nat.max_le.2 ⟨hnote.depth_le, hobject.depth_le⟩)
  | _, _, .backquoted _ hform _ _ => Nat.succ_le_succ hform.depth_le
  | _, _, .list _ h => Nat.succ_le_succ h.depth_le
  | _, _, .vector h => Nat.succ_le_succ h.depth_le
  | _, _, .set h => Nat.succ_le_succ h.depth_le
  | _, _, .map h _ => Nat.succ_le_succ h.depth_le
  | _, _, .conditional _ _ h _ => Nat.succ_le_succ h.depth_le
  | _, _, .nil _ | _, _, .bool _ _ | _, _, .number _ _ | _, _, .string _ _ | _, _, .symbol _ _ _
  | _, _, .keyword _ _ | _, _, .pattern _ _ _ | _, _, .charLiteral _ _ _ | _, _, .arg _ _
  | _, _, .comment _ _ _ _ | _, _, .comma _ _ => Nat.zero_le _

theorem LegalAll.depth_le : ∀ {F : Frame} {es : List Form}, LegalAll regex options F es →
    Form.depthOf es ≤ F.remaining
  | _, _, .nil _ => Nat.zero_le _
  | _, _, .cons h hrest => Nat.max_le.2 ⟨h.depth_le, hrest.depth_le⟩

end

/-- Inside of a function literal no form is one. -/
theorem Legal.not_isFunction {f : Form} (h : Legal regex options F f) (hF : F.inFunction = true) :
    ¬ f.IsFunction := by
  rintro ⟨body, rfl⟩
  cases h with
  | marked hfunction _ _ => exact hfunction rfl
  | function => cases hF

/-- What the reader takes for a note of a kind is one. -/
theorem isNote_of_noteKind? {note : Form} {kind : NoteKind} (h : Level.noteKind? note = some kind) :
    note.IsNote kind := by
  unfold Level.noteKind? at h
  split at h <;> cases h
  · exact .symbol _
  · exact .string _
  · exact .keyword _
  · exact .map _

/-- The reader takes every note for one of its kind. -/
theorem noteKind?_of_isNote {note : Form} {kind : NoteKind} (h : note.IsNote kind) :
    Level.noteKind? note = some kind := by
  cases h <;> rfl

/-- Two keywords are reserved as features. -/
theorem isReserved_eq_false_iff {k : Keyword} :
    Level.isReserved k = false ↔ k ≠ .simple "else" ∧ k ≠ .simple "none" := by
  rcases k with ⟨⟨ns, name⟩⟩
  rcases ns with - | ns
  · simp [Level.isReserved, Keyword.simple, Symbol.simple, Keyword.ns, Keyword.name]
  · simp [Level.isReserved, Keyword.simple, Symbol.simple, Keyword.ns]

/-- A branch has no fault just if its feature is a keyword that is not reserved, and its form can be
spliced where it has to be. -/
theorem branchFault?_eq_none_iff {splicing : Bool} {feature form : Form} :
    Level.branchFault? splicing feature form = none ↔
      ∃ k, feature = .keyword k ∧ (k ≠ .simple "else" ∧ k ≠ .simple "none") ∧
        (splicing = true → form.isSequential = true) := by
  have hkeyword : feature.toKeyword? = none ∨ ∃ k, feature = .keyword k := by
    cases feature with
    | keyword k => exact .inr ⟨k, rfl⟩
    | _ => exact .inl rfl
  rw [Level.branchFault?]
  rcases hkeyword with hnone | ⟨k, rfl⟩
  · rw [hnone]
    refine iff_of_false (by simp) ?_
    rintro ⟨k, rfl, -⟩
    cases hnone
  · have hk : (∃ l, Form.keyword k = .keyword l ∧ (l ≠ .simple "else" ∧ l ≠ .simple "none") ∧
        (splicing = true → form.isSequential = true)) ↔
          Level.isReserved k = false ∧ (splicing = true → form.isSequential = true) := by
      rw [isReserved_eq_false_iff]
      constructor
      · rintro ⟨l, hl, h⟩
        cases hl
        exact h
      · exact fun h => ⟨k, rfl, h⟩
    rw [hk]
    dsimp only [Form.toKeyword?]
    cases Level.isReserved k <;> cases splicing <;> cases form.isSequential <;> simp

/-- Data passes the check of a conditional if and only if it is its branches. -/
theorem findSome?_branchFault?_eq_none_iff {splicing : Bool} : ∀ {data : List Form},
    data.length % 2 = 0 ∧ ((Form.pairsOf data).findSome? fun (feature, form) =>
      Level.branchFault? splicing feature form) = none ↔ Form.AreBranches splicing data
  | [] => iff_of_true ⟨rfl, rfl⟩ .nil
  | [_] => iff_of_false (fun h => absurd h.1 Nat.one_ne_zero) fun h => nomatch h
  | feature :: form :: rest => by
    have ih : _ ↔ Form.AreBranches splicing rest := findSome?_branchFault?_eq_none_iff
    have hlength : (feature :: form :: rest).length % 2 = rest.length % 2 := by
      simp only [List.length_cons]
      omega
    rw [hlength, Form.pairsOf, List.findSome?_cons]
    constructor
    · rintro ⟨heven, h⟩
      split at h
      · cases h
      · rename_i hfault
        obtain ⟨k, rfl, hk, hform⟩ := branchFault?_eq_none_iff.1 hfault
        exact .cons hk hform (ih.1 ⟨heven, h⟩)
    · rintro (- | ⟨hk, hform, hrest⟩)
      obtain ⟨heven, h⟩ := ih.2 hrest
      have hfault := branchFault?_eq_none_iff.2 ⟨_, rfl, hk, hform⟩
      simp only [hfault]
      exact ⟨heven, h⟩

/-- **The check of a conditional is exact.** Elements pass it just if their data are branches. -/
theorem conditionalFault?_eq_none_iff {splicing : Bool} {es : List Form} :
    Level.conditionalFault? splicing es = none ↔ Form.AreBranches splicing (Form.dataOf es) := by
  rw [← findSome?_branchFault?_eq_none_iff, Level.conditionalFault?]
  dsimp only
  rcases Nat.mod_two_eq_zero_or_one (Form.dataOf es).length with h | h <;> simp [h]

/-- A node of a legal form is well-formed, and no trivia if that is skipped. -/
theorem Legal.isWellFormed {f : Form} (h : Legal regex options F f) : f.IsWellFormed := by
  cases h with
  | function h =>
    refine ⟨⟨_, _, rfl⟩, fun g hg => ?_⟩
    obtain ⟨G, hG, hfunction⟩ := h.exists_of_mem_nodes hg
    exact hG.not_isFunction (hfunction rfl)
  | annotated _ _ _ hkind hannotatable => exact ⟨isNote_of_noteKind? hkind, hannotatable⟩
  | backquoted _ _ hliteral hsplicing => exact ⟨hliteral, hsplicing⟩
  | charLiteral _ _ hread => exact hread
  | @arg _ ref h =>
    rcases ref with - | n | -
    · trivial
    · exact (h n rfl).1
    · trivial
  | comment _ style htext _ =>
    intro c hc
    have := List.all_eq_true.1 htext c hc
    simpa [Scan.endsLine] using this
  | map _ heven => exact heven
  | conditional _ _ _ hbranches => exact conditionalFault?_eq_none_iff.1 hbranches
  | @marked _ mark _ hfunction _ _ =>
    cases mark <;> trivial
  | _ => trivial

/-- Where trivia is skipped, no form that is legal is trivia. -/
theorem Legal.isTrivia_eq_false {f : Form} (h : Legal regex options F f)
    (hskip : options.trivia = .skip) : f.isTrivia = false := by
  have hkeep : options.trivia ≠ .keep := by simp [hskip]
  cases h with
  | @marked _ mark _ _ hdiscard _ =>
    cases mark <;> first | rfl | exact absurd (hdiscard rfl) hkeep
  | comment _ _ _ h => exact absurd h hkeep
  | comma _ h => exact absurd h hkeep
  | _ => rfl

end

end FormTree
