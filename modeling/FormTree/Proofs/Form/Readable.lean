import FormTree.Proofs.Form.Faithful
import FormTree.Proofs.Reader.Legal
import FormTree.Session

/-!
# Readable forms

A form is **readable** if it could stand in a text: every node is well-formed, every atom is one
that its text is read as, and forms nest no deeper than a session allows. This says nothing of where
forms stand; that their cores are legal there is shown by induction on the form.
-/

namespace FormTree

-- Powers are the core library's here, also below a library with another instance of them.
attribute [local instance (high)] instPowNat

/-- Whether a number is in normal form and a number, and, if a decimal, of a size that leaves room
for its exponent. -/
def Number.IsReadable : Number → Prop
  | .ratio q => q.den ≠ 1
  | .float x => x.isNaN = false
  | .decimal d =>
    d.scale.natAbs ≤ 2 ^ (62 : Nat) ∧ (Nat.toDigits 10 d.unscaled.natAbs).length ≤ 2 ^ (62 : Nat)
  | _ => True

namespace Form

/-- Whether a node, if it is an atom or a literal with a tag, is what its text is read as. -/
def IsReadableAtom (regex : RegexEngine) : Form → Prop
  | .number n => n.IsReadable
  | .symbol s => Token.isPlain s.toText.toList = true ∧
    Token.interpret Resolver.standard s.toText = .ok (.symbol s)
  | .keyword k => Token.isPlain k.toText.toList = true ∧
    Token.interpret Resolver.standard k.toText = .ok (.keyword k)
  | .pattern source _ => Scan.isPatternBody source.toList = true ∧
    (Host.standard regex).patterns source = .ok (.pattern source true)
  | .tagged tag f => (∃ text, f = .string text) ∧
    DataReaders.standard.read? tag f = some (.ok (.tagged tag f))
  | .charLiteral token _ => Token.isCharToken token.toList = true
  | .arg (.index n) => n < 2 ^ (32 : Nat)
  | _ => True

/-- Whether a form could stand in a text. -/
structure IsReadable (regex : RegexEngine) (f : Form) : Prop where
  isWellFormed : ∀ g ∈ f.nodes, g.IsWellFormed
  isReadableAtom : ∀ g ∈ f.nodes, g.IsReadableAtom regex
  depth_le : f.depth ≤ nestingLimit

/-- Whether nodes of a depth could stand in a frame. -/
structure Fit (regex : RegexEngine) (F : Frame) (ns : List Form) (depth : Nat) : Prop where
  isWellFormed : ∀ g ∈ ns, g.IsWellFormed
  isReadableAtom : ∀ g ∈ ns, g.IsReadableAtom regex
  not_isFunction : F.inFunction = true → ∀ g ∈ ns, ¬ g.IsFunction
  depth_le : depth ≤ F.remaining

namespace Fit

variable {regex : RegexEngine} {F : Frame} {f : Form} {ns ms : List Form} {m n : Nat}

/-- Fewer nodes fit as well, and so do those of a form that is no deeper. -/
theorem mono (h : Fit regex F ns n) (hms : ∀ g ∈ ms, g ∈ ns) (hm : m ≤ n) : Fit regex F ms m :=
  ⟨fun g hg => h.isWellFormed g (hms g hg), fun g hg => h.isReadableAtom g (hms g hg),
    fun hF g hg => h.not_isFunction hF g (hms g hg), Nat.le_trans hm h.depth_le⟩

/-- The first node is itself well-formed and readable. -/
theorem self (h : Fit regex F (f :: ns) n) : f.IsWellFormed ∧ f.IsReadableAtom regex :=
  ⟨h.isWellFormed f List.mem_cons_self, h.isReadableAtom f List.mem_cons_self⟩

/-- What is inside of a node stands one level further down. -/
theorem down (h : Fit regex F (f :: ns) (n + 1)) :
    (f.IsWellFormed ∧ f.IsReadableAtom regex) ∧ ∃ G : Frame, F = G.up ∧ Fit regex G ns n := by
  have hdepth := h.depth_le
  have hpos : F.remaining - 1 + 1 = F.remaining := by omega
  refine ⟨h.self, { F with remaining := F.remaining - 1 }, by rw [Frame.up, hpos], ?_⟩
  have hinside := h.mono (fun g hg => List.mem_cons_of_mem f hg) (Nat.le_succ n)
  exact ⟨hinside.isWellFormed, hinside.isReadableAtom, hinside.not_isFunction,
    Nat.le_sub_one_of_lt hdepth⟩

/-- In a function literal no other one may stand. -/
theorem inFunction (h : Fit regex F ns n) (hnot : ∀ g ∈ ns, ¬ g.IsFunction) :
    Fit regex { F with inFunction := true } ns n :=
  ⟨h.isWellFormed, h.isReadableAtom, fun _ => hnot, h.depth_le⟩

/-- The elements of a conditional count one more around them. -/
theorem inConditional (h : Fit regex F ns n) :
    Fit regex { F with conditionals := F.conditionals + 1 } ns n :=
  ⟨h.isWellFormed, h.isReadableAtom, h.not_isFunction, h.depth_le⟩

end Fit

end Form

variable {regex : RegexEngine}

/-- A readable number is normal, and its text reads as a number that equals it. -/
theorem Number.isNormal_of_isReadable {n : Number} (h : n.IsReadable) :
    n.IsNormal ∧ n.isFaithful = true := by
  cases n with
  | int | big => exact ⟨trivial, rfl⟩
  | ratio q => exact ⟨h, rfl⟩
  | float x =>
    refine ⟨trivial, ?_⟩
    rw [isFaithful, h]
    rfl
  | decimal d =>
    obtain ⟨hscale, hdigits⟩ := h
    constructor
    · simp only [IsNormal, Numeral.fitsInt64, Bool.and_eq_true, decide_eq_true_eq]
      omega
    · have hfits (hneg : d.scale < 0) : Numeral.fitsInt64 d.textExponent = true := by
        rw [Decimal.textExponent, Numeral.fitsInt64, Bool.and_eq_true, decide_eq_true_eq,
          decide_eq_true_eq]
        omega
      rw [isFaithful, Decimal.overflows, Bool.not_and, Bool.or_eq_true, Bool.not_not]
      exact (Decidable.em (d.scale < 0)).symm.imp (by simp [·]) hfits

namespace Form

/-- Whether nothing at a node makes a form unfaithful. -/
def isFaithfulAt : Form → Bool
  | .number n => n.isFaithful
  | .keyword k => k.isFaithful
  | .tagged tag _ => tag.isTag
  | .marked mark f => !(mark == .unquote && f.isDeref)
  | _ => true

mutual

/-- A form is faithful if it is at all of its nodes. -/
theorem isFaithful_eq_all : ∀ f : Form, f.isFaithful = f.nodes.all isFaithfulAt
  | .tagged _ f | .marked _ f => by
    simp only [isFaithful, nodes, List.all_cons, isFaithfulAt, isFaithful_eq_all f]
  | .annotated _ note object _ => by
    simp only [isFaithful, nodes, List.all_cons, List.all_append, isFaithfulAt, Bool.true_and,
      isFaithful_eq_all note, isFaithful_eq_all object]
  | .backquoted f _ => by
    simp only [isFaithful, nodes, List.all_cons, isFaithfulAt, Bool.true_and, isFaithful_eq_all f]
  | .list _ es | .group _ es => by
    simp only [isFaithful, nodes, List.all_cons, isFaithfulAt, Bool.true_and, allFaithful_eq_all es]
  | .nil | .bool _ | .number _ | .char _ | .string _ | .symbol _ | .keyword _ | .pattern _ _
  | .charLiteral _ _ | .arg _ | .comment _ _ | .comma => by
    simp only [isFaithful, nodes, List.all_cons, isFaithfulAt, List.all_nil, Bool.and_true]

theorem allFaithful_eq_all : ∀ es : List Form, allFaithful es = (nodesOf es).all isFaithfulAt
  | [] => rfl
  | f :: rest => by
    simp only [allFaithful, nodesOf, List.all_append, isFaithful_eq_all f, allFaithful_eq_all rest]

end

/-- The atoms of a readable form are faithful, so that only an unquote can fail to be. -/
theorem isFaithfulAt_iff {f : Form} (h : f.IsReadableAtom regex) :
    f.isFaithfulAt = true ↔ ∀ g, f = .marked .unquote g → g.isDeref = false := by
  have hatom (hf : f.isFaithfulAt = true) (hmark : ∀ g, f ≠ .marked .unquote g) :
      f.isFaithfulAt = true ↔ ∀ g, f = .marked .unquote g → g.isDeref = false :=
    iff_of_true hf fun g hg => absurd hg (hmark g)
  cases f with
  | number n => exact hatom (Number.isNormal_of_isReadable h).2 nofun
  | keyword k =>
    refine hatom ?_ nofun
    rw [isFaithfulAt, Keyword.isFaithful, h.2]
    exact beq_self_eq_true k
  | tagged tag f =>
    refine hatom ?_ nofun
    obtain ⟨name, -, -, hname, rfl, -⟩ := Level.exists_checked_of_read? h.2
    rw [isFaithfulAt]
    rcases hname with rfl | rfl <;> decide
  | marked mark f =>
    by_cases hmark : mark = .unquote
    · subst hmark
      simp [isFaithfulAt]
    · refine hatom ?_ fun g hg => hmark (Form.marked.inj hg).1
      simp [isFaithfulAt, hmark]
  | _ => exact hatom rfl nofun

/-- A readable form is faithful if it has no unquote right before a dereference. -/
theorem IsReadable.isFaithful_iff {f : Form} (h : f.IsReadable regex) :
    f.isFaithful = true ↔ ∀ g, .marked .unquote g ∈ f.nodes → g.isDeref = false := by
  rw [isFaithful_eq_all, List.all_eq_true]
  constructor
  · exact fun hall g hg => (isFaithfulAt_iff (h.isReadableAtom _ hg)).1 (hall _ hg) g rfl
  · intro hall g hg
    refine (isFaithfulAt_iff (h.isReadableAtom g hg)).2 fun f hf => hall f ?_
    rwa [← hf]

/-! ### Texts -/

/-- Whether a node is a number whose text has an exponent that needs more than 64 bits. -/
def overflowsAt : Form → Bool
  | .number n => n.overflows
  | _ => false

/-- The pieces of a string have a text. -/
theorem any_overflows_stringPieces (s : String) : (stringPieces s).any Piece.overflows = false := by
  rw [stringPieces, List.any_map, List.any_eq_false]
  rintro (⟨start, stop⟩ | e) - <;> exact Bool.false_ne_true

mutual

/-- The exponents in the text of a form are those of its numbers. -/
theorem overflows_eq_any : ∀ f : Form, f.pieces.any Piece.overflows = f.nodes.any overflowsAt
  | .tagged _ f | .marked _ f | .backquoted f _ => by
    simp [pieces, nodes, Piece.overflows, overflowsAt, overflows_eq_any f]
  | .annotated _ note object _ => by
    simp [pieces, nodes, Piece.overflows, overflowsAt, overflows_eq_any note,
      overflows_eq_any object]
  | .list _ es => by
    simp [pieces, nodes, Piece.overflows, overflowsAt, overflowsWithin_eq_any none es]
  | .group g es => by
    rw [pieces]
    rcases g.delimiter? with - | d
    · simpa [nodes, overflowsAt] using overflowsByLine_eq_any true es
    · simp [nodes, Piece.overflows, overflowsAt, overflowsWithin_eq_any none es]
  | .string s => by simp [pieces, nodes, Piece.overflows, overflowsAt, any_overflows_stringPieces]
  | .number _ => rfl
  | .arg ref => by cases ref <;> rfl
  | .nil | .bool _ | .char _ | .symbol _ | .keyword _ | .pattern _ _ | .charLiteral _ _
  | .comment _ _ | .comma => rfl

theorem overflowsWithin_eq_any : ∀ (before : Option Form) (es : List Form),
    (piecesWithin before es).any Piece.overflows = (nodesOf es).any overflowsAt
  | _, [] => rfl
  | _, f :: rest => by
    simp [piecesWithin, nodesOf, Piece.overflows, overflows_eq_any f,
      overflowsWithin_eq_any (some f) rest]

theorem overflowsByLine_eq_any : ∀ (first : Bool) (es : List Form),
    (piecesByLine first es).any Piece.overflows = (nodesOf es).any overflowsAt
  | _, [] => rfl
  | first, f :: rest => by
    cases first <;> simp [piecesByLine, nodesOf, Piece.overflows, overflows_eq_any f,
      overflowsByLine_eq_any false rest]

end

/-- A form has a text if none of its numbers overflows. -/
theorem overflows_eq_false_iff {f : Form} :
    f.overflows = false ↔ ∀ g ∈ f.nodes, g.overflowsAt = false := by
  rw [overflows, overflows_eq_any, List.any_eq_false]
  exact forall₂_congr fun g _ => Bool.not_eq_true _ ▸ Iff.rfl

/-- The text of a faithful number has no exponent that overflows. -/
theorem overflowsAt_eq_false {f : Form} (h : ∀ n, f = .number n → n.isFaithful = true) :
    f.overflowsAt = false := by
  cases f with
  | number n =>
    cases n with
    | decimal d => exact Bool.not_eq_true' _ ▸ h _ rfl
    | _ => rfl
  | _ => rfl

/-- A faithful form has a text. -/
theorem overflows_of_isFaithful {f : Form} (h : f.isFaithful = true) : f.overflows = false := by
  rw [isFaithful_eq_all, List.all_eq_true] at h
  refine overflows_eq_false_iff.2 fun g hg => overflowsAt_eq_false fun n hn => ?_
  subst hn
  exact h _ hg

/-- So has a readable form: its decimals leave room for their exponents. -/
theorem IsReadable.overflows_eq_false {f : Form} (h : f.IsReadable regex) :
    f.overflows = false := by
  refine overflows_eq_false_iff.2 fun g hg => overflowsAt_eq_false fun n hn => ?_
  subst hn
  exact (Number.isNormal_of_isReadable (h.isReadableAtom _ hg)).2

end Form

section

variable {options : Options}

/-- The tags of the default readers are symbols, and the readers are asked. -/
theorem legal_tagged_of_read? {F : Frame} {tag : Symbol} {text : String}
    (hmode : options.conditionals ≠ .preserve)
    (h : DataReaders.standard.read? tag (.string text) = some (.ok (.tagged tag (.string text)))) :
    Legal regex options F.up (.tagged tag (.string text)) := by
  obtain ⟨name, -, -, hname, rfl, -⟩ := Level.exists_checked_of_read? h
  have htag : Legal regex options F (.symbol (.simple name)) := by
    rcases hname with rfl | rfl
    · exact .symbol F (by decide) rfl
    · exact .symbol F (by decide) rfl
  have hdot : (Symbol.simple name).name.toList.contains '.' = false := by
    rcases hname with rfl | rfl <;> decide
  refine .tagged htag (.string F text) ?_
  have hread : (Setting.standard regex options).host.dataReaders.read? (.simple name)
      (.string text) = some (.ok (.tagged (.simple name) (.string text))) := h
  rw [Level.interpretTagged, if_neg (by simpa using fun _ => hmode), hdot,
    if_neg (by decide), hread]

/-- Whether a form is a splicing unquote shows in its core. -/
theorem Form.core_ne_unquoteSplicing {f : Form}
    (h : ∀ g, f ≠ .marked .unquoteSplicing g) (g : Form) :
    f.core ≠ .marked .unquoteSplicing g := by
  intro hcore
  cases f with
  | marked mark f =>
    obtain rfl : mark = .unquoteSplicing := (Form.marked.inj hcore).1
    exact h f rfl
  | _ => cases hcore

mutual

/-- The core of a form that could stand in a frame is legal there. -/
theorem Form.Fit.legal (hkeep : options.trivia = .keep) (hallow : options.conditionals = .allow) :
    ∀ {F : Frame} {f : Form}, Form.Fit regex F f.nodes f.depth → Legal regex options F f.core
  | F, .nil, h => .nil F
  | F, .bool b, h => .bool F b
  | F, .number n, h => .number F (Number.isNormal_of_isReadable h.self.2).1
  | F, .char c, h => h.self.1.elim
  | F, .string s, h => .string F s
  | F, .symbol s, h => .symbol F h.self.2.1 h.self.2.2
  | F, .keyword k, h => .keyword F h.self.2.1
  | F, .pattern source compiled, h => .pattern F h.self.2.1 h.self.2.2
  | F, .tagged tag f, h => by
    obtain ⟨⟨-, ⟨text, rfl⟩, hread⟩, G, rfl, -⟩ := h.down
    exact legal_tagged_of_read? (by rw [hallow]; decide) hread
  | F, .marked mark f, h => by
    obtain ⟨⟨hwell, -⟩, G, rfl, hG⟩ := h.down
    by_cases hmark : mark = .function
    -- the list of a function literal is legal inside of one, so that there must be none around it
    · subst hmark
      obtain ⟨⟨info, es, hf⟩, hnot⟩ := hwell
      have hout : G.inFunction = false := by
        rw [Bool.eq_false_iff]
        exact fun hF => h.not_isFunction hF _ List.mem_cons_self ⟨f, rfl⟩
      have hlist := (hG.inFunction hnot).legal hkeep hallow
      rcases G with ⟨_, conditionals, remaining⟩
      cases hout
      rw [hf] at hlist ⊢
      exact .function hlist
    · exact .marked hmark (fun _ => hkeep) (hG.legal hkeep hallow)
  | F, .annotated kind note object position, h => by
    obtain ⟨⟨⟨hnote, hobject⟩, -⟩, G, rfl, hG⟩ := h.down
    have hleft := hG.mono (fun g hg => List.mem_append_left _ hg) (Nat.le_max_left _ _)
    have hright := hG.mono (fun g hg => List.mem_append_right _ hg) (Nat.le_max_right _ _)
    refine .annotated none (hleft.legal hkeep hallow) (hright.legal hkeep hallow) ?_ ?_
    · rw [Form.noteKind?_core, noteKind?_of_isNote hnote]
    · rw [Form.isAnnotatable_core, hobject]
  | F, .backquoted f gensyms, h => by
    obtain ⟨⟨⟨hliteral, hsplicing⟩, -⟩, G, rfl, hG⟩ := h.down
    refine .backquoted [] (hG.legal hkeep hallow) ?_ (Form.core_ne_unquoteSplicing hsplicing)
    rw [Form.isLiteral_core, hliteral]
  | F, .charLiteral token c, h => .charLiteral F h.self.2 h.self.1
  | F, .arg ref, h => .arg F fun n hn => by
    subst hn
    exact h.self
  | F, .comment style text, h => by
    refine .comment F style (List.all_eq_true.2 fun c hc => ?_) hkeep
    obtain ⟨hfeed, hreturn⟩ := h.self.1 c hc
    simp [Scan.endsLine, hfeed, hreturn]
  | F, .comma, h => .comma F hkeep
  | F, .list info es, h => by
    obtain ⟨-, G, rfl, hG⟩ := h.down
    exact .list rfl (hG.legalAll hkeep hallow)
  | F, .group .vector es, h => by
    obtain ⟨-, G, rfl, hG⟩ := h.down
    exact .vector (hG.legalAll hkeep hallow)
  | F, .group .set es, h => by
    obtain ⟨-, G, rfl, hG⟩ := h.down
    exact .set (hG.legalAll hkeep hallow)
  | F, .group .map es, h => by
    obtain ⟨⟨heven, -⟩, G, rfl, hG⟩ := h.down
    refine .map (hG.legalAll hkeep hallow) ?_
    rw [Form.dataOf_coreAll, Form.length_coreAll]
    exact heven
  -- positions are no part of the core, so that any may be recorded
  | F, .group (.conditional splicing position) es, h => by
    obtain ⟨⟨hbranches, -⟩, G, rfl, hG⟩ := h.down
    refine .conditional none (by rw [hallow]; decide) (hG.inConditional.legalAll hkeep hallow) ?_
    rw [Form.conditionalFault?_coreAll]
    exact conditionalFault?_eq_none_iff.2 hbranches
  | F, .group .file es, h => h.self.1.elim

/-- Elements fit if each of them does. -/
theorem Form.Fit.legalAll (hkeep : options.trivia = .keep)
    (hallow : options.conditionals = .allow) :
    ∀ {F : Frame} {es : List Form}, Form.Fit regex F (Form.nodesOf es) (Form.depthOf es) →
      LegalAll regex options F (Form.coreAll es)
  | F, [], _ => .nil F
  | _, _ :: _, h =>
    have hhead := h.mono (fun _ hg => List.mem_append_left _ hg) (Nat.le_max_left _ _)
    have htail := h.mono (fun _ hg => List.mem_append_right _ hg) (Nat.le_max_right _ _)
    .cons (hhead.legal hkeep hallow) (htail.legalAll hkeep hallow)

end

end

end FormTree
