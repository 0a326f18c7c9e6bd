import FormTree.Proofs.Session.Discards
import FormTree.Proofs.Token.Stored
import Mathlib.Data.List.Basic

/-!
# Data

A form is **data** if it is built from constants, integers of 32 bits, strings, symbols and keywords
by sequences; symbols and keywords have to be what their text is read as. Strings are those that can
be written between quotes as they are, and no lone minus sign stands right before a literal, where
it would be taken for its sign.

The text of data is read as a form that says the same.
-/

namespace FormTree

-- Powers are the core library's here, also below a library with another instance of them.
attribute [local instance (high)] instPowNat

variable {regex : RegexEngine}

namespace Form

/-- Whether a form is the symbol of a lone minus sign. -/
def isMinus : Form → Bool
  | .symbol s => s.toText == "-"
  | _ => false

/-- Whether a form begins with a literal: strings do, and integers without a sign. -/
def beginsWithLiteral : Form → Bool
  | .string _ => true
  | .number n => n.toInt?.any (0 ≤ ·)
  | _ => false

/-- Whether a form may stand before another one: a lone minus sign before a literal is taken for
the sign of it. -/
def MayPrecede (f g : Form) : Prop := f.isMinus = true → g.beginsWithLiteral = false

instance : DecidableRel MayPrecede := fun f g =>
  inferInstanceAs (Decidable (f.isMinus = true → g.beginsWithLiteral = false))

/-- Whether a form has a text that is read as the form. -/
def ReadsAsItself (regex : RegexEngine) (f : Form) : Prop :=
  ∃ text, f.emit? = some text ∧ ofText? regex text .standard = .ok f

/-- The forms that are data. -/
inductive IsData (regex : RegexEngine) : Form → Prop
  | nil : IsData regex .nil
  | bool (b : Bool) : IsData regex (.bool b)
  | integer {n : Int} (hle : -(2 ^ (31 : Nat)) ≤ n) (hlt : n < 2 ^ (31 : Nat)) :
      IsData regex (.ofInt n)
  | string {text : String} (h : ∀ c ∈ text.toList, c ≠ '"' ∧ c ≠ '\\' ∧ c ≠ '\r') :
    IsData regex (.string text)
  | symbol {s : Symbol} (h : (Form.symbol s).ReadsAsItself regex) : IsData regex (.symbol s)
  | keyword {k : Keyword} (h : (Form.keyword k).ReadsAsItself regex) : IsData regex (.keyword k)
  | list (info : Metadata Form) {es : List Form} (hes : ∀ f ∈ es, IsData regex f)
    (hapart : es.IsChain MayPrecede) : IsData regex (.list info es)
  | vector {es : List Form} (hes : ∀ f ∈ es, IsData regex f) (hapart : es.IsChain MayPrecede) :
    IsData regex (.vector es)
  | map {es : List Form} (hes : ∀ f ∈ es, IsData regex f) (hapart : es.IsChain MayPrecede)
    (heven : es.length % 2 = 0) : IsData regex (.map es)
  | set {es : List Form} (hes : ∀ f ∈ es, IsData regex f) (hapart : es.IsChain MayPrecede) :
    IsData regex (.set es)

/-- A form is read from a text just if a session on the text reads it and then nothing more. -/
theorem ofText?_eq_ok {text : String} {options : Options} {f : Form} :
    ofText? regex text options = .ok f ↔
      ∃ q, Session.readOnly (.ofText regex text options) = .ok f q := by
  rw [ofText?]
  split <;> simp_all

end Form

/-! ### What is read as itself -/

section

variable {f : Form}

open Form

/-- What reads as itself is the first form of its text. -/
theorem Form.ReadsAsItself.exists_readOpt (h : f.ReadsAsItself regex) :
    ∃ text q, f.emit? = some text ∧
      Session.readOpt (.ofText regex text .standard) = .ok (some f) q := by
  obtain ⟨text, htext, hread⟩ := h
  obtain ⟨q, hq⟩ := ofText?_eq_ok.1 hread
  obtain ⟨r, hr, -⟩ := Session.readOpt_of_readOnly rfl hq
  exact ⟨text, r, htext, hr⟩

/-- What reads as itself is legal, as everything that is read. -/
theorem Form.ReadsAsItself.legal (h : f.ReadsAsItself regex) :
    Legal regex .standard Session.outermost f := by
  obtain ⟨text, q, -, hq⟩ := h.exists_readOpt
  exact (Session.legal_of_readOpt (Session.stands_ofText _ _ _) hq).1

/-- What is read as itself and equals itself is faithful. -/
theorem Form.ReadsAsItself.isFaithful (h : f.ReadsAsItself regex) (hsame : f.same f = true) :
    f.isFaithful = true := by
  have hread := Session.triple_readOpt (h.legal.readsBack rfl) [] rfl (Session.follows_nil f)
  obtain ⟨text, q, htext, hq⟩ := h.exists_readOpt
  have hbefore := Session.before_ofText_emit regex .standard htext
  rw [← List.append_nil f.chars] at hbefore
  by_contra hnot
  rw [Bool.eq_false_iff.2 hnot] at hread
  obtain ⟨g, hg, hother⟩ : ∃ g, some f = some g ∧ f.same g = false := hread.of_eq_ok hbefore hq
  cases hg
  rw [hsame] at hother
  cases hother

/-- The text of a legal symbol is a token, and it denotes the symbol. -/
theorem Legal.isPlain_symbol {regex : RegexEngine} {options : Options} {F : Frame} {s : Symbol}
    (h : Legal regex options F (.symbol s)) : Token.isPlain s.toText.toList = true ∧
      Token.interpret Resolver.standard s.toText = .ok (.symbol s) := by
  cases h with
  | symbol _ hplain hread => exact ⟨hplain, hread⟩

theorem Legal.isPlain_keyword {regex : RegexEngine} {options : Options} {F : Frame} {k : Keyword}
    (h : Legal regex options F (.keyword k)) : Token.isPlain k.toText.toList = true := by
  cases h with
  | keyword _ hplain => exact hplain

/-- What the text of a keyword denotes is seen from the form that it reads as. -/
theorem Keyword.interpret_of_readsAsItself {k : Keyword}
    (h : (Form.keyword k).ReadsAsItself regex) :
    Token.interpret Resolver.standard k.toText = .ok (.keyword k) := by
  have hfaithful : k.isFaithful = true := h.isFaithful (beq_self_eq_true k)
  rw [Keyword.isFaithful] at hfaithful
  split at hfaithful
  · rename_i l hl
    rw [hl, eq_of_beq hfaithful]
  · cases hfaithful

/-- A symbol that is read is split where its text is. -/
theorem Symbol.parse_toText_of_interpret {resolver : Resolver} {s : Symbol}
    (h : Token.interpret resolver s.toText = .ok (.symbol s)) : parse s.toText = s := by
  have hnamed : Token.named? resolver s.toText.toList = some (s.toForm false) :=
    Token.named?_of_interpret_toForm h
  obtain ⟨-, -, rest, htext, hs⟩ := Token.exists_eq_parse_of_named? hnamed nofun
  have htext : s.toText.toList = rest := htext
  rw [← htext, String.ofList_toList] at hs
  exact hs.symm

/-- So is a keyword, unless its namespace was filled in, which no text of a keyword shows. -/
theorem Keyword.parse_toText_of_interpret {k : Keyword}
    (h : Token.interpret Resolver.standard k.toText = .ok (.keyword k)) :
    parse k.symbol.toText = k := by
  have hcolon : k.toText.toList = ':' :: k.symbol.toText.toList := by
    simp [Keyword.toText]
  have hnamed : Token.named? Resolver.standard k.toText.toList = some (k.symbol.toForm true) :=
    Token.named?_of_interpret_toForm h
  rw [Token.named?.eq_def] at hnamed
  obtain ⟨-, hnamed⟩ := Option.ite_none_right_eq_some.1 hnamed
  split at hnamed
  -- two colons: the text of a keyword that was resolved begins with its namespace
  · rename_i rest hrest
    obtain ⟨l, hl, hk⟩ := Option.map_eq_some_iff.1 hnamed
    cases hk
    rw [Token.toText_of_resolved? hl] at hrest
    simp at hrest
  · rename_i rest hrest
    rw [hcolon] at hrest
    cases hrest
    rw [String.ofList_toList] at hnamed
    exact Form.keyword.inj (Option.some.inj hnamed)
  · cases hnamed

end

/-! ### Reading -/

namespace Form

theorem isFaithful_ofInt (n : Int) : (ofInt n).isFaithful = true := by
  rw [ofInt, Number.ofInt]
  split <;> rfl

/-- Elements with legal cores are legal together. -/
theorem legalAll_coreAll {options : Options} {F : Frame} {es : List Form}
    (h : ∀ f ∈ es, Legal regex options F f.core) : LegalAll regex options F (coreAll es) := by
  induction es with
  | nil => exact .nil F
  | cons f rest ih =>
    exact .cons (h f List.mem_cons_self) (ih fun g hg => h g (List.mem_cons_of_mem f hg))

theorem depth_le_depthOf {es : List Form} {f : Form} (hf : f ∈ es) : f.depth ≤ depthOf es := by
  induction es with
  | nil => cases hf
  | cons g rest ih =>
    rcases List.mem_cons.1 hf with rfl | hf
    · exact Nat.le_max_left _ _
    · exact Nat.le_trans (ih hf) (Nat.le_max_right _ _)

/-- Data is no trivia. -/
theorem IsData.isTrivia_eq_false {f : Form} (h : f.IsData regex) : f.isTrivia = false := by
  cases h <;> rfl

/-- Nothing in data has a text that reads as something else. -/
theorem IsData.isFaithful {f : Form} (h : f.IsData regex) : f.isFaithful = true := by
  induction h with
  | nil | bool | string => rfl
  | integer => exact isFaithful_ofInt _
  | symbol => rfl
  | keyword h => exact h.isFaithful (beq_self_eq_true _)
  | list _ _ _ ih | vector _ _ ih | map _ _ _ ih | set _ _ ih => exact allFaithful_iff.2 ih

/-- What is in a sequence that is legal stands one level further down. -/
theorem exists_up_of_depth {F : Frame} {es : List Form} (h : depthOf es + 1 ≤ F.remaining) :
    ∃ G : Frame, F = G.up ∧ ∀ f ∈ es, f.depth ≤ G.remaining := by
  refine ⟨{ F with remaining := F.remaining - 1 }, ?_, fun f hf => ?_⟩
  · rw [Frame.up, Nat.sub_add_cancel (by omega)]
  · have hle := depth_le_depthOf hf
    dsimp only
    omega

/-- Data that does not nest too deeply is legal, but for the metadata of its lists. -/
theorem IsData.legal_core {options : Options} {f : Form} (h : f.IsData regex) : ∀ {F : Frame},
    f.depth ≤ F.remaining → Legal regex options F f.core := by
  induction h with
  | nil => exact fun _ => .nil _
  | bool b => exact fun _ => .bool _ b
  | integer => exact fun _ => .number _ (Number.isNormal_ofInt _)
  | string => exact fun _ => .string _ _
  | symbol h =>
    obtain ⟨hplain, hread⟩ := h.legal.isPlain_symbol
    exact fun _ => .symbol _ hplain hread
  | keyword h => exact fun _ => .keyword _ h.legal.isPlain_keyword
  | list _ _ _ ih =>
    intro F hF
    obtain ⟨G, rfl, hG⟩ := exists_up_of_depth hF
    exact .list rfl (legalAll_coreAll fun f hf => ih f hf (hG f hf))
  | vector _ _ ih =>
    intro F hF
    obtain ⟨G, rfl, hG⟩ := exists_up_of_depth hF
    exact .vector (legalAll_coreAll fun f hf => ih f hf (hG f hf))
  | @map es hes _ heven ih =>
    intro F hF
    obtain ⟨G, rfl, hG⟩ := exists_up_of_depth hF
    refine .map (legalAll_coreAll fun f hf => ih f hf (hG f hf)) ?_
    -- data is no trivia, so that the number of elements is that of data
    have hdata : dataOf es = es := List.filter_eq_self.2
        fun f hf => by simp [(hes f hf).isTrivia_eq_false]
    rw [dataOf_coreAll, length_coreAll, hdata, heven]
  | set _ _ ih =>
    intro F hF
    obtain ⟨G, rfl, hG⟩ := exists_up_of_depth hF
    exact .set (legalAll_coreAll fun f hf => ih f hf (hG f hf))

/-- The text of data is read as a form that says the same. -/
theorem IsData.exists_ofText?_emit {f : Form} (h : f.IsData regex)
    (hdepth : f.depth ≤ nestingLimit) :
    ∃ text g, f.emit? = some text ∧ ofText? regex text .standard = .ok g ∧ f.same g = true ∧
      g.same f = true := by
  have hlegal : Legal regex .standard Session.outermost f.core := h.legal_core hdepth
  have hread := Session.triple_readOpt (hlegal.readsBack rfl) [] rfl (Session.follows_nil f.core)
  have hfaithful : f.core.isFaithful = true := (isFaithful_core f).trans h.isFaithful
  have hemit : f.emit? = some f.spelling :=
    emit?_eq_some_iff.2 ⟨overflows_of_isFaithful h.isFaithful, rfl⟩
  have hbefore := Session.before_ofText_emit regex .standard (f.emit?_core.trans hemit)
  rw [← List.append_nil f.core.chars] at hbefore
  rw [hfaithful] at hread
  obtain ⟨_, q, hq, ⟨g, rfl, hcore⟩, hend⟩ := hread.exists_ok hbefore
  have hfinish : Session.finish q = .ok () q := by
    rw [Session.finish, Cursor.nextForm_of_at_nil hend.pending_eq_nil]
  refine ⟨_, g, hemit, ofText?_eq_ok.2 ⟨q, Session.readOnly_of_readOpt hq hfinish⟩, ?_, ?_⟩
  · rw [← same_core]
    exact same_of_core_eq hfaithful hcore.symm
  · have hg : g.isFaithful = true := by
      rw [← isFaithful_core, hcore, isFaithful_core, hfaithful]
    rw [← same_core_right]
    exact same_of_core_eq hg hcore

/-! ### Examples of what is read as itself -/

/-- Whether a symbol reads as itself is decided by reading its text. -/
theorem readsAsItself_symbol {s : Symbol}
    (h : (match (Form.symbol s).emit?.map (ofText? regex · .standard) with
      | some (.ok (.symbol t)) => t == s
      | _ => false) = true) : (Form.symbol s).ReadsAsItself regex := by
  split at h
  · rename_i t hread
    obtain ⟨text, htext, hform⟩ := Option.map_eq_some_iff.1 hread
    rw [eq_of_beq h] at hform
    exact ⟨text, htext, hform⟩
  · cases h

theorem readsAsItself_keyword {k : Keyword}
    (h : (match (Form.keyword k).emit?.map (ofText? regex · .standard) with
      | some (.ok (.keyword l)) => l == k
      | _ => false) = true) : (Form.keyword k).ReadsAsItself regex := by
  split at h
  · rename_i l hread
    obtain ⟨text, htext, hform⟩ := Option.map_eq_some_iff.1 hread
    rw [eq_of_beq h] at hform
    exact ⟨text, htext, hform⟩
  · cases h

end Form

end FormTree
