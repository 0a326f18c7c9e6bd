import FormTree.Proofs.Form.Unplaced
import FormTree.Proofs.Reader.Compared
import FormTree.Proofs.Reader.Complete

/-!
# Reading where positions are hidden

A source may hide its positions. Reading with the default host goes on as it does where they are
shown: it looks at no position, but records them in lists, annotations and conditionals, and names
the line of a sequence that is not closed. Without them it gives the same forms without positions.
-/

namespace FormTree

/-- A cause without the line where a sequence began. -/
def Cause.withoutLine : Cause → Cause
  | .endInSequence _ => .endInSequence none
  | e => e

/-- Only a cause that names a line changes when lines are left out. -/
theorem Cause.withoutLine_of_namesLine {e : Cause} (h : e.namesLine = false) :
    e.withoutLine = e := by
  cases e <;> first | rfl | cases h

/-- Hiding positions does not change what a cursor delivers. -/
theorem Cursor.next_untracked (k : Cursor) :
    next k.untracked =
      match next k with
      | .ok c l => .ok c l.untracked
      | .error e l => .error e l.untracked := by
  have hpending : k.untracked.pending = k.pending := rfl
  rw [next_eq, next_eq, hpending]
  rcases k.pending with - | ⟨fault | c, rest⟩ <;> rfl

/-- A cursor corresponds to itself with its positions hidden. -/
def Scan.Comparison.untracked : Scan.Comparison where
  cursors k l := l = k.untracked
  causes e f := f = e.withoutLine
  excused _ := False
  causes_refl h := (Cause.withoutLine_of_namesLine h).symm
  next_accords {k l} h := by
    subst h
    rw [Cursor.next_untracked, Cursor.next_eq]
    split
    · exact .ok rfl rfl
    · exact .ok rfl rfl
    · exact .error rfl rfl
  handBack {k k' l l' c} h hk hl d := by
    subst h
    rw [Cursor.next_untracked, hk] at hl
    cases hl
    rfl

namespace Level

variable {regex : RegexEngine} {options : Options} {f g : Form}

/-- A checked literal is a string, which has no position to drop. -/
theorem checked_unplaced (tag what : String) (valid : String → Bool) (f : Form) :
    DataReader.checked tag what valid f.unplaced =
      (DataReader.checked tag what valid f).map Form.unplaced := by
  cases f with
  | string s =>
    unfold DataReader.checked Form.unplaced
    dsimp only
    split <;> rfl
  | _ => rfl

/-- The standard data readers see no positions, and give none. -/
theorem read?_unplaced (tag : Symbol) (f : Form) :
    DataReaders.standard.read? tag f.unplaced =
      (DataReaders.standard.read? tag f).map (Except.map Form.unplaced) := by
  simp only [DataReaders.standard, DataReaders.empty, DataReaders.read?,
    List.lookup_nil, List.lookup_cons]
  split
  · rename_i reader hreader
    split at hreader
    · cases hreader
      exact congrArg some (checked_unplaced ..)
    · split at hreader <;> cases hreader
      exact congrArg some (checked_unplaced ..)
  · rfl

/-- The default host does not look at positions. -/
theorem interpretTagged_unplaced (inConditional : Bool) (tag : Symbol) (f : Form) :
    interpretTagged (.standard regex options) inConditional tag f.unplaced =
      (interpretTagged (.standard regex options) inConditional tag f).map Form.unplaced := by
  unfold interpretTagged
  split
  · rfl
  split
  · -- no record types are registered
    rfl
  · have hreaders : (Setting.standard regex options).host.dataReaders = .standard := rfl
    rw [hreaders, read?_unplaced]
    rcases DataReaders.standard.read? tag f with - | ⟨message | g⟩ <;> rfl

/-- No refusal of a tagged form names a line. -/
theorem namesLine_of_interpretTagged {inConditional : Bool} {tag : Symbol} {f : Form} {e : Cause}
    (h : interpretTagged (.standard regex options) inConditional tag f = .error e) :
    e.namesLine = false := by
  unfold interpretTagged at h
  split at h
  · cases h
  split at h
  · cases h
    rfl
  · split at h <;> cases h <;> rfl

/-- What stands after a backquote carries no metadata but its position. -/
theorem backquote_unplaced (h : f.IsPlain) (gensyms : List (Symbol × Symbol)) :
    backquote f.unplaced gensyms = (backquote f gensyms).map Form.unplaced := by
  cases f with
  | marked mark f => cases mark <;> rfl
  | list info es =>
    unfold backquote Form.unplaced
    dsimp only
    rw [h info es rfl]
    rfl
  | _ => rfl

end Level

/-- A form corresponds to itself without positions. Metadata at its top is that of a position. -/
def Form.HidesPlaces (f g : Form) : Prop := g = f.unplaced ∧ f.IsPlain

/-- Elements without positions are those that hide them, one by one. -/
theorem Form.unplacedAll_of_forall₂ {es fs : List Form} (h : List.Forall₂ HidesPlaces es fs) :
    fs = unplacedAll es := by
  induction h with
  | nil => rfl
  | cons hfg _ ih => rw [unplacedAll, hfg.1, ih]

/-- What is the same but for positions on both sides corresponds, if what is read carries no
metadata but its position and no failure names a line. -/
theorem Form.exceptRel_unplaced {r : Except Cause Form} (hok : ∀ f, r = .ok f → f.IsPlain)
    (herror : ∀ e, r = .error e → e.namesLine = false) :
    ExceptRel (fun e f => f = e.withoutLine) HidesPlaces r (r.map unplaced) := by
  rcases r with e | f
  · exact .error (Cause.withoutLine_of_namesLine (herror e rfl)).symm
  · exact .ok ⟨rfl, hok f rfl⟩

/-- All that a reading with the default host depends on corresponds to the same without
positions. -/
def Read.Comparison.untracked (regex : RegexEngine) (options : Options) :
    Read.Comparison (.standard regex options) (.standard regex options) where
  toComparison := .untracked
  toMatches := .refl (.standard regex options)
  scopes a b := b = a
  generated m n := n = m
  places _ q := q.isNone
  gensyms ps qs := qs = ps
  forms := Form.HidesPlaces
  conditionals := .inl Iff.rfl
  patterns source := by
    rcases hread : (Host.standard regex).patterns source with message | f
    · exact .error rfl
    · obtain rfl := Host.eq_pattern_of_compilePattern hread
      exact .ok ⟨rfl, Form.isPlain_of_isList rfl⟩
  tagged {a b f g} tag hscopes h := by
    rw [hscopes, h.1, Level.interpretTagged_unplaced]
    refine .ofExcept (Form.exceptRel_unplaced (fun f' hf => ?_) fun e he => ?_)
    · rw [(Level.interpretTagged_eq_ok hf).1]
      exact Form.isPlain_of_isList rfl
    · exact Level.namesLine_of_interpretTagged he
  position h := by
    rw [h]
    rfl
  places_none := rfl
  causes_line {p q} h := by
    rw [Option.isNone_iff_eq_none.1 h]
    rfl
  enter scope h := congrArg (Scopes.enter · scope) h
  inFunction_eq h := congrArg _ h.symm
  takeGensyms {f g} h s t hst := by
    unfold Level.takeGensyms
    rw [hst.scopes, hst.generated, h.1]
    simp only [Form.collect_unplaced]
    split
    · exact .ok rfl hst
    · exact .ok rfl ⟨hst.cursor, rfl, hst.remaining_eq, rfl⟩
  core_eq h := by rw [h.1, Form.core_unplaced]
  atom {f} h := by
    cases f <;> first | exact ⟨rfl, Form.isPlain_of_isList rfl⟩ | cases h
  marked mark _ h := ⟨by rw [h.1, Form.unplaced], Form.isPlain_of_isList rfl⟩
  annotated kind hnote hobject hplaces :=
    ⟨by rw [hnote.1, hobject.1, Option.isNone_iff_eq_none.1 hplaces, Form.unplaced],
      Form.isPlain_of_isList rfl⟩
  backquote {f g ps qs} h hgensyms := by
    rw [h.1, ← hgensyms, Level.backquote_unplaced h.2]
    refine Form.exceptRel_unplaced (fun _ => isPlain_of_backquote) fun e he => ?_
    unfold Level.backquote at he
    split at he <;> cases he
    rfl
  list {es fs p q} h hplaces := by
    rw [Form.unplacedAll_of_forall₂ h, Option.isNone_iff_eq_none.1 hplaces]
    refine ⟨?_, ?_⟩
    · rw [Form.unplaced]
      split <;> rfl
    · rintro _ _ ⟨⟩
      split
      · rfl
      · exact Metadata.isEmpty_withoutPosition_at? p
  group {es fs g} h hg := by
    rw [Form.unplacedAll_of_forall₂ h]
    refine ⟨?_, Form.isPlain_of_isList rfl⟩
    rcases hg with rfl | rfl | rfl | rfl <;> rfl
  conditional splicing h hplaces := by
    rw [Form.unplacedAll_of_forall₂ h, Option.isNone_iff_eq_none.1 hplaces]
    exact ⟨rfl, Form.isPlain_of_isList rfl⟩

end FormTree
