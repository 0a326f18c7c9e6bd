import FormTree.Proofs.Form.Core
import FormTree.Proofs.Reader.Alike
import FormTree.Proofs.Reader.Compared

/-!
# Reading does not look at positions and generated names

With a blind host, alike states, scopes and forms correspond in the sense of a comparison: nothing
that a level looks at tells them apart, and what it builds from alike forms is alike. So readings
from alike states end in alike results, however deeply forms may nest.
-/

namespace FormTree

namespace Level

section

variable {f g : Form}

/-- Metadata that is only that of a position is not attached to a backquoted list. -/
theorem alike_backquote {ps qs : List (Symbol × Symbol)} (h : Alike f g)
    (hgensyms : List.Forall₂ GensymAlike ps qs) :
    ExceptRel CauseAlike Alike (backquote f ps) (backquote g qs) := by
  have hquoted : Alike (.backquoted f ps) (.backquoted g qs) := .backquoted h hgensyms
  cases h with
  | marked mark h =>
    cases mark <;> first | exact .error (.refl _) | exact .ok hquoted
  | list hinfo h =>
    cases hinfo with
    | refl m =>
      refine .ok ?_
      split
      · exact hquoted
      · exact .list (.refl _) (.cons (.refl _) (.cons hquoted (.cons (.refl _) .nil)))
    | position p q =>
      unfold backquote
      dsimp only
      rw [Metadata.isEmpty_withoutPosition_at?, Metadata.isEmpty_withoutPosition_at?]
      exact .ok hquoted
  | symbol s => exact .ok hquoted
  | _ => first | exact .ok (.refl _) | exact .ok hquoted

/-- Elements that correspond make pairs that do. -/
theorem forall₂_pairsOf : ∀ {es fs : List Form}, AlikeAll es fs →
    List.Forall₂ (fun p q => Alike p.1 q.1 ∧ Alike p.2 q.2) (Form.pairsOf es) (Form.pairsOf fs)
  | _, _, .nil => .nil
  | _, _, .cons _ .nil => .nil
  | _, _, .cons hf (.cons hg hs) => .cons ⟨hf, hg⟩ (forall₂_pairsOf hs)

/-- The entries of a record correspond, or the same key is refused. -/
theorem related_recordEntries {ps qs : List (Form × Form)}
    (h : List.Forall₂ (fun p q => Alike p.1 q.1 ∧ Alike p.2 q.2) ps qs) :
    ExceptRel Alike (List.Forall₂ EntryAlike) (recordEntries ps) (recordEntries qs) := by
  induction h with
  | nil => exact .ok .nil
  | @cons p q _ _ hpair _ ih =>
    obtain ⟨key, value⟩ := p
    obtain ⟨key', value'⟩ := q
    unfold recordEntries
    rw [hpair.1.toKeyword_eq]
    cases key'.toKeyword? with
    | none => exact .error hpair.1
    | some k =>
      dsimp only
      generalize recordEntries _ = r at ih
      generalize recordEntries _ = u at ih
      cases ih with
      | ok h => exact .ok (.cons ⟨rfl, hpair.2⟩ h)
      | error h => exact .error h

/-- A key is refused for what its text shows. -/
theorem invalidKey_core (key : Form) : invalidKey key.core = invalidKey key := by
  rw [invalidKey, Form.emit?_core, invalidKey]

/-- Alike answers of a record type are alike as outcomes of reading. -/
theorem related_mapError {r u : Except String Form} (h : ReplyAlike r u) :
    ExceptRel CauseAlike Alike (r.mapError .invalidRecord) (u.mapError .invalidRecord) := by
  cases h with
  | ok h => exact .ok h
  | error h => exact .error (h ▸ .refl _)

/-- A record type that does not look at positions makes records that correspond. -/
theorem alike_makeRecord {type : RecordType} (htype : type.IsBlind) (name : Symbol)
    (h : Alike f g) :
    ExceptRel CauseAlike Alike (makeRecord type name f) (makeRecord type name g) := by
  cases h with
  | @group a _ es fs hgroup h =>
    cases hgroup with
    | conditional => exact .error (.refl _)
    | refl =>
      cases a with
      | vector =>
        unfold makeRecord
        dsimp only
        rw [h.dataOf.length_eq]
        split
        · exact related_mapError (htype.ofFields name h.dataOf)
        · exact .error (.refl _)
      | map =>
        unfold makeRecord
        dsimp only
        have hentries := related_recordEntries (forall₂_pairsOf h.dataOf)
        generalize recordEntries (Form.pairsOf (Form.dataOf es)) = r at hentries
        generalize recordEntries (Form.pairsOf (Form.dataOf fs)) = u at hentries
        cases hentries with
        | ok h => exact related_mapError (htype.ofEntries name h)
        | error h =>
          -- alike keys have the same text, so that the messages are the same, or missing both
          have hcause := congrArg invalidKey h.core_eq
          rw [invalidKey_core, invalidKey_core] at hcause
          exact .error (hcause ▸ .refl _)
      | _ => exact .error (.refl _)
  | _ => exact .error (.refl _)

/-- A host that does not look at positions makes records that correspond, or refuses both. -/
theorem alike_record {host : Host} (hhost : host.IsBlind) (name : Symbol) (h : Alike f g) :
    ExceptRel CauseAlike Alike (record host name f) (record host name g) := by
  unfold record
  split
  · exact .error (.refl _)
  · split
    · exact .error (.refl _)
    · rename_i type htype
      exact alike_makeRecord (hhost.records name type htype) name h

/-- A tagged form is interpreted alike by a host that does not look at positions. -/
theorem alike_interpretTagged {setting : Setting} (hhost : setting.host.IsBlind)
    (inConditional : Bool) (tag : Symbol) (h : Alike f g) :
    ExceptRel CauseAlike Alike (interpretTagged setting inConditional tag f)
      (interpretTagged setting inConditional tag g) := by
  unfold interpretTagged
  split
  · exact .ok (.tagged tag h)
  · split
    · exact alike_record hhost tag h
    · have hreply := hhost.dataReaders tag h
      generalize setting.host.dataReaders.read? tag f = r at hreply
      generalize setting.host.dataReaders.read? tag g = u at hreply
      cases hreply with
      | none => exact .error (.refl _)
      | some hreply =>
        cases hreply with
        | ok h => exact .ok h
        | error h => exact .error (h ▸ .refl _)

/-- Positions are in both metadata or in neither. -/
theorem infoAlike_at? {p q : Option Position} (h : p.isSome = q.isSome) :
    InfoAlike (.at? p) (.at? q) := by
  match p, q, h with
  | none, none, _ => exact .refl _
  | some p, some q, _ => exact .position p q

end

end Level

/-- With a blind host all that readings from alike states depend on corresponds, and nothing is
excused. -/
def Read.Comparison.alike (setting : Setting) (hhost : setting.host.IsBlind) :
    Read.Comparison setting setting where
  toComparison := .alike CauseAlike .refl
  toMatches := .refl setting
  scopes := Scopes.Alike
  generated _ _ := True
  places p q := p.isSome = q.isSome
  gensyms := List.Forall₂ GensymAlike
  forms := Alike
  conditionals := .inl Iff.rfl
  patterns source := by
    cases setting.host.patterns source
    · exact .error rfl
    · exact .ok (.refl _)
  tagged tag hscopes h := by
    unfold Scopes.inConditional
    rw [hscopes.conditionals_eq]
    exact .ofExcept (Level.alike_interpretTagged hhost _ tag h)
  position h := h.isSome_position_eq
  places_none := rfl
  causes_line {p q} h := .endInSequence (by rw [Option.isSome_map, Option.isSome_map, h])
  enter scope h := h.enter scope
  inFunction_eq h := h.inFunction_eq
  takeGensyms {f g} h s t hst := by
    have hgensyms := hst.scopes.gensyms
    unfold Level.takeGensyms
    generalize s.scopes.gensyms = ps at hgensyms
    generalize t.scopes.gensyms = qs at hgensyms
    cases hgensyms with
    | nil => exact .ok .nil hst
    | cons hpairs houter =>
      have hscopes : Scopes.Alike { s.scopes with gensyms := [] :: _ }
          { t.scopes with gensyms := [] :: _ } :=
        ⟨.cons .nil houter, hst.scopes.inFunction_eq, hst.scopes.conditionals_eq⟩
      exact .ok (h.forall₂_collect hpairs) ⟨hst.cursor, hscopes, hst.remaining_eq, trivial⟩
  core_eq h := h.core_eq
  atom _ := .refl _
  marked mark _ h := .marked mark h
  annotated kind hnote hobject hplaces := .annotated kind hnote hobject hplaces
  backquote h hgensyms := Level.alike_backquote h hgensyms
  list {es fs p q} h hplaces := by
    have hes := AlikeAll.of_forall₂ h
    refine .list ?_ hes
    rw [hes.isEmpty_eq]
    split
    · exact .refl _
    · exact Level.infoAlike_at? hplaces
  group h _ := .group (.refl _) (.of_forall₂ h)
  conditional splicing h hplaces := .group (.conditional splicing hplaces) (.of_forall₂ h)

end FormTree
