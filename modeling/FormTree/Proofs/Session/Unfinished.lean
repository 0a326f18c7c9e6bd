import FormTree.Proofs.Reader.Back
import FormTree.Proofs.Reader.Deliver
import FormTree.Proofs.Session.Legal
import FormTree.Proofs.Source.Unfinished

/-!
# Literals that are not finished

A string or a pattern that stops before its closing quote is refused for the end of the input, so
that a caller may try again with more of it. There is one exception: a string that stops behind one,
two or three digits of a code unit is refused as unreadable.
-/

namespace FormTree

open Cursor Read

variable {F : Frame} {cs : List Char} {e : Cause}

/-! ### One literal -/

theorem Read.fails_scan {α : Type} {m : Scan α} (h : Fails e (Cursor.At · cs) m) :
    Fails e (State.At · F cs) (scan m) := by
  intro s hs
  obtain ⟨k, hk⟩ := h s.cursor hs.2
  exact ⟨{ s with cursor := k }, by rw [scan, hk]⟩

namespace Level

variable {below : FormReader} {setting : Setting} {t : List Char}

/-- A level that stands at a form begins with its first character. -/
theorem triple_read_of_start {c : Char} {R : State → Prop} {total : Bool}
    (hc : Text.isBlank c = false)
    (h : Triple total (State.Past · F t) (start below setting c) fun step s =>
      (∃ f, step = .form f) ∧ R s) :
    Triple total (State.At · F (c :: t)) (read below setting none) fun _ s => R s := by
  rw [read_eq]
  refine .bind_eq (triple_nextForm_cons hc) ?_
  refine .ite_false (by simp) (h.bind fun step => .of_and ?_)
  rintro ⟨f, rfl⟩
  exact .pure fun _ hs => hs

/-- If that step fails, so does the level. -/
theorem fails_read_of_start {c : Char} (hc : Text.isBlank c = false)
    (h : Fails e (State.Past · F t) (start below setting c)) :
    Fails e (State.At · F (c :: t)) (read below setting none) := by
  rw [read_eq]
  refine .bind_eq (triple_nextForm_cons hc) ?_
  exact .ite_false (by simp) (.bind h)

/-- What is read at a quote is a string. -/
theorem takes_read_string :
    Triple false (State.At · F ('"' :: t)) (read below setting none) fun _ s => ∃ text cs rest,
      t = text ++ '"' :: rest ∧ Scan.IsBody text cs ∧ s.cursor.At rest := by
  refine triple_read_of_start (by decide) ?_
  refine .bind ((triple_scan_of (Scan.takes_string t)).pre fun _ hs => hs.at) fun text => ?_
  exact .pure fun s hs => ⟨⟨_, rfl⟩, hs.2⟩

/-- What is read at a hash sign and a quote is a pattern. -/
theorem takes_read_pattern :
    Triple false (State.At · F ('#' :: '"' :: t)) (read below setting none) fun _ s =>
      ∃ source rest : List Char, t = source ++ '"' :: rest ∧ Scan.isPatternBody source = true ∧
        s.cursor.At rest := by
  refine triple_read_of_start (by decide) ?_
  refine .bind_eq ((triple_nextCharacter '"').pre fun _ hs => hs.at) ?_
  refine .bind ((triple_scan_of (Scan.takes_pattern t)).pre fun _ hs => hs.at) fun source => ?_
  rcases setting.host.patterns source with message | f
  · exact .throw
  · exact .pure fun s hs => ⟨⟨f, rfl⟩, source.toList, hs.2⟩

/-- A level fails at a string as its body does. -/
theorem fails_read_string (h : Fails e (Cursor.At · t) Scan.stringBody) :
    Fails e (State.At · F ('"' :: t)) (read below setting none) := by
  refine fails_read_of_start (by decide) ?_
  exact .bind ((fails_scan (.map h _)).pre fun _ hs => hs.at)

theorem fails_read_pattern (h : Fails e (Cursor.At · t) Scan.patternBody) :
    Fails e (State.At · F ('#' :: '"' :: t)) (read below setting none) := by
  refine fails_read_of_start (by decide) ?_
  refine .bind_eq ((triple_nextCharacter '"').pre fun _ hs => hs.at) ?_
  exact .bind ((fails_scan (.map h _)).pre fun _ hs => hs.at)

end Level

/-! ### Sessions -/

namespace Session

variable {p q : Session}

/-- A session fails where its outermost level fails, and names the position. -/
theorem readOpt_eq_error (hpolicy : p.host.evaluation ≠ .unknown) {e : Cause} {s : State}
    (h : Level.read (.nesting p.state.remaining) p.setting none p.state = .error e s) :
    ∃ p', readOpt p = .error ⟨e, p'.position⟩ p' := by
  have hrun : p.reader.run p.setting none p.state = .error e s := h
  refine ⟨{ p with state := s }, ?_⟩
  rw [readOpt, if_neg hpolicy, hrun]
  rfl

/-- Where a form cannot be read, no call that reads gives one. -/
theorem exists_call_eq_error {e : ReadError} (h : readOpt p = .error e q) {r : Request}
    (hr : r ≠ .finish) : call r p = .error e q := by
  cases r with
  | read => exact map_eq_error.2 (by rw [read_eq, h])
  | readOpt => exact h
  | readToEnd => exact map_eq_error.2 (map_eq_error.2 (by rw [readAll.eq_def, h]))
  | finish => exact absurd rfl hr

/-- What a literal that is not finished is refused for, by the quote and what stands before it and
by the part of its text behind the quote. -/
def causeOfUnfinished (opening part : String) : Cause :=
  if opening = "\"" then Scan.causeAtEnd part.toList else .endInPattern

/-- What stands before the rest of a literal: a quote, or a hash sign and a quote. -/
def openings : List String := ["\"", "#\""]

/-- A part of a literal that is not all of it stops before the closing quote. -/
theorem exists_eq_append {part more body rest : List Char} {k : Cursor} (hmore : more ≠ [])
    (h : part ++ more = body ++ '"' :: rest) (hrest : k.At rest) (hend : k.size = 0) :
    ∃ left, body = part ++ left := by
  have hpending : k.pending = [] := List.eq_nil_of_length_eq_zero hend
  have hnil : rest = [] := List.map_eq_nil_iff.1 (hrest.symm.trans hpending)
  obtain ⟨left, last, rfl⟩ := (List.eq_nil_or_concat more).resolve_left hmore
  rw [hnil, List.concat_eq_append, ← List.append_assoc] at h
  exact ⟨left, (List.append_inj' h rfl).1.symm⟩

/-- A part of a literal that is read as a whole is refused. -/
theorem exists_readOpt_eq_error {opening part more : String} {f : Form} {p' : Session}
    (hopening : opening ∈ openings) (hmore : more ≠ "") (hsetting : q.setting = p.setting)
    (hp : p.state.cursor.At (opening ++ part ++ more).toList)
    (hq : q.state.cursor.At (opening ++ part).toList)
    (hread : readOpt p = .ok (some f) p') (hend : p'.size = 0) :
    ∃ q', readOpt q = .error ⟨causeOfUnfinished opening part, q'.position⟩ q' := by
  obtain ⟨hpolicy, s, hrun, rfl⟩ := exists_run_of_readOpt_some hread
  have hpolicy' : q.host.evaluation ≠ .unknown := by
    rwa [show q.host = p.host from congrArg Setting.host hsetting]
  have hmore' : more.toList ≠ [] := fun h => hmore (String.toList_eq_nil_iff.1 h)
  simp only [openings, List.mem_cons, List.not_mem_nil, or_false] at hopening
  -- In both cases the whole literal says what its body is, and a part of that body runs out.
  rcases hopening with rfl | rfl <;> rw [String.toList_append, String.toList_append] at hp <;>
    rw [String.toList_append] at hq
  · have hat : p.state.At p.state.frame ('"' :: (part.toList ++ more.toList)) := ⟨rfl, hp⟩
    obtain ⟨text, cs, rest, htext, hbody, hrest⟩ := Level.takes_read_string.of_eq_ok hat hrun
    obtain ⟨left, rfl⟩ := exists_eq_append hmore' htext hrest hend
    obtain ⟨s, hs⟩ := Level.fails_read_string hbody.fails_stringBody q.state
      (⟨rfl, hq⟩ : q.state.At q.state.frame ('"' :: part.toList))
    exact readOpt_eq_error hpolicy' hs
  · have hat : p.state.At p.state.frame ('#' :: '"' :: (part.toList ++ more.toList)) := ⟨rfl, hp⟩
    obtain ⟨source, rest, htext, hbody, hrest⟩ := Level.takes_read_pattern.of_eq_ok hat hrun
    obtain ⟨left, rfl⟩ := exists_eq_append hmore' htext hrest hend
    obtain ⟨s, hs⟩ := Level.fails_read_pattern (Scan.fails_patternBody hbody) q.state
      (⟨rfl, hq⟩ : q.state.At q.state.frame ('#' :: '"' :: part.toList))
    exact readOpt_eq_error hpolicy' hs

/-- The input ended too early, unless it did so inside the digits of a code unit. -/
theorem category_causeOfUnfinished {opening : String} (hopening : opening ∈ openings)
    (part : String) :
    (causeOfUnfinished opening part).category = .endOfInput ↔
      (opening = "\"" → Scan.shortUnit? part.toList = none) := by
  simp only [openings, List.mem_cons, List.not_mem_nil, or_false] at hopening
  rcases hopening with rfl | rfl
  · rw [causeOfUnfinished, if_pos rfl, Scan.causeAtEnd]
    rcases Scan.shortUnit? part.toList with - | count
    · exact iff_of_true rfl fun _ => rfl
    · exact iff_of_false (by simp [Cause.category]) (by simp)
  · exact iff_of_true rfl fun h => absurd h (by decide)

/-- **A literal that is not finished is an early end of the input.** Where a text is read as one
string or pattern, from its quote to its last character, no call reads a form from a proper part of
the text with the opening quote. The error says that the input ends too early, unless a string stops
inside of the code of a unit. -/
theorem category_of_unfinished {opening part more : String} {f : Form} {p' : Session}
    (hopening : opening ∈ openings) (hmore : more ≠ "") (hsetting : q.setting = p.setting)
    (hp : p.state.cursor.At (opening ++ part ++ more).toList)
    (hq : q.state.cursor.At (opening ++ part).toList)
    (hread : readOpt p = .ok (some f) p') (hend : p'.size = 0) :
    ∃ e q', (∀ r ≠ Request.finish, call r q = .error e q') ∧ readOnly q = .error e q' ∧
      e.cause = causeOfUnfinished opening part ∧
      (e.cause.category = .endOfInput ↔
        (opening = "\"" → Scan.shortUnit? part.toList = none)) := by
  obtain ⟨q', hq'⟩ := exists_readOpt_eq_error hopening hmore hsetting hp hq hread hend
  refine ⟨_, q', fun r hr => exists_call_eq_error hq' hr, ?_, rfl,
    category_causeOfUnfinished hopening part⟩
  rw [readOnly, bind_apply, read_eq, hq']

/-- A string that stops between the two surrogates of a pair, and one that stops inside of the
second. -/
theorem category_of_unfinished_pair :
    ∃ f p', readOpt (ofText .lenient "\"\\ud83d\\ude00\"" .standard) =
      .ok (some f) p' ∧ p'.size = 0 ∧
      (∃ e q', readOpt (ofText .lenient "\"\\ud83d\\" .standard) = .error e q' ∧
        e.cause.category = .endOfInput) ∧
      ∃ e q', readOpt (ofText .lenient "\"\\ud83d\\ude" .standard) = .error e q' ∧
        e.cause.category ≠ .endOfInput := by
  obtain ⟨f, p', hread⟩ :
      ∃ f p', readOpt (ofText .lenient "\"\\ud83d\\ude00\"" .standard) = .ok (some f) p' :=
    exists_of_gives_isSome (by decide +kernel)
  have hend : (stateOf (readOpt (ofText .lenient "\"\\ud83d\\ude00\"" .standard))).size = 0 := by
    decide +kernel
  rw [hread] at hend
  have hpart {part more : String} (hmore : more ≠ "")
      (hwhole : (Cursor.ofText "\"\\ud83d\\ude00\"").At ("\"" ++ part ++ more).toList) :=
    category_of_unfinished (p := ofText .lenient "\"\\ud83d\\ude00\"" .standard)
      (q := ofText .lenient ("\"" ++ part) .standard) (by decide : "\"" ∈ openings) hmore rfl hwhole
      (at_ofText _) hread hend
  have hbetween : (Cursor.ofText "\"\\ud83d\\ude00\"").At
      ("\"" ++ "\\ud83d\\" ++ "ude00\"").toList := rfl
  have hinside : (Cursor.ofText "\"\\ud83d\\ude00\"").At
      ("\"" ++ "\\ud83d\\ude" ++ "00\"").toList := rfl
  obtain ⟨e, q, hq, -, -, hcategory⟩ := hpart (by decide) hbetween
  obtain ⟨e', q', hq', -, -, hcategory'⟩ := hpart (by decide) hinside
  refine ⟨f, p', hread, hend, ⟨e, q, hq .readOpt (by decide), hcategory.2 fun _ => by decide⟩,
    e', q', hq' .readOpt (by decide), fun h => ?_⟩
  exact absurd (hcategory'.1 h rfl) (by decide)

end Session

end FormTree
