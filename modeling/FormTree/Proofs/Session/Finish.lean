import FormTree.Proofs.Session.Place
import FormTree.Proofs.Source.Deliver

/-!
# Checking for the end of a text

The check for the end of a text takes what it looks at. Where only blanks are left nothing changes
by it. Where a form begins it fails and has passed over the first character of that form, so that
reading goes on behind it.
-/

namespace FormTree.Session

open Cursor

variable {p q : Session} {k : Cursor}

/-- What is made of the answer of a call depends on that answer. -/
theorem map_congr {α β : Type} {f : α → β} {m : Call α} (h : m p = m q) :
    (f <$> m) p = (f <$> m) q := by
  rw [map_apply, map_apply, h]

/-! ### Where only blanks are left -/

/-- Where no form is ahead a session reads none, and moves behind the blanks. -/
theorem readOpt_of_nextForm_none (hpolicy : p.host.evaluation ≠ .unknown)
    (hk : nextForm p.state.cursor = .ok none k) :
    readOpt p = .ok none { p with state.cursor := k } := by
  have hscan : Read.scan nextForm p.state = .ok none { p.state with cursor := k } := by
    unfold Read.scan
    rw [hk]
  have hread : p.reader.run p.setting none p.state =
      .ok .endOfInput { p.state with cursor := k } := by
    change Level.read _ _ _ _ = _
    rw [Level.read.eq_def, hscan]
  rw [readOpt, if_neg hpolicy, hread]

/-- Passing over the blanks at the end of the input changes no answer. -/
theorem call_of_nextForm_none (hpolicy : p.host.evaluation ≠ .unknown)
    (hk : nextForm p.state.cursor = .ok none k) (r : Request) :
    call r { p with state.cursor := k } = call r p := by
  have hend : nextForm k = .ok none k := nextForm_of_at_nil (pending_of_nextForm_none hk)
  have hread : readOpt { p with state.cursor := k } = readOpt p := by
    rw [readOpt_of_nextForm_none hpolicy hk]
    exact readOpt_of_nextForm_none hpolicy hend
  have hfinish : finish { p with state.cursor := k } = finish p := by
    unfold finish
    dsimp only
    rw [hend, hk]
  cases r with
  | read => exact map_congr (by rw [read_eq, read_eq, hread])
  | readOpt => exact hread
  | readToEnd => exact map_congr (map_congr (readAll_congr hread))
  | finish => exact map_congr hfinish

theorem answers_of_nextForm_none (hpolicy : p.host.evaluation ≠ .unknown)
    (hk : nextForm p.state.cursor = .ok none k) (rs : List Request) :
    ({ p with state.cursor := k } : Session).answers rs = p.answers rs := by
  cases rs with
  | nil => rfl
  | cons r rs => rw [answers, answers, call_of_nextForm_none hpolicy hk r]

/-! ### Where a form begins -/

/-- **The check for the end of a text takes what it looks at.** After any calls a session on a text
goes on as one on what is left of it. If that is blank, the check succeeds and changes nothing. If
not, the check fails, and the session goes on as one on what is left behind the first character that
is no blank. -/
theorem answers_of_finish (regex : RegexEngine) (text : String) (options : Options)
    (rs later : List Request) :
    let p := (ofText regex text options).after rs
    ∃ left : List Char, p.state.cursor.pending = left.map .ok ∧
      AnswersAlike ((ofText regex (String.ofList left) options).answers later) (p.answers later) ∧
      match left.dropWhile Text.isBlank with
      | [] => ∃ q, finish p = .ok () q ∧ q.answers later = p.answers later
      | _ :: rest => ∃ position q, finish p = .error ⟨.trailingCharacters, position⟩ q ∧
          AnswersAlike ((ofText regex (String.ofList rest) options).answers later)
            (q.answers later) := by
  intro p
  obtain ⟨here, -, hhere⟩ : StandsInText (.ofText text) p :=
    standsInText_after rs (standsIn_ofText text options (.standard regex))
  have hstands : p.state.cursor.StandsAt here := hhere.2
  have hframe : (ofText regex text options).SameFrame p := sameFrame_after _ rs
  have hpolicy : p.host.evaluation ≠ .unknown := by
    rw [hframe.host_eq]
    exact Host.evaluation_standard_ne_unknown regex
  refine ⟨here.ahead, hstands.pending_eq,
    (ofText_alike hframe hstands.pending_eq hstands.tracked).answersAlike later, ?_⟩
  -- what is left is blanks, and then nothing or the character that `finish` stumbles over
  have hblanks : (here.ahead.takeWhile Text.isBlank).all Text.isBlank = true := List.all_takeWhile
  have hat : p.state.cursor.At
      (here.ahead.takeWhile Text.isBlank ++ here.ahead.dropWhile Text.isBlank) := by
    rw [List.takeWhile_append_dropWhile]
    exact hstands.pending_eq
  split <;> rename_i hrest <;> rw [hrest] at hat
  · rw [List.append_nil] at hat
    obtain ⟨k, hk, -⟩ := nextForm_of_at_blanks hblanks hat
    refine ⟨{ p with state.cursor := k }, ?_, answers_of_nextForm_none hpolicy hk later⟩
    rw [finish, hk]
  · rename_i c rest
    have hc : Text.isBlank c = false := by
      have hhead := List.head?_dropWhile_not Text.isBlank here.ahead
      rwa [hrest] at hhead
    obtain ⟨k, hk, hpast⟩ := nextForm_of_at hc hblanks hat
    have hfinish : finish p = fail .trailingCharacters { p with state.cursor := k } := by
      rw [finish, hk]
    -- that character is gone: the session stands behind it
    obtain ⟨there, -, hthere⟩ := standsInText_finish hhere
    rw [hfinish] at hthere
    have hbehind : (ofText regex text options).SameFrame { p with state.cursor := k } :=
      ⟨hframe.options_eq, hframe.host_eq, hframe.state⟩
    exact ⟨_, _, hfinish, (ofText_alike hbehind hpast.1 hthere.2.tracked).answersAlike later⟩

end FormTree.Session
