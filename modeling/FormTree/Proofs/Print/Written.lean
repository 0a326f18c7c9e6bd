import FormTree.Proofs.Print.Spelling
import FormTree.Proofs.Text.Utf8
import FormTree.Proofs.Triple

/-!
# Written forms

Writing a form is writing the texts of its pieces one after the other, whatever the writer. Together
they are the text of the form, and a writer that fails is asked for nothing more, so that a buffer
that is too small holds the beginning of the text. A text that cannot be computed ends writing as
well, with the texts before it written.
-/

namespace FormTree

/-! ### Writing text by text -/

section

variable {ε σ : Type} (w : Writer ε σ) {ps : List (Option String)}

/-- Texts are written in a row. -/
theorem writeParts_append (ps qs : List (Option String)) :
    writeParts w (ps ++ qs) = (do writeParts w ps; writeParts w qs) := by
  induction ps with
  | nil => simp [writeParts]
  | cons p ps ih => simp [writeParts, ih]

theorem writePieces_append (ps qs : List Piece) :
    writePieces w (ps ++ qs) = (do writePieces w ps; writePieces w qs) := by
  induction ps with
  | nil => simp [writePieces]
  | cons p ps ih => simp [writePieces, ih]

/-- Writing pieces is writing their texts. -/
theorem writePieces_eq (ps : List Piece) :
    writePieces w ps = writeParts w (ps.flatMap Piece.parts) := by
  induction ps with
  | nil => rfl
  | cons p ps ih => rw [writePieces, ih, Piece.write, List.flatMap_cons, writeParts_append]

namespace Form

mutual

/-- Writing a form is writing its pieces. -/
theorem write_eq_writePieces : ∀ f : Form, f.write w = writePieces w f.pieces
  | .tagged _ f | .marked _ f | .backquoted f _ => by
    simp only [write, pieces, writePieces, write_eq_writePieces f]
  | .annotated _ note object _ => by
    simp only [write, pieces, writePieces, writePieces_append, write_eq_writePieces note,
      write_eq_writePieces object]
  | .list _ es => by
    simp [write, pieces, writePieces, writePieces_append, writeWithin_eq_writePieces none es]
  | .group g es => by
    simp only [write, pieces]
    rcases g.delimiter? with - | d
    · exact writeByLine_eq_writePieces true es
    · simp [writePieces, writePieces_append, writeWithin_eq_writePieces none es]
  | .string s => by simp [write, pieces, writePieces, writePieces_append]
  | .arg _ => rfl
  | .comment _ _ => by simp [write, pieces, writePieces]
  | .nil | .bool _ | .number _ | .char _ | .symbol _ | .keyword _ | .pattern _ _
  | .charLiteral _ _ | .comma => by simp [write, pieces, writePieces]

theorem writeWithin_eq_writePieces : ∀ (before : Option Form) (es : List Form),
    writeWithin w before es = writePieces w (piecesWithin before es)
  | _, [] => by simp [writeWithin, piecesWithin, writePieces]
  | _, f :: rest => by
    simp [writeWithin, piecesWithin, writePieces, writePieces_append, write_eq_writePieces f,
      writeWithin_eq_writePieces (some f) rest]

theorem writeByLine_eq_writePieces : ∀ (first : Bool) (es : List Form),
    writeByLine w first es = writePieces w (piecesByLine first es)
  | _, [] => rfl
  | first, f :: rest => by
    rw [writeByLine, piecesByLine, write_eq_writePieces f, writeByLine_eq_writePieces false rest]
    cases first <;> simp [writePieces, writePieces_append]

end

/-! ### The texts of a form -/

/-- The texts that a form is written in. -/
def parts (f : Form) : List (Option String) := f.pieces.flatMap Piece.parts

/-- The texts that a form is written in make its text. -/
theorem join?_parts (f : Form) : Text.join? f.parts = f.emit? := by
  rw [parts, emit?, print?]
  induction f.pieces with
  | nil => rfl
  | cons p ps ih =>
    have htext : Text.join? p.parts = p.text? := rfl
    rw [List.flatMap_cons, Text.join?_append, htext, ih, List.map_cons]
    rcases p.text? with - | text <;> rfl

/-- **Writing is printing.** A form is written by writing the texts of its pieces. -/
theorem write_eq_writeParts (f : Form) : f.write w = writeParts w f.parts := by
  rw [write_eq_writePieces, writePieces_eq, parts]

end Form

/-! ### Failures -/

/-- A text that is written leaves the others to be written. -/
theorem writeParts_cons_of_ok {part : Option String} {s u : σ}
    (h : writePart w part s = .ok () u) : writeParts w (part :: ps) s = writeParts w ps u := by
  rw [writeParts, bind_apply, h]

/-- Nothing is written after a text that fails to be. -/
theorem writeParts_cons_of_error {part : Option String} {s u : σ} {e : WriteFault ε}
    (h : writePart w part s = .error e u) : writeParts w (part :: ps) s = .error e u := by
  rw [writeParts, bind_apply, h]

/-- Writing texts fails where writing one of them does, with what was written before it and nothing
written after it. -/
theorem writeParts_eq_error_iff {s t : σ} {e : WriteFault ε} :
    writeParts w ps s = .error e t ↔
      ∃ before part after u, ps = before ++ part :: after ∧ writeParts w before s = .ok () u ∧
        writePart w part u = .error e t := by
  -- the induction is for any state, as the first text may be written before one fails
  induction ps generalizing s with
  | nil => exact iff_of_false nofun (by simp)
  | cons part ps ih =>
    rcases hpart : writePart w part s with ⟨⟨⟩, u⟩ | ⟨d, u⟩
    · rw [writeParts_cons_of_ok w hpart, ih]
      constructor
      · rintro ⟨before, last, after, v, rfl, hbefore, hlast⟩
        refine ⟨part :: before, last, after, v, rfl, ?_, hlast⟩
        rw [writeParts_cons_of_ok w hpart, hbefore]
      · rintro ⟨- | ⟨first, before⟩, last, after, v, hps, hbefore, hlast⟩ <;> cases hps
        · cases hbefore
          rw [hpart] at hlast
          cases hlast
        · rw [writeParts_cons_of_ok w hpart] at hbefore
          exact ⟨before, last, after, v, rfl, hbefore, hlast⟩
    · rw [writeParts_cons_of_error w hpart]
      constructor
      · rintro ⟨⟩
        exact ⟨[], part, ps, s, rfl, rfl, hpart⟩
      · rintro ⟨- | ⟨first, before⟩, last, after, v, hps, hbefore, hlast⟩ <;> cases hps
        · cases hbefore
          exact hpart.symm.trans hlast
        · rw [writeParts_cons_of_error w hpart] at hbefore
          cases hbefore

end

/-! ### Buffers -/

/-- The texts before the first that cannot be computed, or all of them. -/
def Text.reached : List (Option String) → List String
  | [] => []
  | none :: _ => []
  | some text :: ps => text :: reached ps

/-- Where no text is missing all are reached, and they make the text; where one is missing, those
before the first missing one are reached. -/
theorem Text.reached_spec (ps : List (Option String)) :
    (∀ text, join? ps = some text → String.join (reached ps) = text) ∧
      (join? ps = none → ∃ after, ps = (reached ps).map some ++ none :: after) := by
  induction ps with
  | nil => exact ⟨fun _ h => Option.some.inj h, nofun⟩
  | cons p ps ih =>
    rcases p with - | first
    · exact ⟨nofun, fun _ => ⟨ps, rfl⟩⟩
    · obtain ⟨hsome, hnone⟩ := ih
      constructor
      · intro text h
        obtain ⟨rest, hrest, rfl⟩ := Option.map_eq_some_iff.1 h
        rw [reached, String.join_cons, hsome rest hrest]
      · intro h
        obtain ⟨after, hafter⟩ := hnone (Option.map_eq_none_iff.1 h)
        exact ⟨after, congrArg (some first :: ·) hafter⟩

namespace Buffer

/-- A buffer after bytes, or after as many of them as fit. -/
def filled (b : Buffer) (bytes : List UInt8) : Buffer :=
  ⟨b.room - bytes.length, b.written ++ bytes.take b.room⟩

/-- A buffer takes what fits of some bytes, and fails if that is not all. -/
theorem write_eq (bytes : List UInt8) (b : Buffer) :
    write bytes b =
      if b.room < bytes.length then .error .writeZero (b.filled bytes)
      else .ok () (b.filled bytes) := by
  rw [write, filled]
  split
  · rw [if_neg (by omega), List.take_of_length_le ‹_›]
  · rw [if_pos (by omega), Nat.sub_eq_zero_of_le (by omega)]

/-- A text is refused just if the room left is too small for all of it. -/
theorem writePart_some (text : String) (b : Buffer) :
    writePart write (some text) b =
      if b.room < text.toUTF8.toList.length then
        .error (.refused .writeZero) (b.filled text.toUTF8.toList)
      else .ok () (b.filled text.toUTF8.toList) := by
  unfold writePart
  dsimp only
  rw [write_eq]
  by_cases h : b.room < text.toUTF8.toList.length
  · rw [if_pos h, if_pos h]
  · rw [if_neg h, if_neg h]

/-- Filling a buffer in two steps is filling it in one. -/
theorem filled_append (b : Buffer) (xs ys : List UInt8) :
    b.filled (xs ++ ys) = (b.filled xs).filled ys := by
  simp [filled, List.take_append, Nat.sub_sub, ← Array.toList_inj]

/-- What comes after bytes that do not fit is not in the buffer. -/
theorem filled_append_of_lt {b : Buffer} {xs : List UInt8} (h : b.room < xs.length)
    (ys : List UInt8) : b.filled (xs ++ ys) = b.filled xs := by
  have hroom : b.room - (xs.length + ys.length) = b.room - xs.length := by omega
  rw [filled, filled, List.take_append_of_le_length (Nat.le_of_lt h), List.length_append, hroom]

theorem toUTF8_join_cons (text : String) (ts : List String) :
    (String.join (text :: ts)).toUTF8.toList =
      text.toUTF8.toList ++ (String.join ts).toUTF8.toList := by
  rw [Utf8.toList_toUTF8, Utf8.toList_toUTF8, Utf8.toList_toUTF8, String.join_cons,
    String.toList_append, List.flatMap_append]

theorem toUTF8_join_nil : (String.join []).toUTF8.toList = [] :=
  Utf8.toList_toUTF8 ""

theorem filled_nil (b : Buffer) : b.filled [] = b := by
  simp [filled]

/-- How writing into a buffer ends that has room for `room` bytes, of which `length` are reached:
whether it has no room for them, or else, if there is no text, that the overflow is reached. -/
def outcome (room length : Nat) (text : Option String) (b : Buffer) :
    EStateM.Result (WriteFault WriteError) Buffer Unit :=
  if room < length then .error (.refused .writeZero) b
  else if text.isNone then .error .overflow b
  else .ok () b

theorem outcome_none (room length : Nat) (b : Buffer) :
    outcome room length none b =
      .error (if room < length then .refused .writeZero else .overflow) b := by
  rw [outcome]
  split <;> rfl

/-- Texts are written into a buffer as the bytes are that are reached, all at once. -/
theorem writeParts_eq (ps : List (Option String)) (b : Buffer) :
    writeParts write ps b =
      outcome b.room (String.join (Text.reached ps)).toUTF8.toList.length (Text.join? ps)
        (b.filled (String.join (Text.reached ps)).toUTF8.toList) := by
  induction ps generalizing b with
  | nil => rw [Text.reached, toUTF8_join_nil, filled_nil]; rfl
  | cons p ps ih =>
    rcases p with - | text
    · rw [Text.reached, toUTF8_join_nil, filled_nil]
      rfl
    · have hpart := writePart_some text b
      rw [Text.reached, toUTF8_join_cons, List.length_append, Text.join?, outcome,
        Option.isNone_map]
      by_cases htext : b.room < text.toUTF8.toList.length
      · rw [if_pos htext] at hpart
        rw [writeParts_cons_of_error write hpart, if_pos (by omega), filled_append_of_lt htext]
      · have hroom : (b.filled text.toUTF8.toList).room = b.room - text.toUTF8.toList.length := rfl
        rw [if_neg htext] at hpart
        rw [writeParts_cons_of_ok write hpart, ih, outcome, hroom, ← filled_append]
        by_cases hrest :
            b.room < text.toUTF8.toList.length +
              (String.join (Text.reached ps)).toUTF8.toList.length
        · rw [if_pos hrest, if_pos (by omega)]
        · rw [if_neg hrest, if_neg (by omega)]

/-- A buffer of some capacity holds as many bytes from the beginning. -/
theorem toList_written_filled (n : Nat) (bytes : List UInt8) :
    ((Buffer.ofCapacity n).filled bytes).written.toList = bytes.take n := by
  simp [Buffer.filled, Buffer.ofCapacity]

end Buffer

namespace Form

/-- **Writing into bounded space.** A buffer takes the beginning of the text of a form, as many
bytes as it has room for, and there is a failure if and only if the text has more. A form without a
text is written up to its first exponent that overflows, in the same way; if the buffer has room for
that much, the overflow is what ends writing. With any writer, a form is written in texts that
together are its own; a failure is one at such a text, with those before it written and nothing
written after it. -/
theorem write_bounded (f : Form) (n : Nat) :
    (∀ text, f.emit? = some text → ∃ b : Buffer, b.written.toList = text.toUTF8.toList.take n ∧
      f.write Buffer.write (.ofCapacity n) =
        if n < text.toUTF8.toList.length then .error (.refused .writeZero) b else .ok () b) ∧
    (f.emit? = none → ∃ (before : List String) (after : List (Option String)) (b : Buffer),
      f.parts = before.map some ++ none :: after ∧
      b.written.toList = (String.join before).toUTF8.toList.take n ∧
      f.write Buffer.write (.ofCapacity n) =
        .error (if n < (String.join before).toUTF8.toList.length then .refused .writeZero
          else .overflow) b) ∧
    Text.join? f.parts = f.emit? ∧
    ∀ {ε σ : Type} (w : Writer ε σ), f.write w = writeParts w f.parts ∧
      ∀ (s t : σ) (e : WriteFault ε), f.write w s = .error e t ↔
        ∃ before part after u, f.parts = before ++ part :: after ∧
          writeParts w before s = .ok () u ∧ writePart w part u = .error e t := by
  -- A buffer sees only the parts up to the first that has no text.
  obtain ⟨hsome, hnone⟩ := Text.reached_spec f.parts
  rw [join?_parts] at hsome hnone
  refine ⟨fun text htext => ⟨_, Buffer.toList_written_filled n _, ?_⟩, fun htext => ?_,
    f.join?_parts, fun w => ⟨f.write_eq_writeParts w, fun s t e => ?_⟩⟩
  · rw [write_eq_writeParts, Buffer.writeParts_eq, hsome text htext, join?_parts, htext]
    rfl
  · obtain ⟨after, hafter⟩ := hnone htext
    refine ⟨_, after, _, hafter, Buffer.toList_written_filled n _, ?_⟩
    rw [write_eq_writeParts, Buffer.writeParts_eq, join?_parts, htext, Buffer.outcome_none]
    rfl
  · rw [write_eq_writeParts, writeParts_eq_error_iff]

/-- A character is cut off in the middle of its bytes. -/
example : (vector [ofInt 1, .symbol (.simple "\u00e9")]).printBounded 4 =
    ([0x5B, 0x31, 0x20, 0xC3], some (.refused .writeZero)) := by decide +kernel

end Form

end FormTree
