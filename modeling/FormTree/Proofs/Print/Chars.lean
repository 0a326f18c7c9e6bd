import FormTree.Proofs.Print.Parts
import FormTree.Proofs.Print.Spelling

/-!
# The characters of a printed form

The spelling of a form as a list of characters, with one equation for each construct.
-/

namespace FormTree

/-- The characters of pieces, one after the other. -/
def charsOf (ps : List Piece) : List Char :=
  ps.flatMap (·.spelling.toList)

@[simp] theorem charsOf_nil : charsOf [] = [] := rfl

@[simp] theorem charsOf_cons (p : Piece) (ps : List Piece) :
    charsOf (p :: ps) = p.spelling.toList ++ charsOf ps := rfl

@[simp] theorem charsOf_append (ps qs : List Piece) :
    charsOf (ps ++ qs) = charsOf ps ++ charsOf qs :=
  List.flatMap_append

/-- How a character is written in a string. -/
def escaped (c : Char) : List Char :=
  match Escape.ofChar? c with
  | none => [c]
  | some e => e.text.toList

/-- The pieces of a string are its characters, one after the other as they are written. -/
theorem charsOf_stringPieces (s : String) :
    charsOf (stringPieces s) = s.toList.flatMap escaped := by
  refine flatMap_stringPieces (fun run hrun => ?_) (fun c e hc => ?_) s
  · have hself : run.flatMap escaped = run.flatMap fun c => [c] :=
      List.flatMap_congr fun c hc => by rw [escaped, hrun c hc]
    rw [hself, List.flatMap_singleton', Piece.spelling, String.toList_ofList]
  · rw [escaped, hc, Piece.spelling]

/-- The characters of an argument literal after its percent sign. -/
def ArgRef.token : ArgRef → List Char
  | .implicit => []
  | .rest => ['&']
  | .index n => Nat.toDigits 10 n

namespace Form

/-- The text of a form. -/
def chars (f : Form) : List Char := charsOf f.pieces

/-- The text of elements that follow the element `before`, with the separators around them. -/
def charsWithin (before : Option Form) (es : List Form) : List Char :=
  charsOf (piecesWithin before es)

/-- The text of forms on lines of their own. -/
def charsByLine (first : Bool) (es : List Form) : List Char :=
  charsOf (piecesByLine first es)

attribute [local simp] pieces piecesWithin piecesByLine Piece.spelling

/-- The spelling of a form is its characters. -/
theorem toList_spelling (f : Form) : f.spelling.toList = f.chars := by
  rw [spelling, String.toList_join, chars, charsOf, List.flatMap_map]

/-- The characters of a text are those of the form, which has a text if no exponent in it
overflows. -/
theorem emit?_eq_some_iff_chars {f : Form} {text : String} :
    f.emit? = some text ↔ f.overflows = false ∧ text.toList = f.chars := by
  rw [emit?_eq_some_iff, ← toList_spelling, ← String.toList_inj, eq_comm (a := text.toList)]

theorem charsWithin_nil (before : Option Form) :
    charsWithin before [] = (Separator.between before none).text.toList := by
  simp [charsWithin]

/-- Between two elements is the separator for these two. -/
theorem charsWithin_cons (before : Option Form) (f : Form) (rest : List Form) :
    charsWithin before (f :: rest) =
      (Separator.between before (some f)).text.toList ++
        (f.chars ++ charsWithin (some f) rest) := by
  simp [charsWithin, chars]

theorem charsByLine_true (f : Form) (rest : List Form) :
    charsByLine true (f :: rest) = f.chars ++ charsByLine false rest := by
  simp [charsByLine, chars]

theorem charsByLine_false (f : Form) (rest : List Form) :
    charsByLine false (f :: rest) = '\n' :: (f.chars ++ charsByLine false rest) := by
  simp [charsByLine, chars, Separator.text]

theorem chars_nil : nil.chars = ['n', 'i', 'l'] := by decide

theorem chars_bool (b : Bool) : (bool b).chars = (if b then "true" else "false").toList := by
  cases b <;> decide

theorem chars_number (n : Number) : (number n).chars = n.spelling.toList := by
  simp [chars]

/-- A string is spelled with its characters escaped, between quotes. -/
theorem chars_string (s : String) :
    (string s).chars = '"' :: (s.toList.flatMap escaped ++ ['"']) := by
  simp [chars, charsOf_stringPieces]

theorem chars_symbol (s : Symbol) : (symbol s).chars = s.toText.toList := by
  simp [chars]

theorem chars_keyword (k : Keyword) : (keyword k).chars = k.toText.toList := by
  simp [chars]

theorem chars_pattern (source : String) (compiled : Bool) :
    (pattern source compiled).chars = '#' :: '"' :: (source.toList ++ ['"']) := by
  simp [chars]

theorem chars_tagged (tag : Symbol) (f : Form) :
    (tagged tag f).chars = '#' :: (tag.toText.toList ++ ' ' :: f.chars) := by
  simp [chars, Separator.text]

theorem chars_marked (mark : Mark) (f : Form) :
    (marked mark f).chars = mark.text.toList ++ f.chars := by
  simp [chars]

theorem chars_annotated (kind : NoteKind) (note object : Form) (position : Option Position) :
    (annotated kind note object position).chars = '^' :: (note.chars ++ ' ' :: object.chars) := by
  simp [chars, Separator.text]

theorem chars_backquoted (f : Form) (gensyms : List (Symbol × Symbol)) :
    (backquoted f gensyms).chars = '\x60' :: f.chars := by
  simp [chars]

theorem chars_charLiteral (token : String) (c : Char) :
    (charLiteral token c).chars = '\\' :: token.toList := by
  simp [chars]

theorem chars_arg (ref : ArgRef) : (arg ref).chars = '%' :: ref.token := by
  cases ref with
  | implicit => decide
  | rest => decide
  | index n =>
    have hpercent : "%".toList = ['%'] := by decide
    simp [chars, ArgRef.pieces, ArgRef.token, hpercent]

theorem chars_comment (style : CommentStyle) (text : String) :
    (comment style text).chars = style.text.toList ++ text.toList := by
  simp [chars]

theorem chars_comma : comma.chars = [','] := by decide

theorem chars_list (info : Metadata Form) (es : List Form) :
    (list info es).chars = '(' :: (charsWithin none es ++ [')']) := by
  simp [chars, charsWithin, Delimiter.opening, Delimiter.closing]

/-- The elements of a sequence are spelled between its delimiters. -/
theorem chars_group {g : Group} {d : Delimiter} (h : g.delimiter? = some d) (es : List Form) :
    (group g es).chars = d.opening.toList ++ (charsWithin none es ++ d.closing.toList) := by
  simp [chars, charsWithin, h]

/-- The forms of a file are spelled line by line. -/
theorem chars_file (es : List Form) : (group .file es).chars = charsByLine true es := by
  simp [chars, charsByLine, Group.delimiter?]

end Form

end FormTree
