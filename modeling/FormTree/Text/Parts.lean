/-!
# Texts in parts

What is printed is put together from texts that are written one after the other. A text that cannot
be computed breaks the whole off; it stands as `none` among the others.
-/

namespace FormTree.Text

/-- The text that parts make together, if none of them breaks it off. -/
def join? : List (Option String) → Option String
  | [] => some ""
  | none :: _ => none
  | some text :: rest => (join? rest).map (text ++ ·)

/-- Parts that break nothing off make the text that they are together. -/
theorem join?_map_some (texts : List String) :
    join? (texts.map some) = some (String.join texts) := by
  induction texts with
  | nil => rfl
  | cons text texts ih => rw [List.map_cons, join?, ih, Option.map_some, String.join_cons]

/-- Texts are joined part by part, and one part without a text leaves the whole without one. -/
theorem join?_append (ps qs : List (Option String)) :
    join? (ps ++ qs) = (join? ps).bind fun text => (join? qs).map (text ++ ·) := by
  induction ps with
  | nil => simp [join?]
  | cons p ps ih =>
    rcases p with - | text
    · rfl
    · rw [List.cons_append, join?, join?, ih]
      rcases join? ps with - | text'
      · rfl
      · rcases join? qs with - | text''
        · rfl
        · simp [String.append_assoc]

end FormTree.Text
