import FormTree.Proofs.Session.Calls
import FormTree.Proofs.Text.Utf8

/-!
# Texts and their bytes

A session that reads the bytes of a text answers call by call what a session on the text itself
answers: with the same forms, the positions they record included, and with the same errors in the
same places.
-/

namespace FormTree

/-- A cursor on the bytes of a text is the one on that text. -/
theorem Cursor.ofStream_toUTF8 (text : String) :
    ofStream (Utf8.stream text.toUTF8.toList none) = ofText text := by
  have hitems := Utf8.items_toUTF8_append text []
  rw [List.append_nil, Utf8.items, List.append_nil] at hitems
  exact congrArg ofItems hitems

namespace Session

/-- **A text and its bytes are read alike.** Whatever calls are made, a session on the UTF-8 bytes
of a text gives the same answers as one on the text. -/
theorem answers_ofStream_toUTF8 (text : String) (options : Options) (host : Host)
    (rs : List Request) :
    (ofCursor (.ofStream (Utf8.stream text.toUTF8.toList none)) options host).answers rs =
      (ofCursor (.ofText text) options host).answers rs := by
  rw [Cursor.ofStream_toUTF8]

end Session

end FormTree
