import FormTree.Print.Piece

/-!
# Writers

A **writer** takes the bytes of a text, or fails, possibly after it has taken some of them. A piece
is written text by text, each of the texts it is put together from on its own. The first failure of
the writer ends it, and so does a text that cannot be computed. A buffer that has room for a number
of bytes is a writer that takes what fits.
-/

namespace FormTree

/-! ### Writing -/

/-- What takes bytes, or fails. -/
abbrev Writer (ε σ : Type) := List UInt8 → EStateM ε σ Unit

/-- Why writing with a writer ends early. -/
inductive WriteFault (ε : Type) where
  /-- the writer has failed -/
  | refused (error : ε)
  /-- the exponent of a decimal overflows, which breaks the program off -/
  | overflow
  deriving DecidableEq, Repr, Inhabited

section

variable {ε σ : Type} (w : Writer ε σ)

/-- Writes a text, or is broken off if there is none. -/
def writePart : Option String → EStateM (WriteFault ε) σ Unit
  | none => throw .overflow
  | some text => fun s =>
    match w text.toUTF8.toList s with
    | .ok _ t => .ok () t
    | .error e t => .error (.refused e) t

/-- Writes texts one after the other, up to the first failure. -/
def writeParts : List (Option String) → EStateM (WriteFault ε) σ Unit
  | [] => return
  | part :: rest => do
    writePart w part
    writeParts rest

/-- Writes a piece. -/
def Piece.write (p : Piece) : EStateM (WriteFault ε) σ Unit :=
  writeParts w p.parts

/-- Writes pieces one after the other, up to the first failure. -/
def writePieces : List Piece → EStateM (WriteFault ε) σ Unit
  | [] => return
  | p :: rest => do
    p.write w
    writePieces rest

end

/-! ### Buffers -/

/-- Why a writer fails. -/
inductive WriteError where
  /-- It has no room for all bytes. -/
  | writeZero
  deriving DecidableEq, Repr, Inhabited

/-- Room for a number of bytes, and the bytes before it. -/
structure Buffer where
  room : Nat
  written : Array UInt8
  deriving DecidableEq, Repr, Inhabited

namespace Buffer

/-- An empty buffer. -/
def ofCapacity (capacity : Nat) : Buffer := ⟨capacity, #[]⟩

/-- Writes into a buffer. It takes the bytes that fit, and fails if there are more. -/
def write : Writer WriteError Buffer := fun bytes b =>
  if bytes.length ≤ b.room then .ok () ⟨b.room - bytes.length, b.written ++ bytes⟩
  else .error .writeZero ⟨0, b.written ++ bytes.take b.room⟩

end Buffer

end FormTree
