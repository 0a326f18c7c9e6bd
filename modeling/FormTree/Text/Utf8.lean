/-!
# Text from a stream of bytes

A byte stream is a list of deliveries, each a byte or a failure to deliver one. Decoding goes one
character at a time: the first byte alone fixes how many bytes the character takes, and the bytes
that follow are taken without looking at them, so a malformed sequence is passed over as a whole.
A failure in the middle of a character drops the bytes already taken.
-/

namespace FormTree

/-- A failure of the transport under a source: its kind by name, and its text. -/
structure IoFailure where
  kind : String
  text : String
  deriving DecidableEq, Repr, Inhabited

/-- What a source can fail with in place of a character. -/
inductive Fault where
  /-- The bytes are no UTF-8. -/
  | invalidUtf8
  /-- The transport failed. -/
  | io (failure : IoFailure)
  deriving DecidableEq, Repr, Inhabited

/-- What a source delivers: a character or a fault. -/
abbrev Item := Except Fault Char

namespace Utf8

/-- What a stream delivers: a byte or a failure. -/
abbrev Delivery := Except IoFailure UInt8

/-- How many bytes follow a first byte, if it can begin a character. -/
def following? (first : UInt8) : Option Nat :=
  if first ≤ 0x7F then some 0
  else if 0xC2 ≤ first && first ≤ 0xDF then some 1
  else if 0xE0 ≤ first && first ≤ 0xEF then some 2
  else if 0xF0 ≤ first && first ≤ 0xF4 then some 3
  else none

/-- The six payload bits of a continuation byte. -/
def payload? (b : UInt8) : Option Nat :=
  if 0x80 ≤ b && b ≤ 0xBF then some (b.toNat - 0x80) else none

/-- The character with code point `n`, if `n` is a scalar value of at least `least`. -/
def scalar? (least n : Nat) : Option Char :=
  if h : n.isValidChar then
    if least ≤ n then some (Char.ofNatAux n h) else none
  else none

/-- The character that a complete sequence of one to four bytes encodes. The shortest form is
required, and surrogates have none. -/
def char? : List UInt8 → Option Char
  | [a] => if a ≤ 0x7F then scalar? 0 a.toNat else none
  | [a, b] => do
    scalar? 0x80 ((a.toNat - 0xC0) * 64 + (← payload? b))
  | [a, b, c] => do
    scalar? 0x800 (((a.toNat - 0xE0) * 64 + (← payload? b)) * 64 + (← payload? c))
  | [a, b, c, d] => do
    scalar? 0x10000
      ((((a.toNat - 0xF0) * 64 + (← payload? b)) * 64 + (← payload? c)) * 64 + (← payload? d))
  | _ => none

/-- The next `n` bytes, and the stream after them. -/
def take : Nat → List Delivery → Except Fault (List UInt8) × List Delivery
  | 0, rest => (.ok [], rest)
  | _ + 1, [] => (.error .invalidUtf8, [])
  | _ + 1, .error e :: rest => (.error (.io e), rest)
  | n + 1, .ok b :: rest =>
    let (bytes, rest) := take n rest
    (bytes.map (b :: ·), rest)

/-- Taking bytes never lengthens the stream. -/
theorem length_take_le (n : Nat) (stream : List Delivery) :
    (take n stream).2.length ≤ stream.length := by
  induction n generalizing stream with
  | zero => simp [take]
  | succ n ih =>
    match stream with
    | [] => simp [take]
    | .error _ :: rest => simp [take]
    | .ok _ :: rest => simpa [take] using Nat.le_succ_of_le (ih rest)

/-- The first item of a stream that is not at its end, and the stream after it. -/
def decode : Delivery → List Delivery → Item × List Delivery
  | .error e, rest => (.error (.io e), rest)
  | .ok first, rest =>
    match following? first with
    | none => (.error .invalidUtf8, rest)
    | some n =>
      let (bytes, rest) := take n rest
      (bytes.bind fun bytes =>
        match char? (first :: bytes) with
        | some c => .ok c
        | none => .error .invalidUtf8, rest)

/-- Decoding never lengthens the stream. -/
theorem length_decode_le (d : Delivery) (stream : List Delivery) :
    (decode d stream).2.length ≤ stream.length := by
  unfold decode
  split
  · simp
  · split
    · simp
    · exact length_take_le _ _

/-- All items of a stream. -/
def items : List Delivery → List Item
  | [] => []
  | d :: stream => (decode d stream).1 :: items (decode d stream).2
termination_by stream => stream.length
decreasing_by
  have := length_decode_le d stream
  simp only [List.length_cons]
  omega

/-- The bytes as a stream that, if asked to, fails once before it delivers byte number `n`. A
number past the end of the bytes is never reached. -/
def stream (bytes : List UInt8) (failure : Option (Nat × IoFailure)) : List Delivery :=
  let deliveries := bytes.map Except.ok
  match failure with
  | none => deliveries
  | some (n, e) =>
    if n ≤ bytes.length then deliveries.take n ++ .error e :: deliveries.drop n else deliveries

end Utf8

end FormTree
