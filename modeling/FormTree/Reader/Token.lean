import FormTree.Form.Basic
import FormTree.Host.Resolver
import FormTree.Reader.Cause
import FormTree.Text.CharClass

/-!
# What a token denotes

A token is `nil`, a truth value, a keyword or a symbol. Its text is checked as a namespace and a
name with the last slash between them. What a keyword or symbol stores is split at the first slash.
A keyword that begins with two colons is resolved to a namespace.
-/

namespace FormTree.Token

open Text

/-- Whether a namespace or name may begin like this: not with a digit or a slash. -/
def startsWell : List Char → Bool
  | [] => false
  | c :: _ => !isDigit c && c != '/'

/-- What stands up to the last slash, the slash included, and what stands after it. -/
def splitLast (cs : List Char) : List Char × List Char :=
  let name := (cs.reverse.takeWhile (· != '/')).reverse
  (cs.take (cs.length - name.length), name)

/-- The namespace, with its slash, and the name of a text. The name is a slash, or does not begin
with a digit and has no slash; the namespace begins with neither. -/
def parts? (cs : List Char) : Option (List Char × List Char) :=
  if cs == ['/'] then some ([], cs)
  else if !startsWell cs then none
  else
    let (ns, name) := splitLast cs
    if startsWell name then some (ns, name)
    else if name.isEmpty && ns.dropLast.getLast? == some '/' then some (ns.dropLast, ['/'])
    else none

/-- The namespace and the name of a token, after its colon if it reads as a keyword. -/
def validated? (cs : List Char) : Option (List Char × List Char) :=
  match cs with
  | ':' :: rest => parts? rest <|> parts? cs
  | _ => parts? cs

/-- Whether two colons stand next to each other. -/
def hasDoubleColon : List Char → Bool
  | ':' :: ':' :: _ => true
  | _ :: rest => hasDoubleColon rest
  | [] => false

/-- Whether a token is that of a symbol or keyword: it has a namespace and a name, the namespace
does not end with a colon before its slash, the name does not end with one, and two colons stand
next to each other at its beginning at most. -/
def isValid (cs : List Char) : Bool :=
  match validated? cs with
  | none => false
  | some (ns, name) =>
    !(ns.getLast? == some '/' && ns.dropLast.getLast? == some ':') &&
      name.getLast? != some ':' && !hasDoubleColon cs.tail

/-- The keyword after two colons, in the namespace that it resolves to. -/
def resolved? (resolver : Resolver) (text : String) : Option Keyword :=
  let s := Symbol.parse text
  let ns := match s.ns with
    | some short => resolver.resolve? short
    | none => resolver.current?
  ns.map fun ns => ⟨⟨some ns.name, s.name⟩⟩

/-- The symbol or keyword that a token denotes. -/
def named? (resolver : Resolver) (cs : List Char) : Option Form :=
  if isValid cs then
    match cs with
    | ':' :: ':' :: rest => (resolved? resolver (String.ofList rest)).map .keyword
    | ':' :: rest => some (.keyword (.parse (String.ofList rest)))
    | _ => some (.symbol (.parse (String.ofList cs)))
  else none

/-- What a token denotes. -/
def interpret (resolver : Resolver) (token : String) : Except Cause Form :=
  if token == "nil" then .ok .nil
  else if token == "true" then .ok (.bool true)
  else if token == "false" then .ok (.bool false)
  else
    match named? resolver token.toList with
    | some f => .ok f
    | none => .error (.invalidToken token)

section

variable {resolver : Resolver} {text : String}

/-- What a token denotes is the name that it is, or a constant. -/
theorem named?_of_interpret {f : Form} (h : interpret resolver text = .ok f) :
    named? resolver text.toList = some f ∨ f = .nil ∨ ∃ b, f = .bool b := by
  rw [interpret] at h
  split at h
  · cases h
    exact .inr (.inl rfl)
  split at h
  · cases h
    exact .inr (.inr ⟨true, rfl⟩)
  split at h
  · cases h
    exact .inr (.inr ⟨false, rfl⟩)
  split at h
  · rename_i hread
    cases h
    exact .inl hread
  · cases h

/-- A token is refused in one way only. -/
theorem eq_invalidToken_of_interpret {e : Cause} (h : interpret resolver text = .error e) :
    e = .invalidToken text := by
  unfold interpret at h
  repeat' split at h
  all_goals cases h
  rfl

end

end FormTree.Token
