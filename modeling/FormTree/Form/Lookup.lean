import FormTree.Form.Access

/-!
# Looking things up in a form

Sequences are looked up by index, maps by a name or by a form. Trivia never counts.
-/

namespace FormTree.Form

/-- What to look up. -/
inductive Key where
  /-- an element of a list, vector, set or file, counted from zero -/
  | index (n : Nat)
  /-- the value of a map under the unqualified keyword of that name or the string -/
  | name (name : String)
  /-- the value of a map under a form that says the same -/
  | form (form : Form)

/-- The elements that an index counts. -/
def indexed? : Form → Option (List Form)
  | .list _ es | .group .vector es | .group .set es | .group .file es => some (dataOf es)
  | _ => none

/-- The entries of a map. -/
def entries? : Form → Option (List (Form × Form))
  | .group .map es => some (pairsOf (dataOf es))
  | _ => none

/-- Whether a key of a map answers to a name. -/
def answersTo (name : String) : Form → Bool
  | .keyword k => k.ns.isNone && k.name == name
  | .string s => s == name
  | _ => false

/-- The value of the first entry of a map whose key satisfies `p`. -/
def findValue? (p : Form → Bool) (f : Form) : Option Form :=
  (f.entries?.bind (·.find? fun entry => p entry.1)).map Prod.snd

/-- Looks up one key. -/
def get? (f : Form) : Key → Option Form
  | .index n => f.indexed?.bind (·[n]?)
  | .name name => f.findValue? (answersTo name)
  | .form key => f.findValue? (same · key)

/-- Looks up one key, a miss being `nil`. -/
def getD (f : Form) (key : Key) : Form :=
  (f.get? key).getD .nil

/-- Looks up a path of keys. -/
def getPath? (f : Form) (path : List Key) : Option Form :=
  path.foldlM get? f

end FormTree.Form
