import FormTree.Form.Access
import FormTree.Host.Basic
import FormTree.Print.Form
import FormTree.Reader.Options
import FormTree.Reader.Quoted
import FormTree.Reader.Scopes
import FormTree.Reader.Token

/-!
# One level of reading

Forms nest, and so does reading: what reads a form at one level is built from what reads forms one
level further down. This module has the steps of a level, each a function of the **form reader**
below it. A form reader is a run from a state to a state together with the promise that the state it
leaves is no larger, and is smaller if it gave a form, and that the scopes and the nesting budget
are as it found them. The loops over the elements of a sequence and over skipped trivia end because
of this promise, and no scope outlives its construct.
-/

namespace FormTree

/-- What reading changes. -/
structure State where
  cursor : Cursor
  scopes : Scopes
  /-- how many levels further down forms may nest -/
  remaining : Nat
  /-- how many symbols have been generated -/
  generated : Nat
  deriving Inhabited

/-- How much is left to read. -/
def State.size (s : State) : Nat := s.cursor.size

/-- What reading does not change. -/
structure Setting where
  options : Options
  host : Host

/-- A reading function. -/
abbrev Read (α : Type) := EStateM Cause State α

/-- What a level finds. -/
inductive Outcome where
  | form (form : Form)
  | endOfInput
  /-- the delimiter that was waited for -/
  | closed

/-- What a construct gives. -/
inductive Step where
  | form (form : Form)
  /-- nothing: reading goes on -/
  | skip

/-- Whether the state `t` has the scopes and the nesting budget of the state `s`. -/
def State.SameFrame (s t : State) : Prop :=
  t.scopes = s.scopes ∧ t.remaining = s.remaining

/-- Whether a run keeps the promise of a form reader. -/
def Advances (s : State) : EStateM.Result Cause State Outcome → Prop
  | .ok (.form _) s' => s'.size < s.size ∧ s.SameFrame s'
  | .ok _ s' => s'.size ≤ s.size ∧ s.SameFrame s'
  | .error _ s' => s'.size ≤ s.size ∧ s.SameFrame s'

/-- What reads forms at some level: it reads one form, or finds the delimiter that it is given or
the end of input. -/
structure FormReader where
  run : Setting → Option Char → Read Outcome
  advances : ∀ setting closer s, Advances s (run setting closer s)

namespace Read

/-- Scans with the cursor of the state. -/
def scan {α : Type} (m : Scan α) : Read α := fun s =>
  match m s.cursor with
  | .ok a k => .ok a { s with cursor := k }
  | .error e k => .error e { s with cursor := k }

/-- Changes the state that a run leaves, on every way out. -/
def mapState {α : Type} (f : State → State) :
    EStateM.Result Cause State α → EStateM.Result Cause State α
  | .ok a s => .ok a (f s)
  | .error e s => .error e (f s)

/-- Runs inside a scope, which is left on every way out. -/
def within {α : Type} (scope : Scope) (m : Read α) : Read α := fun s =>
  mapState (fun s' => { s' with scopes := s'.scopes.leave scope })
    (m { s with scopes := s.scopes.enter scope })

/-- Runs one level further down, if the budget allows for it. -/
def descend {α : Type} (m : Read α) : Read α := fun s =>
  if s.remaining = 0 then .error .nestedTooDeeply s
  else
    mapState (fun s' => { s' with remaining := s'.remaining + 1 })
      (m { s with remaining := s.remaining - 1 })

/-- The scopes that a form stands in. -/
def scopes : Read Scopes := fun s => .ok s.scopes s

/-- The position of the cursor. -/
def position : Read (Option Position) := fun s => .ok s.cursor.position s

/-- The next character, which has to be there. -/
def nextCharacter : Read Char := do
  match ← scan Cursor.next with
  | some c => return c
  | none => throw .endInCharacter

end Read

namespace Level

-- Powers are the core library's here, also below a library with another instance of them.
attribute [local instance (high)] instPowNat

open Read

variable (below : FormReader) (setting : Setting)

/-- A form that has to be there, read one level down. -/
def nested : Read Form :=
  descend do
    match ← below.run setting none with
    | .form f => return f
    | _ => throw .endOfInput

/-- The forms up to a closing delimiter, which is passed over. The line is that of the beginning. -/
def collect (line : Option Nat) (close : Char) (s : State) :
    EStateM.Result Cause State (List Form) :=
  match _h : below.run setting (some close) s with
  | .ok (.form f) s₁ =>
    match collect line close s₁ with
    | .ok fs s₂ => .ok (f :: fs) s₂
    | .error e s₂ => .error e s₂
  | .ok .closed s₁ => .ok [] s₁
  | .ok .endOfInput s₁ => .error (.endInSequence line) s₁
  | .error e s₁ => .error e s₁
termination_by s.size
decreasing_by
  have := below.advances setting (some close) s
  rw [_h] at this
  exact this.1

/-- The elements of a sequence, after its opening delimiter. -/
def sequence (close : Char) : Read (List Form) := do
  let position ← position
  descend (collect below setting (position.map Position.line) close)

/-- Trivia is a form or nothing, as the options have it. -/
def trivia (f : Form) : Step :=
  match setting.options.trivia with
  | .keep => .form f
  | .skip => .skip

/-- A mark in front of a form. -/
def marked (mark : Mark) : Read Step := do
  let f ← nested below setting
  return .form (.marked mark f)

/-- A list. The position of its parenthesis is recorded if it has elements. -/
def list : Read Step := do
  let position ← position
  let es ← sequence below setting ')'
  return .form (.list (if es.isEmpty then .empty else .at? position) es)

/-- A map. Its keys and values have to come in pairs. -/
def map : Read Step := do
  let es ← sequence below setting '\x7d'
  if (Form.dataOf es).length % 2 == 1 then throw .oddMap
  else return .form (.map es)

/-- What kind of note a form is, if it can be one. -/
def noteKind? : Form → Option NoteKind
  | .symbol _ | .string _ => some .tag
  | .keyword _ => some .flag
  | .group .map _ => some .map
  | _ => none

/-- Whether a form is a list. -/
def isList : Form → Bool
  | .list _ _ => true
  | _ => false

/-- A note and the form that it annotates. The position of the caret is recorded if that form is a
list. -/
def annotated : Read Step := do
  let position ← position
  let note ← nested below setting
  match noteKind? note with
  | none => throw .invalidNote
  | some kind =>
    let object ← nested below setting
    if object.isAnnotatable then
      return .form (.annotated kind note object (if isList object then position else none))
    else throw .notAnnotatable

/-- The call that attaches metadata to a form when it is evaluated. -/
def withMetadata (quoted info : Form) : Form :=
  .list .empty [.symbol (.parse "clojure.core/with-meta"), quoted, info]

/-- A backquoted form. Literals stand for themselves, and a list that carries metadata besides its
position is wrapped in a call that attaches it. -/
def backquote (f : Form) (gensyms : List (Symbol × Symbol)) : Except Cause Form :=
  match f with
  | .marked .unquoteSplicing _ => .error .spliceNotInList
  | .list info _ =>
    let quoted := .backquoted f gensyms
    .ok (if info.withoutPosition.isEmpty then quoted
      else withMetadata quoted (.backquoted info.toForm []))
  | _ => .ok (if f.isLiteral then f else .backquoted f gensyms)

/-- Registers the symbols of a form with the innermost backquote, and takes all that are registered
with it. -/
def takeGensyms (f : Form) : Read (List (Symbol × Symbol)) := fun s =>
  match s.scopes.gensyms with
  | [] => .ok [] s
  | pairs :: outer =>
    let g := Gensyms.collect ⟨pairs, s.generated⟩ f
    .ok g.pairs { s with scopes.gensyms := [] :: outer, generated := g.generated }

/-- A backquote and its form, with the symbols generated for it. -/
def backquoted : Read Step :=
  within .backquote do
    let f ← nested below setting
    let pairs ← takeGensyms f
    return .form (← ofExcept (backquote f pairs))

/-- An unquote, splicing or not. -/
def unquoted : Read Step := do
  let c ← nextCharacter
  if c == '@' then marked below setting .unquoteSplicing
  else
    scan (Cursor.unread c)
    marked below setting .unquote

/-- The argument that a token names. -/
def argRef? (token : List Char) : Option ArgRef :=
  match token with
  | [] => some .implicit
  | ['&'] => some .rest
  | digits =>
    let n := Numeral.value 10 digits
    if digits.all Text.isDigit && 0 < n && n < 2 ^ (32 : Nat) then some (.index n) else none

/-- An argument literal. -/
def arg : Read Step := do
  let token ← scan (Scan.token '%')
  match argRef? token.toList.tail with
  | some ref => return .form (.arg ref)
  | none => throw (.invalidArg token)

/-- A pattern literal, as the host compiles it. -/
def pattern : Read Step := do
  let source ← scan Scan.pattern
  match setting.host.patterns source with
  | .ok f => return .form f
  | .error message => throw (.invalidPattern message)

/-- A symbolic value, after two hash signs. -/
def symbolic : Read Step := do
  let first ← nextCharacter
  let token ← scan (Scan.token first)
  if token == "Inf" then return .form (.number (.float (.infinity false)))
  else if token == "-Inf" then return .form (.number (.float (.infinity true)))
  else if token == "NaN" then return .form (.number (.float .nan))
  else throw (.invalidToken ("##" ++ token))

/-! ### Conditionals -/

/-- Whether a keyword cannot be a feature. -/
def isReserved (k : Keyword) : Bool :=
  k.ns.isNone && (k.name == "else" || k.name == "none")

/-- What is wrong with a branch of a conditional. -/
def branchFault? (splicing : Bool) (feature form : Form) : Option ConditionalFault :=
  match feature.toKeyword? with
  | none => some .featureNotKeyword
  | some k =>
    if isReserved k then some .reservedFeature
    else if splicing && !form.isSequential then some .spliceNotList
    else none

/-- What is wrong with the body of a conditional. -/
def conditionalFault? (splicing : Bool) (es : List Form) : Option ConditionalFault :=
  let data := Form.dataOf es
  if data.length % 2 == 1 then some .oddForms
  else (Form.pairsOf data).findSome? fun (feature, form) => branchFault? splicing feature form

/-- The next character that is no blank, which has to be there. -/
def nextNonBlank : Read Char := do
  match ← scan Cursor.nextForm with
  | some c => return c
  | none => throw .endInCharacter

/-- The opening parenthesis of a conditional, and whether it is splicing. -/
def conditionalOpening : Read (Char × Bool) := do
  let c ← nextCharacter
  if c == '@' then return (← nextNonBlank, true)
  else if Text.isBlank c then return (← nextNonBlank, false)
  else return (c, false)

/-- A conditional, after its question mark. -/
def conditional : Read Step := do
  if setting.options.conditionals = .disabled then throw .conditionalNotAllowed
  else
    let (c, splicing) ← conditionalOpening
    if c != '(' then throw (.malformedConditional .expectedList)
    else
      let position ← position
      within .conditional do
        let es ← sequence below setting ')'
        match conditionalFault? splicing es with
        | some fault => throw (.malformedConditional fault)
        | none => return .form (.group (.conditional splicing position) es)

/-! ### Tagged forms and records -/

/-- The entries of a record literal, or the first key that is no keyword. -/
def recordEntries : List (Form × Form) → Except Form (List (Keyword × Form))
  | [] => .ok []
  | (key, value) :: rest =>
    match key.toKeyword? with
    | none => .error key
    | some k => (recordEntries rest).map ((k, value) :: ·)

/-- Why a key that is no keyword is refused. The message has the text of the key in it. -/
def invalidKey (key : Form) : Cause :=
  match key.emit? with
  | some text =>
    .invalidRecord ("Unreadable defrecord form: key must be of type Keyword, got " ++ text)
  | none => .overflow

/-- Makes a record from its literal, or says why it cannot be made. -/
def makeRecord (type : RecordType) (name : Symbol) (f : Form) : Except Cause Form :=
  match f with
  | .group .vector es =>
    let values := Form.dataOf es
    if type.acceptsArity values.length then (type.ofFields name values).mapError .invalidRecord
    else
      .error (.invalidRecord ("Unexpected number of constructor arguments to " ++ name.toText ++
        ": got " ++ toString values.length))
  | .group .map es =>
    match recordEntries (Form.pairsOf (Form.dataOf es)) with
    | .ok entries => (type.ofEntries name entries).mapError .invalidRecord
    | .error key => .error (invalidKey key)
  | _ =>
    .error (.invalidRecord ("Unreadable constructor form starting with \"#" ++ name.toText ++ "\""))

/-- The record that a literal stands for. -/
def record (host : Host) (name : Symbol) (f : Form) : Except Cause Form :=
  if host.evaluation != .enabled then .error .evalNotAllowed
  else
    match host.record? name with
    | none => .error (.invalidRecord ("Record type not found: " ++ name.toText))
    | some type => makeRecord type name f

/-- What a tagged form stands for. Names with a dot are those of record types. Inside a conditional
nobody is consulted if the options say so. -/
def interpretTagged (inConditional : Bool) (tag : Symbol) (f : Form) : Except Cause Form :=
  if inConditional && setting.options.conditionals = .preserve then .ok (.tagged tag f)
  else if tag.name.toList.contains '.' then record setting.host tag f
  else
    match setting.host.dataReaders.read? tag f with
    | some (.ok f) => .ok f
    | some (.error message) => .error (.dataReaderFailed message)
    | none => .error (.noReaderForTag tag.toText)

/-- A tag and its form, after the hash sign. -/
def tagged : Read Step := do
  match ← nested below setting with
  | .symbol tag =>
    let f ← nested below setting
    return .form (← ofExcept (interpretTagged setting (← scopes).inConditional tag f))
  | _ => throw .invalidTag

/-! ### Dispatch -/

/-- The list of a function literal, whose opening parenthesis is handed back for it. -/
def functionBody : Read Form :=
  within .function do
    scan (Cursor.unread '(')
    nested below setting

/-- A function literal, after its opening parenthesis. -/
def function : Read Step := do
  if (← scopes).inFunction then throw .nestedFunction
  else return .form (.marked .function (← functionBody below setting))

/-- What a trigger after a hash sign begins, from after it on. -/
def startHash : HashTrigger → Read Step
  | .note => annotated below setting
  | .var => marked below setting .var
  | .pattern => pattern setting
  | .function => function below setting
  | .set => do return .form (.set (← sequence below setting '\x7d'))
  | .eval =>
    if setting.host.evaluation = .enabled then marked below setting .eval
    else throw .evalNotAllowed
  | .shebang => do return trivia setting (.comment .shebang (← scan Scan.line))
  | .unreadable => throw .unreadableForm
  | .discard => do return trivia setting (.marked .discard (← nested below setting))
  | .conditional => conditional below setting
  | .symbolic => symbolic

/-- What begins after a hash sign. The first character of a tag is handed back for the tag. -/
def hash : Read Step := do
  let c ← nextCharacter
  match HashTrigger.ofChar? c with
  | some trigger => startHash below setting trigger
  | none =>
    scan (Cursor.unread c)
    tagged below setting

/-- What a trigger begins, from after it on. -/
def startTrigger (c : Char) : Trigger → Read Step
  | .string => do return .form (.string (← scan Scan.string))
  | .comment => do return trivia setting (.comment .line (← scan Scan.line))
  | .comma => return trivia setting .comma
  | .quote => marked below setting .quote
  | .deref => marked below setting .deref
  | .note => annotated below setting
  | .backquote => backquoted below setting
  | .unquote => unquoted below setting
  | .list => list below setting
  | .vector => do return .form (.vector (← sequence below setting ']'))
  | .map => map below setting
  | .unmatched => throw (.unmatchedDelimiter c)
  | .character => do
    let (token, value) ← scan Scan.charLiteral
    return .form (.charLiteral token value)
  | .arg => arg
  | .hash => hash below setting

/-- The number that begins with `c`. -/
def number (c : Char) : Read Step := do
  return .form (.number (← scan (Scan.number c)))

/-- The token that begins with `c`. -/
def token (c : Char) : Read Step := do
  let text ← scan (Scan.token c)
  return .form (← ofExcept (Token.interpret setting.host.resolver text))

/-- A number or token that begins with a sign. -/
def signed (c : Char) : Read Step := do
  match ← scan Cursor.next with
  | some d =>
    scan (Cursor.unread d)
    if Text.isDigit d then number c else token setting c
  | none => token setting c

/-- What the first character of a form begins. -/
def start (c : Char) : Read Step :=
  if Text.isDigit c then number c
  else
    match Trigger.ofChar? c with
    | some trigger => startTrigger below setting c trigger
    | none => if c == '+' || c == '-' then signed setting c else token setting c

end Level

end FormTree
