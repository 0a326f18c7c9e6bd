import FormTree.Position
import FormTree.Text.Quoted
import FormTree.Text.Utf8

/-!
# Why reading fails

A **cause** says what is wrong; `Cause.message` words it. An error adds to its cause the position at
which reading stopped, if the source has positions. Causes fall into three categories: the source
failed, the input ended too early, or the input cannot be read.
-/

namespace FormTree

/-- What is wrong with the body of a conditional. -/
inductive ConditionalFault where
  /-- no opening parenthesis -/
  | expectedList
  | oddForms
  | featureNotKeyword
  /-- `:else` or `:none` as a feature -/
  | reservedFeature
  /-- a branch to splice that is neither list nor vector -/
  | spliceNotList
  deriving DecidableEq, Repr, Inhabited

/-- The wording of a fault in a conditional. -/
def ConditionalFault.message : ConditionalFault → String
  | .expectedList => "read-cond body must be a list"
  | .oddForms => "read-cond requires an even number of forms"
  | .featureNotKeyword => "Feature should be a keyword"
  | .reservedFeature => "Feature name is reserved"
  | .spliceNotList => "Spliced form in read-cond-splicing must be a list"

/-- Why reading fails. -/
inductive Cause where
  /-- the source failed -/
  | source (fault : Fault)
  /-- the input ended where a form was expected -/
  | endOfInput
  /-- the input ended inside a sequence, which began on that line -/
  | endInSequence (line : Option Nat)
  | endInString
  | endInPattern
  /-- the input ended after a backslash or another character that calls for one more -/
  | endInCharacter
  | invalidToken (token : String)
  | invalidNumber (token : String)
  | unmatchedDelimiter (delimiter : Char)
  /-- `#<` -/
  | unreadableForm
  | unsupportedEscape (what : String)
  | unsupportedCharacter (what : String)
  | invalidNote
  | notAnnotatable
  /-- `~@` right after a backquote -/
  | spliceNotInList
  | nestedFunction
  | invalidArg (token : String)
  | conditionalNotAllowed
  | malformedConditional (fault : ConditionalFault)
  /-- a tag that is no symbol -/
  | invalidTag
  | noReaderForTag (tag : String)
  | dataReaderFailed (message : String)
  | invalidRecord (message : String)
  | invalidPattern (message : String)
  | evalNotAllowed
  | readingDisallowed
  | oddMap
  /-- something after the last form -/
  | trailingCharacters
  | nestedTooDeeply
  /-- the message of the error needs a text that cannot be computed: no error comes back then, the
  program stops -/
  | overflow
  deriving DecidableEq, Repr, Inhabited

/-- The three kinds of causes. -/
inductive Category where
  /-- the transport of the source failed -/
  | io
  /-- the input cannot be read -/
  | unreadable
  /-- the input ended too early -/
  | endOfInput
  deriving DecidableEq, Repr, Inhabited

namespace Cause

/-- The wording of a cause. -/
def message : Cause → String
  | .source (.io failure) => failure.text
  | .source .invalidUtf8 => "invalid UTF-8 in input"
  | .endOfInput => "EOF while reading"
  | .endInSequence (some line) => "EOF while reading, starting at line " ++ toString line
  | .endInSequence none => "EOF while reading"
  | .endInString => "EOF while reading string"
  | .endInPattern => "EOF while reading regex"
  | .endInCharacter => "EOF while reading character"
  | .invalidToken token => "Invalid token: " ++ token
  | .invalidNumber token => "Invalid number: " ++ token
  | .unmatchedDelimiter c => "Unmatched delimiter: " ++ c.toString
  | .unreadableForm => "Unreadable form"
  | .unsupportedEscape what => "Unsupported escape character: " ++ what
  | .unsupportedCharacter what => "Unsupported character: " ++ what
  | .invalidNote => "Metadata must be Symbol,Keyword,String or Map"
  | .notAnnotatable => "Metadata can only be applied to symbols and collections"
  | .spliceNotInList => "splice not in list"
  | .nestedFunction => "Nested #()s are not allowed"
  | .invalidArg token => "Invalid arg literal: " ++ token
  | .conditionalNotAllowed => "Conditional read not allowed"
  | .malformedConditional fault => fault.message
  | .invalidTag => "Reader tag must be a symbol"
  | .noReaderForTag tag => "No reader function for tag " ++ tag
  | .dataReaderFailed message => "Data reader failed: " ++ message
  | .invalidRecord message => message
  | .invalidPattern message => "Invalid regex: " ++ message
  | .evalNotAllowed => "EvalReader not allowed when *read-eval* is false."
  | .readingDisallowed => "Reading disallowed - *read-eval* bound to :unknown"
  | .oddMap => "Map literal must contain an even number of forms"
  | .trailingCharacters => "trailing characters"
  | .nestedTooDeeply => "recursion limit exceeded"
  | .overflow => "attempt to subtract with overflow"

/-- The category of a cause. -/
def category : Cause → Category
  | .source (.io _) => .io
  | .endOfInput | .endInSequence _ | .endInString | .endInPattern | .endInCharacter => .endOfInput
  | _ => .unreadable

end Cause

/-- A read error: its cause, and where reading stopped. -/
structure ReadError where
  cause : Cause
  position : Option Position
  deriving DecidableEq, Repr, Inhabited

namespace ReadError

/-- The wording of an error, with its position. -/
def message (e : ReadError) : String :=
  match e.position with
  | none => e.cause.message
  | some p =>
    e.cause.message ++ " at line " ++ toString p.line ++ " column " ++ toString p.column

/-- The text of an error for diagnostics, with its message in quotes. -/
def debugText (e : ReadError) : String :=
  let place := match e.position with
    | none => ""
    | some p => ", line: " ++ toString p.line ++ ", column: " ++ toString p.column
  "Error(" ++ Text.quote e.cause.message ++ place ++ ")"

/-- The failure of the transport that is behind an error. -/
def failure? (e : ReadError) : Option IoFailure :=
  match e.cause with
  | .source (.io failure) => some failure
  | _ => none

/-- An error as a failure of a transport: the failure behind it, or one that tells bad data from an
early end. -/
def toIoFailure (e : ReadError) : IoFailure :=
  match e.failure? with
  | some failure => failure
  | none =>
    let kind := if e.cause.category = .endOfInput then "UnexpectedEof" else "InvalidData"
    ⟨kind, e.message⟩

end ReadError

end FormTree
