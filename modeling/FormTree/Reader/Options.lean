import FormTree.Form.Basic

/-!
# Options of reading

What reading at the end of input gives, which features are active, and how conditionals and trivia
are treated. The platform feature is always active and comes first.
-/

namespace FormTree

/-- The treatment of conditionals. -/
inductive ConditionalMode where
  /-- they are errors -/
  | disabled
  /-- they are read -/
  | allow
  /-- they are read, and tagged forms inside them are kept without consulting anyone -/
  | preserve
  deriving DecidableEq, Repr, Inhabited

/-- The treatment of comments, commas and discarded forms. -/
inductive TriviaMode where
  | keep
  | skip
  deriving DecidableEq, Repr, Inhabited

/-- The options of reading. -/
structure Options where
  /-- the form to give at the end of input, where there is none an error -/
  atEnd : Option Form
  /-- the features added, in order and without repetition -/
  added : List Keyword
  conditionals : ConditionalMode
  trivia : TriviaMode

namespace Options

/-- The default options. -/
def standard : Options := ⟨none, [], .disabled, .keep⟩

instance : Inhabited Options := ⟨standard⟩

/-- The platform feature. -/
def platform : Keyword := .simple "clj"

/-- Adds a feature. -/
def withFeature (o : Options) (feature : Keyword) : Options :=
  if o.added.contains feature then o else { o with added := o.added ++ [feature] }

/-- Sets the features besides the platform feature. -/
def withFeatures (o : Options) (features : List Keyword) : Options :=
  features.foldl withFeature { o with added := [] }

/-- The active features. -/
def features (o : Options) : List Keyword :=
  platform :: o.added.filter (· != platform)

/-- Whether a feature is active. -/
def hasFeature (o : Options) (feature : Keyword) : Bool :=
  feature == platform || o.added.contains feature

end Options

end FormTree
