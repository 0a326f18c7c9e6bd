import FormTree.Form.Lookup
import FormTree.Proofs.Form.Lookup
import FormTree.Proofs.Number.DecimalText
import FormTree.Proofs.Number.Grammar
import FormTree.Proofs.Number.Overflow
import FormTree.Proofs.Number.Radix
import FormTree.Proofs.Number.Ratio
import FormTree.Proofs.Print.Strings
import FormTree.Proofs.Print.Written
import FormTree.Proofs.Session.Characters
import FormTree.Proofs.Session.Cut
import FormTree.Proofs.Session.Discards
import FormTree.Proofs.Session.Failure
import FormTree.Proofs.Session.Finish
import FormTree.Proofs.Session.Kept
import FormTree.Proofs.Session.Legal
import FormTree.Proofs.Session.Located
import FormTree.Proofs.Session.Modes
import FormTree.Proofs.Session.Numbered
import FormTree.Proofs.Session.Progress
import FormTree.Proofs.Session.RoundTrip
import FormTree.Proofs.Session.Stream
import FormTree.Proofs.Session.Tags
import FormTree.Proofs.Session.Trivia
import FormTree.Proofs.Session.Unevaluated
import FormTree.Proofs.Session.Unfinished
import FormTree.Proofs.Session.Untracked
import FormTree.Proofs.Template.Agreement
import FormTree.Proofs.Template.Names
import FormTree.Proofs.Text.Decoded
import FormTree.Proofs.Token.Resolved
import FormTree.Session
import FormTree.Template.Code
