import DomQuery.Document.View
import DomQuery.Markup.Page
import DomQuery.Query.Matcher
import DomQuery.Proofs.Css.Step
import DomQuery.Proofs.Document.Change
import DomQuery.Proofs.Document.Indexed
import DomQuery.Proofs.Document.Lookup
import DomQuery.Proofs.Query.Blank
import DomQuery.Proofs.Query.Indices
import DomQuery.Proofs.Document.Move
import DomQuery.Proofs.Document.Loop
import DomQuery.Proofs.Document.Answers
import DomQuery.Proofs.Selector.Lookup
import DomQuery.Proofs.Selector.Resolved
import DomQuery.Proofs.Query.Calls
import DomQuery.Proofs.Query.Warn
import DomQuery.Proofs.Query.Failure
import DomQuery.Proofs.Document.Encapsulated
import DomQuery.Proofs.Query.Complement
import DomQuery.Proofs.Selector.Denoted
import DomQuery.Proofs.Query.Dropped
import DomQuery.Proofs.Query.Flat
import DomQuery.Proofs.Css.CutOff
import DomQuery.Proofs.Css.Serialize
import DomQuery.Proofs.Selector.Branches
import DomQuery.Proofs.Document.Order
import DomQuery.Proofs.Query.Closest
import DomQuery.Proofs.Query.Early
import DomQuery.Proofs.Selector.Grammar
import DomQuery.Proofs.Selector.Origin
import DomQuery.Proofs.Selector.Touching
import DomQuery.Proofs.Selector.RoundTrip
import DomQuery.Proofs.Query.Positions
import DomQuery.Proofs.Query.Siblings
import DomQuery.Proofs.Query.Relative
import DomQuery.Proofs.Query.Forgiven
import DomQuery.Proofs.Selector.Shape
import DomQuery.Proofs.Query.Featureless
import DomQuery.Proofs.Text.Filtering
import DomQuery.Proofs.Query.RadioGroup
import DomQuery.Proofs.Query.DefaultButton
import DomQuery.Proofs.Query.Fieldset
import DomQuery.Proofs.Query.InRange
import DomQuery.Proofs.Query.Container
import DomQuery.Proofs.Tree.Cursor
import DomQuery.Proofs.Query.Stepping
import DomQuery.Proofs.Document.Chunks
import DomQuery.Proofs.Selector.Verbatim
import DomQuery.Proofs.Query.Converse
