import DomQuery.Css.Step
import DomQuery.Selector.Printer

/-!
# What can be wrong with a selector

The causes for which a selector is refused, each with the part it is about, and
the text that describes it.
-/

namespace DomQuery.Selector

open DomQuery.Css

inductive SelectorError where
  /-- The text is not a selector list. -/
  | unreadable (text : String) (fault : ReadError)
  /-- Two combinators in a row. -/
  | adjacent (before after : Combinator) (within : Complex)
  /-- A combinator without a compound on one of its sides. -/
  | dangling (within : Complex)
  /-- A combinator where a single compound is asked for. -/
  | notCompound (within : Complex)
  /-- A case flag that does not exist, or an argument that is missing. -/
  | invalid (component : Component)
  | unknownPseudoElement (component : Component)
  | unknownPseudoClass (component : Component)

namespace SelectorError

def message : SelectorError → String
  | .unreadable text (.unexpected t) => "Invalid selector " ++ text ++ ": unexpected " ++ t.text
  | .unreadable text .endOfInput => "Invalid selector " ++ text
  | .adjacent before after within =>
    "Invalid combinator " ++ before.text ++ after.text ++ " in " ++ within.text
  | .dangling within => "Invalid selector " ++ within.text
  | .notCompound within => "Invalid selector " ++ within.text ++ ": compound selector expected"
  | .invalid component => "Invalid selector " ++ component.text
  | .unknownPseudoElement component => "Unknown pseudo-element " ++ component.text
  | .unknownPseudoClass component => "Unknown pseudo-class " ++ component.text

end SelectorError

end DomQuery.Selector
