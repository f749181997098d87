import DomQuery.Selector.Error
import DomQuery.Tree.Basic

/-!
# Why a query fails

Some faults are found before any node is looked at: the selector makes no
sense, or the context is a node that cannot be asked. Others depend on the
nodes that are visited. A prefix that is not declared where it is needed is one;
a construct that is recognized and not evaluated is the other, and counts only
for a matcher that was asked to warn.
-/

namespace DomQuery.Query

open DomQuery.Selector DomQuery.Tree

inductive QueryError where
  | selector (e : SelectorError)
  /-- The context is no document, fragment or element. -/
  | unexpectedNode (kind : NodeKind)
  /-- `operation` asks for an element. -/
  | elementRequired (operation : String) (kind : NodeKind)
  | undefinedPrefix (p : String)
  | unsupportedClass (name : String)
  | unsupportedElement (name : String)

/-- The kinds of faults a caller tells apart. -/
inductive Fault where
  /-- The selector is wrong. -/
  | badSelector
  /-- The context is of the wrong kind. -/
  | badContext
  /-- The selector is right and asks for too much. -/
  | unsupported
deriving DecidableEq, Repr

namespace QueryError

def fault : QueryError → Fault
  | .selector _ | .undefinedPrefix _ => .badSelector
  | .unexpectedNode _ | .elementRequired _ _ => .badContext
  | .unsupportedClass _ | .unsupportedElement _ => .unsupported

def message : QueryError → String
  | .selector e => e.message
  | .unexpectedNode kind => "Unexpected node " ++ kind.name
  | .elementRequired operation kind =>
    operation ++ "() requires an element, got " ++ kind.name
  | .undefinedPrefix p => "Undefined namespace prefix " ++ p
  | .unsupportedClass name => "Unsupported pseudo-class :" ++ name
  | .unsupportedElement name => "Unsupported pseudo-element ::" ++ name

end QueryError

end DomQuery.Query
