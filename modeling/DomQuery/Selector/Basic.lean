/-!
# Selectors as written

A selector list holds alternatives, each a complex selector: simple selectors
and combinators in the order of the text. Nothing is resolved here. A
pseudo-class may have any name, an attribute flag any spelling, and combinators
may stand anywhere; what makes sense of a complex selector is decided when it
is split into a chain.

Every list carries a number. Numbers are given in the order in which lists
begin in the text, so no two lists of one selector share one.
-/

namespace DomQuery.Selector

/-- The number of a selector list within its selector. -/
structure ListId where
  index : Nat
deriving DecidableEq, Repr, Hashable

/-- How two neighbouring compounds are related in the tree. -/
inductive Combinator where
  | descendant
  | child
  | nextSibling
  | subsequentSibling
deriving DecidableEq, Repr

namespace Combinator

def text : Combinator → String
  | .descendant => " "
  | .child => ">"
  | .nextSibling => "+"
  | .subsequentSibling => "~"

/-- The related node is a sibling, not an ancestor. -/
def isSibling : Combinator → Bool
  | .nextSibling | .subsequentSibling => true
  | _ => false

end Combinator

/-- What stands before the bar of a qualified name. -/
inductive Qualifier where
  /-- `*|name` -/
  | any
  /-- `|name` -/
  | none
  /-- `p|name` -/
  | named (p : String)
deriving DecidableEq, Repr

/-- A type selector, or the universal selector when the name is `*`. -/
structure TypeSelector where
  /-- `none` when no bar was written. -/
  qualifier : Option Qualifier
  localName : String
deriving DecidableEq, Repr

def TypeSelector.isUniversal (t : TypeSelector) : Bool :=
  t.localName == "*"

/-- How an attribute's value is compared. -/
inductive Operator where
  | equals
  /-- One of the words of the value. -/
  | includes
  /-- The value, or its part before a hyphen. -/
  | dashMatch
  | startsWith
  | endsWith
  | contains
deriving DecidableEq, Repr

def Operator.text : Operator → String
  | .equals => "="
  | .includes => "~="
  | .dashMatch => "|="
  | .startsWith => "^="
  | .endsWith => "$="
  | .contains => "*="

/-- The comparison of an attribute selector. -/
structure Comparison where
  operator : Operator
  value : String
  /-- The case flag as written. -/
  flag : Option String
deriving DecidableEq, Repr

/-- `[name]`, or `[name op "value" flag]`. -/
structure AttributeSelector where
  qualifier : Option Qualifier
  name : String
  comparison : Option Comparison
deriving DecidableEq, Repr

mutual

/-- A simple selector or a combinator. -/
inductive Component where
  | combinator (c : Combinator)
  | type (t : TypeSelector)
  | id (name : String)
  | className (name : String)
  | attr (a : AttributeSelector)
  /-- `:name` or `:name(argument)`, the name in lower case. -/
  | pseudoClass (name : String) (argument : Option Argument)
  /-- `::name` or `::name(text)`, the name in lower case. -/
  | pseudoElement (name : String) (argument : Option String)

/-- The argument of a functional pseudo-class. -/
inductive Argument where
  | selectors (list : SelectorList)
  /-- `an+b`, and the list after `of`. -/
  | nth (a b : Int) (of : Option SelectorList)
  /-- Language ranges, or one keyword. -/
  | words (texts : List String)
  /-- Anything else, as written. -/
  | raw (text : String)

/-- Alternatives separated by commas. -/
inductive SelectorList where
  | mk (id : ListId) (selectors : List Complex)

/-- One alternative. -/
inductive Complex where
  | mk (components : List Component)

end

def SelectorList.id : SelectorList → ListId
  | .mk id _ => id

def SelectorList.selectors : SelectorList → List Complex
  | .mk _ selectors => selectors

def Complex.components : Complex → List Component
  | .mk components => components

instance : Inhabited Complex := ⟨.mk []⟩
instance : Inhabited SelectorList := ⟨.mk ⟨0⟩ []⟩

mutual

/-- `:has()` occurs in the component, at any depth. -/
def Component.containsHas : Component → Bool
  | .pseudoClass name argument => name == "has" || Argument.anyContainsHas argument
  | _ => false

def Argument.anyContainsHas : Option Argument → Bool
  | some (.selectors list) => list.containsHas
  | some (.nth _ _ (some list)) => list.containsHas
  | _ => false

/-- `:has()` occurs in the list, at any depth. -/
def SelectorList.containsHas : SelectorList → Bool
  | .mk _ selectors => Complex.anyContainsHas selectors

def Complex.anyContainsHas : List Complex → Bool
  | [] => false
  | .mk components :: rest => Component.anyContainsHas components || Complex.anyContainsHas rest

def Component.anyContainsHas : List Component → Bool
  | [] => false
  | c :: rest => c.containsHas || Component.anyContainsHas rest

end

end DomQuery.Selector
