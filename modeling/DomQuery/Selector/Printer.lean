import DomQuery.Css.Serialize
import DomQuery.Selector.Basic

/-!
# Selectors as text

The canonical text of a selector: one blank around combinators, quotes around
attribute values, names escaped where they need it. Keyword arguments that hold
a `*` are language ranges and are written as they are.
-/

namespace DomQuery.Selector

open DomQuery.Css

def Qualifier.text : Qualifier → String
  | .any => "*|"
  | .none => "|"
  | .named p => identifier p ++ "|"

def qualifierText : Option Qualifier → String
  | some q => q.text
  | none => ""

def TypeSelector.text (t : TypeSelector) : String :=
  qualifierText t.qualifier ++ if t.isUniversal then "*" else identifier t.localName

def Comparison.text (c : Comparison) : String :=
  let flag := match c.flag with
    | some flag => " " ++ identifier flag
    | none => ""
  c.operator.text ++ quotedString c.value ++ flag

def AttributeSelector.text (a : AttributeSelector) : String :=
  let comparison := match a.comparison with
    | some c => c.text
    | none => ""
  "[" ++ qualifierText a.qualifier ++ identifier a.name ++ comparison ++ "]"

/-- `an+b` without its zero parts. -/
def stepText (a b : Int) : String :=
  if a == 0 then toString b
  else if b == 0 then toString a ++ "n"
  else if b < 0 then toString a ++ "n" ++ toString b
  else toString a ++ "n+" ++ toString b

def wordText (text : String) : String :=
  if text.toList.contains '*' then text else identifier text

/-- A combinator inside a complex selector; `first` when nothing precedes it. -/
def combinatorText (first : Bool) : Combinator → String
  | .descendant => " "
  | c => (if first then "" else " ") ++ c.text ++ " "

mutual

def Component.text : Component → String
  | .combinator c => c.text
  | .type t => t.text
  | .id name => "#" ++ identifier name
  | .className name => "." ++ identifier name
  | .attr a => a.text
  | .pseudoClass name argument => ":" ++ identifier name ++ Argument.parenthesized argument
  | .pseudoElement name none => "::" ++ identifier name
  | .pseudoElement name (some argument) => "::" ++ identifier name ++ "(" ++ argument ++ ")"

def Argument.parenthesized : Option Argument → String
  | some argument => "(" ++ argument.text ++ ")"
  | none => ""

def Argument.text : Argument → String
  | .selectors list => list.text
  | .nth a b none => stepText a b
  | .nth a b (some list) => stepText a b ++ " of " ++ list.text
  | .words texts => ", ".intercalate (texts.map wordText)
  | .raw text => text

def SelectorList.text : SelectorList → String
  | .mk _ selectors => ", ".intercalate (Complex.texts selectors)

def Complex.texts : List Complex → List String
  | [] => []
  | .mk components :: rest => Component.texts true components :: Complex.texts rest

/-- The components in order; `first` holds before the first of them. -/
def Component.texts (first : Bool) : List Component → String
  | [] => ""
  | .combinator c :: rest => combinatorText first c ++ Component.texts false rest
  | c :: rest => c.text ++ Component.texts false rest

end

def Complex.text (s : Complex) : String :=
  Component.texts true s.components

end DomQuery.Selector
