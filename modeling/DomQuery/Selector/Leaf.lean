import DomQuery.Selector.Error
import DomQuery.Selector.Simple

/-!
# Simple selectors with lists as written

Names, flags and arguments are looked at once, when a complex selector is split
into a chain. A list in an argument stays as it was written at first; how its
branches are to be read goes by the pseudo-class it belongs to.

A complex selector is split without a look into its lists, so it is faulty for
itself before it is faulty for a list inside of it.
-/

namespace DomQuery.Selector

open DomQuery.Text DomQuery.Tree

/-- A simple selector before the list in its argument is looked up. -/
inductive Leaf where
  /-- No list, or none that is ever looked at. -/
  | plain (s : Simple)
  /-- `:is()`, `:where()` -/
  | matchesAny (list : SelectorList)
  /-- `:not()` -/
  | matchesNone (list : SelectorList)
  | has (list : SelectorList)
  /-- `:nth-child()` and its kin with a list after `of`. -/
  | nth (form : NthForm) (list : SelectorList)
  | host (list : SelectorList)
  | hostContext (list : SelectorList)

namespace Leaf

/-- The list to look up, and how to read its branches. A list of `:has()` with
another `:has()` in it is never looked at. -/
def nested? : Leaf → Option (ListMode × SelectorList)
  | .plain _ => none
  | .matchesAny list => some (.forgiving, list)
  | .matchesNone list | .nth _ list => some (.strict, list)
  | .has list => if list.containsHas then none else some (.relative, list)
  | .host list | .hostContext list => some (.compound, list)

/-- The place of a simple selector in its compound: cheap and telling ones come
first. -/
def priority : Leaf → Nat
  | .plain s => s.priority
  | _ => 5

/-- A compound in the order in which it is tested. The sort is stable. -/
def sortCompound (compound : List Leaf) : List Leaf :=
  compound.mergeSort fun a b => a.priority ≤ b.priority

end Leaf

/-! ### Names and arguments -/

def caseFlag? (flag : String) : Option CaseFlag :=
  match lower flag with
  | "i" => some .insensitive
  | "s" => some .sensitive
  | _ => none

/-- The test for an attribute selector, unless its flag does not exist. -/
def AttributeSelector.test? (a : AttributeSelector) : Option AttributeTest :=
  match a.comparison with
  | none => some ⟨a.qualifier, a.name, none, none⟩
  | some ⟨operator, value, none⟩ => some ⟨a.qualifier, a.name, none, some (operator, value)⟩
  | some ⟨operator, value, some flag⟩ =>
    (caseFlag? flag).map fun flag => ⟨a.qualifier, a.name, some flag, some (operator, value)⟩

/-- The first of its kind from either end. -/
def firstForm (fromEnd ofType : Bool) : Simple :=
  .nth ⟨fromEnd, ofType, 0, 1⟩ none

/-- The pseudo-class `name` without an argument. `component` is the selector to
complain about. -/
def readKeywordClass (component : Component) (name : String) : Except SelectorError Simple :=
  if singleColonElements.contains name then .ok (.pseudoElement name)
  else
    match Keyword.ofName? name with
    | some k => .ok (.keyword k)
    | none =>
      match name with
      | "first-child" => .ok (firstForm false false)
      | "last-child" => .ok (firstForm true false)
      | "first-of-type" => .ok (firstForm false true)
      | "last-of-type" => .ok (firstForm true true)
      | "host" => .ok (.host none)
      | "host-context" => .error (.invalid component)
      | "visited" | "local-link" => .ok .never
      | _ =>
        if isUnsupportedClass name then .ok (.unsupported name)
        else .error (.unknownPseudoClass component)

/-- The form that `name` gives to `an+b`. -/
def nthForm (name : String) (a b : Int) : NthForm :=
  match name with
  | "nth-child" => ⟨false, false, a, b⟩
  | "nth-last-child" => ⟨true, false, a, b⟩
  | "nth-of-type" => ⟨false, true, a, b⟩
  | _ => ⟨true, true, a, b⟩

def direction? : List String → Option Direction
  | "ltr" :: _ => some .leftToRight
  | "rtl" :: _ => some .rightToLeft
  | _ => none

/-- The pseudo-class `name` with an argument that is no list. -/
def readWordsClass (component : Component) (name : String) (texts : List String) :
    Except SelectorError Simple :=
  match name with
  | "lang" => .ok (.lang (texts.map LanguageRange.ofText))
  | "dir" => .ok (.dir (direction? texts))
  | _ =>
    if isUnsupportedClass name then .ok (.unsupported name)
    else .error (.unknownPseudoClass component)

/-- The pseudo-class `name` with an argument. -/
def Argument.leaf (component : Component) (name : String) : Argument → Except SelectorError Leaf
  | .selectors list =>
    match name with
    | "is" | "where" => .ok (.matchesAny list)
    | "not" => .ok (.matchesNone list)
    | "has" => .ok (.has list)
    | "host" => .ok (.host list)
    | "host-context" => .ok (.hostContext list)
    | _ => .plain <$> readWordsClass component name []
  | .nth a b none => .ok (.plain (.nth (nthForm name a b) none))
  | .nth a b (some list) => .ok (.nth (nthForm name a b) list)
  | .words texts => .plain <$> readWordsClass component name texts
  | .raw _ => .plain <$> readWordsClass component name []

/-- A component that is no combinator. -/
def Component.leaf : Component → Except SelectorError Leaf
  | .combinator _ => .ok (.plain .never)
  | .type t => .ok (.plain (.type t))
  | .id name => .ok (.plain (.id name))
  | .className name => .ok (.plain (.className name))
  | .attr a =>
    match a.test? with
    | some test => .ok (.plain (.attr test))
    | none => .error (.invalid (.attr a))
  | .pseudoElement name argument =>
    if isKnownElement name then .ok (.plain (.pseudoElement name))
    else .error (.unknownPseudoElement (.pseudoElement name argument))
  | .pseudoClass name none => .plain <$> readKeywordClass (.pseudoClass name none) name
  | .pseudoClass name (some argument) =>
    argument.leaf (.pseudoClass name (some argument)) name

/-! ### Branches -/

def Component.part : Component → Combinator ⊕ Except SelectorError Leaf
  | .combinator c => .inl c
  | c => .inr c.leaf

/-- The chain of a branch. -/
def Complex.decompose (mode : ListMode) (within : Complex) :
    Except SelectorError (Chain (List Leaf)) := do
  let chain ← Chain.split mode within (within.components.map Component.part)
  return chain.map Leaf.sortCompound

end DomQuery.Selector
