import DomQuery.Query.Context

/-!
# Attribute selectors

An attribute is selected by its name, its prefix and its value. In HTML
documents all three are compared without regard to ASCII case, unless the
selector asks otherwise; in other documents only if it asks for it.
-/

namespace DomQuery.Query

open DomQuery.Selector DomQuery.Text DomQuery.Tree

/-- The value satisfies the operator. Only `=` finds an empty text. -/
def holdsOperator (operator : Operator) (expected value : String) : Bool :=
  match operator with
  | .equals => value == expected
  | .includes => expected != "" && (words value).contains expected
  | .dashMatch =>
    expected != "" &&
      (value == expected || (expected.toList ++ ['-']).isPrefixOf value.toList)
  | .startsWith => expected != "" && expected.toList.isPrefixOf value.toList
  | .endsWith => expected != "" && expected.toList.isSuffixOf value.toList
  | .contains => expected != "" && occursIn expected.toList value.toList

variable {ν : Type} [DecidableEq ν]

/-- Names and values are compared without regard to ASCII case. -/
def foldsCase (t : Links ν) (flag : Option CaseFlag) (n : ν) : Bool :=
  if t.isHtmlDocument n then flag != some .sensitive else flag == some .insensitive

/-- The attribute, whose name is already folded, is one that the selector
names. A prefix has to be declared. Without a bar the name may be the whole
qualified name or its local part, but `lang` alone does not find `xml:lang`. -/
def selectsName (t : Links ν) (n : ν) (qualifier : Option Qualifier) (fold : String → String)
    (wanted name : String) : Bool :=
  let (pre, localName) := splitName name
  match qualifier with
  | none =>
    (pre != some "xml" || localName != "lang" || wanted == name) &&
      (wanted == name || wanted == localName)
  | some .any => wanted == localName
  | some .none => pre.isNone && wanted == localName
  | some (.named p) =>
    pre == some (fold p) && (t.lookupNamespace n (fold p)).isSome && wanted == localName

/-- An attribute of `n` satisfies the test. -/
def holdsAttribute (t : Links ν) (test : AttributeTest) (n : ν) : Bool :=
  let fold (text : String) := if foldsCase t test.flag n then lower text else text
  (t.attributes n).any fun a =>
    selectsName t n test.qualifier fold (fold test.name) (fold a.name) &&
      match test.comparison with
      | none => true
      | some (operator, expected) => holdsOperator operator (fold expected) (fold a.value)

end DomQuery.Query
