import DomQuery.Query.Context

/-!
# Type selectors

An element is selected by its local name and, where a bar is written, by its
namespace. A prefix means the namespace that is declared for it at the element,
and it is an error if none is, unless the selector stands in a forgiving list.
-/

namespace DomQuery.Query

open DomQuery.Selector DomQuery.Text DomQuery.Tree

variable {ν : Type} [DecidableEq ν]

/-- The prefix and local name of an element. A colon in the stored name counts
as part of a qualified name. -/
def nameParts (t : Links ν) (n : ν) : String × String :=
  match splitName (t.localName n) with
  | (some pre, localName) => (pre, localName)
  | (none, localName) => ((t.nsPrefix n).getD "", localName)

/-- `n` satisfies a type selector; `none` when the prefix is not declared. -/
def selectsType? (t : Links ν) (s : TypeSelector) (n : ν) : Except QueryError Bool :=
  let fold := t.isHtmlElement n
  let (pre, localName) := nameParts t n
  let named := s.isUniversal ||
    (if fold then eqFold s.localName localName else s.localName == localName)
  match s.qualifier with
  | none | some .any => .ok named
  | some .none => .ok (named && pre == "" && (t.ns n).getD "" == "")
  | some (.named p) =>
    let p := if fold then lower p else p
    match t.lookupNamespace n p with
    | none => .error (.undefinedPrefix p)
    | some uri => .ok (named && p == pre && t.ns n == some uri)

end DomQuery.Query
