import DomQuery.Tree.ElementName
import DomQuery.Tree.Links

/-!
# Trees with state

A tree may know more of its nodes than its links tell: indices of its elements,
where the focus is, what the user did to a control. `View` adds that to the
links, and `View.bare` is the view of a tree that knows nothing more.
-/

namespace DomQuery.Tree

/-- Links, and what the tree knows besides. -/
structure View (ν : Type) extends Links ν where
  ownerDocument : ν → Option ν
  compare : ν → ν → Ordering
  /-- The elements below a document with this id, in document order; `none`
  when the tree keeps no index. -/
  elementsById : ν → String → Option (List ν)
  /-- The elements below a node with this class, likewise. -/
  elementsByClass : ν → String → Option (List ν)
  /-- The elements below a node with this local name, likewise. -/
  elementsByName : ν → String → Option (List ν)
  direction : ν → Direction
  /-- Not a custom element that still waits for its definition. -/
  isDefined : ν → Bool
  /-- The focused element of a document. -/
  activeElement : ν → Option ν
  /-- The fragment of the address of a document. -/
  fragment : ν → Option String
  isChecked : ν → Bool
  isSelected : ν → Bool
  isIndeterminate : ν → Bool
  /-- The value of a control. -/
  value : ν → String

/-- The view of a tree without indices and without state. Disconnected trees
compare as equal. -/
def View.bare {ν : Type} [DecidableEq ν] (t : Links ν) : View ν where
  toLinks := t
  ownerDocument := t.ownerDocument
  compare := t.compareOrder fun _ _ => .eq
  elementsById _ _ := none
  elementsByClass _ _ := none
  elementsByName _ _ := none
  direction := t.inheritedDirection
  isDefined n := !(t.localName n).toList.contains '-'
  activeElement _ := none
  fragment _ := none
  isChecked n := t.hasAttribute n "checked"
  isSelected n := t.hasAttribute n "selected"
  isIndeterminate _ := false
  value := t.initialValue

end DomQuery.Tree
