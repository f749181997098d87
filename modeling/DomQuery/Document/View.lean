import DomQuery.Document.Direction
import DomQuery.Tree.View

/-!
# Documents for matching

A document keeps indices and state. Here it shows them to selectors.
-/

namespace DomQuery.Document

open DomQuery.Text DomQuery.Tree

variable (d : Document)

/-- Document order; trees come in the order in which their topmost nodes were
created. -/
def compareOrder (a b : NodeId) : Ordering :=
  d.links.compareOrder (fun a b => compare a.index b.index) a b

/-- Those of `nodes` that lie strictly below `scope`, in document order. -/
def below (scope : NodeId) (nodes : List NodeId) : List NodeId :=
  (nodes.filter fun n => n != scope && d.links.contains scope n).mergeSort
    fun a b => (d.compareOrder a b).isLE

/-- The elements that a type selector with this name may mean: names of HTML
elements are looked up in lower case. -/
def namedElements (name : String) : List NodeId :=
  let lowered := lower name
  let exact := (d.index.names.find name).filter fun n =>
    !d.links.isHtmlElement n || name == lowered
  if lowered == name then exact
  else exact ++ (d.index.names.find lowered).filter d.links.isHtmlElement

/-- A document with its indices, its focus and the state of its controls. -/
def view : View NodeId where
  toLinks := d.links
  ownerDocument _ := some root
  compare := d.compareOrder
  elementsById scope id := some (d.below scope (d.index.ids.find id))
  elementsByClass scope name := some (d.below scope (d.index.classes.find name))
  elementsByName scope name :=
    if name == "*" then none else some (d.below scope (d.namedElements name))
  direction := d.direction
  isDefined n :=
    let name := d.links.localName n
    !isCustomElementName name || d.defined.contains name
  activeElement _ := d.focused
  fragment _ := d.fragment
  isChecked n :=
    ((d.element? n).bind fun e => e.state.checked).getD (d.links.hasAttribute n "checked")
  isSelected n :=
    ((d.element? n).bind fun e => e.state.selected).getD (d.links.hasAttribute n "selected")
  isIndeterminate n := (d.element? n).any fun e => e.state.indeterminate
  value := d.value

end DomQuery.Document
