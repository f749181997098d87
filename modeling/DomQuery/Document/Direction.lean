import DomQuery.Document.Basic
import DomQuery.Text.Bidi

/-!
# The direction of text

An element may set a direction, or leave it to its content, or to the element it
is in. Content decides by its first strong character; some elements do not count
as content for that.
-/

namespace DomQuery.Document

open DomQuery.Text DomQuery.Tree

variable (d : Document)

/-- The value of an element: what the user made of it, else what it came with. -/
def value (n : NodeId) : String :=
  match d.element? n with
  | none => ""
  | some e => e.state.value.getD (d.links.initialValue n)

/-- The `dir` attribute, in lower case. Its name may be in any case. -/
def dirAttribute? (e : Element) : Option String :=
  (e.attributes.find? fun a => lower a.name == "dir").map fun a => lower a.value

/-- The content of `e` says nothing of the direction of what is around it. -/
def isIsolated (e : Element) : Bool :=
  ["bdi", "script", "style", "textarea"].contains e.localName ||
    match dirAttribute? e with
    | some "ltr" | some "rtl" | some "auto" => true
    | _ => false

/-- The direction of the first strong character below `n`, going down no deeper
than the first argument. -/
def firstStrongWithin : Nat → NodeId → Option Direction
  | 0, _ => none
  | depth + 1, n =>
    (d.children n).findSome? fun c =>
      match d.data? c with
      | some (.text text) => textDirection? text
      | some (.element e) => if isIsolated e then none else firstStrongWithin depth c
      | _ => none

def firstStrong? (n : NodeId) : Option Direction :=
  d.firstStrongWithin d.nodes.size n

/-- The direction that the content of `n` gives, or the value of a control. -/
def contentDirection (e : Element) (n : NodeId) : Direction :=
  let byValue := e.ns == some htmlNamespace &&
    (e.localName == "input" || e.localName == "textarea")
  (if byValue then textDirection? (d.value n) else d.firstStrong? n).getD .leftToRight

/-- The direction that an element sets for itself. -/
def ownDirection? (n : NodeId) : Option Direction :=
  match d.element? n with
  | none => none
  | some e =>
    let isHtml := e.ns == some htmlNamespace
    match dirAttribute? e with
    | some "ltr" => some .leftToRight
    | some "rtl" => some .rightToLeft
    | some "auto" => some (d.contentDirection e n)
    | _ =>
      if isHtml && e.localName == "bdi" then some (d.contentDirection e n)
      else if isHtml && e.localName == "input" &&
          (d.links.attribute? n "type").map lower == some "tel" then
        some .leftToRight
      else none

/-- The direction of an element, its own or that of the nearest element above it
that has one. Nothing else has a direction but the usual one. -/
def direction (n : NodeId) : Direction :=
  if (d.element? n).isSome then
    ((d.links.heritageLine n).findSome? d.ownDirection?).getD .leftToRight
  else .leftToRight

end DomQuery.Document
