import DomQuery.Document.Index
import DomQuery.Tree.Basic
import DomQuery.Tree.Links

/-!
# Documents

A document is a table of nodes that only grows. A node is named by its place in
the table, which is the order of creation; the document itself is the first one.
A node knows its parent and lists its children, so there is one order of
siblings and no other place to read it from. Nodes without a parent are trees of
their own: the document, fragments, and whatever is not inserted yet or was
removed.
-/

namespace DomQuery.Document

open DomQuery.Tree

inductive ContentType where
  /-- Names of elements and attributes are written in any case. -/
  | html
  | xml
deriving DecidableEq, Repr

/-- The media type. -/
def ContentType.mime : ContentType → String
  | .html => "text/html"
  | .xml => "application/xml"

inductive ShadowMode where
  | open
  | closed
deriving DecidableEq, Repr

def ShadowMode.name : ShadowMode → String
  | .open => "open"
  | .closed => "closed"

/-- What the user did to a control. Where nothing was done the attributes count. -/
structure ControlState where
  checked : Option Bool := none
  selected : Option Bool := none
  indeterminate : Bool := false
  value : Option String := none
deriving DecidableEq, Repr, Inhabited

structure Element where
  localName : String
  ns : Option String
  nsPrefix : Option String
  /-- In the order in which they were first set. -/
  attributes : List Attribute := []
  shadowRoot : Option NodeId := none
  /-- The fragment that holds the content of a template. -/
  contents : Option NodeId := none
  state : ControlState := {}
deriving DecidableEq, Repr

/-- The local name, after its prefix if it has one. -/
def Element.qualifiedName (e : Element) : String :=
  match e.nsPrefix with
  | some p => p ++ ":" ++ e.localName
  | none => e.localName

/-- What a node is. -/
inductive NodeData where
  | document
  /-- A fragment, with its host and mode when it is a shadow root. -/
  | fragment (shadow : Option (NodeId × ShadowMode))
  | element (e : Element)
  | text (text : String)
  | comment (text : String)
  | doctype (name : String)
deriving DecidableEq, Repr

namespace NodeData

def kind : NodeData → NodeKind
  | .document => .document
  | .fragment _ => .fragment
  | .element _ => .element
  | .text _ => .text
  | .comment _ => .comment
  | .doctype _ => .other

def element? : NodeData → Option Element
  | .element e => some e
  | _ => none

/-- Nodes of this kind have children. -/
def isContainer : NodeData → Bool
  | .document | .fragment _ | .element _ => true
  | _ => false

end NodeData

structure Node where
  data : NodeData
  parent : Option NodeId := none
  children : List NodeId := []
deriving DecidableEq, Repr

end DomQuery.Document

namespace DomQuery

open DomQuery.Document DomQuery.Tree

structure Document where
  contentType : ContentType
  nodes : Array Node
  /-- The fragment of the address, if there is one. -/
  fragment : Option String := none
  focused : Option NodeId := none
  /-- The names of the custom elements that are defined. -/
  defined : List String := []
  index : Index := {}

namespace Document

/-- The document without nodes but its own. -/
def empty (contentType : ContentType) : Document where
  contentType := contentType
  nodes := #[{ data := .document }]

/-- The node of the document itself. -/
def root : NodeId := ⟨0⟩

variable (d : Document)

def node? (n : NodeId) : Option Node :=
  d.nodes[n.index]?

def data? (n : NodeId) : Option NodeData :=
  (d.node? n).map Node.data

def element? (n : NodeId) : Option Element :=
  (d.data? n).bind NodeData.element?

def parent (n : NodeId) : Option NodeId :=
  (d.node? n).bind Node.parent

def children (n : NodeId) : List NodeId :=
  ((d.node? n).map Node.children).getD []

/-- What follows `n` in a list. -/
def following (n : NodeId) : List NodeId → List NodeId
  | [] => []
  | m :: rest => if m = n then rest else following n rest

/-- The children of the parent of `n`. -/
def siblings (n : NodeId) : List NodeId :=
  match d.parent n with
  | some p => d.children p
  | none => []

def nextSibling (n : NodeId) : Option NodeId :=
  (following n (d.siblings n)).head?

def previousSibling (n : NodeId) : Option NodeId :=
  (following n (d.siblings n).reverse).head?

def shadowHost (n : NodeId) : Option NodeId :=
  match d.data? n with
  | some (.fragment (some (host, _))) => some host
  | _ => none

def shadowRoot (n : NodeId) : Option NodeId :=
  (d.element? n).bind Element.shadowRoot

/-- The fragment that holds the content of a template. -/
def contents (n : NodeId) : Option NodeId :=
  (d.element? n).bind Element.contents

/-- The data of texts and comments. -/
def textData (n : NodeId) : Option String :=
  match d.data? n with
  | some (.text text) | some (.comment text) => some text
  | _ => none

/-- The tree of a document, seen through its links. -/
def links : Links NodeId where
  size := d.nodes.size
  kind n := ((d.data? n).map NodeData.kind).getD .other
  parent := d.parent
  firstChild n := (d.children n).head?
  lastChild n := (d.children n).getLast?
  nextSibling := d.nextSibling
  previousSibling := d.previousSibling
  localName n := ((d.element? n).map Element.localName).getD ""
  nsPrefix n := (d.element? n).bind Element.nsPrefix
  ns n := (d.element? n).bind Element.ns
  attributes n := ((d.element? n).map Element.attributes).getD []
  textData := d.textData
  shadowHost := d.shadowHost
  isHtmlDocument _ := d.contentType == .html

/-- A node and all nodes below it, in document order. No path is longer than the
first argument. -/
def subtreeWithin : Nat → NodeId → List NodeId
  | 0, n => [n]
  | depth + 1, n => n :: (d.children n).flatMap (subtreeWithin depth)

/-- `n` and all nodes below it, in document order. -/
def subtree (n : NodeId) : List NodeId :=
  d.subtreeWithin d.nodes.size n

/-- The text of a text node. -/
def text? (n : NodeId) : Option String :=
  match d.data? n with
  | some (.text text) => some text
  | _ => none

/-- All text in the subtree of `n`. -/
def textContent (n : NodeId) : String :=
  String.join ((d.subtree n).filterMap d.text?)

end Document

end DomQuery
