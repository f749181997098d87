import DomQuery.Document.Error
import DomQuery.Tree.ElementName
import DomQuery.Url.Parser

/-!
# Editing documents

Nodes are created outside of all trees, and then inserted, moved and removed.
An edit that fails may have done a part of its work: a node that is to move is
taken out before it turns out that it cannot go where it should.
-/

namespace DomQuery.Document

open DomQuery.Text DomQuery.Tree

/-- An edit that may fail. -/
abbrev Edit := ExceptT DocumentError (StateM Document)

variable (d : Document)

/-! ### Nodes and links -/

/-- Adds a node outside of all trees. -/
def addNode (data : NodeData) : NodeId × Document :=
  (⟨d.nodes.size⟩, { d with nodes := d.nodes.push { data } })

def modifyNode (n : NodeId) (f : Node → Node) : Document :=
  { d with nodes := d.nodes.modify n.index f }

/-- Takes `n`, with all that is below it, from where it is. -/
def detach (n : NodeId) : Document :=
  match d.parent n with
  | none => d
  | some p =>
    (d.modifyNode p fun node => { node with children := node.children.erase n }).modifyNode n
      fun node => { node with parent := none }

/-- Puts `n`, which has no parent, among the children of `p`, where `place` says. -/
def link (p n : NodeId) (place : List NodeId → List NodeId) : Document :=
  (d.modifyNode p fun node => { node with children := place node.children }).modifyNode n
    fun node => { node with parent := some p }

/-- `n` at the end. -/
def placeLast (n : NodeId) (nodes : List NodeId) : List NodeId :=
  nodes ++ [n]

/-- `n` in front of `reference`. -/
def placeBefore (reference n : NodeId) : List NodeId → List NodeId
  | [] => []
  | m :: rest => if m = reference then n :: m :: rest else m :: placeBefore reference n rest

/-! ### Creation -/

def createNode (data : NodeData) : StateM Document NodeId :=
  modifyGet fun d => d.addNode data

/-- Adds an element without attributes, and enters it under its name. -/
def createElementNode (localName : String) (ns nsPrefix : Option String) :
    StateM Document NodeId := do
  let n ← createNode (.element { localName, ns, nsPrefix })
  modify fun d => { d with index := d.index.addElement n localName }
  return n

/-- Adds an element of HTML, its name in lower case; in other documents an
element without a namespace. -/
def createElement (name : String) : StateM Document NodeId := do
  match (← get).contentType with
  | .html => createElementNode (lower name) (some htmlNamespace) none
  | .xml => createElementNode name none none

/-- A namespace; the empty one is none. -/
def namespace? (ns : Option String) : Option String :=
  ns.filter (· != "")

/-- Adds an element with a qualified name. -/
def createElementNS (ns : Option String) (qualifiedName : String) : StateM Document NodeId :=
  let (nsPrefix, localName) := splitName qualifiedName
  createElementNode localName (namespace? ns) nsPrefix

/-! ### Insertion and removal -/

/-- Nodes can be put below `p`. -/
def requireContainer (p : NodeId) : Edit Unit := do
  match (← get).data? p with
  | some data => unless data.isContainer do throw (.notAContainer p)
  | none => throw (.missing p)

/-- `n` is a node of the document. -/
def requireNode (n : NodeId) : Edit Unit := do
  if ((← get).node? n).isNone then throw (.missing n)

/-- `n` is `top` or lies below it. -/
def isWithin (top n : NodeId) : Bool :=
  d.links.contains top n

/-- Moves `n` among the children of `p`, where `place` says. It cannot go where
`anchor` is if that is `n` or lies below it. -/
def move (p n anchor : NodeId) (place : List NodeId → List NodeId)
    (toItself toDescendant : DocumentError) : Edit Unit := do
  requireContainer p
  requireNode n
  modify fun d => d.detach n
  if anchor = n then throw toItself
  if (← get).isWithin n anchor then throw toDescendant
  modify fun d => d.link p n place

/-- Puts `child` at the end of the children of `p`. -/
def append (p child : NodeId) : Edit Unit :=
  move p child p (placeLast child) .appendToItself .appendToDescendant

/-- Puts `n` directly before `reference`. -/
def insertBefore (reference n : NodeId) : Edit Unit := do
  match (← get).parent reference with
  | none => throw (.noParent reference)
  | some p => move p n reference (placeBefore reference n) .insertBeforeItself .insertBeforeDescendant

def remove (n : NodeId) : StateM Document Unit :=
  modify fun d => d.detach n

/-! ### Elements and their attributes -/

/-- Changes the element `n` and returns what it was before. -/
def modifyElement (n : NodeId) (f : Element → Element) : Edit Element := do
  match (← get).data? n with
  | some (.element e) =>
    modify fun d => d.modifyNode n fun node => { node with data := .element (f e) }
    return e
  | some _ => throw (.notAnElement n)
  | none => throw (.missing n)

/-- The name under which an attribute of `n` is kept: in lower case for HTML. -/
def attributeName (n : NodeId) (name : String) : String :=
  if d.links.isHtmlElement n then lower name else name

/-- The value of the attribute that is kept under `name`. -/
def valueOf? (attributes : List Attribute) (name : String) : Option String :=
  (attributes.find? fun a => a.name == name).map Attribute.value

/-- `attributes` with the first one called like `a` replaced, or with `a` added
at the end. -/
def writeIn (a : Attribute) : List Attribute → List Attribute
  | [] => [a]
  | b :: rest => if b.name == a.name then a :: rest else b :: writeIn a rest

/-- Writes an attribute and keeps the indices in step. -/
def writeAttribute (n : NodeId) (a : Attribute) : Edit Unit := do
  let before ← modifyElement n fun e => { e with attributes := writeIn a e.attributes }
  modify fun d =>
    { d with
      index := d.index.update n a.name (valueOf? before.attributes a.name) (some a.value) }

def setAttribute (n : NodeId) (name value : String) : Edit Unit := do
  writeAttribute n ⟨(← get).attributeName n name, none, value⟩

/-- Sets an attribute by its qualified name. -/
def setAttributeNS (n : NodeId) (ns : Option String) (name value : String) : Edit Unit :=
  writeAttribute n ⟨name, namespace? ns, value⟩

def removeAttribute (n : NodeId) (name : String) : Edit Unit := do
  let name := (← get).attributeName n name
  let before ← modifyElement n fun e =>
    { e with attributes := e.attributes.eraseP fun a => a.name == name }
  modify fun d => { d with index := d.index.update n name (valueOf? before.attributes name) none }

/-- Adds the attributes that `n` does not have yet. -/
def addMissingAttributes (n : NodeId) (attributes : List Attribute) : Edit Unit :=
  attributes.forM fun a => do
    let isPresent := ((← get).element? n).any fun e =>
      e.attributes.any fun b => b.name == a.name
    unless isPresent do writeAttribute n a

/-! ### Fragments that belong to elements -/

/-- Gives the element `host` a shadow root. -/
def attachShadow (host : NodeId) (mode : ShadowMode) : Edit NodeId := do
  unless ((← get).element? host).any fun e => e.shadowRoot.isNone do throw (.cannotHost host)
  let shadow ← createNode (.fragment (some (host, mode)))
  discard (modifyElement host fun e => { e with shadowRoot := some shadow })
  return shadow

/-- The fragment that holds the content of a template, made if there is none. -/
def ensureContents (template : NodeId) : Edit NodeId := do
  match (← get).contents template with
  | some contents => return contents
  | none =>
    let contents ← createNode (.fragment none)
    discard (modifyElement template fun e => { e with contents := some contents })
    return contents

/-! ### State -/

def modifyState (n : NodeId) (f : ControlState → ControlState) : Edit Unit :=
  discard (modifyElement n fun e => { e with state := f e.state })

def setChecked (n : NodeId) (on : Bool) : Edit Unit :=
  modifyState n fun state => { state with checked := some on }

def setSelected (n : NodeId) (on : Bool) : Edit Unit :=
  modifyState n fun state => { state with selected := some on }

def setIndeterminate (n : NodeId) (on : Bool) : Edit Unit :=
  modifyState n fun state => { state with indeterminate := on }

def setValue (n : NodeId) (value : String) : Edit Unit :=
  modifyState n fun state => { state with value := some value }

/-- Moves the focus to an element, or to none. -/
def focus (target : Option NodeId) : Edit Unit := do
  match target with
  | some n => if ((← get).element? n).isNone then throw (.notFocusable n)
  | none => pure ()
  modify fun d => { d with focused := target }

/-- Defines a custom element. -/
def define (name : String) : Edit Unit := do
  unless isCustomElementName name do throw (.badElementName name)
  if (← get).defined.contains name then throw (.alreadyDefined name)
  modify fun d => { d with defined := name :: d.defined }

/-- Gives the document an absolute address. -/
def setAddress (address : String) : Edit Unit := do
  match Url.fragment? address with
  | .ok fragment => modify fun d => { d with fragment := fragment }
  | .error fault => throw (.badAddress fault)

end DomQuery.Document
