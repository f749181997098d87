import DomQuery.Document.Operation
import DomQuery.Markup.Element
import DomQuery.Markup.Lexer

/-!
# Building a tree from tags

A builder keeps the document as far as it is built, the elements that are open,
and a mode that says which part of a page it is in. Nodes are inserted into the
innermost open element; what does not belong into a table goes in front of it.
-/

namespace DomQuery.Markup

open DomQuery.Document DomQuery.Text DomQuery.Tree

/-- The part of a page that a builder is in. -/
inductive Mode where
  | initial
  | beforeHtml
  | beforeHead
  | inHead
  | afterHead
  | inBody
  | text
  | inTable
  | inTableText
  | inCaption
  | inColumnGroup
  | inTableBody
  | inRow
  | inCell
  | inSelect
  | inSelectInTable
  | inTemplate
  | afterBody
  | inFrameset
  | afterFrameset
  | afterAfterBody
  | afterAfterFrameset
deriving DecidableEq, Repr

/-- An element that marks up words, and is opened again when a block cuts it
off. Nothing beyond a marker is. -/
inductive Formatting where
  | marker
  | element (e : OpenElement) (tag : Tag)
deriving DecidableEq, Repr

structure Builder where
  document : Grown
  mode : Mode := .initial
  /-- The mode to return to from a text. -/
  returnMode : Mode := .initial
  /-- The modes of the open templates, innermost first. -/
  templateModes : List Mode := []
  /-- Innermost first. -/
  openElements : List OpenElement := []
  /-- Last first. -/
  formatting : List Formatting := []
  head : Option OpenElement := none
  form : Option NodeId := none
  /-- Nothing was seen yet that rules out a frameset. -/
  framesetAllowed : Bool := true
  /-- A line feed that comes next is left out. -/
  skipsLineFeed : Bool := false
  /-- What is inserted into a table goes in front of it. -/
  fosters : Bool := false
  /-- Text in a table that waits for its end, last first. -/
  tableText : List Token := []
  /-- The page asks for the old mode. -/
  isOld : Bool := false
  /-- How the text that comes next is to be read. -/
  content : Content := .markup

abbrev Build := StateM Builder

/-- What became of a token. -/
inductive Outcome where
  | done
  /-- It is to be looked at again, in the mode set by now. -/
  | again
deriving DecidableEq, Repr

def setMode (mode : Mode) : Build Unit :=
  modify fun b => { b with mode }

/-- Goes on with the same token in another mode. -/
def againIn (mode : Mode) : Build Outcome := do
  setMode mode
  return .again

/-! ### Open elements -/

def current? : Build (Option OpenElement) :=
  return (← get).openElements.head?

def currentIs (name : String) : Build Bool :=
  return (← current?).any fun e => e.isNamed name

def currentIsOneOf (names : List String) : Build Bool :=
  return (← current?).any fun e => e.isOneOf names

/-- An HTML element with this name is open. -/
def isOpen (name : String) : Build Bool :=
  return (← get).openElements.any fun e => e.isNamed name

/-- The element of the page. -/
def outermost? : Build (Option OpenElement) :=
  return (← get).openElements.getLast?

/-- The body, if it is where it should be. -/
def body? : Build (Option OpenElement) := do
  match (← get).openElements.reverse with
  | _ :: e :: _ => return if e.isNamed "body" then some e else none
  | _ => return none

def isInScope (isEnd p : OpenElement → Bool) : Build Bool :=
  return inScope isEnd p (← get).openElements

def namedInScope (isEnd : OpenElement → Bool) (name : String) : Build Bool :=
  isInScope isEnd fun e => e.isNamed name

def setOpen (openElements : List OpenElement) : Build Unit :=
  modify fun b => { b with openElements }

def push (e : OpenElement) : Build Unit :=
  modify fun b => { b with openElements := e :: b.openElements }

def pop : Build Unit :=
  modify fun b => { b with openElements := b.openElements.tail }

/-- Closes elements up to and with the innermost one that satisfies `p`. -/
def popThrough (p : OpenElement → Bool) : Build Unit :=
  modify fun b => { b with openElements := (b.openElements.dropWhile fun e => !p e).drop 1 }

def popThroughNamed (name : String) : Build Unit :=
  popThrough fun e => e.isNamed name

/-- Closes elements down to the innermost one that satisfies `p`. -/
def popTo (p : OpenElement → Bool) : Build Unit :=
  modify fun b => { b with openElements := b.openElements.dropWhile fun e => !p e }

/-- Closes the innermost element if it has this name. -/
def popIf (name : String) : Build Unit := do
  if ← currentIs name then pop

/-- Closes an element, wherever it is among the open ones. -/
def removeOpen (n : NodeId) : Build Unit :=
  modify fun b => { b with openElements := b.openElements.eraseP fun e => e.node == n }

/-- Closes the elements that end without an end tag. -/
def closeImplied (names : List String) : Build Unit :=
  modify fun b => { b with openElements := b.openElements.dropWhile fun e => e.isOneOf names }

def closeImpliedExcept (name : String) : Build Unit :=
  closeImplied (impliedEnds.erase name)

/-- Closes a paragraph and what is open in it. -/
def closeParagraph : Build Unit := do
  closeImpliedExcept "p"
  popThroughNamed "p"

/-- Closes the paragraph that a block would stand in. -/
def endParagraph : Build Unit := do
  if ← namedInScope isButtonScopeEnd "p" then closeParagraph

/-! ### Insertion -/

/-- Edits the document; an edit that fails is passed over. -/
def edit (e : Edit Unit) [h : IsLawful e] : Build Unit :=
  modify fun b =>
    { b with document := ⟨b.document.val.after e, h.reachable b.document.property⟩ }

def create (e : StateM Document NodeId) [h : IsLawful (liftM e : Edit NodeId)] : Build NodeId :=
  modifyGet fun b =>
    let created := e.run b.document.val
    (created.1, { b with document := ⟨created.2, h.reachable b.document.property⟩ })

/-- Where a piece is inserted. -/
inductive Place where
  | inside (p : NodeId)
  /-- Before a table, or else in the element it would be in. -/
  | beforeTable (table parent : NodeId)

/-- Inside of an element, or of the content of a template. -/
def placeInside (e : OpenElement) : Build Place := do
  if e.isNamed "template" then
    return .inside (((← get).document.val.contents e.node).getD e.node)
  else return .inside e.node

/-- The place for what does not belong into the innermost table. -/
def fosterPlace : List OpenElement → Build Place
  | [] => return .inside Document.root
  | e :: rest => do
    if e.isNamed "template" then placeInside e
    else if e.isNamed "table" then
      return .beforeTable e.node ((rest.head?.map OpenElement.node).getD e.node)
    else if rest.isEmpty then return .inside e.node
    else fosterPlace rest

/-- The place for a new child of `target`. -/
def placeFor (target : OpenElement) : Build Place := do
  let b ← get
  if b.fosters && target.isOneOf ["table", "tbody", "tfoot", "thead", "tr"] then
    fosterPlace b.openElements
  else placeInside target

def insertAt (place : Place) (piece : Piece) : Build Unit :=
  match place with
  | .inside p => edit (insertLast p piece)
  | .beforeTable table parent => edit (insertAround table parent piece)

/-- Inserts into the innermost open element. -/
def insertPiece (piece : Piece) : Build Unit := do
  match ← current? with
  | some e => insertAt (← placeFor e) piece
  | none => edit (insertLast Document.root piece)

def insertText (text : String) : Build Unit :=
  insertPiece (.text text)

def insertComment (text : String) : Build Unit := do
  insertPiece (.node (← create (createNode (.comment text))))

/-- Inserts a comment at the end of a node. -/
def insertCommentIn (p : NodeId) (text : String) : Build Unit := do
  let n ← create (createNode (.comment text))
  edit (append p n)

/-- The attributes of a tag as it is written. -/
def Tag.plainAttributes (tag : Tag) : List Attribute :=
  tag.attributes.map fun (name, value) => ⟨name, none, value⟩

/-- Creates an element; templates get a fragment for their content. -/
def createElement (ns : Namespace) (name : String) (attributes : List Attribute) :
    Build OpenElement := do
  let n ← create (createElementNode name (some ns.uri) none)
  edit (addMissingAttributes n attributes)
  let e : OpenElement := ⟨n, ns, name⟩
  if e.isNamed "template" then edit (discard (ensureContents n))
  return e

/-- Creates an element and inserts it without opening it. -/
def insertElement (ns : Namespace) (name : String) (attributes : List Attribute) :
    Build OpenElement := do
  let e ← createElement ns name attributes
  insertPiece (.node e.node)
  return e

/-- Inserts the HTML element of a tag that has no content. -/
def insertVoid (tag : Tag) : Build Unit :=
  discard (insertElement .html tag.name tag.plainAttributes)

/-- Inserts the HTML element of a tag and opens it. -/
def openElement (tag : Tag) : Build OpenElement := do
  let e ← insertElement .html tag.name tag.plainAttributes
  push e
  return e

def insertOpen (tag : Tag) : Build Unit :=
  discard (openElement tag)

/-- Inserts and opens an element that no tag was written for. -/
def openImplied (name : String) : Build OpenElement :=
  openElement { isStart := true, name }

/-- Inserts an element that holds text, which is to be read as `content`. -/
def insertTextElement (tag : Tag) (content : Content) : Build Unit := do
  insertOpen tag
  modify fun b => { b with returnMode := b.mode, mode := .text, content }

def ruleOutFrameset : Build Unit :=
  modify fun b => { b with framesetAllowed := false }

/-! ### Modes from open elements -/

/-- The mode that belongs to a select, given what it is in. -/
def selectMode (outer : List OpenElement) : Mode :=
  match outer.find? fun e => e.isOneOf ["template", "table"] with
  | some e => if e.isNamed "table" then .inSelectInTable else .inSelect
  | none => .inSelect

/-- The mode that belongs to the open elements. -/
def modeOf (b : Builder) : List OpenElement → Mode
  | [] => .inBody
  | e :: outer =>
    if e.ns != .html then modeOf b outer
    else
      match e.name with
      | "select" => selectMode outer
      | "td" | "th" => if outer.isEmpty then .inBody else .inCell
      | "tr" => .inRow
      | "tbody" | "thead" | "tfoot" => .inTableBody
      | "caption" => .inCaption
      | "colgroup" => .inColumnGroup
      | "table" => .inTable
      | "template" => b.templateModes.head?.getD .inBody
      | "head" => if outer.isEmpty then .inBody else .inHead
      | "body" => .inBody
      | "frameset" => .inFrameset
      | "html" => if b.head.isNone then .beforeHead else .afterHead
      | _ => modeOf b outer

/-- Goes to the mode that belongs to the open elements. -/
def resetMode : Build Unit :=
  modify fun b => { b with mode := modeOf b b.openElements }

/-! ### Templates -/

/-- Forgets formatting up to and with the last marker. -/
def clearFormatting : Build Unit :=
  modify fun b =>
    { b with formatting := (b.formatting.dropWhile fun f => f != .marker).drop 1 }

def addMarker : Build Unit :=
  modify fun b => { b with formatting := .marker :: b.formatting }

/-- Leaves the innermost template. -/
def leaveTemplate : Build Unit := do
  popThroughNamed "template"
  clearFormatting
  modify fun b => { b with templateModes := b.templateModes.tail }
  resetMode

/-- Goes on in another mode inside of a template. -/
def switchTemplate (mode : Mode) : Build Outcome := do
  modify fun b => { b with templateModes := mode :: b.templateModes.tail }
  againIn mode

end DomQuery.Markup
