import DomQuery.Text.Ascii
import DomQuery.Tree.Basic

/-!
# Trees seen through their links

What a tree has to offer for selectors to be matched on it: the kind of each
node, five links, names, attributes and text. Everything else that can be said
of a node from those alone is defined here.

Links are followed with fuel. `size` bounds the number of nodes, so along links
that form a forest the fuel never runs out.
-/

namespace DomQuery.Tree

open DomQuery.Text

/-- An attribute. The name is qualified and kept as written. -/
structure Attribute where
  name : String
  ns : Option String
  value : String
deriving DecidableEq, Repr

/-- The prefix and the local part of a qualified name. -/
def splitName (name : String) : Option String × String :=
  match splitOnce ':' name with
  | some (before, after) => (some before, after)
  | none => (none, name)

/-- A tree whose nodes are named by values of `ν`. -/
structure Links (ν : Type) where
  /-- At least the number of nodes. -/
  size : Nat
  kind : ν → NodeKind
  parent : ν → Option ν
  firstChild : ν → Option ν
  lastChild : ν → Option ν
  nextSibling : ν → Option ν
  previousSibling : ν → Option ν
  localName : ν → String
  nsPrefix : ν → Option String
  ns : ν → Option String
  /-- In document order. -/
  attributes : ν → List Attribute
  /-- The data of texts and comments. -/
  textData : ν → Option String
  /-- The host, for a fragment that is a shadow root. -/
  shadowHost : ν → Option ν
  /-- The node belongs to an HTML document. -/
  isHtmlDocument : ν → Bool

section Follow

variable {ν : Type}

/-- The nodes reached from `n` by one or more steps, at most `fuel` of them. -/
def follow (step : ν → Option ν) : Nat → ν → List ν
  | 0, _ => []
  | fuel + 1, n =>
    match step n with
    | some m => m :: follow step fuel m
    | none => []

/-- The first node that satisfies `p`, from `start` on. -/
def seek (step : ν → Option ν) (p : ν → Bool) : Nat → Option ν → Option ν
  | _, none => none
  | 0, _ => none
  | fuel + 1, some n => if p n then some n else seek step p fuel (step n)

end Follow

namespace Links

variable {ν : Type} (t : Links ν)

def isElement (n : ν) : Bool :=
  t.kind n == .element

/-- The ancestors of a node, nearest first. -/
def ancestors (n : ν) : List ν :=
  follow t.parent t.size n

/-- The children of a node in order. -/
def children (n : ν) : List ν :=
  match t.firstChild n with
  | some c => c :: follow t.nextSibling t.size c
  | none => []

def elementChildren (n : ν) : List ν :=
  (t.children n).filter t.isElement

/-- The last node on the way up. -/
def topmost (n : ν) : ν :=
  (t.ancestors n).getLast?.getD n

/-- The elements from `n` up to the first node that is none. -/
def elementLine (n : ν) : List ν :=
  (n :: t.ancestors n).takeWhile t.isElement

/-- Where inherited properties of a node come from: the parent of an element,
the host of a shadow root. -/
def heritage (n : ν) : Option ν :=
  match t.kind n with
  | .element => t.parent n
  | .fragment => t.shadowHost n
  | _ => none

/-- The elements a property of `n` may be inherited from, nearest first,
starting with `n`. -/
def heritageLine (n : ν) : List ν :=
  (n :: follow t.heritage t.size n).filter t.isElement

/-- An element of HTML in an HTML document. -/
def isHtmlElement (n : ν) : Bool :=
  t.ns n == some htmlNamespace && t.isHtmlDocument n

/-- An HTML element with the given local name. -/
def isHtmlNamed (n : ν) (name : String) : Bool :=
  t.isElement n && t.isHtmlElement n && t.localName n == name

/-- The value of the first attribute called `name`. HTML elements look for the
name in lower case. -/
def attribute? (n : ν) (name : String) : Option String :=
  let wanted := if t.isHtmlElement n then lower name else name
  ((t.attributes n).find? fun a => a.name == wanted).map Attribute.value

def hasAttribute (n : ν) (name : String) : Bool :=
  (t.attribute? n name).isSome

def id? (n : ν) : Option String :=
  t.attribute? n "id"

def hasClass (n : ν) (name : String) : Bool :=
  match t.attribute? n "class" with
  | some value => (words value).contains name
  | none => false

/-- The text of a node's own text children. -/
def childText (n : ν) : String :=
  String.join ((t.children n).filterMap fun c =>
    if t.kind c == .text then t.textData c else none)

/-- The document a node belongs to: the first one on the way up through parents
and hosts. -/
def ownerDocument (n : ν) : Option ν :=
  let up (m : ν) := t.parent m <|> t.shadowHost m
  (n :: follow up t.size n).find? fun m => t.kind m == .document

/-- What a node says of the namespace of `p`: `none` for nothing, `some none`
when the namespace is undeclared. -/
def declaredNamespace? (p : String) (n : ν) : Option (Option String) :=
  match (if (t.nsPrefix n).getD "" == p then t.ns n else none) with
  | some uri => some (some uri)
  | none =>
    let name := if p == "" then "xmlns" else "xmlns:" ++ p
    ((t.attributes n).find? fun a => a.name == name).map fun a =>
      if a.value == "" then none else some a.value

/-- The namespace bound to the prefix `p` at an element. -/
def lookupNamespace (n : ν) (p : String) : Option String :=
  if p == "xml" then some xmlNamespace
  else if p == "xmlns" then some xmlnsNamespace
  else ((t.elementLine n).findSome? (t.declaredNamespace? p)).join

/-- The direction that the nearest `dir` attribute gives. -/
def inheritedDirection (n : ν) : Direction :=
  ((t.heritageLine n).findSome? fun m =>
    match (t.attribute? m "dir").map lower with
    | some "rtl" => some .rightToLeft
    | some "ltr" => some .leftToRight
    | _ => none).getD .leftToRight

/-- The nearest element that says whether its content can be edited says yes. -/
def isContentEditable (n : ν) : Bool :=
  ((t.elementLine n).findSome? fun m =>
    match (t.attribute? m "contenteditable").map lower with
    | some "" | some "true" | some "plaintext-only" => some true
    | some "false" => some false
    | _ => none).getD false

/-- The value a control starts with: the text of a `textarea`, else the
attribute. -/
def initialValue (n : ν) : String :=
  if t.localName n == "textarea" then t.childText n
  else (t.attribute? n "value").getD ""

variable [DecidableEq ν]

/-- `n` is `top` or lies below it. -/
def contains (top n : ν) : Bool :=
  n == top || (t.ancestors n).contains top

/-- The way down to a node from the top of its tree. -/
def path (n : ν) : List ν :=
  (n :: t.ancestors n).reverse

/-- `b` is a later sibling of `a`. -/
def precedesSibling (a b : ν) : Bool :=
  (seek t.nextSibling (· == b) t.size (t.nextSibling a)).isSome

/-- Where two paths part, the order of the nodes they lead to. `apart` decides
for paths that share nothing. -/
def comparePaths (apart : ν → ν → Ordering) (shared : Bool) : List ν → List ν → Ordering
  | [], _ => .lt
  | _ :: _, [] => .gt
  | a :: as, b :: bs =>
    if a == b then comparePaths apart true as bs
    else if shared then (if t.precedesSibling a b then .lt else .gt)
    else apart a b

/-- Document order. Nodes of different trees are left to `apart`. -/
def compareOrder (apart : ν → ν → Ordering) (a b : ν) : Ordering :=
  if a == b then .eq else t.comparePaths apart false (t.path a) (t.path b)

end Links

end DomQuery.Tree
