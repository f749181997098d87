import DomQuery.Document.Edit

/-!
# Inserting text

A page comes in pieces, and text next to text is one text. So inserting a text
first looks for a text node where the new one would stand and extends it.
-/

namespace DomQuery.Document

open DomQuery.Tree

/-- What is inserted at a place. -/
inductive Piece where
  | node (n : NodeId)
  | text (text : String)
deriving DecidableEq, Repr

/-- Adds to the end of the text of a text node. -/
def extendText (d : Document) (n : NodeId) (text : String) : Document :=
  d.modifyNode n fun node =>
    match node.data with
    | .text before => { node with data := .text (before ++ text) }
    | _ => node

/-- Extends `neighbour` if it is a text node, and else inserts a new text node. -/
def mergeText (neighbour : Option NodeId) (text : String) (insert : NodeId → Edit Unit) :
    Edit Unit := do
  let d ← get
  match neighbour.filter fun n => (d.text? n).isSome with
  | some n => modify fun d => d.extendText n text
  | none => insert (← createNode (.text text))

/-- Inserts at the end of the children of `p`. -/
def insertLast (p : NodeId) : Piece → Edit Unit
  | .node n => append p n
  | .text text => do mergeText ((← get).children p).getLast? text (append p)

/-- Inserts directly before `reference`. -/
def insertInFront (reference : NodeId) : Piece → Edit Unit
  | .node n => insertBefore reference n
  | .text text => do
    mergeText ((← get).previousSibling reference) text (insertBefore reference)

/-- Inserts before `reference` if it is in a tree, and else at the end of
`fallback`. -/
def insertAround (reference fallback : NodeId) (piece : Piece) : Edit Unit := do
  if ((← get).parent reference).isSome then insertInFront reference piece
  else insertLast fallback piece

/-- Moves all children of `n` to the end of `p`. -/
def moveChildren (n p : NodeId) : Edit Unit := do
  ((← get).children n).forM (append p)

end DomQuery.Document
