import DomQuery.Document.Basic
import DomQuery.Url.Error

/-!
# Why an edit fails

A node is named in messages by its place in the order of creation, counted from
one.
-/

namespace DomQuery.Document

/-- What is wrong with an edit of a document. -/
inductive DocumentError where
  | missing (n : NodeId)
  | notAnElement (n : NodeId)
  | notAContainer (n : NodeId)
  | noParent (n : NodeId)
  | appendToItself
  /-- The new child contains its parent. -/
  | appendToDescendant
  | insertBeforeItself
  /-- The new node contains the one it is inserted before. -/
  | insertBeforeDescendant
  | cannotHost (n : NodeId)
  | notFocusable (n : NodeId)
  | badElementName (name : String)
  | alreadyDefined (name : String)
  | badAddress (fault : Url.Fault)
deriving DecidableEq, Repr

def NodeId.text (n : NodeId) : String :=
  toString (n.index + 1)

def DocumentError.message : DocumentError → String
  | .missing n => n.text ++ " does not exist"
  | .notAnElement n => n.text ++ " is not an element"
  | .notAContainer n => n.text ++ " cannot have children"
  | .noParent n => n.text ++ " has no parent"
  | .appendToItself => "Can not append a node to itself"
  | .appendToDescendant => "Can not append a node to, or insert it after, its descendant"
  | .insertBeforeItself => "Can not insert a node before itself"
  | .insertBeforeDescendant =>
    "Can not prepend a node to, or insert it before, its descendant"
  | .cannotHost n => n.text ++ " cannot host a new shadow root"
  | .notFocusable n => n.text ++ " is not focusable"
  | .badElementName name => name ++ " is not a valid custom element name"
  | .alreadyDefined name => name ++ " is already defined"
  | .badAddress fault => fault.message

end DomQuery.Document
