/-!
# Kinds of nodes

The vocabulary that selectors and documents share: what kinds of nodes a tree
has, the two directions text can run in, and the namespaces with a fixed
meaning.
-/

namespace DomQuery.Tree

inductive NodeKind where
  | document
  /-- A fragment; a shadow root when it has a host. -/
  | fragment
  | element
  | text
  | comment
  /-- A document type and anything else. -/
  | other
deriving DecidableEq, Repr

def NodeKind.name : NodeKind → String
  | .document => "Document"
  | .fragment => "DocumentFragment"
  | .element => "Element"
  | .text => "Text"
  | .comment => "Comment"
  | .other => "Other"

/-- The direction of text. -/
inductive Direction where
  | leftToRight
  | rightToLeft
deriving DecidableEq, Repr

/-- The namespace of HTML elements. -/
def htmlNamespace : String := "http://www.w3.org/1999/xhtml"

/-- The namespace bound to the prefix `xml`. -/
def xmlNamespace : String := "http://www.w3.org/XML/1998/namespace"

/-- The namespace bound to the prefix `xmlns`. -/
def xmlnsNamespace : String := "http://www.w3.org/2000/xmlns/"

end DomQuery.Tree
