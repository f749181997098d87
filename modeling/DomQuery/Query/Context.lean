import DomQuery.Query.Error
import DomQuery.Remember
import DomQuery.Selector.Simple
import DomQuery.Tree.View
import DomQuery.Tree.Walk

/-!
# Where a selector is matched

A context is a node of a tree together with what matching needs to know of its
surroundings: the top of its tree, its document, and whether that top is a
shadow root. Evaluation may fail, and it remembers which children a
child-indexed pseudo-class selects, so that siblings do not count each other
again and again. What is remembered stays when an evaluation fails.
-/

namespace DomQuery.Query

open DomQuery.Selector DomQuery.Tree

/-- The surroundings of a context node. -/
structure Context (ν : Type) where
  tree : View ν
  node : ν
  /-- The topmost node above the context node. -/
  root : ν
  document : Option ν
  /-- The root is a shadow root. -/
  shadow : Bool
  /-- Recognized constructs that are not evaluated are errors. -/
  warn : Bool

/-- A child-indexed pseudo-class with the list that filters what it counts, and
the parent whose children it selects. -/
structure MemoKey (ν : Type) where
  form : NthForm
  of : Option ListId
  parent : ν
deriving DecidableEq

/-- The children selected so far. -/
abbrev Memo (ν : Type) := List (MemoKey ν × List ν)

/-- An evaluation that may fail and remembers. -/
abbrev Eval (ν α : Type) := Remembering (MemoKey ν) (List ν) QueryError α

namespace Context

variable {ν : Type}

/-- The context of `node`. Only documents, fragments and elements have one. -/
def of (tree : View ν) (node : ν) (warn : Bool) : Except QueryError (Context ν) :=
  match tree.kind node with
  | .document => .ok ⟨tree, node, node, some node, false, warn⟩
  | .fragment =>
    .ok ⟨tree, node, node, tree.ownerDocument node, (tree.shadowHost node).isSome, warn⟩
  | .element =>
    let root := tree.topmost node
    let shadow := tree.kind root == .fragment && (tree.shadowHost root).isSome
    .ok ⟨tree, node, root, tree.ownerDocument node, shadow, warn⟩
  | kind => .error (.unexpectedNode kind)

variable (ctx : Context ν)

/-- What a node is to a simple selector. -/
inductive Place (ν : Type) where
  | element
  /-- The shadow root that is matched within, standing in for its host. -/
  | shadowRoot (host : ν)
  | elsewhere

def place (n : ν) : Place ν :=
  match ctx.tree.kind n with
  | .element => .element
  | .fragment =>
    if ctx.shadow then
      match ctx.tree.shadowHost n with
      | some host => .shadowRoot host
      | none => .elsewhere
    else .elsewhere
  | _ => .elsewhere

/-- A compound can be asked of this node: it is an element, or a fragment while
matching within a shadow tree. -/
def isAncestorCandidate (n : ν) : Bool :=
  match ctx.tree.kind n with
  | .element => true
  | .fragment => ctx.shadow
  | _ => false

variable [DecidableEq ν]

/-- `n` lies strictly below the context node. -/
def inScope (n : ν) : Bool :=
  n != ctx.node && ctx.tree.contains ctx.node n

/-- The first connected element with this id. -/
def elementById (id : String) : Option ν :=
  match ctx.document with
  | none => none
  | some document =>
    match ctx.tree.elementsById document id with
    | some found => found.head?
    | none => (ctx.tree.walk document).find? fun n => ctx.tree.id? n == some id

end Context

end DomQuery.Query
