import DomQuery.Tree.Links

/-!
# Walking the elements of a subtree

`nextElement` moves a cursor to the element that follows it in document order,
without leaving the subtree of a root. It goes down if it can, and else climbs
until some node on the way has a later sibling. Nodes that are no elements are
passed over, and what lies below them is not visited.
-/

namespace DomQuery.Tree

namespace Links

variable {ν : Type} (t : Links ν)

def firstElementChild (n : ν) : Option ν :=
  seek t.nextSibling t.isElement t.size (t.firstChild n)

def nextElementSibling (n : ν) : Option ν :=
  seek t.nextSibling t.isElement t.size (t.nextSibling n)

def previousElementSibling (n : ν) : Option ν :=
  seek t.previousSibling t.isElement t.size (t.previousSibling n)

variable [DecidableEq ν]

/-- The next element after the subtree of `n`, inside `root`. -/
def climb (root : ν) : Nat → ν → Option ν
  | 0, _ => none
  | fuel + 1, n =>
    if n = root then none
    else
      match t.nextElementSibling n with
      | some sibling => some sibling
      | none =>
        match t.parent n with
        | some p => climb root fuel p
        | none => none

/-- The element after `n` in the subtree of `root`. -/
def nextElement (root n : ν) : Option ν :=
  match t.firstElementChild n with
  | some child => some child
  | none => t.climb root (t.size + 1) n

/-- The elements below `root`, in document order. -/
def walk (root : ν) : List ν :=
  follow (t.nextElement root) t.size root

end Links

end DomQuery.Tree
