import DomQuery.Query.Context

/-!
# Nodes related by a combinator

A combinator can be followed both ways. Forward it leads from a node to later
siblings, children or descendants; backward to earlier siblings, the parent or
the ancestors. The nodes it leads to are those that satisfy the compound on the
other side. Where an index can tell which descendants come into question, only
those are tested.
-/

namespace DomQuery.Query

open DomQuery.Selector DomQuery.Tree

/-- Which way a combinator is followed. -/
inductive Heading where
  /-- From the first compound toward the last. -/
  | forward
  /-- From the last compound toward the first. -/
  | backward
deriving DecidableEq, Repr

/-- The part of a compound that an index can answer. -/
inductive Lookup where
  | id (name : String)
  | className (name : String)
  | localName (name : String)
deriving DecidableEq, Repr

/-- What an index can say of a compound, by its first simple selector. -/
def lookup? : Compound → Option Lookup
  | .id name :: _ => some (.id name)
  | .className name :: _ => some (.className name)
  | .type t :: _ =>
    if t.qualifier.isNone && !t.isUniversal then some (.localName t.localName) else none
  | _ => none

/-- A compound as a test of nodes. -/
structure Probe (ν : Type) where
  lookup : Option Lookup
  holds : ν → Eval ν Bool

namespace Context

variable {ν : Type} [DecidableEq ν] (ctx : Context ν)

/-- Ids are looked up in whole documents only. -/
def searchesDocument : Bool :=
  !ctx.shadow && ctx.tree.kind ctx.root == .document

/-- The elements below `scope` that an index gives for a compound. -/
def indexedBelow (scope : ν) : Lookup → Option (List ν)
  | .id name =>
    if ctx.searchesDocument then
      (ctx.tree.elementsById ctx.root name).map fun found =>
        found.filter fun n => n != scope && ctx.tree.contains scope n
    else none
  | .className name => ctx.tree.elementsByClass scope name
  | .localName name => ctx.tree.elementsByName scope name

/-- The descendants of `n` that may satisfy a compound. -/
def descendants (lookup : Option Lookup) (n : ν) : List ν :=
  ((lookup.bind (ctx.indexedBelow n)).getD (ctx.tree.walk n))

/-- The elements among the siblings that `step` leads to. A node without a
parent has none. -/
def siblings (step : ν → Option ν) (n : ν) : List ν :=
  match ctx.tree.parent n with
  | some _ => (follow step ctx.tree.size n).filter ctx.tree.isElement
  | none => []

/-- The sibling next to `n`, passing over what is no element. -/
def adjacent (find : ν → Option ν) (n : ν) : List ν :=
  match ctx.tree.parent n with
  | some _ => (find n).toList
  | none => []

/-- The nodes a combinator leads to from `n`, nearest first, before the compound
there is tested. -/
def related (heading : Heading) (c : Combinator) (lookup : Option Lookup) (n : ν) : List ν :=
  match heading, c with
  | .forward, .nextSibling => ctx.adjacent ctx.tree.nextElementSibling n
  | .forward, .subsequentSibling => ctx.siblings ctx.tree.nextSibling n
  | .forward, .child => ctx.tree.elementChildren n
  | .forward, .descendant => ctx.descendants lookup n
  | .backward, .nextSibling => ctx.adjacent ctx.tree.previousElementSibling n
  | .backward, .subsequentSibling => ctx.siblings ctx.tree.previousSibling n
  | .backward, .child => (ctx.tree.parent n).toList.filter ctx.isAncestorCandidate
  | .backward, .descendant => (ctx.tree.ancestors n).takeWhile ctx.isAncestorCandidate

/-- The nodes that a combinator leads to from `n` and that satisfy the compound
there. -/
def step (heading : Heading) (c : Combinator) (probe : Probe ν) (n : ν) : Eval ν (List ν) :=
  (ctx.related heading c probe.lookup n).filterM probe.holds

end Context

end DomQuery.Query
