import DomQuery.Query.Simple

/-!
# Where a search begins

A chain is entered at one of its ends: at the last compound, and then matched
backward, or at the first one, and then followed forward. `entryHeading` picks
the end that promises fewer candidates. Candidates come from an index where one
can tell them; the others are found by one walk that all chains share.
-/

namespace DomQuery.Query

open DomQuery.Selector DomQuery.Tree

/-- What a query looks for. -/
inductive Target where
  /-- The context node itself. -/
  | itself
  /-- The nearest element on the way up, the context node included. -/
  | nearest
  /-- The first element below the context node. -/
  | first
  /-- All elements below the context node. -/
  | all
deriving DecidableEq, Repr

/-- Only what lies strictly below the context node counts. -/
def Target.isBelow : Target → Bool
  | .first | .all => true
  | _ => false

/-- The compound selects few nodes, or none. -/
def isSelective : Compound → Bool
  | .id _ :: _ | .pseudoElement _ :: _ => true
  | _ => false

/-- The compound asks for a direction. -/
def asksDirection (compound : Compound) : Bool :=
  compound.any fun
    | .dir _ => true
    | _ => false

/-- Which way a chain is followed, and so where it is entered. -/
def entryHeading (target : Target) (c : Chain Compound) : Heading :=
  if c.links.isEmpty || !target.isBelow then .backward
  else if isSelective c.last then .backward
  else if isSelective c.first then .forward
  else if target == .all then
    match c.links with
    | [link] => if link.combinator.isSibling then .backward else .forward
    | _ => .forward
  else if c.compounds.any asksDirection then .backward
  else if c.combinators.any Combinator.isSibling then .forward
  else .backward

/-- What is known of the nodes where a chain can be entered. -/
inductive Candidates (ν : Type) where
  /-- These, and each satisfies the compound there. -/
  | tested (nodes : List ν)
  /-- At most these. -/
  | untested (nodes : List ν)
  /-- Nothing yet. -/
  | unknown

/-- A chain about to be searched for. -/
structure Entry (ν : Type) where
  chain : Chain (Probe ν)
  heading : Heading
  /-- The subtree in which the chain is entered. -/
  scope : ν
  candidates : Candidates ν

namespace Entry

variable {ν : Type}

/-- The compound where the chain is entered. -/
def probe (e : Entry ν) : Probe ν :=
  match e.heading with
  | .backward => e.chain.last
  | .forward => e.chain.first

/-- The chain waits for a walk of its scope. The first element of a chain
followed forward is searched for without one. -/
def isPending (target : Target) (e : Entry ν) : Bool :=
  match e.candidates with
  | .unknown => !(target == .first && e.heading == .forward)
  | _ => false

end Entry

namespace Context

variable {ν : Type} [DecidableEq ν] (ctx : Context ν)

/-- The nodes below `scope` that an index gives for a compound; no node is known
to be a pseudo-element. -/
def indexed? (scope : ν) (compound : Compound) : Eval ν (Option (List ν)) :=
  match compound with
  | .pseudoElement name :: _ => do
    discard (ctx.complain (.unsupportedElement name))
    return some []
  | .id name :: _ =>
    return if ctx.searchesDocument then ctx.tree.elementsById ctx.root name else none
  | _ => return (lookup? compound).bind (ctx.indexedBelow scope)

/-- The candidates for the entry of a chain below `scope`. An index leaves out
its own scope, but the root of a tree without a document can begin a chain. -/
def candidatesBelow (heading : Heading) (scope : ν) (compound : Compound) (probe : Probe ν) :
    Eval ν (Candidates ν) := do
  match ← ctx.indexed? scope compound with
  | none => return .unknown
  | some nodes =>
    let atRoot ←
      if heading == .forward && ctx.tree.isElement ctx.root then probe.holds ctx.root
      else pure false
    let nodes := if atRoot then ctx.root :: nodes else nodes
    return if compound.length == 1 then .tested nodes else .untested nodes

/-- Plans the search for a chain. -/
def enter (target : Target) (c : Chain Compound) : Eval ν (Entry ν) := do
  let heading := entryHeading target c
  let chain := ctx.chainProbe false c
  match target with
  | .itself =>
    let nodes ← [ctx.node].filterM fun n =>
      if ctx.tree.isElement n then chain.last.holds n else return false
    return ⟨chain, heading, ctx.node, .tested nodes⟩
  | .nearest =>
    let nodes ← (ctx.tree.elementLine ctx.node).filterM chain.last.holds
    return ⟨chain, heading, ctx.node, .tested nodes⟩
  | _ =>
    match heading with
    | .backward =>
      let candidates ← ctx.candidatesBelow heading ctx.node c.last chain.last
      return ⟨chain, heading, ctx.node, candidates⟩
    | .forward =>
      let candidates ← ctx.candidatesBelow heading ctx.root c.first chain.first
      return ⟨chain, heading, ctx.root, candidates⟩

/-- For each probe, the nodes that satisfy it. Each node is shown to all the
probes before the next one is. -/
def sweep (probes : List (Probe ν)) : List ν → Eval ν (List (List ν))
  | [] => return probes.map fun _ => []
  | n :: rest => do
    let hits ← probes.mapM fun probe => probe.holds n
    let found ← sweep probes rest
    return List.zipWith (fun hit nodes => if hit then n :: nodes else nodes) hits found

/-- Hands out what was found to the entries that waited for it, in order. -/
def settle (waits : Entry ν → Bool) : List (Entry ν) → List (List ν) → List (Entry ν)
  | [], _ => []
  | e :: rest, found =>
    if waits e then
      { e with candidates := .tested (found.head?.getD []) } :: settle waits rest found.tail
    else e :: settle waits rest found

/-- Finds the candidates of all the entries that wait for a walk of `scope`. The
scope itself is visited too, for it may be a shadow root. -/
def gatherIn (target : Target) (scope : ν) (entries : List (Entry ν)) :
    Eval ν (List (Entry ν)) := do
  let waits (e : Entry ν) := e.isPending target && e.scope == scope
  let probes := (entries.filter waits).map Entry.probe
  let found ← sweep probes (scope :: ctx.tree.walk scope)
  return settle waits entries found

/-- Finds the candidates of all the entries that wait for a walk. -/
def gather (target : Target) (entries : List (Entry ν)) : Eval ν (List (Entry ν)) :=
  let scopes := distinct ((entries.filter (Entry.isPending target)).map Entry.scope)
  scopes.foldlM (fun entries scope => ctx.gatherIn target scope entries) entries

/-- Where a search goes, for all chains of a list. -/
def plan (target : Target) (branches : List (Chain Compound)) : Eval ν (List (Entry ν)) := do
  ctx.gather target (← branches.mapM (ctx.enter target))

end Context

end DomQuery.Query
