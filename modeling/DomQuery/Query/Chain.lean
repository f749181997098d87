import DomQuery.Query.Relation

/-!
# Walking along chains

A chain is matched from one of its ends. Backward, a node that satisfies the
last compound is taken on if some way leads back through all the others.
Forward, all nodes that can be reached from a node that satisfies the first
compound are collected. A relative chain starts from a node outside of it.
-/

namespace DomQuery.Query

open DomQuery.Selector

/-- The elements of `xs`, each at its first place. -/
def distinct {α : Type} [DecidableEq α] (xs : List α) : List α :=
  xs.foldl (fun seen x => if seen.contains x then seen else seen ++ [x]) []

/-- Joins the results of `f` in order. -/
def collectM {ν α β : Type} (f : α → Eval ν (List β)) : List α → Eval ν (List β)
  | [] => return []
  | x :: xs => do
    let ys ← f x
    return ys ++ (← collectM f xs)

namespace Context

variable {ν : Type} [DecidableEq ν] (ctx : Context ν)

/-- A way leads from `n` back through the links, which come last first. -/
def leadsBack : List (Link (Probe ν)) → ν → Eval ν Bool
  | [], _ => return true
  | link :: links, n => do
    (← ctx.step .backward link.combinator link.compound n).anyM (leadsBack links)

/-- The compounds of a chain after its first one, each with the combinator
before it. -/
def forwardSteps {κ : Type} (c : Chain κ) : List (Combinator × κ) :=
  c.combinators.zip c.compounds.tail

/-- The nodes reached from `nodes` through all the steps. -/
def reach : List (Combinator × Probe ν) → List ν → Eval ν (List ν)
  | [], nodes => return nodes
  | (c, probe) :: steps, nodes => do
    reach steps (distinct (← collectM (ctx.step .forward c probe) nodes))

/-- The nodes at the end of the chain that can be reached from `n`, which
satisfies its first compound. -/
def reachFrom (c : Chain (Probe ν)) (n : ν) : Eval ν (List ν) :=
  ctx.reach (forwardSteps c) [n]

/-- Some node at the end of the steps can be reached from `n`. Nodes are tried
one by one, so the rest of the tree is left alone once one has been found. -/
def reaches : List (Combinator × Probe ν) → ν → Eval ν Bool
  | [], _ => return true
  | (c, probe) :: steps, n => do
    (← ctx.step .forward c probe n).anyM (reaches steps)

/-- `n` satisfies the last compound, and the rest of the chain holds from it. -/
def matchesChain (c : Chain (Probe ν)) (n : ν) : Eval ν Bool := do
  if ← c.last.holds n then ctx.leadsBack c.links.reverse n else return false

def matchesSome (branches : List (Chain (Probe ν))) (n : ν) : Eval ν Bool :=
  branches.anyM fun c => ctx.matchesChain c n

/-- A chain that starts at `n`: a descendant does, unless a combinator says
otherwise. -/
def relativeSteps {κ : Type} (c : Chain κ) : List (Combinator × κ) :=
  (c.leading.getD .descendant, c.first) :: forwardSteps c

def hasSome (branches : List (Chain (Probe ν))) (n : ν) : Eval ν Bool :=
  branches.anyM fun c => ctx.reaches (relativeSteps c) n

/-- An error of the selector reads as `false`. -/
def forgiving (test : Eval ν Bool) : Eval ν Bool :=
  tryCatch test fun e => if e.fault == .badSelector then return false else throw e

/-- Like `matchesSome`, where a branch that fails does not match. -/
def matchesSomeForgiving (branches : List (Chain (Probe ν))) (n : ν) : Eval ν Bool :=
  branches.anyM fun c => forgiving (ctx.matchesChain c n)

end Context

end DomQuery.Query
