import DomQuery.Query.Plan

/-!
# Searching

Each chain of a list is searched for from where it is entered, and what the
chains find is put together. Results below the context node come in document
order.
-/

namespace DomQuery.Query

open DomQuery.Selector DomQuery.Tree

/-- `n` satisfies the compound where the chain is entered. -/
def Entry.accepts {ν : Type} (e : Entry ν) (n : ν) : Eval ν Bool :=
  match e.candidates with
  | .tested _ => return true
  | _ => e.probe.holds n

namespace Context

variable {ν : Type} [DecidableEq ν] (ctx : Context ν)

/-- The candidates, or all nodes of the scope in document order. -/
def entryNodes (e : Entry ν) : List ν :=
  match e.candidates with
  | .tested nodes | .untested nodes => nodes
  | .unknown => e.scope :: ctx.tree.walk e.scope

/-- `n` can be a result as far as its place is concerned. -/
def isEligible (target : Target) (n : ν) : Bool :=
  !target.isBelow || ctx.inScope n

/-- The chain, entered at its last compound, matches `n`. -/
def endsAt (target : Target) (e : Entry ν) (n : ν) : Eval ν Bool := do
  if !ctx.isEligible target n then return false
  else if !(← e.accepts n) then return false
  else ctx.leadsBack e.chain.links.reverse n

/-- The results of a chain that is matched backward. -/
def findBackward (target : Target) (e : Entry ν) : Eval ν (List ν) :=
  match target with
  | .first => return (← (ctx.entryNodes e).findM? (ctx.endsAt target e)).toList
  | _ => (ctx.entryNodes e).filterM (ctx.endsAt target e)

/-- The nodes that a chain leads to when it is entered at `n`. -/
def followFrom (target : Target) (e : Entry ν) (n : ν) : Eval ν (List ν) := do
  if ← e.accepts n then
    return (← ctx.reachFrom e.chain n).filter (ctx.isEligible target)
  else return []

/-- `n` comes before `best`, if there is one. -/
def improves (best : Option ν) (n : ν) : Bool :=
  best.all fun found => ctx.tree.compare n found == .lt

/-- The earlier one of `n` and `best`. -/
def earlier (best : Option ν) (n : ν) : Option ν :=
  if ctx.improves best n then some n else best

/-- The earliest node that a chain leads to when it is entered at one of `nodes`,
which come in document order. All that can be reached from a node comes after
it, so the search ends when the entries have passed the best result so far. -/
def firstForward (e : Entry ν) : List ν → Option ν → Eval ν (Option ν)
  | [], best => return best
  | n :: rest, best => do
    if ctx.improves best n then
      let reached ← ctx.followFrom .first e n
      firstForward e rest (reached.foldl ctx.earlier best)
    else return best

/-- The results of a chain that is followed forward. -/
def findForward (target : Target) (e : Entry ν) : Eval ν (List ν) :=
  match target with
  | .first => return (← ctx.firstForward e (ctx.entryNodes e) none).toList
  | _ => collectM (ctx.followFrom target e) (ctx.entryNodes e)

def findFrom (target : Target) (e : Entry ν) : Eval ν (List ν) :=
  match e.heading with
  | .backward => ctx.findBackward target e
  | .forward => ctx.findForward target e

/-- Picks the answer among the results of all chains. -/
def answer (target : Target) (found : List ν) : List ν :=
  match target with
  | .itself => found.filter (· == ctx.node)
  | .nearest =>
    ((ctx.node :: ctx.tree.ancestors ctx.node).find? found.contains).toList
  | .first => (found.foldl ctx.earlier none).toList
  | .all => found.mergeSort fun a b => (ctx.tree.compare a b).isLE

/-- What a query finds: at most one node, unless all are asked for. -/
def find (target : Target) (branches : List (Chain Compound)) : Eval ν (List ν) := do
  let entries ← ctx.plan target branches
  return ctx.answer target (distinct (← collectM (ctx.findFrom target) entries))

end Context

end DomQuery.Query
