import DomQuery.Query.Attribute
import DomQuery.Query.Chain
import DomQuery.Query.Keyword
import DomQuery.Query.Language
import DomQuery.Query.TypeName

/-!
# Simple selectors

What it takes for a node to satisfy a simple selector. The selectors nested in
its argument become probes first, so chains are walked in the same way wherever
they stand.

Below `:is()` and `:where()` a prefix that is not declared is forgiven: it only
makes a test fail. Everywhere else it is an error. `forgive` says on which side
of that a selector stands.

A shadow root answers for its host, and only to selectors that mention it.
-/

namespace DomQuery.Query.Context

open DomQuery.Selector DomQuery.Tree

variable {ν : Type} [DecidableEq ν] (ctx : Context ν)

/-- Complains about a construct that is recognized and not evaluated, if the
matcher was asked to; the construct itself never matches. -/
def complain (e : QueryError) : Eval ν Bool :=
  if ctx.warn then throw e else return false

/-- `n` satisfies a type selector. -/
def holdsType (forgive : Bool) (s : TypeSelector) (n : ν) : Eval ν Bool :=
  match selectsType? ctx.tree.toLinks s n with
  | .ok holds => return holds
  | .error e => if forgive then return false else throw e

/-- One of the compounds holds at `n`. -/
def holdsSome (compounds : List (Chain (Probe ν))) (n : ν) : Eval ν Bool :=
  compounds.anyM fun c => c.last.holds n

/-- The test for a node that depends on what the node is. -/
def byPlace (element : ν → Eval ν Bool) (shadowRoot : ν → ν → Eval ν Bool) (n : ν) :
    Eval ν Bool :=
  match ctx.place n with
  | .element => element n
  | .shadowRoot host => shadowRoot host n
  | .elsewhere => return false

/-- The test for elements only. -/
def onElements (element : ν → Eval ν Bool) : ν → Eval ν Bool :=
  ctx.byPlace element fun _ _ => return false

/-- The test for shadow roots only, given their host. -/
def onHosts (host : ν → Eval ν Bool) : ν → Eval ν Bool :=
  ctx.byPlace (fun _ => return false) fun h _ => host h

/-- The test for elements and shadow roots alike. -/
def onBoth (test : ν → Eval ν Bool) : ν → Eval ν Bool :=
  ctx.byPlace test fun _ n => test n

/-- All tests hold, asked in order. -/
def allHold (tests : List (ν → Eval ν Bool)) (n : ν) : Eval ν Bool :=
  tests.allM fun test => test n

mutual

/-- What it takes to satisfy a simple selector. -/
def holdsSimple (forgive : Bool) : Simple → ν → Eval ν Bool
  | .pseudoElement name => ctx.onElements fun _ => ctx.complain (.unsupportedElement name)
  | .id name => ctx.onElements fun n => return ctx.tree.id? n == some name
  | .className name => ctx.onElements fun n => return ctx.tree.hasClass n name
  | .type s => ctx.onElements (ctx.holdsType forgive s)
  | .attr test => ctx.onElements fun n => return holdsAttribute ctx.tree.toLinks test n
  | .matchesAny branches =>
    let chains := probes true branches
    ctx.onBoth (ctx.matchesSomeForgiving chains)
  | .matchesNone branches =>
    let chains := probes false branches
    ctx.onBoth fun n => return !(← ctx.matchesSome chains n)
  | .has branches =>
    let chains := probes forgive branches
    ctx.onElements (ctx.hasSome chains)
  | .nth form of =>
    let filter := siblingFilter of
    ctx.onElements (ctx.isNth form filter)
  | .lang ranges => ctx.onElements fun n => return hasLanguage ctx.tree.toLinks ranges n
  | .dir direction => ctx.onElements fun n => return direction == some (ctx.tree.direction n)
  | .host compounds =>
    match probes? forgive compounds with
    | none => ctx.onHosts fun _ => return true
    | some chains => ctx.onHosts (holdsSome chains)
  | .hostContext compounds =>
    let chains := probes forgive compounds
    ctx.onHosts fun host => (ctx.tree.elementLine host).anyM (holdsSome chains)
  | .keyword k => ctx.onElements (ctx.holdsKeyword k)
  | .never => fun _ => return false
  | .unsupported name => ctx.onElements fun _ => ctx.complain (.unsupportedClass name)

/-- The tests of a compound, in order. -/
def compoundTests (forgive : Bool) : List Simple → List (ν → Eval ν Bool)
  | [] => []
  | s :: rest => holdsSimple forgive s :: compoundTests forgive rest

/-- A link between probes. -/
def linkProbe (forgive : Bool) : Link (List Simple) → Link (Probe ν)
  | ⟨compound, combinator⟩ =>
    ⟨⟨lookup? compound, allHold (compoundTests forgive compound)⟩, combinator⟩

def linkProbes (forgive : Bool) : List (Link (List Simple)) → List (Link (Probe ν))
  | [] => []
  | link :: rest => linkProbe forgive link :: linkProbes forgive rest

/-- A chain of probes. -/
def chainProbe (forgive : Bool) : Chain (List Simple) → Chain (Probe ν)
  | ⟨leading, links, last⟩ =>
    ⟨leading, linkProbes forgive links,
      ⟨lookup? last, allHold (compoundTests forgive last)⟩⟩

/-- The chains of a list, ready to be walked. -/
def probes (forgive : Bool) : List (Chain (List Simple)) → List (Chain (Probe ν))
  | [] => []
  | c :: rest => chainProbe forgive c :: probes forgive rest

def probes? (forgive : Bool) :
    Option (List (Chain (List Simple))) → Option (List (Chain (Probe ν)))
  | none => none
  | some branches => some (probes forgive branches)

/-- A numbered list as a test for the siblings to count. -/
def numberedTest : ListId × List (Chain (List Simple)) → ListId × (ν → Eval ν Bool)
  | (id, branches) =>
    let chains := probes false branches
    (id, ctx.matchesSome chains)

def siblingFilter :
    Option (ListId × List (Chain (List Simple))) → Option (ListId × (ν → Eval ν Bool))
  | none => none
  | some numbered => some (numberedTest numbered)

end

end DomQuery.Query.Context
