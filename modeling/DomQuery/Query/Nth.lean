import DomQuery.Query.Context

/-!
# Child-indexed pseudo-classes

`nthIndices` gives the positions that `an+b` selects among a number of items.
It starts at `b`, moves into the range in one jump, and then steps through it.
The children that a form selects are found once for each parent.
-/

namespace DomQuery.Query

open DomQuery.Selector DomQuery.Tree

/-- The positions from `position` up to `count`, `step` apart; at most `fuel`. -/
def stepUp (count step : Int) : Nat → Int → List Nat
  | 0, _ => []
  | fuel + 1, position =>
    if position < count then position.toNat :: stepUp count step fuel (position + step) else []

/-- The positions from `position` down to zero, `stride` apart; at most `fuel`. -/
def stepDown (stride : Int) : Nat → Int → List Nat
  | 0, _ => []
  | fuel + 1, position =>
    if 0 ≤ position then position.toNat :: stepDown stride fuel (position - stride) else []

/-- The positions, counted from zero and ascending, that `step · n + offset`
with `n ≥ 0` gives among `count` items. -/
def nthIndices (step offset : Int) (count : Nat) : List Nat :=
  let position := offset - 1
  if step == 0 then
    if 0 ≤ position && position < count then [position.toNat] else []
  else if 0 < step then
    let start :=
      if position < 0 then position + step * ((-position + step - 1) / step) else position
    stepUp count step count start
  else
    let stride := -step
    let start :=
      if (count : Int) ≤ position then
        position - stride * ((position - count + stride) / stride)
      else position
    (stepDown stride count start).reverse

variable {ν : Type}

/-- Elements of one type. -/
def sameType (t : Links ν) (a b : ν) : Bool :=
  t.localName a == t.localName b && t.nsPrefix a == t.nsPrefix b && t.ns a == t.ns b

/-- Adds `n` to the group of its type, or begins one for it. -/
def addToGroup (t : Links ν) (n : ν) : List (List ν) → List (List ν)
  | [] => [[n]]
  | group :: groups =>
    if group.head?.any (sameType t n) then (group ++ [n]) :: groups
    else group :: addToGroup t n groups

/-- The nodes by type, types in the order in which they first appear. -/
def groupByType (t : Links ν) (nodes : List ν) : List (List ν) :=
  nodes.foldl (fun groups n => addToGroup t n groups) []

/-- The nodes of a group that a form selects, positions counted in the group. -/
def selectInGroup (form : NthForm) (group : List ν) : List ν :=
  let counted := if form.fromEnd then group.reverse else group
  (nthIndices form.step form.offset counted.length).filterMap fun i => counted[i]?

/-- The nodes that a form selects among siblings. -/
def selectAmong (t : Links ν) (form : NthForm) (nodes : List ν) : List ν :=
  if form.ofType then (groupByType t nodes).flatMap (selectInGroup form)
  else selectInGroup form nodes

namespace Context

variable [DecidableEq ν] (ctx : Context ν)

/-- The children of `parent` that a form selects, counting those that pass the
filter. -/
def selectChildren (form : NthForm) (filter : Option (ν → Eval ν Bool)) (parent : ν) :
    Eval ν (List ν) := do
  let elements := ctx.tree.elementChildren parent
  let counted ← match filter with
    | some passes => elements.filterM passes
    | none => pure elements
  return selectAmong ctx.tree.toLinks form counted

/-- `n` is among the siblings that a form selects. A node without a parent
counts as an only child. -/
def isNth (form : NthForm) (of : Option (ListId × (ν → Eval ν Bool))) (n : ν) : Eval ν Bool := do
  match ctx.tree.parent n with
  | none =>
    let counts ← match of with
      | some (_, passes) => passes n
      | none => pure true
    return counts && form.step + form.offset == 1
  | some parent =>
    let key : MemoKey ν := ⟨form, of.map Prod.fst, parent⟩
    let selected ← remembered key (ctx.selectChildren form (of.map Prod.snd) parent)
    return selected.contains n

end Context

end DomQuery.Query
