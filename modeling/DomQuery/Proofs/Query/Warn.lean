import DomQuery.Proofs.Query.AlikeSearch

/-!
# Warnings hide, and change nothing else

A matcher that warns fails at what is recognized and not evaluated, where one
that does not warn goes on as if it did not match. Nothing between there and the
query takes such a failure for something else: what is forgiven in `:is()` are
errors of the selector only. So a search that warns goes the way of one that does
not, until it is given up.

* `parallel_warn`: the two searches run in parallel until then.
* `warn_hides`: a question is answered alike, or as if nothing were found.
-/

namespace DomQuery.Query

open DomQuery.Selector DomQuery.Tree

variable {ν : Type} [DecidableEq ν]

/-- The answer when nothing is found. -/
def Call.nothing : Call → Answer ν
  | .isMatch => .truth false
  | .closest | .first => .node none
  | .all => .nodes []

/-- The nodes that an answer to a question of `node` tells of. -/
def Answer.found (node : ν) : Answer ν → List ν
  | .truth b => if b then [node] else []
  | .node n => n.toList
  | .nodes l => l

theorem Call.read_nil (call : Call) (node : ν) : call.read node [] = call.nothing := by
  cases call <;> rfl

omit [DecidableEq ν] in
theorem Call.found_nothing (call : Call) (node : ν) : (call.nothing : Answer ν).found node = [] := by
  cases call <;> rfl

namespace Context

variable (ctx : Context ν)

/-- The same surroundings without warnings. -/
def unwarned : Context ν :=
  { ctx with warn := false }

omit [DecidableEq ν] in
/-- The context of a node, as it is without warnings. -/
theorem of_unwarned (tree : View ν) (node : ν) (warn : Bool) :
    of tree node false = (of tree node warn).map unwarned := by
  unfold of
  cases tree.kind node <;> rfl

/-- A search runs as without warnings, until it fails at what is not evaluated. -/
theorem parallel_warn (target : Target) (branches : List (Chain Compound)) :
    Parallel (fun e => e.fault = .unsupported) (fun _ => True) Eq
      (ctx.find target branches) (ctx.unwarned.find target branches) := by
  have hcomplain : ∀ e : QueryError, e.fault = .unsupported →
      Parallel (fun e => e.fault = .unsupported) (fun _ => True) Eq (ctx.complain e)
        (ctx.unwarned.complain e) := by
    intro e he
    unfold complain
    split
    · exact .excused he _
    · exact .pure rfl
  refine (Pairing.alike_of_warn hcomplain).find ?_ (fun c _ k _ s _ => ?_) target
  · intro e he hbad
    exact absurd (he.symm.trans hbad) (by decide)
  · exact Simple.All.of_forall (fun _ _ _ _ _ _ _ => trivial) s

end Context

namespace Matcher

/-- With a warning, a query finds the same or nothing. -/
theorem fresh_find_unwarned (m : Matcher ν) (target : Target) :
    fresh (m.find target) = .ok [] ∨
      fresh (m.find target) = fresh (find { m with context := m.context.unwarned } target) := by
  rw [fresh_find, fresh_find]
  rcases (m.context.parallel_warn target m.branches).fresh_cases with
    ⟨l, _, hl, hl', rfl⟩ | ⟨e, he, he', -⟩ | ⟨e, he, hf⟩
  · exact .inr (by rw [hl, hl'])
  · exact .inr (by rw [he, he'])
  · rw [he]
    exact .inl (by simp [hf])

/-- With a warning, a question has the same answer, or the one for nothing. -/
theorem fresh_ask_unwarned (m : Matcher ν) (call : Call) :
    fresh (m.ask call) = .ok call.nothing ∨
      fresh (m.ask call) = fresh (ask { m with context := m.context.unwarned } call) := by
  have hrefusal : refusal? { m with context := m.context.unwarned } call = m.refusal? call := by
    cases call <;> rfl
  rcases m.fresh_find_unwarned call.target with h | h
  · cases hr : m.refusal? call with
    | some e => exact .inr (by rw [fresh_ask, fresh_ask, hrefusal, hr])
    | none =>
      refine .inl ?_
      rw [fresh_ask, hr, h, ← call.read_nil m.context.node]
      rfl
  · exact .inr (fresh_ask_congr m { m with context := m.context.unwarned } rfl hrefusal h.symm).symm

end Matcher

/-- Warnings only hide. A question is answered as without them or as if nothing
were found. So no node is found that would not be found without them, and no
error is met that would not be met. -/
theorem warn_hides (tree : View ν) (text : String) (node : ν) (call : Call) :
    (outcome tree text node true call = outcome tree text node false call ∨
      outcome tree text node true call = .ok call.nothing) ∧
    (∀ answer, outcome tree text node true call = .ok answer → ∀ n ∈ answer.found node,
      ∃ answer', outcome tree text node false call = .ok answer' ∧ n ∈ answer'.found node) ∧
    ∀ e, outcome tree text node true call = .error e →
      outcome tree text node false call = .error e := by
  have hcases : outcome tree text node true call = outcome tree text node false call ∨
      outcome tree text node true call = .ok call.nothing := by
    rw [outcome_eq, outcome_eq, Context.of_unwarned tree node true]
    rcases Context.of tree node true with e | ctx
    · exact .inl rfl
    simp only [Except.map, bind, Except.bind]
    rcases chainsOf text with e | branches
    · exact .inl rfl
    · exact (Matcher.fresh_ask_unwarned ⟨ctx, text, branches⟩ call).symm
  refine ⟨hcases, fun answer ha n hn => ?_, fun e he => ?_⟩
  · rcases hcases with h | h
    · exact ⟨answer, h ▸ ha, hn⟩
    · obtain rfl : call.nothing = answer := Except.ok.inj (h.symm.trans ha)
      rw [call.found_nothing] at hn
      cases hn
  · rcases hcases with h | h
    · exact h ▸ he
    · cases h.symm.trans he

end DomQuery.Query
