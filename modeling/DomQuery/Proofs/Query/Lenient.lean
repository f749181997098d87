import DomQuery.Proofs.Query.Alike

/-!
# Forgiving evaluation

Below `:is()` an undeclared prefix is forgiven, and so is a branch that fails. That
shows only where something fails: what comes to an answer without being forgiven
comes to the same answer when it is.

* `lenient_holdsSimple`: the two ways to test a simple selector run in parallel as
  long as the strict one does not fail.
* `matchesAny_of_matchesNone`: so, at an element and at a shadow root, `:is()` says
  the opposite of what `:not()` says.
-/

namespace DomQuery.Query

open DomQuery.Selector DomQuery.Tree

variable {ν : Type}

namespace Parallel

variable {α β : Type} {meets : QueryError → Prop} {R : α → β → Prop}
variable {x : Eval ν α} {y : Eval ν β}

/-- The second run has to come to something only where the first one does. -/
theorem of_ok (h : ∀ memo a memo', x.run.run memo = (.ok a, memo') →
      ∃ b, y.run.run memo = (.ok b, memo') ∧ R a b) : Parallel (fun _ => True) meets R x y := by
  intro memo
  rcases hx : x.run.run memo with ⟨e | a, memo'⟩
  · exact .excused trivial
  · obtain ⟨b, hy, hR⟩ := h memo a memo' hx
    rw [hy]
    exact .ok hR

theorem exists_ok {excuse : QueryError → Prop} (h : Parallel excuse meets R x y) {memo memo' : Memo ν}
    {a : α} (hx : x.run.run memo = (.ok a, memo')) :
    ∃ b, y.run.run memo = (.ok b, memo') ∧ R a b := by
  have hrun := h memo
  rw [hx] at hrun
  revert hrun
  generalize y.run.run memo = s
  rintro (hR | _ | _)
  exact ⟨_, rfl, hR⟩

protected theorem refl (x : Eval ν α) : Parallel (fun _ => True) meets Eq x x :=
  of_ok fun _ a _ hx => ⟨a, hx, rfl⟩

/-- What does not fail is not forgiven. -/
protected theorem forgiving {x y : Eval ν Bool} (h : Parallel (fun _ => True) meets Eq x y) :
    Parallel (fun _ => True) meets Eq x (Context.forgiving y) := by
  refine of_ok fun memo a memo' hx => ?_
  obtain ⟨b, hy, hab⟩ := h.exists_ok hx
  refine ⟨b, ?_, hab⟩
  rw [Context.forgiving, run_tryCatch, hy]

end Parallel

namespace Context

variable [DecidableEq ν] (ctx : Context ν)

/-- The context on both sides, where the first side may fail on its own. -/
def twice : Pairing ν :=
  ⟨fun _ => True, fun _ => True, fun _ => True, ctx, ctx⟩

theorem alike_twice : ctx.twice.Alike :=
  Pairing.alike_of_warn fun e _ => .refl (ctx.complain e)

variable {ctx}

omit [DecidableEq ν] in
theorem lenient_holdsType (t : TypeSelector) (n : ν) :
    ctx.twice.Runs Eq (ctx.holdsType false t n) (ctx.holdsType true t n) := by
  unfold holdsType
  split
  · exact .pure rfl
  · exact .excused trivial _

theorem testsAlike_twice {k : Compound}
    (h : ∀ s ∈ k, ∀ n, ctx.twice.Runs Eq (ctx.holdsSimple false s n) (ctx.holdsSimple true s n)) :
    ctx.twice.TestsAlike false true k := by
  intro n _
  change ctx.twice.Runs Eq ((ctx.compoundProbe false k).holds n) ((ctx.compoundProbe true k).holds n)
  rw [holds_compoundProbe, holds_compoundProbe]
  exact .allM (.of_subset fun s hs => hs) fun s hs => h s hs n

/-- A simple selector that is tested strictly to an answer has the same answer when
prefixes are forgiven. -/
theorem lenient_holdsSimple (s : Simple) (n : ν) :
    ctx.twice.Runs Eq (ctx.holdsSimple false s n) (ctx.holdsSimple true s n) := by
  have h := ctx.alike_twice
  induction s using Simple.induct generalizing n with
  | h s ih =>
    have hk : ∀ c ∈ s.branches, ∀ k ∈ c.compounds, ctx.twice.TestsAlike false true k :=
      fun c hc k hk => testsAlike_twice (ih c hc k hk)
    -- only what hands the prefixes of its argument on differs between the two sides
    cases s with
    | type t => exact h.onElements trivial (lenient_holdsType t n)
    | has branches => exact h.onElements trivial (h.hasSome hk trivial)
    | host compounds =>
      rcases compounds with _ | branches
      · exact .refl _
      · exact h.onHosts trivial fun _ _ => Pairing.Alike.holdsSome hk trivial
    | hostContext compounds =>
      refine h.onHosts trivial fun host _ => ?_
      exact .anyM (h.elementLine host trivial) fun _ _ => Pairing.Alike.holdsSome hk trivial
    | _ => exact .refl _

/-- Branches that are matched strictly to an answer have the same answer where the
failing ones are passed over. -/
theorem lenient_matchesSome (branches : List (Chain Compound)) (n : ν) :
    ctx.twice.Runs Eq (ctx.matchesSome (ctx.probes false branches) n)
      (ctx.matchesSomeForgiving (ctx.probes true branches) n) := by
  have htests : ∀ k, ctx.twice.TestsAlike false true k := fun k =>
    testsAlike_twice fun s _ => lenient_holdsSimple s
  rw [probes_eq, probes_eq, matchesSome, matchesSomeForgiving, anyM_map, anyM_map]
  refine .anyM (.of_subset fun c hc => hc) fun c _ => ?_
  exact (ctx.alike_twice.matchesChain (fun k _ => htests k) trivial).forgiving

omit [DecidableEq ν] in
theorem onBoth_eq {n : ν} (hn : ctx.place n ≠ .elsewhere) (test : ν → Eval ν Bool) :
    ctx.onBoth test n = test n := by
  unfold onBoth byPlace
  cases hp : ctx.place n with
  | element => rfl
  | shadowRoot host => rfl
  | elsewhere => exact absurd hp hn

/-- Wherever `:not()` comes to an answer at an element or a shadow root, `:is()` comes
to the opposite, and leaves behind what `:not()` does. -/
theorem matchesAny_of_matchesNone {branches : List (Chain Compound)} {n : ν}
    (hn : ctx.place n ≠ .elsewhere) {forgive : Bool} (forgive' : Bool) {memo memo' : Memo ν} {b : Bool}
    (h : (ctx.holdsSimple forgive (.matchesNone branches) n).run.run memo = (.ok b, memo')) :
    (ctx.holdsSimple forgive' (.matchesAny branches) n).run.run memo = (.ok (!b), memo') := by
  rw [holdsSimple, onBoth_eq hn, run_bind] at h
  rw [holdsSimple, onBoth_eq hn]
  rcases hx : (ctx.matchesSome (ctx.probes false branches) n).run.run memo with ⟨e | a, memo''⟩
  · rw [hx] at h
    cases h
  · rw [hx] at h
    cases h
    obtain ⟨_, hy, rfl⟩ := (lenient_matchesSome branches n).exists_ok hx
    rw [hy, Bool.not_not]

theorem fresh_matchesAny {branches : List (Chain Compound)} {n : ν} (hn : ctx.place n ≠ .elsewhere)
    {forgive : Bool} (forgive' : Bool) {b : Bool}
    (h : fresh (ctx.holdsSimple forgive (.matchesNone branches) n) = .ok b) :
    fresh (ctx.holdsSimple forgive' (.matchesAny branches) n) = .ok (!b) := by
  have hrun := matchesAny_of_matchesNone hn forgive' (Prod.ext (y := (_, _)) h rfl)
  rw [fresh, hrun]

end Context

end DomQuery.Query
