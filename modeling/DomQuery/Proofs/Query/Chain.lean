import DomQuery.Proofs.Query.Relation

/-!
# Matching chains from either end

A chain says that there is a way from a node that satisfies its first compound,
through nodes that satisfy the others, to the node it matches. `Matches` puts it
like that. Whether the way is looked for backward from its end or forward from
its beginning, the same nodes are found to match.

* `Grounded.decides_leadsBack`: what a search backward finds.
* `Grounded.collects_reach`: what a search forward finds.
-/

namespace DomQuery.Query

open DomQuery.Selector DomQuery.Tree Matcher

section Distinct

variable {α : Type} [DecidableEq α]

theorem foldl_distinct (xs : List α) {seen : List α} (h : seen.Nodup) :
    (xs.foldl (fun seen x => if seen.contains x then seen else seen ++ [x]) seen).Nodup ∧
      ∀ x, x ∈ xs.foldl (fun seen x => if seen.contains x then seen else seen ++ [x]) seen ↔
        x ∈ seen ∨ x ∈ xs := by
  induction xs generalizing seen with
  | nil => simp [h]
  | cons a xs ih =>
    rw [List.foldl_cons]
    split
    · rename_i ha
      have ha : a ∈ seen := by simpa using ha
      obtain ⟨hn, hm⟩ := ih h
      refine ⟨hn, fun x => ?_⟩
      rw [hm, List.mem_cons]
      constructor
      · rintro (hx | hx)
        · exact .inl hx
        · exact .inr (.inr hx)
      · rintro (hx | rfl | hx)
        · exact .inl hx
        · exact .inl ha
        · exact .inr hx
    · rename_i ha
      have ha : a ∉ seen := by simpa using ha
      have hseen : (seen ++ [a]).Nodup := List.nodup_append.mpr ⟨h, by simp, by
        rintro b hb _ hc rfl
        exact ha (List.mem_singleton.mp hc ▸ hb)⟩
      obtain ⟨hn, hm⟩ := ih hseen
      refine ⟨hn, fun x => ?_⟩
      rw [hm, List.mem_append, List.mem_singleton, List.mem_cons, or_assoc]

theorem nodup_distinct (xs : List α) : (distinct xs).Nodup :=
  (foldl_distinct xs .nil).1

theorem mem_distinct {xs : List α} {x : α} : x ∈ distinct xs ↔ x ∈ xs := by
  rw [distinct, (foldl_distinct xs .nil).2]
  simp

end Distinct

namespace Context

variable {ν : Type} [DecidableEq ν] (ctx : Context ν)

/-- The steps lead from `x` to `y`, each to a node that satisfies its compound. -/
def Leads : List (Combinator × Compound) → ν → ν → Prop
  | [], x, y => x = y
  | (c, k) :: steps, x, y =>
    ∃ z, Related ctx.tree.toLinks c x z ∧ ctx.Satisfies k z ∧ Leads steps z y

/-- The chain matches `y`. -/
def Matches (c : Chain Compound) (y : ν) : Prop :=
  ∃ x, ctx.Satisfies c.first x ∧ ctx.Leads (forwardSteps c) x y

variable {ctx}

theorem leads_append {s s' : List (Combinator × Compound)} {x y : ν} :
    ctx.Leads (s ++ s') x y ↔ ∃ z, ctx.Leads s x z ∧ ctx.Leads s' z y := by
  induction s generalizing x with
  | nil => simp [Leads]
  | cons step s ih =>
    simp only [List.cons_append, Leads, ih]
    constructor
    · rintro ⟨w, hr, hk, z, hz, hy⟩
      exact ⟨z, ⟨w, hr, hk, hz⟩, hy⟩
    · rintro ⟨z, ⟨w, hr, hk, hz⟩, hy⟩
      exact ⟨w, hr, hk, z, hz, hy⟩

theorem matches_single {l : Option Combinator} {k : Compound} {y : ν} :
    ctx.Matches ⟨l, [], k⟩ y ↔ ctx.Satisfies k y := by
  simp [Matches, Leads, forwardSteps, Chain.first, Chain.compounds, Chain.combinators]

theorem forwardSteps_append {κ : Type} (l : Option Combinator) (links : List (Link κ))
    (link : Link κ) (k : κ) :
    forwardSteps ⟨l, links ++ [link], k⟩ =
      forwardSteps ⟨l, links, link.compound⟩ ++ [(link.combinator, k)] := by
  rcases links with _ | ⟨first, links⟩
  · rfl
  · simp only [forwardSteps, Chain.combinators, Chain.compounds, List.map_cons, List.map_append,
      List.cons_append, List.tail_cons, List.map_nil]
    rw [← List.cons_append, List.zip_append (by simp)]
    rfl

theorem first_append {κ : Type} (l : Option Combinator) (links : List (Link κ)) (link : Link κ)
    (k : κ) : (Chain.mk l (links ++ [link]) k).first = (Chain.mk l links link.compound).first := by
  rcases links with _ | ⟨first, links⟩ <;> rfl

/-- The last step of a way. -/
theorem matches_append {l : Option Combinator} {links : List (Link Compound)}
    {link : Link Compound} {k : Compound} {y : ν} :
    ctx.Matches ⟨l, links ++ [link], k⟩ y ↔ ctx.Satisfies k y ∧
      ∃ x, Related ctx.tree.toLinks link.combinator x y ∧
        ctx.Matches ⟨l, links, link.compound⟩ x := by
  simp only [Matches, forwardSteps_append, first_append, leads_append, Leads]
  constructor
  · rintro ⟨w, hw, x, hx, y, hr, hk, rfl⟩
    exact ⟨hk, x, hr, w, hw, hx⟩
  · rintro ⟨hk, x, hr, w, hw, hx⟩
    exact ⟨w, hw, x, hx, y, hr, hk, rfl⟩

/-- What a chain matches satisfies its last compound. -/
theorem satisfies_last_of_matches {c : Chain Compound} {y : ν} (h : ctx.Matches c y) :
    ctx.Satisfies c.last y := by
  obtain ⟨l, links, k⟩ := c
  rcases List.eq_nil_or_concat links with rfl | ⟨links, link, rfl⟩
  · exact matches_single.mp h
  · exact (matches_append.mp (by simpa using h)).1

section Ways

variable (hctx : ctx.Grounded)
include hctx

theorem Grounded.sameTree_of_leads {steps : List (Combinator × Compound)} {x y : ν}
    (h : ctx.Leads steps x y) : ctx.tree.SameTree x y := by
  induction steps generalizing x with
  | nil =>
    obtain rfl : x = y := h
    rfl
  | cons step steps ih =>
    obtain ⟨z, hr, -, hz⟩ := h
    exact (hr.sameTree hctx.isForest).trans (ih hz)

/-- All that can be reached comes after the node that it is reached from. -/
theorem Grounded.before_of_leads {steps : List (Combinator × Compound)} {x y : ν}
    (h : ctx.Leads steps x y) : x = y ∨ ctx.tree.Before x y := by
  induction steps generalizing x with
  | nil => exact .inl h
  | cons step steps ih =>
    obtain ⟨z, hr, -, hz⟩ := h
    have hb := hr.before hctx.isForest
    rcases ih hz with rfl | hz
    · exact .inr hb
    · exact .inr (hctx.isForest.before_trans hb hz)

end Ways

/-! ### Backward -/

section Search

variable {counts : MemoKey ν → Except QueryError (List ν)} {E : QueryError → Prop}

/-- The links of a chain as probes. -/
def linkProbeOf (ctx : Context ν) (link : Link Compound) : Link (Probe ν) :=
  ⟨ctx.compoundProbe false link.compound, link.combinator⟩

theorem Grounded.decides_leadsBack (hctx : ctx.Grounded) {l : Option Combinator}
    {links : List (Link Compound)} {k : Compound} {y : ν}
    (hs : ∀ link ∈ links, (ctx.compoundProbe false link.compound).Steady counts E)
    (hne : ∀ link ∈ links, link.compound ≠ []) (hy : ctx.Satisfies k y) :
    Decides (ctx.leadsBack (links.map ctx.linkProbeOf) y) (ctx.Matches ⟨l, links.reverse, k⟩ y) := by
  induction links generalizing k y with
  | nil => exact decides_pure (by simp [matches_single, hy])
  | cons link links ih =>
    obtain ⟨hlink, hlinks⟩ := List.forall_mem_cons.mp hs
    obtain ⟨hnlink, hnlinks⟩ := List.forall_mem_cons.mp hne
    have hback : ∀ x, Steady counts E (ctx.leadsBack (links.map ctx.linkProbeOf) x) :=
      steady_leadsBack fun _ hl => by
        obtain ⟨link', hl', rfl⟩ := List.mem_map.mp hl
        exact hlinks link' hl'
    intro b hb
    rw [List.map_cons, leadsBack] at hb
    obtain ⟨xs, hxs, hb⟩ := (steady_step hlink _ _ y).bind_ok (fun xs _ => .anyM fun x _ => hback x) hb
    have hmem : ∀ x, x ∈ xs ↔
        Related ctx.tree.toLinks link.combinator x y ∧ ctx.Satisfies link.compound x := by
      intro x
      rw [(filterM_ok (fun x _ => hlink x) (fun x _ => decides_yes _) hxs).2,
        hctx.mem_related_backward]
      constructor
      · rintro ⟨⟨hr, -⟩, hk⟩
        exact ⟨hr, hk⟩
      · rintro ⟨hr, hk⟩
        exact ⟨⟨hr, candidate_of_yes hnlink hk⟩, hk⟩
    rw [Decides.anyM (fun x _ => hback x)
      (fun x hx => ih hlinks hnlinks ((hmem x).mp hx).2) b hb]
    rw [List.reverse_cons, matches_append]
    constructor
    · rintro ⟨x, hx, hm⟩
      exact ⟨hy, x, ((hmem x).mp hx).1, hm⟩
    · rintro ⟨-, x, hr, hm⟩
      exact ⟨x, (hmem x).mpr ⟨hr, satisfies_last_of_matches hm⟩, hm⟩

/-! ### Forward -/

/-- A step of a chain as a probe. -/
def stepProbeOf (ctx : Context ν) (s : Combinator × Compound) : Combinator × Probe ν :=
  (s.1, ctx.compoundProbe false s.2)

theorem Grounded.collects_reach (hctx : ctx.Grounded) {steps : List (Combinator × Compound)}
    (nodes : List ν) (hs : ∀ s ∈ steps, (ctx.compoundProbe false s.2).Steady counts E)
    (hne : ∀ s ∈ steps, s.2 ≠ []) (hn : ∀ x ∈ nodes, ctx.tree.Within ctx.root x) :
    Collects (ctx.reach (steps.map ctx.stepProbeOf) nodes)
      fun y => ∃ x ∈ nodes, ctx.Leads steps x y := by
  induction steps generalizing nodes with
  | nil =>
    rintro _ ⟨⟩ y
    simp [Leads]
  | cons step steps ih =>
    obtain ⟨hstep, hsteps⟩ := List.forall_mem_cons.mp hs
    obtain ⟨hnstep, hnsteps⟩ := List.forall_mem_cons.mp hne
    obtain ⟨c, k⟩ := step
    have hone : ∀ x ∈ nodes, Collects (ctx.step .forward c (ctx.compoundProbe false k) x)
        fun y => Related ctx.tree.toLinks c x y ∧ ctx.Satisfies k y := by
      intro x hx ys hys y
      rw [(filterM_ok (fun y _ => hstep y) (fun y _ => decides_yes _) hys).2]
      constructor
      · rintro ⟨hy, hk⟩
        exact ⟨((hctx.mem_related_forward (hn x hx) hk).mp hy).1, hk⟩
      · rintro ⟨hr, hk⟩
        obtain ⟨p, hp⟩ := hr.exists_parent hctx.isForest
        have he := (hctx.candidate_iff hp).mp (candidate_of_yes hnstep hk)
        exact ⟨(hctx.mem_related_forward (hn x hx) hk).mpr ⟨hr, he⟩, hk⟩
    intro ys hys
    rw [List.map_cons, stepProbeOf, reach] at hys
    obtain ⟨zs, hzs, hys⟩ := (Steady.collectM fun x _ => steady_step hstep _ _ x).bind_ok
      (fun zs _ => steady_reach (fun _ hm => by
        obtain ⟨s, hm', rfl⟩ := List.mem_map.mp hm
        exact hsteps s hm') _) hys
    have hmem : ∀ z, z ∈ distinct zs ↔
        ∃ x ∈ nodes, Related ctx.tree.toLinks c x z ∧ ctx.Satisfies k z := fun z =>
      mem_distinct.trans (Collects.collectM (fun x _ => steady_step hstep _ _ x) hone zs hzs z)
    have hin : ∀ z ∈ distinct zs, ctx.tree.Within ctx.root z := by
      intro z hz
      obtain ⟨x, hx, hr, -⟩ := (hmem z).mp hz
      exact hctx.within_root_of_sameTree (hr.sameTree hctx.isForest) (hn x hx)
    intro y
    rw [ih _ hsteps hnsteps hin ys hys]
    constructor
    · rintro ⟨z, hz, hy⟩
      obtain ⟨x, hx, hr, hk⟩ := (hmem z).mp hz
      exact ⟨x, hx, z, hr, hk, hy⟩
    · rintro ⟨x, hx, z, hr, hk, hy⟩
      exact ⟨z, (hmem z).mpr ⟨x, hx, hr, hk⟩, hy⟩

end Search

end Context

end DomQuery.Query
