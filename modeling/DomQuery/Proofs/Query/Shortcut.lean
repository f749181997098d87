import DomQuery.Proofs.Query.Blank

/-!
# Searching without an index

An index is a shortcut: it spares a search the nodes that cannot be entered.

* `find_unindexed`: searches that do not go below the context node are the same.
-/

namespace DomQuery.Query

open DomQuery.Selector DomQuery.Tree Matcher

variable {ν : Type} [DecidableEq ν]

namespace Context

variable {ctx : Context ν} (hctx : ctx.Grounded)

theorem answer_unindexed (target : Target) (found : List ν) :
    ctx.unindexed.answer target found = ctx.answer target found := by
  cases target <;> rfl

/-- Entries whose candidates are tested do not wait for a walk. -/
theorem gather_of_tested {target : Target} {entries : List (Entry ν)}
    (h : ∀ e ∈ entries, ∃ nodes, e.candidates = .tested nodes) :
    ctx.gather target entries = pure entries := by
  have hpending : entries.filter (Entry.isPending target) = [] := by
    refine List.filter_eq_nil_iff.mpr fun e he => ?_
    obtain ⟨nodes, hc⟩ := h e he
    simp [Entry.isPending, hc]
  unfold gather
  rw [hpending]
  rfl

include hctx

theorem leadsBack_links_unindexed (c : Chain Compound) {n : ν} (hn : ctx.InReach n) :
    ctx.unindexed.leadsBack (c.map (ctx.unindexed.compoundProbe false)).links.reverse n =
      ctx.leadsBack (c.map (ctx.compoundProbe false)).links.reverse n := by
  have hlinks : ∀ link ∈ c.links.reverse, ctx.Untouched false link.compound :=
    fun link _ => untouched hctx false link.compound
  have hback := leadsBack_unindexed hctx hlinks hn
  rw [List.map_reverse, List.map_reverse] at hback
  exact hback

/-! ### Nodes that are there already -/

section Tested

/-- Entries at the same tested nodes, that are matched backward. -/
structure SameTested (ctx : Context ν) (c : Chain Compound) (e' e : Entry ν) : Prop where
  chain_eq' : e'.chain = c.map (ctx.unindexed.compoundProbe false)
  chain_eq : e.chain = c.map (ctx.compoundProbe false)
  heading_eq' : e'.heading = .backward
  heading_eq : e.heading = .backward
  candidates : ∃ nodes, e'.candidates = .tested nodes ∧ e.candidates = .tested nodes ∧
    ∀ n ∈ nodes, ctx.InReach n

omit hctx in
theorem entryHeading_of_not_isBelow {target : Target} (ht : target.isBelow = false)
    (c : Chain Compound) : entryHeading target c = .backward := by
  simp [entryHeading, ht]

theorem inReach_node : ctx.InReach ctx.node :=
  .inr hctx.within_root_node

theorem inReach_of_mem_elementLine {n : ν} (h : n ∈ ctx.tree.elementLine ctx.node) :
    ctx.InReach n := by
  rcases List.mem_cons.mp (List.takeWhile_subset _ h) with rfl | h
  · exact inReach_node hctx
  · have hw := (hctx.isForest.mem_ancestors.mp h).within
    exact .inr (hctx.within_root_of_sameTree (hctx.isForest.sameTree_of_within hw).symm
      hctx.within_root_node)

theorem lockstep_enter {target : Target} (ht : target.isBelow = false) (c : Chain Compound) :
    Lockstep (ctx.SameTested c) (ctx.unindexed.enter target c) (ctx.enter target c) := by
  have hh := entryHeading_of_not_isBelow ht c
  have hlast := untouched hctx false c.last
  have hentry : ∀ nodes, (∀ n ∈ nodes, ctx.InReach n) → ctx.SameTested c
      ⟨c.map (ctx.unindexed.compoundProbe false), entryHeading target c, ctx.node, .tested nodes⟩
      ⟨c.map (ctx.compoundProbe false), entryHeading target c, ctx.node, .tested nodes⟩ :=
    fun nodes hn => ⟨rfl, rfl, hh, hh, nodes, rfl, rfl, hn⟩
  cases target with
  | first | all => cases ht
  | itself =>
    simp only [enter, chainProbe_eq]
    refine (lockstep_filterM (P := ctx.InReach) ?_ ?_).bind ?_
    · intro n hn
      obtain rfl : n = ctx.node := List.mem_singleton.mp hn
      change (if ctx.tree.isElement ctx.node then _ else _) = _
      split
      · exact hlast _ (inReach_node hctx)
      · rfl
    · intro n hn
      obtain rfl : n = ctx.node := List.mem_singleton.mp hn
      exact inReach_node hctx
    · rintro nodes _ ⟨rfl, hn⟩
      exact .pure (hentry nodes hn)
  | nearest =>
    simp only [enter, chainProbe_eq]
    have hline : ∀ n ∈ ctx.tree.elementLine ctx.node, ctx.InReach n := fun n hn =>
      inReach_of_mem_elementLine hctx hn
    refine (lockstep_filterM (fun n hn => hlast n (hline n hn)) hline).bind ?_
    rintro nodes _ ⟨rfl, hn⟩
    exact .pure (hentry nodes hn)

/-- Nodes that are tested already are only followed backward. -/
theorem SameTested.findFrom_eq {target : Target} (ht : target.isBelow = false)
    {c : Chain Compound} {e' e : Entry ν} (h : ctx.SameTested c e' e) :
    ctx.unindexed.findFrom target e' = ctx.findFrom target e := by
  obtain ⟨nodes, hc', hc, hn⟩ := h.candidates
  have hends : ∀ n ∈ nodes, ctx.unindexed.endsAt target e' n = ctx.endsAt target e n := by
    intro n hmem
    have hback := leadsBack_links_unindexed hctx c (hn n hmem)
    simp only [endsAt, isEligible, ht, Entry.accepts, hc', hc, h.chain_eq', h.chain_eq, hback,
      Bool.not_false, Bool.true_or]
  have hnodes : ctx.unindexed.entryNodes e' = nodes ∧ ctx.entryNodes e = nodes := by
    simp only [entryNodes, hc', hc, and_self]
  simp only [findFrom, h.heading_eq', h.heading_eq, findBackward, hnodes]
  cases target with
  | first | all => cases ht
  | itself | nearest => exact filterM_congr hends

/-- Searches that do not go below the context node are the same with and without
the indices. -/
theorem find_unindexed {target : Target} (ht : target.isBelow = false)
    (branches : List (Chain Compound)) :
    ctx.unindexed.find target branches = ctx.find target branches := by
  unfold find plan
  simp only [bind_assoc]
  have hentries := lockstep_mapM fun c (_ : c ∈ branches) => (lockstep_enter hctx ht c).mono
    fun e' e h => (⟨c, h⟩ : ∃ c, ctx.SameTested c e' e)
  refine (hentries.bind fun entries' entries hsame => ?_).eq
  have htested : ∀ e ∈ entries, ∃ nodes, e.candidates = .tested nodes := by
    intro e he
    obtain ⟨e', -, c, h⟩ := forall₂_exists_left hsame e he
    obtain ⟨nodes, -, hc, -⟩ := h.candidates
    exact ⟨nodes, hc⟩
  have htested' : ∀ e ∈ entries', ∃ nodes, e.candidates = .tested nodes := by
    intro e' he
    obtain ⟨e, -, c, h⟩ := forall₂_exists_left hsame.flip e' he
    obtain ⟨nodes, hc, -, -⟩ := h.candidates
    exact ⟨nodes, hc⟩
  rw [gather_of_tested htested, gather_of_tested htested', pure_bind, pure_bind]
  refine Lockstep.bind (lockstep_collectM (P := fun _ => True) (hsame.imp ?_)) ?_
  · rintro e' e ⟨c, h⟩
    exact (Lockstep.of_eq (h.findFrom_eq hctx ht)).mono fun _ _ h => ⟨h, by simp⟩
  · rintro found _ ⟨rfl, -⟩
    rw [answer_unindexed]
    exact .refl _

end Tested

/-! ### Searches from scratch -/

section Scratch

variable {target : Target} {c : Chain Compound}

theorem inReach_of_mem_entryNodes {n : ν} (hn : n ∈ ctx.entryNodes (ctx.blank target c)) :
    ctx.InReach n := by
  have hscope := hctx.within_entryScope (entryHeading target c)
  rcases List.mem_cons.mp hn with rfl | hn
  · exact .inr hscope
  · exact .inr (hscope.trans (hctx.wellFormed.mem_walk.mp hn).2.within)

theorem accepts_unindexed {n : ν} (hn : ctx.InReach n) :
    (ctx.unindexed.blank target c).accepts n = (ctx.blank target c).accepts n := by
  change (ctx.unindexed.blank target c).probe.holds n = (ctx.blank target c).probe.holds n
  rw [probe_eq_of_chain rfl, probe_eq_of_chain rfl]
  exact untouched hctx false _ n hn

theorem endsAt_unindexed {n : ν} (hn : ctx.InReach n) :
    ctx.unindexed.endsAt target (ctx.unindexed.blank target c) n =
      ctx.endsAt target (ctx.blank target c) n := by
  have hback := leadsBack_links_unindexed hctx c hn
  unfold endsAt
  rw [accepts_unindexed hctx hn]
  change (do
    if !ctx.isEligible target n then return false
    else if !(← (ctx.blank target c).accepts n) then return false
    else ctx.unindexed.leadsBack (c.map (ctx.unindexed.compoundProbe false)).links.reverse n) = _
  rw [hback]
  rfl

theorem lockstep_reach {steps : List (Combinator × Compound)} {nodes : List ν}
    (hn : ∀ n ∈ nodes, ctx.InReach n) :
    Lockstep (fun ys zs => ys = zs ∧ ∀ m ∈ ys, ctx.InReach m)
      (ctx.unindexed.reach (steps.map fun s => (s.1, ctx.unindexed.compoundProbe false s.2)) nodes)
      (ctx.reach (steps.map fun s => (s.1, ctx.compoundProbe false s.2)) nodes) := by
  induction steps generalizing nodes with
  | nil => exact .pure ⟨rfl, hn⟩
  | cons s steps ih =>
    rw [List.map_cons, List.map_cons, reach, reach]
    refine (lockstep_collectM (List.forall₂_same.mpr fun n hmem =>
      lockstep_step hctx (untouched hctx false s.2) _ _ (hn n hmem))).bind ?_
    rintro ys _ ⟨rfl, hys⟩
    exact ih fun m hm => hys m (mem_distinct.mp hm)

theorem reachFrom_unindexed {n : ν} (hn : ctx.InReach n) :
    ctx.unindexed.reachFrom (c.map (ctx.unindexed.compoundProbe false)) n =
      ctx.reachFrom (c.map (ctx.compoundProbe false)) n := by
  rw [reachFrom, reachFrom, forwardSteps_map, forwardSteps_map]
  exact ((lockstep_reach hctx (by simpa using hn)).mono fun _ _ h => h.1).eq

theorem followFrom_unindexed {n : ν} (hn : ctx.InReach n) :
    ctx.unindexed.followFrom target (ctx.unindexed.blank target c) n =
      ctx.followFrom target (ctx.blank target c) n := by
  unfold followFrom
  rw [accepts_unindexed hctx hn]
  have hreach : ctx.unindexed.reachFrom (ctx.unindexed.blank target c).chain n =
      ctx.reachFrom (ctx.blank target c).chain n := reachFrom_unindexed hctx hn
  rw [hreach]
  rfl

theorem firstForward_unindexed {nodes : List ν} (hn : ∀ n ∈ nodes, ctx.InReach n)
    (best : Option ν) :
    ctx.unindexed.firstForward (ctx.unindexed.blank .first c) nodes best =
      ctx.firstForward (ctx.blank .first c) nodes best := by
  induction nodes generalizing best with
  | nil => rw [firstForward, firstForward]
  | cons n rest ih =>
    obtain ⟨hnode, hrest⟩ := List.forall_mem_cons.mp hn
    rw [firstForward, firstForward, followFrom_unindexed hctx hnode]
    change (if ctx.improves best n then _ else _) = _
    split
    · refine congrArg _ (funext fun reached => ?_)
      exact ih hrest _
    · rfl

theorem findFrom_unindexed :
    ctx.unindexed.findFrom target (ctx.unindexed.blank target c) =
      ctx.findFrom target (ctx.blank target c) := by
  have hends : ∀ n ∈ ctx.entryNodes (ctx.blank target c),
      ctx.unindexed.endsAt target (ctx.unindexed.blank target c) n =
        ctx.endsAt target (ctx.blank target c) n := fun n hn =>
    endsAt_unindexed hctx (inReach_of_mem_entryNodes hctx hn)
  have hfollow : ∀ n ∈ ctx.entryNodes (ctx.blank target c),
      ctx.unindexed.followFrom target (ctx.unindexed.blank target c) n =
        ctx.followFrom target (ctx.blank target c) n := fun n hn =>
    followFrom_unindexed hctx (inReach_of_mem_entryNodes hctx hn)
  have hnodes : ctx.unindexed.entryNodes (ctx.unindexed.blank target c) =
      ctx.entryNodes (ctx.blank target c) := by
    simp only [entryNodes, blank]
    rfl
  have hheading : (ctx.unindexed.blank target c).heading = (ctx.blank target c).heading := by
    simp only [blank]
  unfold findFrom findBackward findForward
  rw [hheading, hnodes]
  cases (ctx.blank target c).heading with
  | backward =>
    cases target with
    | first => simp only [findM?_congr hends]
    | itself | nearest | all => exact filterM_congr hends
  | forward =>
    cases target with
    | first =>
      simp only [firstForward_unindexed hctx fun n hn => inReach_of_mem_entryNodes hctx hn]
    | itself | nearest | all => exact collectM_congr hfollow

theorem scratch_unindexed (branches : List (Chain Compound)) :
    ctx.unindexed.scratch target branches = ctx.scratch target branches := by
  unfold scratch
  rw [collectM_congr fun c _ => findFrom_unindexed hctx]
  simp only [answer_unindexed]

end Scratch

end Context

end DomQuery.Query
