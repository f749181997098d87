import DomQuery.Proofs.Query.Search
import DomQuery.Proofs.Query.Unindexed

/-!
# Searching from scratch

What a plan knows of the candidates of a chain spares the search nodes where the
chain cannot be entered, and tests that have been made. The search comes to the
same as one that knows nothing and visits the whole scope.

* `Spares` says that an entry leaves out only what would be turned down.
* `Spares.fresh_findFrom`: then the search from it is the search from scratch.
* `Grounded.fresh_find`: so is the whole query, once there is a plan.
-/

namespace DomQuery.Query

open DomQuery.Selector DomQuery.Tree Matcher

variable {ν : Type} [DecidableEq ν]

omit [DecidableEq ν] in
/-- What comes to nothing need not be computed. -/
theorem fresh_collectM_filter {counts : MemoKey ν → Except QueryError (List ν)}
    {E : QueryError → Prop} {α β : Type} {f f' : α → Eval ν (List β)} {q : α → Bool} {xs : List α}
    (hf : ∀ x ∈ xs, Steady counts E (f x)) (hf' : ∀ x ∈ xs, Steady counts E (f' x))
    (hkeep : ∀ x ∈ xs, q x = true → fresh (f x) = fresh (f' x))
    (hdrop : ∀ x ∈ xs, q x = false → fresh (f' x) = .ok []) :
    fresh (collectM f (xs.filter q)) = fresh (collectM f' xs) := by
  induction xs with
  | nil => rfl
  | cons x xs ih =>
    have ih := ih (fun y hy => hf y (by simp [hy])) (fun y hy => hf' y (by simp [hy]))
      (fun y hy => hkeep y (by simp [hy])) fun y hy => hdrop y (by simp [hy])
    rw [Steady.fresh_collectM_cons hf', ← ih]
    cases hq : q x with
    | true =>
      have hfilter : ∀ y ∈ x :: xs.filter q, Steady counts E (f y) := fun y hy =>
        hf y (List.cons_subset_cons x List.filter_sublist.subset hy)
      rw [List.filter_cons_of_pos hq, ← hkeep x (by simp) hq, Steady.fresh_collectM_cons hfilter]
    | false =>
      rw [List.filter_cons_of_neg (by simp [hq]), hdrop x (by simp) hq]
      exact (id_map _).symm

omit [DecidableEq ν] in
theorem fresh_collectM_congr {counts : MemoKey ν → Except QueryError (List ν)}
    {E : QueryError → Prop} {α α' β : Type} {f : α → Eval ν (List β)} {f' : α' → Eval ν (List β)}
    {xs : List α} {xs' : List α'} (hf : ∀ x ∈ xs, Steady counts E (f x))
    (hf' : ∀ x ∈ xs', Steady counts E (f' x))
    (h : List.Forall₂ (fun x x' => fresh (f x) = fresh (f' x')) xs xs') :
    fresh (collectM f xs) = fresh (collectM f' xs') := by
  induction h with
  | nil => rfl
  | cons hx _ ih =>
    rw [Steady.fresh_collectM_cons hf, Steady.fresh_collectM_cons hf', hx,
      ih (fun y hy => hf y (by simp [hy])) fun y hy => hf' y (by simp [hy])]

namespace Context

/-! ### Entries that leave nodes out -/

section Entries

variable (ctx : Context ν)

/-- The entry for a chain when nothing is known of its candidates. -/
def blank (target : Target) (c : Chain Compound) : Entry ν :=
  ⟨c.map (ctx.compoundProbe false), entryHeading target c, ctx.entryScope (entryHeading target c),
    .unknown⟩

/-- All that a search from the entry may visit. -/
def scopeNodes (e : Entry ν) : List ν :=
  e.scope :: ctx.tree.walk e.scope

/-- Backward, nodes that are not eligible are turned down before they are tested. -/
def isUseful (target : Target) (e : Entry ν) (n : ν) : Bool :=
  e.heading == .forward || ctx.isEligible target n

/-- The entry serves the chain, and what it leaves out would be turned down. -/
structure Spares (target : Target) (c : Chain Compound) (e : Entry ν) : Prop
    extends ctx.Serves target c e where
  mem_scopeNodes : ∀ n ∈ ctx.entryNodes e, ctx.isUseful target e n = true → n ∈ ctx.scopeNodes e
  rejects : ∀ n ∈ ctx.scopeNodes e, ctx.isUseful target e n = true → n ∉ ctx.entryNodes e →
    fresh (e.probe.holds n) = .ok false

end Entries

section Search

variable {ctx : Context ν} (hctx : ctx.Grounded)
variable {counts : MemoKey ν → Except QueryError (List ν)} {target : Target}
variable {c : Chain Compound} {e : Entry ν}

theorem Spares.blank_eq (h : ctx.Spares target c e) :
    ctx.blank target c = { e with candidates := .unknown } := by
  rw [blank, ← h.heading_eq, ← h.chain_eq, ← h.scope_eq]

/-- The nodes of an entry are those of its scope that it does not leave out. -/
theorem Spares.filter_scopeNodes (hctx : ctx.Grounded) (h : ctx.Spares target c e)
    (hne : ∀ k ∈ c.compounds, k ≠ []) :
    (ctx.scopeNodes e).filter (fun n => ctx.isUseful target e n && decide (n ∈ ctx.entryNodes e)) =
      (ctx.entryNodes e).filter (ctx.isUseful target e) := by
  refine hctx.isForest.eq_of_pairwise_before ((hctx.pairwise_scope_walk e.scope).filter _)
    ((h.covers hctx hne).pairwise.filter _) fun n => ?_
  rw [List.mem_filter, List.mem_filter, Bool.and_eq_true, decide_eq_true_eq, and_comm (b := _ ∈ _)]
  exact ⟨And.right, fun hn => ⟨h.mem_scopeNodes n hn.1 hn.2, hn⟩⟩

/-- To accept a node is as good as to test it. -/
theorem Spares.fresh_accepts (h : ctx.Spares target c e) {n : ν} (hn : n ∈ ctx.entryNodes e) :
    fresh (e.accepts n) = fresh (e.probe.holds n) := by
  unfold Entry.accepts
  split
  · rename_i nodes hc
    have hn : n ∈ nodes := by simpa [entryNodes, hc] using hn
    rw [probe_eq_of_chain h.chain_eq]
    exact ((h.trusted.tested nodes hc).2 n hn).symm
  · rfl

/-! ### Backward -/

section Backward

theorem Spares.fresh_endsAt (h : ctx.Spares target c e)
    (hs : ∀ k ∈ c.compounds, (ctx.compoundProbe false k).Steady counts ctx.MayFail) {n : ν}
    (hn : n ∈ ctx.entryNodes e) :
    fresh (ctx.endsAt target e n) = fresh (ctx.endsAt target (ctx.blank target c) n) := by
  rw [h.blank_eq]
  unfold endsAt
  split
  · rfl
  · have hrest : ∀ b : Bool, Steady counts ctx.MayFail
        (if !b then return false else ctx.leadsBack e.chain.links.reverse n) := by
      intro b
      split
      · exact .pure false
      · exact steady_leadsBack_links h.chain_eq hs n
    rw [(steady_accepts h.chain_eq hs n).fresh_bind fun b _ => hrest b,
      (steady_accepts (e := { e with candidates := .unknown }) h.chain_eq hs n).fresh_bind
        fun b _ => hrest b, h.fresh_accepts hn]
    rfl

theorem endsAt_of_not_isUseful (hb : e.heading = .backward) {n : ν}
    (hn : ctx.isUseful target e n = false) {e' : Entry ν} :
    ctx.endsAt target e' n = pure false := by
  unfold endsAt
  rw [if_pos]
  simpa [isUseful, hb] using hn

theorem Spares.endsAt_rejects (h : ctx.Spares target c e) (hb : e.heading = .backward)
    (hs : ∀ k ∈ c.compounds, (ctx.compoundProbe false k).Steady counts ctx.MayFail) {n : ν}
    (hn : n ∈ ctx.scopeNodes e)
    (hnot : (ctx.isUseful target e n && decide (n ∈ ctx.entryNodes e)) = false) :
    fresh (ctx.endsAt target (ctx.blank target c) n) = .ok false := by
  cases hu : ctx.isUseful target e n with
  | false => rw [endsAt_of_not_isUseful hb hu, fresh_pure]
  | true =>
    have hfalse := h.rejects n hn hu (by simpa [hu] using hnot)
    have hrest : ∀ b : Bool, Steady counts ctx.MayFail
        (if !b then return false else ctx.leadsBack e.chain.links.reverse n) := by
      intro b
      split
      · exact .pure false
      · exact steady_leadsBack_links h.chain_eq hs n
    rw [h.blank_eq]
    unfold endsAt
    split
    · rfl
    · rw [(steady_accepts (e := { e with candidates := .unknown }) h.chain_eq hs n).fresh_bind
        fun b _ => hrest b]
      change fresh (e.probe.holds n) >>= _ = _
      rw [hfalse]
      rfl

include hctx in
theorem Spares.fresh_findBackward (h : ctx.Spares target c e) (hb : e.heading = .backward)
    (hs : ∀ k ∈ c.compounds, (ctx.compoundProbe false k).Steady counts ctx.MayFail)
    (hne : ∀ k ∈ c.compounds, k ≠ []) :
    fresh (ctx.findBackward target e) = fresh (ctx.findBackward target (ctx.blank target c)) := by
  have hends : ∀ n, Steady counts ctx.MayFail (ctx.endsAt target e n) :=
    steady_endsAt h.chain_eq hs
  have hblank : ∀ n, Steady counts ctx.MayFail (ctx.endsAt target (ctx.blank target c) n) :=
    steady_endsAt rfl hs
  have huseless : ∀ n ∈ ctx.entryNodes e, ctx.isUseful target e n = false →
      fresh (ctx.endsAt target e n) = pure false := fun n _ hn => by
    rw [endsAt_of_not_isUseful hb hn, fresh_pure]
    rfl
  have hkeep : ∀ n ∈ (ctx.entryNodes e).filter (ctx.isUseful target e),
      fresh (ctx.endsAt target e n) = fresh (ctx.endsAt target (ctx.blank target c) n) :=
    fun n hn => h.fresh_endsAt hs (List.mem_filter.mp hn).1
  have hdrop := fun n hn hnot => h.endsAt_rejects hb hs (n := n) hn hnot
  have hnodes : ctx.entryNodes (ctx.blank target c) = ctx.scopeNodes e := by
    rw [h.blank_eq]
    rfl
  have hfilter := h.filter_scopeNodes hctx hne
  have hall : fresh ((ctx.entryNodes e).filterM (ctx.endsAt target e)) =
      fresh ((ctx.scopeNodes e).filterM (ctx.endsAt target (ctx.blank target c))) := by
    rw [Steady.fresh_filterM fun n _ => hends n, Steady.fresh_filterM fun n _ => hblank n,
      ← filterM_filter huseless, filterM_congr hkeep, ← filterM_filter hdrop, hfilter]
  have hfirst : fresh ((ctx.entryNodes e).findM? (ctx.endsAt target e)) =
      fresh ((ctx.scopeNodes e).findM? (ctx.endsAt target (ctx.blank target c))) := by
    rw [Steady.fresh_findM? fun n _ => hends n, Steady.fresh_findM? fun n _ => hblank n,
      ← findM?_filter huseless, findM?_congr hkeep, ← findM?_filter hdrop, hfilter]
  unfold findBackward
  rw [hnodes]
  split
  · rw [(Steady.findM? fun n _ => hends n).fresh_bind fun _ _ => .pure _,
      (Steady.findM? fun n _ => hblank n).fresh_bind fun _ _ => .pure _, hfirst]
  · exact hall

end Backward

/-! ### Forward -/

section Forward

variable (hf : e.heading = .forward)

include hf in
theorem isUseful_of_forward {n : ν} : ctx.isUseful target e n = true := by
  simp [isUseful, hf]

include hctx hf in
theorem Spares.filter_scopeNodes_forward (h : ctx.Spares target c e)
    (hne : ∀ k ∈ c.compounds, k ≠ []) :
    (ctx.scopeNodes e).filter (fun n => decide (n ∈ ctx.entryNodes e)) = ctx.entryNodes e := by
  have hfilter := h.filter_scopeNodes hctx hne
  have huseful : ctx.isUseful target e = fun _ => true := funext fun _ => isUseful_of_forward hf
  simpa [huseful] using hfilter

theorem steady_ite_reachFrom (h : e.chain = c.map (ctx.compoundProbe false))
    (hs : ∀ k ∈ c.compounds, (ctx.compoundProbe false k).Steady counts ctx.MayFail) (n : ν)
    (b : Bool) : Steady counts ctx.MayFail
      (if b then return (← ctx.reachFrom e.chain n).filter (ctx.isEligible target)
        else return []) := by
  split
  · exact (steady_reachFrom h hs n).bind fun _ _ => .pure _
  · exact .pure []

theorem Spares.fresh_followFrom (h : ctx.Spares target c e)
    (hs : ∀ k ∈ c.compounds, (ctx.compoundProbe false k).Steady counts ctx.MayFail) {n : ν}
    (hn : n ∈ ctx.entryNodes e) :
    fresh (ctx.followFrom target e n) = fresh (ctx.followFrom target (ctx.blank target c) n) := by
  rw [h.blank_eq]
  unfold followFrom
  rw [(steady_accepts h.chain_eq hs n).fresh_bind fun b _ => steady_ite_reachFrom h.chain_eq hs n b,
    (steady_accepts (e := { e with candidates := .unknown }) h.chain_eq hs n).fresh_bind
      fun b _ => steady_ite_reachFrom h.chain_eq hs n b, h.fresh_accepts hn]
  rfl

include hf in
theorem Spares.followFrom_rejects (h : ctx.Spares target c e)
    (hs : ∀ k ∈ c.compounds, (ctx.compoundProbe false k).Steady counts ctx.MayFail) {n : ν}
    (hn : n ∈ ctx.scopeNodes e) (hnot : n ∉ ctx.entryNodes e) :
    fresh (ctx.followFrom target (ctx.blank target c) n) = .ok [] := by
  have hfalse := h.rejects n hn (isUseful_of_forward hf) hnot
  rw [h.blank_eq]
  unfold followFrom
  rw [(steady_accepts (e := { e with candidates := .unknown }) h.chain_eq hs n).fresh_bind
    fun b _ => steady_ite_reachFrom h.chain_eq hs n b]
  change fresh (e.probe.holds n) >>= _ = _
  rw [hfalse]
  rfl

include hctx hf in
theorem Spares.fresh_collectForward (h : ctx.Spares target c e)
    (hs : ∀ k ∈ c.compounds, (ctx.compoundProbe false k).Steady counts ctx.MayFail)
    (hne : ∀ k ∈ c.compounds, k ≠ []) :
    fresh (collectM (ctx.followFrom target e) (ctx.entryNodes e)) =
      fresh (collectM (ctx.followFrom target (ctx.blank target c)) (ctx.scopeNodes e)) := by
  rw [← h.filter_scopeNodes_forward hctx hf hne]
  refine fresh_collectM_filter (fun n _ => steady_followFrom h.chain_eq hs n)
    (fun n _ => steady_followFrom rfl hs n) (fun n _ hn => ?_) fun n hn hnot => ?_
  · exact h.fresh_followFrom hs (of_decide_eq_true hn)
  · exact h.followFrom_rejects hf hs hn (of_decide_eq_false hnot)

/-- Nodes that do not come before the best result are not entered. -/
theorem firstForward_of_not_improves {nodes : List ν} {best : Option ν}
    (h : ∀ n ∈ nodes, ctx.improves best n = false) :
    ctx.firstForward e nodes best = pure best := by
  cases nodes with
  | nil => rfl
  | cons n rest =>
    rw [firstForward, if_neg]
    simp [h n]

include hctx in
/-- What is reached lies in the same tree. -/
theorem Serves.within_root_of_followFrom (h : ctx.Serves target c e)
    (hs : ∀ k ∈ c.compounds, (ctx.compoundProbe false k).Steady counts ctx.MayFail)
    (hne : ∀ k ∈ c.compounds, k ≠ []) (hf : e.heading = .forward) {n : ν}
    (hn : n ∈ ctx.entryNodes e) {reached : List ν}
    (hr : fresh (ctx.followFrom target e n) = .ok reached) :
    ∀ y ∈ reached, ctx.tree.Within ctx.root y := by
  intro y hy
  have hl := ((h.collects_followFrom hctx hs hne hf hn reached hr y).mp hy).2.2
  exact hctx.within_root_of_sameTree (hctx.sameTree_of_leads hl) ((h.covers hctx hne).within n hn)

omit [DecidableEq ν] in
theorem mem_foldl_earlier {nodes : List ν} {best : Option ν} {b : ν}
    (hb : b ∈ nodes.foldl ctx.earlier best) : b ∈ best ∨ b ∈ nodes := by
  induction nodes generalizing best with
  | nil => exact .inl hb
  | cons n nodes ih =>
    rcases ih hb with hb | hb
    · unfold earlier at hb
      split at hb
      · obtain rfl : n = b := by simpa using hb
        exact .inr (by simp)
      · exact .inl hb
    · exact .inr (by simp [hb])

include hctx in
/-- What comes after a node that does not improve the result does not either. -/
theorem not_improves_of_before {best : Option ν} {n m : ν}
    (hbest : ∀ b ∈ best, ctx.tree.Within ctx.root b) (hn : ctx.tree.Within ctx.root n)
    (hm : ctx.tree.Within ctx.root m) (hnm : ctx.tree.Before n m)
    (h : ¬ ctx.improves best n = true) : ctx.improves best m = false := by
  refine Bool.eq_false_iff.mpr fun hi => h ?_
  rw [hctx.improves_iff best hn hbest]
  rw [hctx.improves_iff best hm hbest] at hi
  exact fun b hb => hctx.isForest.before_trans hnm (hi b hb)

include hctx in
theorem Serves.within_root_of_mem_scopeNodes (h : ctx.Serves target c e) {n : ν}
    (hn : n ∈ ctx.scopeNodes e) : ctx.tree.Within ctx.root n := by
  have hscope := h.scope_eq ▸ hctx.within_entryScope e.heading
  rcases List.mem_cons.mp hn with rfl | hn
  · exact hscope
  · exact hscope.trans (hctx.wellFormed.mem_walk.mp hn).2.within

include hctx hf in
theorem Spares.fresh_firstForward (h : ctx.Spares .first c e)
    (hs : ∀ k ∈ c.compounds, (ctx.compoundProbe false k).Steady counts ctx.MayFail)
    (hne : ∀ k ∈ c.compounds, k ≠ []) {nodes : List ν} {best : Option ν}
    (hnodes : nodes.Pairwise ctx.tree.Before) (hsub : nodes ⊆ ctx.scopeNodes e)
    (hbest : ∀ b ∈ best, ctx.tree.Within ctx.root b) :
    fresh (ctx.firstForward e (nodes.filter fun n => decide (n ∈ ctx.entryNodes e)) best) =
      fresh (ctx.firstForward (ctx.blank .first c) nodes best) := by
  have hfollow : ∀ n, Steady counts ctx.MayFail (ctx.followFrom .first e n) :=
    steady_followFrom h.chain_eq hs
  have hfollow' : ∀ n, Steady counts ctx.MayFail (ctx.followFrom .first (ctx.blank .first c) n) :=
    steady_followFrom rfl hs
  have hfirst := steady_firstForward h.chain_eq hs
  have hfirst' := steady_firstForward (e := ctx.blank .first c) rfl hs
  induction nodes generalizing best with
  | nil => rfl
  | cons n rest ih =>
    obtain ⟨hn, hrest⟩ := List.pairwise_cons.mp hnodes
    obtain ⟨hmem, hsub⟩ := List.cons_subset.mp hsub
    rw [firstForward]
    by_cases hi : ctx.improves best n = true
    · rw [if_pos hi, (hfollow' n).fresh_bind fun _ _ => hfirst' _ _]
      by_cases he : n ∈ ctx.entryNodes e
      · rw [List.filter_cons_of_pos (by simpa using he), firstForward, if_pos hi,
          (hfollow n).fresh_bind fun _ _ => hfirst _ _, ← h.fresh_followFrom hs he]
        rcases hr : fresh (ctx.followFrom .first e n) with err | reached
        · rfl
        · refine ih hrest hsub fun b hb => ?_
          have hw := h.within_root_of_followFrom hctx hs hne hf he hr
          exact (mem_foldl_earlier hb).elim (hbest b) (hw b)
      · rw [List.filter_cons_of_neg (by simpa using he), h.followFrom_rejects hf hs hmem he]
        exact ih hrest hsub hbest
    · -- the entries have passed the best result so far
      rw [if_neg hi, firstForward_of_not_improves]
      intro m hm
      have hwn := h.within_root_of_mem_scopeNodes hctx hmem
      rcases List.mem_cons.mp (List.mem_filter.mp hm).1 with rfl | hm
      · exact Bool.eq_false_iff.mpr hi
      · have hwm := h.within_root_of_mem_scopeNodes hctx (hsub hm)
        exact not_improves_of_before hctx hbest hwn hwm (hn m hm) hi

include hctx hf in
theorem Spares.fresh_findForward (h : ctx.Spares target c e)
    (hs : ∀ k ∈ c.compounds, (ctx.compoundProbe false k).Steady counts ctx.MayFail)
    (hne : ∀ k ∈ c.compounds, k ≠ []) :
    fresh (ctx.findForward target e) = fresh (ctx.findForward target (ctx.blank target c)) := by
  have hnodes : ctx.entryNodes (ctx.blank target c) = ctx.scopeNodes e := by
    rw [h.blank_eq]
    rfl
  unfold findForward
  rw [hnodes]
  split
  · have hpairwise : (ctx.scopeNodes e).Pairwise ctx.tree.Before := hctx.pairwise_scope_walk e.scope
    have hnone : ∀ b ∈ (none : Option ν), ctx.tree.Within ctx.root b := by simp
    have hfirst := h.fresh_firstForward hctx hf hs hne hpairwise (List.Subset.refl _) hnone
    rw [h.filter_scopeNodes_forward hctx hf hne] at hfirst
    rw [(steady_firstForward h.chain_eq hs _ _).fresh_bind fun _ _ => .pure _,
      (steady_firstForward (e := ctx.blank .first c) rfl hs _ _).fresh_bind fun _ _ => .pure _,
      hfirst]
  · exact h.fresh_collectForward hctx hf hs hne

end Forward

include hctx in
/-- A search that leaves nodes out comes to the same as one from scratch. -/
theorem Spares.fresh_findFrom (h : ctx.Spares target c e)
    (hs : ∀ k ∈ c.compounds, (ctx.compoundProbe false k).Steady counts ctx.MayFail)
    (hne : ∀ k ∈ c.compounds, k ≠ []) :
    fresh (ctx.findFrom target e) = fresh (ctx.findFrom target (ctx.blank target c)) := by
  have hheading : (ctx.blank target c).heading = e.heading := h.heading_eq.symm
  unfold findFrom
  rw [hheading]
  cases hh : e.heading with
  | backward => exact h.fresh_findBackward hctx hh hs hne
  | forward => exact h.fresh_findForward hctx hh hs hne

end Search

/-! ### Plans that leave nodes out -/

section Plans

variable {ctx : Context ν} (hctx : ctx.Grounded)
variable {counts : MemoKey ν → Except QueryError (List ν)} {target : Target}
variable {c : Chain Compound} {e : Entry ν}

/-- Once an index was asked, no node can be a pseudo-element. -/
theorem holds_pseudoElement {scope : ν} {name : String} {rest : Compound} {found : Option (List ν)}
    (h : fresh (ctx.indexed? scope (.pseudoElement name :: rest)) = .ok found) (n : ν) :
    (ctx.compoundProbe false (.pseudoElement name :: rest)).holds n = pure false := by
  have hw : ctx.warn = false := by
    by_contra hw
    have hthrow : fresh (ctx.indexed? scope (.pseudoElement name :: rest)) =
        .error (.unsupportedElement name) := by
      simp only [indexed?, complain, Bool.not_eq_false _ ▸ hw, if_true]
      rfl
    rw [hthrow] at h
    cases h
  have hsimple : ctx.holdsSimple false (.pseudoElement name) n = pure false := by
    rw [holdsSimple]
    unfold onElements byPlace complain
    split <;> simp [hw]
  rw [holds_compoundProbe, List.allM, hsimple, pure_bind]

include hctx

/-- What an index leaves out would be turned down. -/
theorem rejects_of_candidatesBelow (counts : MemoKey ν → Except QueryError (List ν))
    {heading : Heading} {k : Compound} {found : List ν} {atRoot : Bool}
    (hfound : fresh (ctx.indexed? (ctx.entryScope heading) k) = .ok (some found))
    (hroot : if heading = .forward ∧ ctx.tree.isElement ctx.root = true
      then fresh ((ctx.compoundProbe false k).holds ctx.root) = .ok atRoot else atRoot = false)
    {n : ν} (hn : n ∈ ctx.entryScope heading :: ctx.tree.walk (ctx.entryScope heading))
    (hnot : n ∉ ctx.rootAnd atRoot found) (hbelow : heading = .backward → n ≠ ctx.node) :
    fresh ((ctx.compoundProbe false k).holds n) = .ok false := by
  rcases hctx.indexed?_ok counts hfound with
    ⟨name, rest, rfl, -⟩ | ⟨l, top, hl, hlists, -, hscope⟩
  · rw [holds_pseudoElement hfound, fresh_pure]
  by_cases hf : ctx.tree.isElement n = true ∧ l.Fits ctx.tree.toLinks n
  · obtain rfl | hb : n = ctx.entryScope heading ∨ ctx.tree.Below (ctx.entryScope heading) n :=
      (List.mem_cons.mp hn).imp_right fun hn => (hctx.wellFormed.mem_walk.mp hn).2
    · cases heading with
      | backward => exact absurd rfl (hbelow rfl)
      | forward =>
        rw [if_pos ⟨rfl, hf.1⟩] at hroot
        cases atRoot with
        | false => exact hroot
        | true => exact absurd List.mem_cons_self hnot
    · have hmem : n ∈ found := (hlists.2 n).mpr ⟨hf.1, hscope.trans_below hb, hf.2⟩
      refine absurd ?_ hnot
      unfold rootAnd
      split
      · exact List.mem_cons_of_mem _ hmem
      · exact hmem
  · rw [holds_of_not_fits hl hf, fresh_pure]

omit hctx in
theorem scopeNodes_eq_entryNodes (h : e.candidates = .unknown) :
    ctx.entryNodes e = ctx.scopeNodes e := by
  simp only [entryNodes, h, scopeNodes]

omit hctx in
theorem Spares.of_unknown (h : ctx.Serves target c e) (hu : e.candidates = .unknown) :
    ctx.Spares target c e where
  toServes := h
  mem_scopeNodes _ hn _ := scopeNodes_eq_entryNodes hu ▸ hn
  rejects _ hn _ hnot := absurd (scopeNodes_eq_entryNodes hu ▸ hn) hnot

/-- An index gives elements, and the root is taken only where all of the tree is
searched. -/
theorem Grounded.isElement_or_scope_of_rootAnd (counts : MemoKey ν → Except QueryError (List ν))
    {heading : Heading} {k : Compound} {found : List ν} {atRoot : Bool}
    (hfound : fresh (ctx.indexed? (ctx.entryScope heading) k) = .ok (some found))
    (hroot : atRoot = true → heading = .forward) {n : ν} (hn : n ∈ ctx.rootAnd atRoot found) :
    ctx.tree.isElement n = true ∨ n = ctx.entryScope heading := by
  have helement : n ∈ found → ctx.tree.isElement n = true := fun hn => by
    rcases hctx.indexed?_ok counts hfound with ⟨_, _, -, rfl⟩ | ⟨l, top, -, hlists, -⟩
    · cases hn
    · exact ((hlists.2 n).mp hn).1
  unfold rootAnd at hn
  split at hn
  · rename_i ha
    rcases List.mem_cons.mp hn with rfl | hn
    · rw [hroot ha]
      exact .inr rfl
    · exact .inl (helement hn)
  · exact .inl (helement hn)

/-- An index leaves out only what would be turned down. -/
theorem Grounded.spares_enter (ht : target.isBelow = true)
    (hs : ∀ k ∈ c.compounds, (ctx.compoundProbe false k).Steady counts ctx.MayFail)
    (hne : ∀ k ∈ c.compounds, k ≠ [])
    (h : fresh (ctx.enter target c) = .ok e) : ctx.Spares target c e := by
  have hserves := hctx.serves_enter ht hs h
  obtain ⟨hchain, -, hscope, hc⟩ := enter_ok_of_isBelow ht hs h
  rcases candidatesBelow_ok (hs _ (entryCompound_mem _ c)) hc with
    ⟨-, hu⟩ | ⟨found, atRoot, hfound, hcandidates, hroot⟩
  · exact .of_unknown hserves hu
  have hnodes : ctx.entryNodes e = ctx.rootAnd atRoot found := by
    simp only [entryNodes, hcandidates]
    split <;> rename_i heq <;> split at heq <;> cases heq <;> rfl
  have hbelow : ∀ {n}, ctx.isUseful target e n = true → e.heading = .backward →
      ctx.tree.Below ctx.node n := fun hu hb =>
    (isEligible_iff hctx ht).mp (by simpa [isUseful, hb] using hu)
  refine ⟨hserves, fun n hn hu => ?_, fun n hn hu hnot => ?_⟩
  · have hwithin : ctx.tree.Within (ctx.entryScope e.heading) n := by
      cases hh : e.heading with
      | backward => exact (hbelow hu hh).within
      | forward => exact (hserves.covers hctx hne).within n hn
    rw [scopeNodes, hscope]
    refine (hctx.mem_scope_walk ?_).mpr hwithin
    refine hctx.isElement_or_scope_of_rootAnd counts hfound (fun ha => ?_) (hnodes ▸ hn)
    by_contra hh
    rw [if_neg fun hf => hh hf.1, ha] at hroot
    cases hroot
  · rw [probe_eq_of_chain hchain]
    rw [scopeNodes, hscope] at hn
    refine rejects_of_candidatesBelow hctx counts hfound hroot hn (hnodes ▸ hnot) fun hb => ?_
    rintro rfl
    exact hctx.isForest.acyclic _ (hbelow hu hb)

omit hctx in
/-- A walk leaves out only what was turned down. -/
theorem Spares.settled (hctx : ctx.Grounded) {e' : Entry ν} (h : ctx.Spares target c e)
    (hs : ctx.Settled e e') (hne : ∀ k ∈ c.compounds, k ≠ []) : ctx.Spares target c e' := by
  have hserves := h.toServes.settled hctx hs hne
  rcases hs with rfl | ⟨-, found, rfl, hpass⟩
  · exact h
  · refine ⟨hserves, fun n hn _ => hpass.sublist.subset hn, fun n hn _ hnot => ?_⟩
    obtain ⟨b, hb⟩ := hpass.answers n hn
    cases b with
    | false => exact hb
    | true => exact absurd ((hpass.mem_iff n).mpr ⟨hn, hb⟩) hnot

variable {branches : List (Chain Compound)} {entries : List (Entry ν)}

theorem Grounded.spares_plan (ht : target.isBelow = true) (h : ctx.Testable counts branches)
    (hr : fresh (ctx.plan target branches) = .ok entries) :
    List.Forall₂ (fun c e => c ∈ branches ∧ ctx.Spares target c e) branches entries := by
  refine ((List.forall₂_and_left _ _).mpr ⟨fun c hc => hc, (plan_ok h).2 entries hr⟩).imp ?_
  rintro c e ⟨hc, e', he, hs, -⟩
  exact ⟨hc, (hctx.spares_enter ht (h.steady hc) (h.ne_nil hc) he).settled hctx hs (h.ne_nil hc)⟩

/-- The search that knows nothing of the candidates. -/
def scratch (ctx : Context ν) (target : Target) (branches : List (Chain Compound)) :
    Eval ν (List ν) :=
  return ctx.answer target
    (distinct (← collectM (fun c => ctx.findFrom target (ctx.blank target c)) branches))

/-- With a plan, a query comes to the same as a search from scratch. -/
theorem Grounded.fresh_find (ht : target.isBelow = true) (h : ctx.Testable counts branches)
    (hr : fresh (ctx.plan target branches) = .ok entries) :
    fresh (ctx.find target branches) = fresh (ctx.scratch target branches) := by
  have hblank : ∀ c ∈ branches,
      Steady counts ctx.MayFail (ctx.findFrom target (ctx.blank target c)) :=
    fun c hc => steady_findFrom rfl (h.steady hc)
  have hcollect : fresh (collectM (ctx.findFrom target) entries) =
      fresh (collectM (fun c => ctx.findFrom target (ctx.blank target c)) branches) := by
    refine fresh_collectM_congr (h.steady_findFrom hr) hblank
      ((hctx.spares_plan ht h hr).flip.imp ?_)
    rintro e c ⟨hc, hs⟩
    exact hs.fresh_findFrom hctx (h.steady hc) (h.ne_nil hc)
  unfold find scratch
  rw [(plan_ok h).1.fresh_bind fun _ hp =>
      (Steady.collectM (h.steady_findFrom hp)).bind fun _ _ => .pure _, hr,
    (Steady.collectM hblank).fresh_bind fun _ _ => .pure _, ← hcollect]
  exact (Steady.collectM (h.steady_findFrom hr)).fresh_bind fun _ _ => .pure _

end Plans

end Context

end DomQuery.Query
