import DomQuery.Proofs.Query.Plan

/-!
# What a search finds

Each chain of a list is entered at one of its ends. From there, the search for
all results collects the nodes below the context node that the chain matches,
and the search for the first result finds the earliest one of them. Put together
for all chains, that is the answer to the query.

* `Grounded.find_all` and `Grounded.find_first` say so for the two searches
  below the context node, and `Grounded.find_upward` for those on the way up.
-/

namespace DomQuery.Query

open DomQuery.Selector DomQuery.Tree Matcher

variable {ν : Type} [DecidableEq ν]

namespace Context

section Entries

variable {ctx : Context ν} {counts : MemoKey ν → Except QueryError (List ν)} {target : Target}
variable {c : Chain Compound} {e : Entry ν} {E : QueryError → Prop}

theorem Serves.covers (hctx : ctx.Grounded) (h : ctx.Serves target c e)
    (hne : ∀ k ∈ c.compounds, k ≠ []) :
    ctx.Covers e.heading (entryCompound e.heading c) (ctx.entryNodes e) := by
  unfold entryNodes
  split
  · rename_i nodes hc
    exact (h.trusted.tested nodes hc).1
  · rename_i nodes hc
    exact h.trusted.untested nodes hc
  · rw [h.scope_eq]
    exact hctx.covers_walk _ (hne _ (entryCompound_mem _ c)) (.refl _) fun n hn _ => hn

theorem steady_accepts (h : e.chain = c.map (ctx.compoundProbe false))
    (hs : ∀ k ∈ c.compounds, (ctx.compoundProbe false k).Steady counts E) (n : ν) :
    Steady counts E (e.accepts n) := by
  unfold Entry.accepts
  split
  · exact .pure true
  · rw [probe_eq_of_chain h]
    exact hs _ (entryCompound_mem _ c) n

/-- What an entry accepts satisfies the compound there. -/
theorem Serves.decides_accepts (h : ctx.Serves target c e) {n : ν} (hn : n ∈ ctx.entryNodes e) :
    Decides (e.accepts n) (ctx.Satisfies (entryCompound e.heading c) n) := by
  unfold Entry.accepts
  split
  · rename_i nodes hc
    have hn : n ∈ nodes := by simpa [entryNodes, hc] using hn
    exact decides_pure (by simp [(h.trusted.tested nodes hc).2 n hn])
  · rw [probe_eq_of_chain h.chain_eq]
    exact decides_yes _

theorem isEligible_iff (hctx : ctx.Grounded) (ht : target.isBelow = true) {n : ν} :
    ctx.isEligible target n = true ↔ ctx.tree.Below ctx.node n := by
  have hf := hctx.isForest
  rw [isEligible, ht, Bool.not_true, Bool.false_or, inScope, Bool.and_eq_true, bne_iff_ne,
    hf.contains_iff, Links.within_iff]
  constructor
  · rintro ⟨hne, h⟩
    exact h.resolve_left hne
  · intro h
    refine ⟨?_, .inr h⟩
    rintro rfl
    exact hf.acyclic _ h

/-! ### Backward -/

theorem links_reverse_map (h : e.chain = c.map (ctx.compoundProbe false)) :
    e.chain.links.reverse = c.links.reverse.map ctx.linkProbeOf := by
  rw [h, List.map_reverse]
  rfl

theorem steady_leadsBack_links (h : e.chain = c.map (ctx.compoundProbe false))
    (hs : ∀ k ∈ c.compounds, (ctx.compoundProbe false k).Steady counts E) (n : ν) :
    Steady counts E (ctx.leadsBack e.chain.links.reverse n) := by
  rw [links_reverse_map h]
  refine Context.steady_leadsBack (fun _ hmem => ?_) n
  obtain ⟨link, hl, rfl⟩ := List.mem_map.mp hmem
  exact hs _ (c.compound_mem_compounds (List.mem_reverse.mp hl))

theorem Grounded.decides_leadsBack_links (hctx : ctx.Grounded)
    (h : e.chain = c.map (ctx.compoundProbe false))
    (hs : ∀ k ∈ c.compounds, (ctx.compoundProbe false k).Steady counts ctx.MayFail)
    (hne : ∀ k ∈ c.compounds, k ≠ []) {n : ν} (hn : ctx.Satisfies c.last n) :
    Decides (ctx.leadsBack e.chain.links.reverse n) (ctx.Matches c n) := by
  rw [links_reverse_map h]
  have hmem : ∀ link ∈ c.links.reverse, link.compound ∈ c.compounds := fun link hl =>
    c.compound_mem_compounds (by simpa using hl)
  have := hctx.decides_leadsBack (l := c.leading) (fun link hl => hs _ (hmem link hl))
    (fun link hl => hne _ (hmem link hl)) hn
  rwa [List.reverse_reverse] at this

theorem steady_endsAt (h : e.chain = c.map (ctx.compoundProbe false))
    (hs : ∀ k ∈ c.compounds, (ctx.compoundProbe false k).Steady counts E) (n : ν) :
    Steady counts E (ctx.endsAt target e n) := by
  unfold endsAt
  split
  · exact .pure false
  · refine (steady_accepts h hs n).bind fun b _ => ?_
    split
    · exact .pure false
    · exact steady_leadsBack_links h hs n

theorem Serves.decides_endsAt (hctx : ctx.Grounded) (h : ctx.Serves target c e)
    (hs : ∀ k ∈ c.compounds, (ctx.compoundProbe false k).Steady counts ctx.MayFail)
    (hne : ∀ k ∈ c.compounds, k ≠ []) (hb : e.heading = .backward) {n : ν}
    (hn : n ∈ ctx.entryNodes e) :
    Decides (ctx.endsAt target e n) (ctx.isEligible target n = true ∧ ctx.Matches c n) := by
  intro b hr
  have hacc := h.decides_accepts hn
  rw [hb] at hacc
  unfold endsAt at hr
  split at hr
  · rename_i he
    obtain rfl : false = b := by simpa using hr
    simp_all
  · rename_i he
    obtain ⟨a, ha, hr⟩ := (steady_accepts h.chain_eq hs n).bind_ok (fun a _ => by
      split
      · exact .pure false
      · exact steady_leadsBack_links h.chain_eq hs n) hr
    have ha := hacc a ha
    split at hr
    · rename_i hna
      obtain rfl : false = b := by simpa using hr
      refine iff_of_false Bool.false_ne_true ?_
      rintro ⟨-, hm⟩
      simp [ha.mpr (satisfies_last_of_matches hm)] at hna
    · rename_i hna
      have hsat := ha.mp (by simpa using hna)
      rw [hctx.decides_leadsBack_links h.chain_eq hs hne hsat b hr]
      exact ⟨fun hm => ⟨by simpa using he, hm⟩, fun hm => hm.2⟩

/-! ### Forward -/

theorem steady_reachFrom (h : e.chain = c.map (ctx.compoundProbe false))
    (hs : ∀ k ∈ c.compounds, (ctx.compoundProbe false k).Steady counts E) (n : ν) :
    Steady counts E (ctx.reachFrom e.chain n) := by
  rw [reachFrom, h, forwardSteps_map]
  refine steady_reach (fun _ hm => ?_) _
  obtain ⟨s, hm', rfl⟩ := List.mem_map.mp hm
  exact hs _ (mem_forwardSteps hm')

theorem Serves.collects_reachFrom (hctx : ctx.Grounded) (h : ctx.Serves target c e)
    (hs : ∀ k ∈ c.compounds, (ctx.compoundProbe false k).Steady counts ctx.MayFail)
    (hne : ∀ k ∈ c.compounds, k ≠ []) {n : ν} (hn : ctx.tree.Within ctx.root n) :
    Collects (ctx.reachFrom e.chain n) fun y => ctx.Leads (forwardSteps c) n y := by
  rw [reachFrom, h.chain_eq, forwardSteps_map]
  have := hctx.collects_reach [n] (fun s hm => hs _ (mem_forwardSteps hm))
    (fun s hm => hne _ (mem_forwardSteps hm)) (by simpa using hn)
  exact this.congr fun y => by simp

theorem steady_followFrom (h : e.chain = c.map (ctx.compoundProbe false))
    (hs : ∀ k ∈ c.compounds, (ctx.compoundProbe false k).Steady counts E) (n : ν) :
    Steady counts E (ctx.followFrom target e n) := by
  unfold followFrom
  refine (steady_accepts h hs n).bind fun b _ => ?_
  split
  · exact (steady_reachFrom h hs n).bind fun _ _ => .pure _
  · exact .pure []

theorem Serves.collects_followFrom (hctx : ctx.Grounded) (h : ctx.Serves target c e)
    (hs : ∀ k ∈ c.compounds, (ctx.compoundProbe false k).Steady counts ctx.MayFail)
    (hne : ∀ k ∈ c.compounds, k ≠ []) (hf : e.heading = .forward) {n : ν}
    (hn : n ∈ ctx.entryNodes e) :
    Collects (ctx.followFrom target e n) fun y =>
      ctx.isEligible target y = true ∧ ctx.Satisfies c.first n ∧
        ctx.Leads (forwardSteps c) n y := by
  intro l hr y
  have hacc := h.decides_accepts hn
  rw [hf] at hacc
  unfold followFrom at hr
  obtain ⟨a, ha, hr⟩ := (steady_accepts h.chain_eq hs n).bind_ok (fun a _ => by
    split
    · exact (steady_reachFrom h.chain_eq hs n).bind fun _ _ => .pure _
    · exact .pure []) hr
  have ha := hacc a ha
  split at hr
  · rename_i hat
    obtain ⟨ys, hys, hr⟩ := (steady_reachFrom h.chain_eq hs n).bind_ok (fun _ _ => .pure _) hr
    obtain rfl : ys.filter (ctx.isEligible target) = l := by simpa using hr
    have hw := (h.covers hctx hne).within n hn
    rw [List.mem_filter, h.collects_reachFrom hctx hs hne hw ys hys]
    exact ⟨fun ⟨hl, he⟩ => ⟨he, ha.mp hat, hl⟩, fun ⟨he, _, hl⟩ => ⟨hl, he⟩⟩
  · rename_i hat
    obtain rfl : [] = l := by simpa using hr
    simp only [List.not_mem_nil, false_iff]
    exact fun ⟨_, hsat, _⟩ => hat (ha.mpr hsat)

end Entries

/-! ### The earliest node -/

section Earliest

variable {ctx : Context ν} (hctx : ctx.Grounded)

/-- `r` is the earliest of the nodes that satisfy `P`, if there are any. -/
def IsEarliest (ctx : Context ν) (P : ν → Prop) : Option ν → Prop
  | none => ∀ y, ¬P y
  | some x => P x ∧ ∀ y, P y → y = x ∨ ctx.tree.Before x y

omit [DecidableEq ν] in
theorem IsEarliest.congr {P Q : ν → Prop} {r : Option ν} (h : ctx.IsEarliest P r)
    (hPQ : ∀ y, P y ↔ Q y) : ctx.IsEarliest Q r := by
  obtain rfl : P = Q := funext fun y => propext (hPQ y)
  exact h

omit [DecidableEq ν] in
/-- There is only one earliest node. -/
theorem IsEarliest.unique {P : ν → Prop} {r r' : Option ν} (ht : ctx.tree.IsForest)
    (h : ctx.IsEarliest P r) (h' : ctx.IsEarliest P r') : r = r' := by
  cases r with
  | none =>
    cases r' with
    | none => rfl
    | some x => exact absurd h'.1 (h x)
  | some x =>
    cases r' with
    | none => exact absurd h.1 (h' x)
    | some x' =>
      rcases h.2 x' h'.1 with rfl | hx
      · rfl
      · rcases h'.2 x h.1 with rfl | hx'
        · rfl
        · exact absurd hx' (ht.before_asymm hx)

include hctx

theorem Grounded.improves_iff (best : Option ν) {n : ν} (hn : ctx.tree.Within ctx.root n)
    (hb : ∀ b ∈ best, ctx.tree.Within ctx.root b) :
    ctx.improves best n = true ↔ ∀ b ∈ best, ctx.tree.Before n b := by
  cases best with
  | none => simp [improves]
  | some b =>
    have := hctx.sound.compare_eq_lt (hctx.sameTree hn (hb b rfl))
    simp [improves, ← this]

theorem Grounded.isEarliest_earlier {P : ν → Prop} {best : Option ν} {n : ν}
    (h : ctx.IsEarliest P best) (hP : ∀ y, P y → ctx.tree.Within ctx.root y)
    (hn : ctx.tree.Within ctx.root n) :
    ctx.IsEarliest (fun y => P y ∨ y = n) (ctx.earlier best n) := by
  have hf := hctx.isForest
  cases best with
  | none =>
    refine ⟨.inr rfl, ?_⟩
    rintro y (hy | rfl)
    · exact absurd hy (h y)
    · exact .inl rfl
  | some b =>
    obtain ⟨hb, hmin⟩ := h
    have himp := hctx.improves_iff (some b) hn (by simpa using hP b hb)
    unfold earlier
    split
    · rename_i hi
      have hnb : ctx.tree.Before n b := himp.mp hi b rfl
      refine ⟨.inr rfl, ?_⟩
      rintro y (hy | rfl)
      · rcases hmin y hy with rfl | hy
        · exact .inr hnb
        · exact .inr (hf.before_trans hnb hy)
      · exact .inl rfl
    · rename_i hi
      refine ⟨.inl hb, ?_⟩
      rintro y (hy | rfl)
      · exact hmin y hy
      · have hnb : ¬ctx.tree.Before y b := fun h => hi (himp.mpr (by simpa using h))
        rcases hf.before_total (hctx.sameTree hn (hP b hb)) with rfl | h | h
        · exact .inl rfl
        · exact absurd h hnb
        · exact .inr h

theorem Grounded.isEarliest_foldl {P : ν → Prop} {best : Option ν} {nodes : List ν}
    (h : ctx.IsEarliest P best) (hP : ∀ y, P y → ctx.tree.Within ctx.root y)
    (hn : ∀ n ∈ nodes, ctx.tree.Within ctx.root n) :
    ctx.IsEarliest (fun y => P y ∨ y ∈ nodes) (nodes.foldl ctx.earlier best) := by
  induction nodes generalizing P best with
  | nil => exact h.congr fun y => by simp
  | cons n nodes ih =>
    obtain ⟨hn, hnodes⟩ := List.forall_mem_cons.mp hn
    refine (ih (hctx.isEarliest_earlier h hP hn) ?_ hnodes).congr fun y => ?_
    · rintro y (hy | rfl)
      · exact hP y hy
      · exact hn
    · rw [List.mem_cons, or_assoc]

end Earliest

/-! ### One chain -/

section Chains

variable {ctx : Context ν} (hctx : ctx.Grounded)
variable {counts : MemoKey ν → Except QueryError (List ν)} {target : Target}
variable {c : Chain Compound} {e : Entry ν} {E : QueryError → Prop}

/-- The chain matches a node below the context node. -/
def Finds (ctx : Context ν) (c : Chain Compound) (y : ν) : Prop :=
  ctx.tree.Below ctx.node y ∧ ctx.Matches c y

include hctx

theorem Grounded.within_root_of_finds {y : ν} (h : ctx.Finds c y) : ctx.tree.Within ctx.root y :=
  hctx.within_root_node.trans h.1.within

theorem Grounded.finds_iff_backward (ht : target.isBelow = true) (h : ctx.Serves target c e)
    (hb : e.heading = .backward) (hne : ∀ k ∈ c.compounds, k ≠ []) {y : ν} :
    ctx.Finds c y ↔ y ∈ ctx.entryNodes e ∧ ctx.isEligible target y = true ∧ ctx.Matches c y := by
  rw [isEligible_iff hctx ht]
  refine ⟨fun hy => ⟨?_, hy⟩, fun hy => hy.2⟩
  refine (h.covers hctx hne).complete y ?_ ?_
  · rw [hb]
    exact satisfies_last_of_matches hy.2
  · rw [hb]
    exact hy.1

theorem Grounded.finds_iff_forward (ht : target.isBelow = true) (h : ctx.Serves target c e)
    (hf : e.heading = .forward) (hne : ∀ k ∈ c.compounds, k ≠ []) {y : ν} :
    ctx.Finds c y ↔ ∃ n ∈ ctx.entryNodes e, ctx.isEligible target y = true ∧
      ctx.Satisfies c.first n ∧ ctx.Leads (forwardSteps c) n y := by
  rw [isEligible_iff hctx ht]
  constructor
  · rintro ⟨hb, x, hx, hl⟩
    refine ⟨x, (h.covers hctx hne).complete x ?_ ?_, hb, hx, hl⟩
    · rw [hf]
      exact hx
    · rw [hf]
      exact hctx.within_root_of_sameTree (hctx.sameTree_of_leads hl).symm
        (hctx.within_root_node.trans hb.within)
  · rintro ⟨x, -, hb, hx, hl⟩
    exact ⟨hb, x, hx, hl⟩

omit hctx in
theorem steady_firstForward (h : e.chain = c.map (ctx.compoundProbe false))
    (hs : ∀ k ∈ c.compounds, (ctx.compoundProbe false k).Steady counts E)
    (nodes : List ν) (best : Option ν) :
    Steady counts E (ctx.firstForward e nodes best) := by
  induction nodes generalizing best with
  | nil => exact .pure best
  | cons n rest ih =>
    rw [firstForward]
    split
    · exact (steady_followFrom h hs n).bind fun _ _ => ih _
    · exact .pure best

/-- What is reached from entries that have passed `b` comes after it. -/
theorem Grounded.eq_or_before_of_leads {steps : List (Combinator × Compound)} {n m b y : ν}
    {rest : List ν} (hn : ∀ m ∈ rest, ctx.tree.Before n m) (hb : n = b ∨ ctx.tree.Before b n)
    (hm : m ∈ n :: rest) (hl : ctx.Leads steps m y) : y = b ∨ ctx.tree.Before b y := by
  have hny : n = y ∨ ctx.tree.Before n y := by
    rcases List.mem_cons.mp hm with rfl | hm
    · exact hctx.before_of_leads hl
    · rcases hctx.before_of_leads hl with rfl | hl
      · exact .inr (hn m hm)
      · exact .inr (hctx.isForest.before_trans (hn m hm) hl)
  rcases hb with rfl | hb
  · exact hny.imp_left Eq.symm
  · rcases hny with rfl | hny
    · exact .inr hb
    · exact .inr (hctx.isForest.before_trans hb hny)

/-- The search for the first result of a chain stops where the entries have
passed the best result so far: what is left to be reached comes after it. -/
theorem Grounded.firstForward_ok (h : ctx.Serves .first c e) (hf : e.heading = .forward)
    (hs : ∀ k ∈ c.compounds, (ctx.compoundProbe false k).Steady counts ctx.MayFail)
    (hne : ∀ k ∈ c.compounds, k ≠ []) {nodes : List ν} {best r : Option ν} {P : ν → Prop}
    (hnodes : nodes.Pairwise ctx.tree.Before) (hsub : nodes ⊆ ctx.entryNodes e)
    (hbest : ctx.IsEarliest P best) (hP : ∀ y, P y → ctx.tree.Within ctx.root y)
    (hr : fresh (ctx.firstForward e nodes best) = .ok r) :
    ctx.IsEarliest (fun y => P y ∨ ∃ n ∈ nodes, ctx.isEligible .first y = true ∧
      ctx.Satisfies c.first n ∧ ctx.Leads (forwardSteps c) n y) r := by
  have hcovers := h.covers hctx hne
  induction nodes generalizing best P with
  | nil =>
    obtain rfl : best = r := by simpa [firstForward] using hr
    exact hbest.congr fun y => by simp
  | cons n rest ih =>
    obtain ⟨hn, hrest⟩ := List.pairwise_cons.mp hnodes
    obtain ⟨hne', hsub⟩ := List.cons_subset.mp hsub
    have hwn := hcovers.within n hne'
    rw [firstForward] at hr
    split at hr
    · obtain ⟨reached, hreached, hr⟩ := (steady_followFrom h.chain_eq hs n).bind_ok
        (fun _ _ => steady_firstForward h.chain_eq hs rest _) hr
      have hmem := h.collects_followFrom hctx hs hne hf hne' reached hreached
      have hw : ∀ y ∈ reached, ctx.tree.Within ctx.root y := fun y hy =>
        hctx.within_root_of_sameTree (hctx.sameTree_of_leads ((hmem y).mp hy).2.2) hwn
      have hfold := hctx.isEarliest_foldl hbest hP hw
      refine (ih hrest hsub hfold ?_ hr).congr fun y => ?_
      · rintro y (hy | hy)
        · exact hP y hy
        · exact hw y hy
      · simp only [hmem, List.exists_mem_cons_iff, or_assoc]
    · rename_i himp
      obtain rfl : best = r := by simpa using hr
      cases best with
      | none => simp [improves] at himp
      | some b =>
        obtain ⟨hb, hmin⟩ := hbest
        refine ⟨.inl hb, ?_⟩
        rintro y (hy | ⟨m, hm, -, -, hl⟩)
        · exact hmin y hy
        have hwb := hP b hb
        have hnb : ¬ctx.tree.Before n b := fun hnb =>
          himp ((hctx.improves_iff _ hwn (by simpa using hwb)).mpr (by simpa using hnb))
        refine hctx.eq_or_before_of_leads hn ?_ hm hl
        exact (hctx.isForest.before_total (hctx.sameTree hwn hwb)).imp_right fun h =>
          h.resolve_left hnb

omit hctx in
theorem steady_findFrom (h : e.chain = c.map (ctx.compoundProbe false))
    (hs : ∀ k ∈ c.compounds, (ctx.compoundProbe false k).Steady counts E) :
    Steady counts E (ctx.findFrom target e) := by
  unfold findFrom findBackward findForward
  split
  · split
    · exact (Steady.findM? fun n _ => steady_endsAt h hs n).bind fun _ _ => .pure _
    · exact .filterM fun n _ => steady_endsAt h hs n
  · split
    · exact (steady_firstForward h hs _ none).bind fun _ _ => .pure _
    · exact .collectM fun n _ => steady_followFrom h hs n

/-- All results of one chain. -/
theorem Grounded.collects_findFrom (h : ctx.Serves .all c e)
    (hs : ∀ k ∈ c.compounds, (ctx.compoundProbe false k).Steady counts ctx.MayFail)
    (hne : ∀ k ∈ c.compounds, k ≠ []) :
    Collects (ctx.findFrom .all e) (ctx.Finds c) := by
  cases hh : e.heading with
  | backward =>
    intro l hr y
    rw [hctx.finds_iff_backward rfl h hh hne]
    simp only [findFrom, hh, findBackward] at hr
    exact (filterM_ok (fun n _ => steady_endsAt h.chain_eq hs n)
      (fun n hn => h.decides_endsAt hctx hs hne hh hn) hr).2 y
  | forward =>
    simp only [findFrom, hh, findForward]
    refine (Collects.collectM (fun n _ => steady_followFrom h.chain_eq hs n)
      fun n hn => h.collects_followFrom hctx hs hne hh hn).congr fun y => ?_
    rw [hctx.finds_iff_forward rfl h hh hne]

/-- The first result of one chain. -/
theorem Grounded.findFrom_first (h : ctx.Serves .first c e)
    (hs : ∀ k ∈ c.compounds, (ctx.compoundProbe false k).Steady counts ctx.MayFail)
    (hne : ∀ k ∈ c.compounds, k ≠ []) {l : List ν}
    (hr : fresh (ctx.findFrom .first e) = .ok l) :
    ∃ r : Option ν, l = r.toList ∧ ctx.IsEarliest (ctx.Finds c) r := by
  have hcovers := h.covers hctx hne
  cases hh : e.heading with
  | backward =>
    simp only [findFrom, hh, findBackward] at hr
    obtain ⟨r, hfind, hr⟩ := (Steady.findM? fun n _ => steady_endsAt h.chain_eq hs n).bind_ok
      (fun _ _ => .pure _) hr
    refine ⟨r, by simpa using hr.symm, ?_⟩
    have hfind := findM?_ok (fun n _ => steady_endsAt h.chain_eq hs n)
      (fun n hn => h.decides_endsAt hctx hs hne hh hn) hfind
    cases r with
    | none =>
      intro y hy
      obtain ⟨hm, hy⟩ := (hctx.finds_iff_backward rfl h hh hne).mp hy
      exact hfind y hm hy
    | some x =>
      obtain ⟨before, after, hsplit, hx, hbefore⟩ := hfind
      refine ⟨(hctx.finds_iff_backward rfl h hh hne).mpr ⟨by simp [hsplit], hx⟩, fun y hy => ?_⟩
      obtain ⟨hm, hy⟩ := (hctx.finds_iff_backward rfl h hh hne).mp hy
      have hpairwise := hcovers.pairwise
      rw [hsplit] at hm hpairwise
      rcases List.mem_append.mp hm with hm | hm
      · exact absurd hy (hbefore y hm)
      · rcases List.mem_cons.mp hm with rfl | hm
        · exact .inl rfl
        · exact .inr ((List.pairwise_cons.mp (List.pairwise_append.mp hpairwise).2.1).1 y hm)
  | forward =>
    simp only [findFrom, hh, findForward] at hr
    obtain ⟨r, hfirst, hr⟩ := (steady_firstForward h.chain_eq hs _ none).bind_ok (fun _ _ => .pure _) hr
    refine ⟨r, by simpa using hr.symm, ?_⟩
    have hnone : ctx.IsEarliest (fun _ => False) none := fun _ h => h
    refine (hctx.firstForward_ok h hh hs hne hcovers.pairwise (fun _ h => h) hnone
      (fun _ h => h.elim) hfirst).congr fun y => ?_
    rw [hctx.finds_iff_forward rfl h hh hne, false_or]

end Chains

/-! ### All chains -/

section Find

variable {ctx : Context ν} {counts : MemoKey ν → Except QueryError (List ν)} {target : Target}
variable {branches : List (Chain Compound)}

theorem Testable.steady_findFrom (h : ctx.Testable counts branches) {entries : List (Entry ν)}
    (hp : fresh (ctx.plan target branches) = .ok entries) :
    ∀ e ∈ entries, Steady counts ctx.MayFail (ctx.findFrom target e) := by
  intro e he
  obtain ⟨c, ⟨hc, e', hce, hs, -⟩⟩ := forall₂_exists_left ((plan_ok h).2 entries hp) e he
  exact Context.steady_findFrom (hs.chain_eq.trans (enter_ok (h.steady hc) hce).1) (h.steady hc)

/-- A search does not depend on what is remembered, and fails only as its tests
may fail. -/
theorem Testable.steady_find (h : ctx.Testable counts branches) :
    Steady counts ctx.MayFail (ctx.find target branches) :=
  (plan_ok h).1.bind fun _ hp => (Steady.collectM (h.steady_findFrom hp)).bind fun _ _ => .pure _

/-- A search plans where to enter each chain, and picks the answer from what it
finds from there. -/
theorem Testable.find_ok (h : ctx.Testable counts branches) {l : List ν}
    (hr : fresh (ctx.find target branches) = .ok l) :
    ∃ entries lists, fresh (ctx.plan target branches) = .ok entries ∧
      List.Forall₂ (fun e found => fresh (ctx.findFrom target e) = .ok found) entries lists ∧
      l = ctx.answer target (distinct lists.flatten) := by
  obtain ⟨entries, hp, hr⟩ := (plan_ok h).1.bind_ok
    (fun _ hp => (Steady.collectM (h.steady_findFrom hp)).bind fun _ _ => .pure _) hr
  obtain ⟨found, hf, hr⟩ := (Steady.collectM (h.steady_findFrom hp)).bind_ok (fun _ _ => .pure _) hr
  obtain ⟨lists, hlists, rfl⟩ := collectM_ok (h.steady_findFrom hp) hf
  exact ⟨entries, lists, hp, hlists, by simpa using hr.symm⟩

/-- Below the context node, what is found is found from entries that serve the
chains. -/
theorem Grounded.find_ok (hctx : ctx.Grounded) (ht : target.isBelow = true)
    (h : ctx.Testable counts branches) {l : List ν}
    (hr : fresh (ctx.find target branches) = .ok l) :
    ∃ lists, List.Forall₂ (fun c found => c ∈ branches ∧
        ∃ e, ctx.Serves target c e ∧ fresh (ctx.findFrom target e) = .ok found) branches lists ∧
      l = ctx.answer target (distinct lists.flatten) := by
  obtain ⟨entries, lists, hp, hlists, rfl⟩ := h.find_ok hr
  refine ⟨lists, ?_, rfl⟩
  exact (List.forall₂_and_left _ _).mpr
    ⟨fun _ hc => hc, forall₂_comp (hctx.serves_plan ht h hp) hlists⟩

/-- Some chain matches a node below the context node. -/
def FindsSome (ctx : Context ν) (branches : List (Chain Compound)) (y : ν) : Prop :=
  ∃ c ∈ branches, ctx.Finds c y

theorem Grounded.isLE_compare (hctx : ctx.Grounded) {a b : ν} (ha : ctx.tree.Within ctx.root a)
    (hb : ctx.tree.Within ctx.root b) :
    (ctx.tree.compare a b).isLE = true ↔ a = b ∨ ctx.tree.Before a b := by
  have h := hctx.sameTree ha hb
  rw [← hctx.sound.compare_eq_lt h, ← hctx.sound.compare_eq_eq h]
  cases ctx.tree.compare a b <;> simp

/-- All results, in document order. -/
theorem Grounded.find_all (hctx : ctx.Grounded) (h : ctx.Testable counts branches) {l : List ν}
    (hr : fresh (ctx.find .all branches) = .ok l) :
    l.Pairwise ctx.tree.Before ∧ ∀ y, y ∈ l ↔ ctx.FindsSome branches y := by
  obtain ⟨lists, hlists, rfl⟩ := hctx.find_ok rfl h hr
  have hmem : ∀ y, y ∈ distinct lists.flatten ↔ ctx.FindsSome branches y := fun y => by
    refine mem_distinct.trans (mem_flatten_of_forall₂ (hlists.imp ?_) y)
    rintro c found ⟨hc, e, hs, hf⟩
    exact hctx.collects_findFrom hs (h.steady hc) (h.ne_nil hc) found hf
  refine ⟨hctx.isForest.pairwise_mergeSort hctx.sameTree hctx.isLE_compare (nodup_distinct _)
    fun n hn => ?_, fun y => ?_⟩
  · obtain ⟨c, -, hc⟩ := (hmem n).mp hn
    exact hctx.within_root_of_finds hc
  · rw [answer, List.mem_mergeSort, hmem]

/-- The earliest of the first results of the chains is the first result of all. -/
theorem Grounded.isEarliest_flatten (hctx : ctx.Grounded) {lists : List (List ν)}
    {chains : List (Chain Compound)} {r : Option ν}
    (h : List.Forall₂ (fun c l => ∃ r : Option ν, l = r.toList ∧ ctx.IsEarliest (ctx.Finds c) r)
      chains lists) (hr : ctx.IsEarliest (· ∈ lists.flatten) r) :
    ctx.IsEarliest (ctx.FindsSome chains) r := by
  have hsound : ∀ x ∈ lists.flatten, ctx.FindsSome chains x := by
    intro x hx
    obtain ⟨l, hl, hx⟩ := List.mem_flatten.mp hx
    obtain ⟨c, hc, r, rfl, he⟩ := forall₂_exists_left h l hl
    obtain rfl : r = some x := by simpa using hx
    exact ⟨c, hc, he.1⟩
  have hcomplete : ∀ y, ctx.FindsSome chains y →
      ∃ x ∈ lists.flatten, y = x ∨ ctx.tree.Before x y := by
    rintro y ⟨c, hc, hy⟩
    obtain ⟨l, hl, r, rfl, he⟩ := forall₂_exists_left h.flip c hc
    cases r with
    | none => exact absurd hy (he y)
    | some x => exact ⟨x, List.mem_flatten.mpr ⟨[x], hl, by simp⟩, he.2 y hy⟩
  cases r with
  | none =>
    intro y hy
    obtain ⟨x, hx, -⟩ := hcomplete y hy
    exact hr x hx
  | some b =>
    refine ⟨hsound b hr.1, fun y hy => ?_⟩
    obtain ⟨x, hx, hxy⟩ := hcomplete y hy
    rcases hr.2 x hx with rfl | hbx
    · exact hxy
    · rcases hxy with rfl | hxy
      · exact .inr hbx
      · exact .inr (hctx.isForest.before_trans hbx hxy)

/-- The first result. -/
theorem Grounded.find_first (hctx : ctx.Grounded) (h : ctx.Testable counts branches) {l : List ν}
    (hr : fresh (ctx.find .first branches) = .ok l) :
    ∃ r : Option ν, l = r.toList ∧ ctx.IsEarliest (ctx.FindsSome branches) r := by
  obtain ⟨lists, hlists, rfl⟩ := hctx.find_ok rfl h hr
  have hfirst : List.Forall₂ (fun c l => ∃ r : Option ν, l = r.toList ∧
      ctx.IsEarliest (ctx.Finds c) r) branches lists := by
    refine hlists.imp ?_
    rintro c found ⟨hc, e, hs, hf⟩
    exact hctx.findFrom_first hs (h.steady hc) (h.ne_nil hc) hf
  have hw : ∀ n ∈ distinct lists.flatten, ctx.tree.Within ctx.root n := by
    intro n hn
    obtain ⟨l, hl, hn⟩ := List.mem_flatten.mp (mem_distinct.mp hn)
    obtain ⟨c, -, r, rfl, he⟩ := forall₂_exists_left hfirst l hl
    obtain rfl : r = some n := by simpa using hn
    exact hctx.within_root_of_finds he.1
  have hnone : ctx.IsEarliest (fun _ => False) none := fun _ h => h
  refine ⟨_, rfl, hctx.isEarliest_flatten hfirst ?_⟩
  refine (hctx.isEarliest_foldl hnone (fun _ h => h.elim) hw).congr fun y => ?_
  rw [mem_distinct, false_or]

/-! ### On the way up -/

/-- Where a search looks that does not go below the context node. -/
def upward (ctx : Context ν) : Target → List ν
  | .itself => [ctx.node].filter ctx.tree.isElement
  | _ => ctx.tree.elementLine ctx.node

theorem entryHeading_upward (ht : target.isBelow = false) (c : Chain Compound) :
    entryHeading target c = .backward := by
  simp [entryHeading, ht]

/-- The entry for the way up has tested the nodes there. -/
theorem tested_of_enter (ht : target.isBelow = false) {c : Chain Compound} {e : Entry ν}
    (hs : ∀ k ∈ c.compounds, (ctx.compoundProbe false k).Steady counts ctx.MayFail)
    (h : fresh (ctx.enter target c) = .ok e) :
    ∃ nodes, e.candidates = .tested nodes ∧
      ∀ n, n ∈ nodes ↔ n ∈ ctx.upward target ∧ ctx.Satisfies c.last n := by
  have hlast := hs _ c.last_mem_compounds
  cases target with
  | itself =>
    have htest := steady_testElement ctx hlast
    simp only [enter, chainProbe_eq] at h
    obtain ⟨nodes, hn, h⟩ := (Steady.filterM fun n _ => htest n).bind_ok (fun _ _ => .pure _) h
    obtain rfl : _ = e := by simpa using h
    refine ⟨nodes, rfl, fun n => ?_⟩
    rw [(filterM_ok (fun n _ => htest n) (fun n _ => decides_yes _) hn).2, upward, List.mem_filter]
    by_cases he : ctx.tree.isElement n = true <;> simp [he, Satisfies, Yes]
  | nearest =>
    simp only [enter, chainProbe_eq] at h
    obtain ⟨nodes, hn, h⟩ := (Steady.filterM fun n _ => hlast n).bind_ok (fun _ _ => .pure _) h
    obtain rfl : _ = e := by simpa using h
    exact ⟨nodes, rfl, (filterM_ok (fun n _ => hlast n) (fun n _ => decides_yes _) hn).2⟩
  | first | all => cases ht

/-- On the way up, nodes are tested against the whole chain. -/
theorem collects_findFrom_upward (ht : target.isBelow = false) {c : Chain Compound} {e : Entry ν}
    (hs : ∀ k ∈ c.compounds, (ctx.compoundProbe false k).Steady counts ctx.MayFail)
    (h : fresh (ctx.enter target c) = .ok e) {P : ν → Prop}
    (hP : ∀ n, ctx.Satisfies c.last n → Decides (ctx.leadsBack e.chain.links.reverse n) (P n)) :
    Collects (ctx.findFrom target e) fun n =>
      n ∈ ctx.upward target ∧ ctx.Satisfies c.last n ∧ P n := by
  obtain ⟨hc, hh⟩ := enter_ok hs h
  obtain ⟨nodes, hcandidates, hmem⟩ := tested_of_enter ht hs h
  have hnodes : ctx.entryNodes e = nodes := by simp [entryNodes, hcandidates]
  have hends : ctx.endsAt target e = ctx.leadsBack e.chain.links.reverse := by
    funext n
    simp [endsAt, isEligible, ht, Entry.accepts, hcandidates]
  have hfind : ctx.findFrom target e = nodes.filterM (ctx.leadsBack e.chain.links.reverse) := by
    rw [← hends, ← hnodes]
    rw [entryHeading_upward ht] at hh
    simp only [findFrom, hh, findBackward]
    cases target with
    | first => cases ht
    | _ => rfl
  rw [hfind]
  intro l hr n
  rw [(filterM_ok (fun n _ => steady_leadsBack_links hc hs n)
    (fun n hn => hP n ((hmem n).mp hn).2) hr).2, hmem, and_assoc]

/-- On the way up, the nodes are found that satisfy the last compound of some
chain and from which the rest of it leads back. -/
theorem Testable.find_upward (ht : target.isBelow = false) (h : ctx.Testable counts branches)
    {P : Chain Compound → ν → Prop}
    (hP : ∀ c ∈ branches, ∀ n, ctx.Satisfies c.last n →
      Decides (ctx.leadsBack (c.map (ctx.compoundProbe false)).links.reverse n) (P c n))
    {l : List ν} (hr : fresh (ctx.find target branches) = .ok l) :
    ∃ found : List ν, l = ctx.answer target found ∧ found.Nodup ∧
      ∀ n, n ∈ found ↔
        n ∈ ctx.upward target ∧ ∃ c ∈ branches, ctx.Satisfies c.last n ∧ P c n := by
  obtain ⟨entries, lists, hp, hlists, rfl⟩ := h.find_ok hr
  have henter : List.Forall₂ (fun c e => c ∈ branches ∧ fresh (ctx.enter target c) = .ok e)
      branches entries := by
    refine ((List.forall₂_and_left _ _).mpr ⟨fun _ hc => hc, (plan_ok h).2 entries hp⟩).imp ?_
    rintro c e ⟨hc, e', he, hs, -⟩
    obtain ⟨nodes, hcandidates, -⟩ := tested_of_enter ht (h.steady hc) he
    rcases hs with rfl | ⟨hu, -⟩
    · exact ⟨hc, he⟩
    · simp [hcandidates] at hu
  have hmem : ∀ n, n ∈ lists.flatten ↔
      ∃ c ∈ branches, n ∈ ctx.upward target ∧ ctx.Satisfies c.last n ∧ P c n := by
    refine mem_flatten_of_forall₂ ((forall₂_comp henter hlists).imp ?_)
    rintro c found ⟨e, ⟨hc, he⟩, hf⟩
    refine collects_findFrom_upward ht (h.steady hc) he (fun n hn => ?_) found hf
    rw [(enter_ok (h.steady hc) he).1]
    exact hP c hc n hn
  refine ⟨distinct lists.flatten, rfl, nodup_distinct _, fun n => ?_⟩
  rw [mem_distinct, hmem]
  constructor
  · rintro ⟨c, hc, hn, hm⟩
    exact ⟨hn, c, hc, hm⟩
  · rintro ⟨hn, c, hc, hm⟩
    exact ⟨c, hc, hn, hm⟩

/-- On the way up, the nodes are found that some chain matches. -/
theorem Grounded.find_upward (hctx : ctx.Grounded) (ht : target.isBelow = false)
    (h : ctx.Testable counts branches) {l : List ν}
    (hr : fresh (ctx.find target branches) = .ok l) :
    ∃ found : List ν, l = ctx.answer target found ∧ found.Nodup ∧
      ∀ n, n ∈ found ↔ n ∈ ctx.upward target ∧ ∃ c ∈ branches, ctx.Matches c n := by
  obtain ⟨found, rfl, hd, hmem⟩ := h.find_upward ht (P := ctx.Matches) (fun c hc n hn =>
    hctx.decides_leadsBack_links (e := ⟨_, .backward, n, .unknown⟩) rfl (h.steady hc)
      (h.ne_nil hc) hn) hr
  refine ⟨found, rfl, hd, fun n => (hmem n).trans (and_congr_right fun _ => ?_)⟩
  exact ⟨fun ⟨c, hc, _, hm⟩ => ⟨c, hc, hm⟩,
    fun ⟨c, hc, hm⟩ => ⟨c, hc, satisfies_last_of_matches hm, hm⟩⟩

/-- The context node is found if it is an element that some chain matches. -/
theorem Grounded.find_itself (hctx : ctx.Grounded) (h : ctx.Testable counts branches) {l : List ν}
    (hr : fresh (ctx.find .itself branches) = .ok l) :
    ctx.node ∈ l ↔ ctx.tree.isElement ctx.node = true ∧
      ∃ c ∈ branches, ctx.Matches c ctx.node := by
  obtain ⟨found, rfl, -, hmem⟩ := hctx.find_upward rfl h hr
  rw [answer, List.mem_filter, hmem]
  simp [upward]

end Find

end Context

end DomQuery.Query
