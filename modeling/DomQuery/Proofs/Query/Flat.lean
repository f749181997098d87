import DomQuery.Proofs.Document.Answers
import DomQuery.Proofs.Query.Lenient
import DomQuery.Proofs.Query.Renumbered
import DomQuery.Proofs.Selector.Joined

/-!
# `:is()` around the beginning of a selector

`:is(P) c Q` and `P c Q` are searched for in different ways. `P` is a part of the
chain in the one, which may be entered at its beginning, and a list in the argument
of a simple selector in the other, which is matched backward wherever it is tested.
But the two match the same nodes, and nothing else shows in an answer.

* `Grounded.find_congr`: what is found depends on what the chains match.
* `Grounded.matches_isOf`: the two chains match the same nodes.
* `outcome_isOf`: questions are answered alike for the two.
-/

namespace DomQuery

/-- The simple selector is no type selector with a prefix. -/
def Selector.Simple.Unprefixed (s : Selector.Simple) : Prop :=
  ∀ q name, s ≠ .type ⟨some (.named q), name⟩

namespace Query

open DomQuery.Selector DomQuery.Tree

variable {ν : Type} [DecidableEq ν]

namespace Context

section Single

variable {m : Type → Type} [Monad m] [LawfulMonad m] {α : Type}

theorem anyM_singleton (p : α → m Bool) (x : α) : [x].anyM p = p x := by
  rw [List.anyM]
  refine Eq.trans (congrArg _ (funext fun b => ?_)) (bind_pure (p x))
  cases b <;> rfl

theorem allM_singleton (p : α → m Bool) (x : α) : [x].allM p = p x := by
  rw [List.allM]
  refine Eq.trans (congrArg _ (funext fun b => ?_)) (bind_pure (p x))
  cases b <;> rfl

end Single

/-! ### What is found -/

section Found

variable {ctx : Context ν}

/-- There is only one list of given nodes in document order. -/
theorem Grounded.eq_of_pairwise (hctx : ctx.Grounded) {l l' : List ν}
    (h : l.Pairwise ctx.tree.Before) (h' : l'.Pairwise ctx.tree.Before) (hmem : ∀ n, n ∈ l ↔ n ∈ l') :
    l = l' := by
  have hf := hctx.isForest
  have hperm : l.Perm l' :=
    (List.perm_ext_iff_of_nodup (hf.nodup_of_pairwise h) (hf.nodup_of_pairwise h')).mpr hmem
  exact hperm.eq_of_pairwise (fun a b _ _ hab hba => absurd hba (hf.before_asymm hab)) h h'

theorem answer_upward_congr {target : Target} (ht : target.isBelow = false) {found found' : List ν}
    (hn : found.Nodup) (hn' : found'.Nodup) (hmem : ∀ n, n ∈ found ↔ n ∈ found') :
    ctx.answer target found = ctx.answer target found' := by
  cases target with
  | itself =>
    have hsame : ∀ l : List ν, l.Nodup →
        l.filter (· == ctx.node) = if ctx.node ∈ l then [ctx.node] else [] := by
      intro l hl
      rw [List.filter_beq, hl.count]
      split
      · rfl
      · rfl
    simp only [answer, hsame found hn, hsame found' hn', hmem]
  | nearest =>
    have hcontains : found.contains = found'.contains := by
      funext n
      rw [Bool.eq_iff_iff, List.contains_iff_mem, List.contains_iff_mem, hmem]
    rw [answer, answer, hcontains]
  | first | all => cases ht

variable {counts counts' : MemoKey ν → Except QueryError (List ν)}
variable {branches branches' : List (Chain Compound)}

/-- What is found depends on which nodes the chains match. -/
theorem Grounded.find_congr (hctx : ctx.Grounded) (h : ctx.Testable counts branches)
    (h' : ctx.Testable counts' branches')
    (hmatches : ∀ n, (∃ c ∈ branches, ctx.Matches c n) ↔ ∃ c ∈ branches', ctx.Matches c n)
    {target : Target} {l l' : List ν} (hl : fresh (ctx.find target branches) = .ok l)
    (hl' : fresh (ctx.find target branches') = .ok l') : l = l' := by
  have hfinds : ∀ n, ctx.FindsSome branches n ↔ ctx.FindsSome branches' n := fun n => by
    have hsplit : ∀ branches, ctx.FindsSome branches n ↔
        ctx.tree.Below ctx.node n ∧ ∃ c ∈ branches, ctx.Matches c n := fun branches =>
      ⟨fun ⟨c, hc, hb, hm⟩ => ⟨hb, c, hc, hm⟩, fun ⟨hb, c, hc, hm⟩ => ⟨c, hc, hb, hm⟩⟩
    rw [hsplit, hsplit, hmatches]
  have hupward : target.isBelow = false → l = l' := fun ht => by
    obtain ⟨found, rfl, hn, hmem⟩ := hctx.find_upward ht h hl
    obtain ⟨found', rfl, hn', hmem'⟩ := hctx.find_upward ht h' hl'
    exact answer_upward_congr ht hn hn' fun n => by rw [hmem, hmem', hmatches]
  cases target with
  | itself => exact hupward rfl
  | nearest => exact hupward rfl
  | first =>
    obtain ⟨r, rfl, hr⟩ := hctx.find_first h hl
    obtain ⟨r', rfl, hr'⟩ := hctx.find_first h' hl'
    rw [(hr.congr hfinds).unique hctx.isForest hr']
  | all =>
    obtain ⟨hp, hmem⟩ := hctx.find_all h hl
    obtain ⟨hp', hmem'⟩ := hctx.find_all h' hl'
    exact hctx.eq_of_pairwise hp hp' fun n => by rw [hmem, hmem', hfinds]

end Found

/-! ### Evaluations that do not fail -/

section Faultless

variable (ctx : Context ν)

/-- The context on both sides, where neither side may fail. -/
def faultless : Pairing ν :=
  ⟨fun _ => False, fun _ => False, fun _ => True, ctx, ctx⟩

variable {ctx} (hw : ctx.warn = false)

include hw in
theorem alike_faultless : ctx.faultless.Alike := by
  refine Pairing.alike_of_warn fun e _ => ?_
  change Parallel _ _ Eq (ctx.complain e) (ctx.complain e)
  rw [complain, hw]
  exact .pure rfl

omit [DecidableEq ν] in
theorem admits_faultless {s : Simple} (h : s.All Simple.Unprefixed) :
    s.All ctx.faultless.Admits := by
  refine h.mono ?_
  rintro _ hs ⟨qualifier, name⟩ rfl n - e he
  obtain ⟨q, rfl, -⟩ := selectsType?_error he
  exact hs q name rfl

omit [DecidableEq ν] in
theorem answers_of_faultless {α : Type} {x : Eval ν α}
    (h : ctx.faultless.Runs Eq x x) : Answers x := by
  obtain ⟨a, -, ha, -⟩ | ⟨-, -, -, ⟨⟩⟩ | ⟨-, -, ⟨⟩⟩ := h.fresh_cases
  exact ⟨a, ha⟩

variable {branches : List (Chain Compound)} (hb : Each (Simple.All Simple.Unprefixed) branches)
include hw hb

/-- Without warnings and prefixes, a search comes to an end. -/
theorem answers_find (target : Target) : Answers (ctx.find target branches) :=
  answers_of_faultless ((alike_faultless hw).find (fun _ h => h.elim)
    (fun c hc k hk s hs => admits_faultless (hb c hc k hk s hs)) target)

theorem answers_matchesSome (n : ν) :
    Answers (ctx.matchesSome (ctx.probes false branches) n) := by
  have halike := alike_faultless hw
  refine answers_of_faultless (halike.matchesSome (fun c hc k hk n hn => ?_) trivial)
  change ctx.faultless.Runs Eq ((ctx.compoundProbe false k).holds n) ((ctx.compoundProbe false k).holds n)
  rw [holds_compoundProbe]
  refine .allM (.of_subset fun s hs => hs) fun s hs => ?_
  exact halike.holdsSimple (fun _ h => h.elim) s (admits_faultless (hb c hc k hk s hs)) false hn

end Faultless

/-! ### Chains in an argument -/

section Argument

variable {ctx : Context ν} {counts : MemoKey ν → Except QueryError (List ν)} {c : Chain Compound}

theorem Grounded.decides_matchesChain (hctx : ctx.Grounded)
    (hs : ∀ k ∈ c.compounds, (ctx.compoundProbe false k).Steady counts ctx.MayFail)
    (hne : ∀ k ∈ c.compounds, k ≠ []) (n : ν) :
    Decides (ctx.matchesChain (c.map (ctx.compoundProbe false)) n) (ctx.Matches c n) := by
  have hback : ∀ n, Steady counts ctx.MayFail
      (ctx.leadsBack (c.links.reverse.map ctx.linkProbeOf) n) := by
    refine Context.steady_leadsBack fun _ hmem => ?_
    obtain ⟨link, hl, rfl⟩ := List.mem_map.mp hmem
    exact hs _ (c.compound_mem_compounds (List.mem_reverse.mp hl))
  have hmem : ∀ link ∈ c.links.reverse, link.compound ∈ c.compounds := fun link hl =>
    c.compound_mem_compounds (List.mem_reverse.mp hl)
  have hlinks : (c.map (ctx.compoundProbe false)).links.reverse =
      c.links.reverse.map ctx.linkProbeOf := by
    rw [List.map_reverse]
    rfl
  intro b hb
  rw [matchesChain, hlinks] at hb
  obtain ⟨a, ha, hb⟩ := (hs _ c.last_mem_compounds n).bind_ok (fun a _ => by
    split
    · exact hback n
    · exact .pure false) hb
  cases a with
  | true =>
    have := hctx.decides_leadsBack (l := c.leading) (fun link hl => hs _ (hmem link hl))
      (fun link hl => hne _ (hmem link hl)) ha b hb
    rwa [List.reverse_reverse] at this
  | false =>
    obtain rfl : false = b := Except.ok.inj hb
    refine iff_of_false Bool.false_ne_true fun hm => ?_
    cases ha.symm.trans (satisfies_last_of_matches hm)

/-- Nothing is satisfied by a node that is neither an element nor a shadow root. -/
theorem place_of_satisfies {k : Compound} (hk : k ≠ []) {n : ν} (h : ctx.Satisfies k n) :
    ctx.place n ≠ .elsewhere := by
  obtain ⟨s, rest, rfl⟩ := List.exists_cons_of_ne_nil hk
  have hs : Yes (ctx.holdsSimple false s n) := yes_of_cons h
  intro hplace
  rw [holdsSimple_elsewhere hplace, yes_pure] at hs
  cases hs

/-- `:is()` around a chain matches what the chain does. -/
theorem Grounded.satisfies_matchesAny (hctx : ctx.Grounded) (hw : ctx.warn = false)
    (hs : ∀ k ∈ c.compounds, (ctx.compoundProbe false k).Steady counts ctx.MayFail)
    (hne : ∀ k ∈ c.compounds, k ≠ []) (hu : Each (Simple.All Simple.Unprefixed) [c]) (n : ν) :
    ctx.Satisfies [.matchesAny [c]] n ↔ ctx.Matches c n := by
  have hsingle : (ctx.compoundProbe false [.matchesAny [c]]).holds n =
      ctx.onBoth (ctx.matchesSomeForgiving (ctx.probes true [c])) n := by
    rw [holds_compoundProbe, allM_singleton, holdsSimple]
  rw [Satisfies, hsingle]
  by_cases hplace : ctx.place n = .elsewhere
  · refine iff_of_false (fun h => ?_) fun hm => ?_
    · simp [onBoth, byPlace, hplace, Yes] at h
    · exact place_of_satisfies (hne _ c.last_mem_compounds) (satisfies_last_of_matches hm) hplace
  · rw [onBoth_eq hplace]
    obtain ⟨b, hb⟩ := answers_matchesSome hw hu n
    -- what does not fail is not forgiven
    obtain ⟨_, hlenient, rfl⟩ := (lenient_matchesSome [c] n).exists_ok (Prod.ext (y := (_, _)) hb rfl)
    have hdecides : Decides (ctx.matchesSome (ctx.probes false [c]) n) (ctx.Matches c n) := by
      rw [probes_eq, matchesSome, anyM_map, anyM_singleton]
      exact hctx.decides_matchesChain hs hne n
    rw [← hdecides b hb, Yes, fresh, hlenient]
    simp

/-- It does not matter whether the beginning of a chain is in the argument of `:is()`. -/
theorem Grounded.matches_isOf (hctx : ctx.Grounded) (hw : ctx.warn = false)
    (hs : ∀ k ∈ c.compounds, (ctx.compoundProbe false k).Steady counts ctx.MayFail)
    (hne : ∀ k ∈ c.compounds, k ≠ []) (hu : Each (Simple.All Simple.Unprefixed) [c])
    (combinator : Combinator) (k : Compound) (n : ν) :
    ctx.Matches (Chain.link ⟨none, [], [.matchesAny [c]]⟩ combinator k) n ↔
      ctx.Matches (c.link combinator k) n := by
  have hlink : ∀ c : Chain Compound, ctx.Matches (c.link combinator k) n ↔
      ctx.Satisfies k n ∧ ∃ x, Related ctx.tree.toLinks combinator x n ∧ ctx.Matches c x :=
    fun _ => matches_append
  rw [hlink, hlink]
  refine and_congr_right fun _ => exists_congr fun x => and_congr_right fun _ => ?_
  rw [matches_single, hctx.satisfies_matchesAny hw hs hne hu]

end Argument

end Context

/-! ### Texts -/

section Texts

variable {id inner : ListId} {components last : List Component} {combinator : Combinator}

/-- The list of `P c Q`. -/
def joined (id : ListId) (components : List Component) (combinator : Combinator)
    (last : List Component) : SelectorList :=
  .mk id [.mk (components ++ .combinator combinator :: last)]

/-- The list of `:is(P) c Q`. -/
def joinedIs (id inner : ListId) (components : List Component) (combinator : Combinator)
    (last : List Component) : SelectorList :=
  joined id [.isOf (.mk inner [.mk components])] combinator last

theorem ids_joinedIs : (joinedIs id inner components combinator last).ids =
    id :: inner :: (joined id components combinator last).ids.tail := by
  simp [joinedIs, joined, SelectorList.ids_eq, SelectorList.selectors, Complex.ids,
    Complex.components, Component.ids, Component.lists, Component.isOf, Argument.lists,
    SelectorList.id]

/-- There is a number left for the list of `:is()`. -/
theorem exists_distinct_joinedIs (hd : (joined id components combinator last).Distinct) :
    ∃ inner, (joinedIs id inner components combinator last).Distinct := by
  obtain ⟨inner, hnew⟩ :=
    Infinite.exists_notMem_finset (joined id components combinator last).ids.toFinset
  refine ⟨inner, ?_⟩
  have hids : (joined id components combinator last).ids =
      id :: (joined id components combinator last).ids.tail := by
    rw [joined, SelectorList.ids_eq]
    rfl
  rw [List.mem_toFinset, hids, List.mem_cons, not_or] at hnew
  change (SelectorList.ids _).Nodup at hd ⊢
  rw [hids, List.nodup_cons] at hd
  rw [ids_joinedIs, List.nodup_cons, List.mem_cons, not_or]
  exact ⟨⟨Ne.symm hnew.1, hd.1⟩, List.nodup_cons.mpr ⟨hnew.2, hd.2⟩⟩

theorem toOption_resolve_joined (hd : (joined id components combinator last).Distinct)
    (hlast : IsCompound last) :
    ((joined id components combinator last).resolve .strict).toOption =
      ((Selector.Complex.mk components).chain? .strict).bind fun chain =>
        (compound? last).map fun k => [chain.link combinator k] := by
  rw [joined, hd.toOption_resolve_single, Complex.chain?_append hlast, Option.map_bind]
  congr 1
  funext chain
  rw [Function.comp_apply, Option.map_map]
  rfl

theorem toOption_resolve_joinedIs (hd : (joinedIs id inner components combinator last).Distinct)
    (hlast : IsCompound last) {chain : Chain Compound}
    (hchain : (Selector.Complex.mk components).chain? .strict = some chain) :
    ((joinedIs id inner components combinator last).resolve .strict).toOption =
      (compound? last).map fun k => [Chain.link ⟨none, [], [.matchesAny [chain]]⟩ combinator k] := by
  have hinner : (SelectorList.mk inner [.mk components]).Distinct :=
    hd.inner (List.mem_singleton_self _) (List.mem_append_left _ (List.mem_singleton_self _))
      (List.mem_singleton_self _)
  have hcompound : IsCompound [.isOf (.mk inner [.mk components])] := by
    simp [IsCompound, Component.isOf]
  have hsimple : compound? [.isOf (.mk inner [.mk components])] = some [.matchesAny [chain]] := by
    simp [compound?, hinner.simple_isOf hchain, Simple.sortCompound]
  rw [joinedIs, toOption_resolve_joined hd hlast, Complex.chain?_compound hcompound, hsimple]
  rfl

/-- Chains that begin alike, the one of them in `:is()`, give the same answers. -/
theorem fresh_ask_isOf {tree : View ν} (hv : IsSound tree) {node : ν} {context : Context ν}
    (hc : Context.of tree node false = .ok context) {chain : Chain Compound} {k : Compound}
    {meaning : ListId → List (Chain Compound)}
    (hne : ∀ k' ∈ (chain.link combinator k).compounds, k' ≠ [])
    (hn : Each (Simple.All (Simple.Numbered meaning)) [chain.link combinator k])
    (hu : Each (Simple.All Simple.Unprefixed) [chain.link combinator k])
    (text text' : String) (call : Call) :
    fresh (Matcher.ask ⟨context, text', [Chain.link ⟨none, [], [.matchesAny [chain]]⟩ combinator k]⟩ call) =
      fresh (Matcher.ask ⟨context, text, [chain.link combinator k]⟩ call) := by
  have hctx := Context.grounded_of hv hc
  obtain ⟨-, -, hw⟩ := Context.of_ok hc
  have htestable : ∀ chain : Chain Compound, (∀ k' ∈ chain.compounds, k' ≠ []) →
      Each (Simple.All (Simple.Numbered meaning)) [chain] →
      context.Testable (context.counts meaning) [chain] := by
    intro chain hne hn c hc k hk
    refine ⟨hne k (List.mem_singleton.mp hc ▸ hk), Context.steady_compoundProbe fun s hs => ?_⟩
    exact Context.steady_holdsSimple s (hn c hc k hk s hs) false
  have hisOf : ∀ {p : Simple → Prop}, p (.matchesAny [chain]) →
      Each (Simple.All p) [chain.link combinator k] →
      Each (Simple.All p) [Chain.link ⟨none, [], [.matchesAny [chain]]⟩ combinator k] := by
    intro p hp h
    rw [each_link] at h ⊢
    refine ⟨?_, h.2⟩
    simp only [Each, List.mem_singleton, forall_eq, Chain.compounds, List.map_nil, List.nil_append]
    exact .intro hp h.1
  have hne' : ∀ k' ∈ (Chain.link ⟨none, [], [Simple.matchesAny [chain]]⟩ combinator k).compounds,
      k' ≠ [] := by
    intro k' hk'
    rw [Chain.compounds_link] at hk' hne
    rcases List.mem_append.mp hk' with hk' | hk'
    · rw [List.mem_singleton.mp hk']
      exact List.cons_ne_nil _ _
    · exact hne k' (List.mem_append_right _ hk')
  have hsteady := htestable chain (fun k' hk' => hne k' (by simp [hk'])) (each_link.mp hn).1
  have hflat := htestable _ hne hn
  have hnested := htestable _ hne' (hisOf (by rintro _ _ _ ⟨⟩) hn)
  obtain ⟨l, hl⟩ := Context.answers_find hw hu call.target
  obtain ⟨l', hl'⟩ := Context.answers_find hw (hisOf (by rintro _ _ ⟨⟩) hu) call.target
  have hmatches : ∀ n, (∃ c ∈ [Chain.link ⟨none, [], [Simple.matchesAny [chain]]⟩ combinator k],
      context.Matches c n) ↔ ∃ c ∈ [chain.link combinator k], context.Matches c n := fun n => by
    simp only [List.mem_singleton, exists_eq_left]
    exact hctx.matches_isOf hw (fun k hk => (hsteady chain (List.mem_singleton_self _) k hk).2)
      (fun k hk => (hsteady chain (List.mem_singleton_self _) k hk).1) (each_link.mp hu).1 _ _ _
  obtain rfl := hctx.find_congr hnested hflat hmatches hl' hl
  refine Matcher.fresh_ask_congr ⟨context, text, _⟩ ⟨context, text', _⟩ rfl ?_ ?_
  · cases call <;> rfl
  · rw [Matcher.fresh_find, Matcher.fresh_find]
    dsimp only
    rw [hl, hl']

theorem toOption_chainsOf {text : String} {list : SelectorList}
    (h : SelectorList.ofText text = .ok list) :
    (chainsOf text).toOption = (list.resolve .strict).toOption := by
  rw [chainsOf, h]
  change ((list.resolve .strict).mapError QueryError.selector).toOption = _
  rcases list.resolve .strict with e | branches
  · rfl
  · rfl

/-- Without chains there are no answers. -/
theorem toOption_outcome_of_chainsOf {text : String} (h : (chainsOf text).toOption = none)
    (tree : View ν) (node : ν) (warn : Bool) (call : Call) :
    (outcome tree text node warn call).toOption = none := by
  rw [outcome_eq]
  rcases Context.of tree node warn with e | context
  · rfl
  rcases hb : chainsOf text with e | branches
  · rfl
  · rw [hb] at h
    cases h

/-- `:is()` around the beginning of a selector makes no difference to any question. -/
theorem outcome_isOf {text text' : String} {list' : SelectorList} {chain : Chain (List Leaf)}
    (htext : SelectorList.ofText text = .ok (joined id components combinator last))
    (htext' : SelectorList.ofText text' = .ok list')
    (hsame : list'.unnumbered = (joinedIs id inner components combinator last).unnumbered)
    (hvalid : fresh ((Selector.Complex.mk components).branch .strict) = .ok chain)
    (hlast : IsCompound last) (hqualified : (joined id components combinator last).typePrefixes = [])
    {tree : View ν} (hv : IsSound tree) (node : ν) (call : Call) :
    (outcome tree text' node false call).toOption = (outcome tree text node false call).toOption ∧
      ((∃ branches, chainsOf text = .ok branches) →
        outcome tree text' node false call = outcome tree text node false call) := by
  have hd := SelectorList.distinct_of_ofText htext
  obtain ⟨inner', hdIs⟩ := exists_distinct_joinedIs hd
  have hsame' : (joinedIs id inner' components combinator last).unnumbered = list'.unnumbered := by
    rw [hsame]
    rfl
  -- so the second text is numbered like that, up to a permutation
  obtain ⟨g, rfl⟩ :=
    SelectorList.exists_renumber hdIs (SelectorList.distinct_of_ofText htext') hsame'
  have hinner : (SelectorList.mk inner' [.mk components]).Distinct :=
    hdIs.inner (List.mem_singleton_self _) (List.mem_append_left _ (List.mem_singleton_self _))
      (List.mem_singleton_self _)
  obtain ⟨c, hc⟩ := hinner.exists_chain? hvalid
  have hflat := (toOption_chainsOf htext).trans (toOption_resolve_joined hd hlast)
  have hnested := (toOption_chainsOf htext').trans
    (((hdIs.replaces_renumber g.injective).resolve_eq .strict nofun).trans
      (congrArg _ (toOption_resolve_joinedIs hdIs hlast hc)))
  rw [hc] at hflat
  rcases hk : compound? last with _ | k
  · rw [hk] at hflat hnested
    refine ⟨?_, fun ⟨branches, hb⟩ => ?_⟩
    · rw [toOption_outcome_of_chainsOf hflat, toOption_outcome_of_chainsOf hnested]
    · rw [hb] at hflat
      cases hflat
  · rw [hk] at hflat hnested
    suffices h : outcome tree text' node false call = outcome tree text node false call from
      ⟨congrArg _ h, fun _ => h⟩
    have hresolve : (joined id components combinator last).resolve .strict =
        .ok [c.link combinator k] :=
      Document.ok_of_toOption ((toOption_chainsOf htext).symm.trans hflat)
    obtain ⟨meaning, hmeaning⟩ := hd.exists_means
    have hunprefixed : Each (Simple.All Simple.Unprefixed) [c.link combinator k] :=
      fun c' hc' k' hk' s hs =>
        (SelectorList.each_yields hd hresolve c' hc' k' hk' s hs).mono fun s hs q name he => by
          rw [he] at hs
          have hq := hs.mem_typePrefixes
          rw [hqualified] at hq
          cases hq
    have hne := SelectorList.resolve_ne_nil htext hresolve _ (List.mem_singleton_self _)
    rw [outcome_eq, outcome_eq, Document.ok_of_toOption hflat, Document.ok_of_toOption hnested]
    rcases hcontext : Context.of tree node false with e | context
    · rfl
    · exact (Matcher.fresh_ask_renumber context text text' _ call).trans
        (fresh_ask_isOf hv hcontext hne (each_numbered hd hmeaning hresolve) hunprefixed text text call)

open Document in
theorem outcome_isOf_boxes :
    SelectorList.ofText "div > p" =
      .ok (joined ⟨0⟩ [.type ⟨none, "div"⟩] .child [.type ⟨none, "p"⟩]) ∧
    SelectorList.ofText ":is(div) > p" =
      .ok (joinedIs ⟨0⟩ ⟨1⟩ [.type ⟨none, "div"⟩] .child [.type ⟨none, "p"⟩]) ∧
    (∃ chain, fresh ((Selector.Complex.mk [.type ⟨none, "div"⟩]).branch .strict) = .ok chain) ∧
    IsCompound [.type ⟨none, "p"⟩] ∧
    (joined ⟨0⟩ [.type ⟨none, "div"⟩] .child [.type ⟨none, "p"⟩]).typePrefixes = [] ∧
    (∃ branches, chainsOf "div > p" = .ok branches) ∧
    outcome boxes.view "div > p" root false .all = .ok (.nodes [⟨2⟩, ⟨3⟩]) ∧
    outcome boxes.view ":is(div) > p" root false .all = .ok (.nodes [⟨2⟩, ⟨3⟩]) := by
  have htext : SelectorList.ofText "div > p" =
      .ok (joined ⟨0⟩ [.type ⟨none, "div"⟩] .child [.type ⟨none, "p"⟩]) := by cbv
  have htext' : SelectorList.ofText ":is(div) > p" =
      .ok (joinedIs ⟨0⟩ ⟨1⟩ [.type ⟨none, "div"⟩] .child [.type ⟨none, "p"⟩]) := by cbv
  have hchain : (fresh ((Selector.Complex.mk [.type ⟨none, "div"⟩]).branch .strict)).toOption.map
      (fun _ => ()) = some () := by decide +kernel
  obtain ⟨chain, hvalid, -⟩ := exists_of_toOption_map hchain
  have hlast : IsCompound [.type ⟨none, "p"⟩] := by simp [IsCompound]
  have hbranches : (chainsOf "div > p").toOption.map (fun _ => ()) = some () := by cbv
  obtain ⟨branches, hb, -⟩ := exists_of_toOption_map hbranches
  have hall : outcome boxes.view "div > p" root false .all = .ok (.nodes [⟨2⟩, ⟨3⟩]) :=
    ok_of_toOption (by cbv)
  have hv := regular_boxes.isSound_view reachable_boxes.coherent
  have hsame := (outcome_isOf htext htext' rfl hvalid hlast rfl hv root .all).2 ⟨branches, hb⟩
  exact ⟨htext, htext', ⟨chain, hvalid⟩, hlast, rfl, ⟨branches, hb⟩, hall, hsame.trans hall⟩

end Texts

end Query

end DomQuery
