import DomQuery.Proofs.Selector.Resolved

/-!
# Selectors of one compound

Where no combinator is written, there is one compound. It is tested in an order of
its own, but what is tested are the simple selectors of the components, each of
them for itself.

* `resolve_compound`: what becomes of a selector without combinators.
* `Requests.resolve_forgiving`: a list in which nothing is faulty means the same
  where faulty branches are left out.
-/

namespace DomQuery.Selector

/-- No component is a combinator. -/
def IsCompound (components : List Component) : Prop :=
  ∀ c ∈ components, ∀ combinator, c ≠ .combinator combinator

theorem IsCompound.concat {components : List Component} (h : IsCompound components) {c : Component}
    (hc : ∀ combinator, c ≠ .combinator combinator) : IsCompound (components ++ [c]) := by
  intro c' hc'
  rcases List.mem_append.mp hc' with hc' | hc'
  · exact h c' hc'
  · rwa [List.mem_singleton.mp hc']

/-- The simple selector of a component when nothing was looked up before. -/
def Component.simple (c : Component) : Except SelectorError Simple := do
  let leaf ← c.leaf
  leaf.resolve

/-- `:is(list)` -/
def Component.isOf (list : SelectorList) : Component :=
  .pseudoClass "is" (some (.selectors list))

/-- `:not(list)` -/
def Component.notOf (list : SelectorList) : Component :=
  .pseudoClass "not" (some (.selectors list))

theorem Component.leaf_isOf (list : SelectorList) : (isOf list).leaf = .ok (.matchesAny list) :=
  rfl

theorem Component.leaf_notOf (list : SelectorList) : (notOf list).leaf = .ok (.matchesNone list) :=
  rfl

theorem Component.simple_isOf (list : SelectorList) :
    (isOf list).simple = Simple.matchesAny <$> list.resolve .forgiving :=
  rfl

theorem Component.simple_notOf (list : SelectorList) :
    (notOf list).simple = Simple.matchesNone <$> list.resolve .strict :=
  rfl

/-! ### Splitting -/

namespace Chain

variable {σ : Type} {within : Complex} {read : Partial σ}

/-- A branch that may be left out is split like any other. -/
theorem splitFrom_forgiving (parts : List (Combinator ⊕ Except SelectorError σ)) :
    splitFrom .forgiving within read parts = splitFrom .strict within read parts := by
  induction parts generalizing read with
  | nil => rfl
  | cons part rest ih =>
    rcases part with combinator | simple
    · simp only [splitFrom, ih]
      rfl
    · simp only [splitFrom, ih]

end Chain

namespace Complex

theorem decompose_forgiving (within : Complex) :
    within.decompose .forgiving = within.decompose .strict := by
  rw [decompose, decompose, Chain.split, Chain.split, Chain.splitFrom_forgiving]

theorem branch_forgiving (within : Complex) : within.branch .forgiving = within.branch .strict := by
  rw [branch, branch, decompose_forgiving]

theorem decompose_compound {mode : ListMode} {components : List Component}
    {chain : Chain (List Leaf)} (hc : IsCompound components)
    (h : decompose mode (.mk components) = .ok chain) :
    ∃ leaves, List.Forall₂ (fun c leaf => c.leaf = .ok leaf) components leaves ∧
      chain = ⟨none, [], Leaf.sortCompound leaves⟩ := by
  have hparts : components.map Component.part = (components.map Component.leaf).map .inr := by
    rw [List.map_map]
    refine List.map_congr_left fun c hcc => ?_
    cases c with
    | combinator combinator => exact absurd rfl (hc _ hcc combinator)
    | _ => rfl
  obtain ⟨shape, hs, h⟩ := bind_eq_ok.mp h
  obtain rfl := pure_eq_ok.mp h
  change Chain.split mode _ (components.map Component.part) = _ at hs
  rw [hparts] at hs
  obtain ⟨leaves, hleaves, rfl⟩ := Chain.split_compound hs
  exact ⟨leaves, List.forall₂_map_left_iff.mp hleaves, rfl⟩

end Complex

/-! ### Lists -/

namespace SelectorList

variable {components : List Component} {id : ListId} {branches : List (Chain Compound)}

theorem linkAll_compound {look : ListMode → SelectorList → Except SelectorError (List (Chain Compound))}
    {leaves : List Leaf} (h : linkAll look [⟨none, [], leaves⟩] = .ok branches) :
    ∃ k, List.Forall₂ (fun (leaf : Leaf) s => leaf.simple look = .ok s) leaves k ∧
      branches = [⟨none, [], k⟩] := by
  obtain ⟨chain, rest, hchain, hrest, rfl⟩ := List.forall₂_cons_left_iff.mp (mapM_eq_ok.mp h)
  obtain rfl := List.forall₂_nil_left_iff.mp hrest
  obtain ⟨links, hlinks, hchain⟩ := bind_eq_ok.mp hchain
  obtain ⟨k, hk, hchain⟩ := bind_eq_ok.mp hchain
  obtain rfl := pure_eq_ok.mp hchain
  obtain rfl := List.forall₂_nil_left_iff.mp (mapM_eq_ok.mp hlinks)
  exact ⟨k, mapM_eq_ok.mp hk, rfl⟩

/-- A selector without combinators has one chain of one compound, which holds the
simple selectors of the components. -/
theorem resolve_compound (hd : (mk id [.mk components]).Distinct) (hc : IsCompound components)
    (hr : (mk id [.mk components]).resolve .strict = .ok branches) :
    ∃ k, branches = [⟨none, [], k⟩] ∧ (∀ s, s ∈ k ↔ ∃ c ∈ components, c.simple = .ok s) ∧
      ∀ c ∈ components, ∃ s, c.simple = .ok s := by
  obtain ⟨known, hk⟩ := hd.exists_knows
  rw [Requests.outermost.resolve_eq hd] at hr
  obtain ⟨chains, hb, hr⟩ := bind_eq_ok.mp hr
  rw [Requests.outermost.fresh_branches hk, if_neg (by simp)] at hb
  obtain ⟨chain, rest, hchain, hrest, rfl⟩ := List.forall₂_cons_left_iff.mp (mapM_eq_ok.mp hb)
  obtain rfl := List.forall₂_nil_left_iff.mp hrest
  obtain ⟨hdecompose, -⟩ := (Requests.outermost.branch_eq_ok hk (List.mem_singleton_self _)).mp hchain
  obtain ⟨leaves, hleaves, rfl⟩ := Complex.decompose_compound hc hdecompose
  obtain ⟨k, hsimple, rfl⟩ := linkAll_compound hr
  have hexists : ∀ c ∈ components, ∃ s ∈ k, c.simple = .ok s := fun c hcc => by
    obtain ⟨leaf, hl, hcl⟩ := forall₂_exists_left hleaves.flip c hcc
    obtain ⟨s, hs, hls⟩ := forall₂_exists_left hsimple.flip leaf (Leaf.mem_sortCompound.mpr hl)
    exact ⟨s, hs, bind_eq_ok.mpr ⟨leaf, hcl, hls⟩⟩
  refine ⟨k, rfl, fun s => ⟨fun hs => ?_, ?_⟩, fun c hcc => (hexists c hcc).imp fun _ h => h.2⟩
  · obtain ⟨leaf, hl, hls⟩ := forall₂_exists_left hsimple s hs
    obtain ⟨c, hcc, hcl⟩ := forall₂_exists_left hleaves leaf (Leaf.mem_sortCompound.mp hl)
    exact ⟨c, hcc, bind_eq_ok.mpr ⟨leaf, hcl, hls⟩⟩
  · rintro ⟨c, hcc, hcs⟩
    obtain ⟨s', hs', hcs'⟩ := hexists c hcc
    obtain rfl := Except.ok.inj (hcs.symm.trans hcs')
    exact hs'

/-- Where no branch of a list is faulty, none is left out when it is looked up for
another selector in which faulty ones are. -/
theorem Requests.resolve_forgiving {top top' list : SelectorList} (hd : top.Distinct)
    (hd' : top'.Distinct) (h : top.Requests .strict list) (h' : top'.Requests .forgiving list)
    (hr : list.resolve .strict = .ok branches) : list.resolve .forgiving = .ok branches := by
  obtain ⟨known, hk⟩ := hd.exists_knows
  obtain ⟨known', hk'⟩ := hd'.exists_knows
  rw [h.resolve_eq hd] at hr
  obtain ⟨chains, hb, hr⟩ := bind_eq_ok.mp hr
  have hkept : fresh (list.branches .forgiving) = .ok chains := by
    rw [h.fresh_branches hk, if_neg (by simp)] at hb
    simp only [h'.fresh_branches hk', if_true, Complex.branch_forgiving, filterMap_toOption hb]
  rw [h'.resolve_eq hd', hkept]
  exact hr

end SelectorList

end DomQuery.Selector
