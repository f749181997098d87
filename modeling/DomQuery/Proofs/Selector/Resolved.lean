import DomQuery.Proofs.Selector.Lookup
import DomQuery.Proofs.Selector.Numbering

/-!
# Where resolved selectors come from

Looking lists up finds names, splits chains and sorts compounds. Whatever comes
out of it goes back to something that was written: a chain to a complex
selector, a simple selector to a component, the chains in an argument to the
list in the argument of the component.

* `Requests.resolve_inv` traces the chains of a list back, `Leaf.resolve_inv` the
  argument of a simple selector; `Yields.all` puts the two together.
* `Requests.each_numbered`: in the chains of a list, the number of a list
  determines the chains in it.
-/

namespace DomQuery.Selector

theorem SelectorList.distinct_of_ofText {text : String} {list : SelectorList}
    (h : SelectorList.ofText text = .ok list) : list.Distinct :=
  nodup_numbers h

/-- The chain of what a computation made of the compounds. -/
theorem Chain.mapM_inv {ε κ μ : Type} {f : κ → Except ε μ} {c : Chain κ} {c' : Chain μ}
    (h : c.mapM f = .ok c') : ∀ k' ∈ c'.compounds, ∃ k ∈ c.compounds, f k = .ok k' := by
  obtain ⟨leading, links, last⟩ := c
  obtain ⟨links', hlinks, h⟩ := bind_eq_ok.mp h
  obtain ⟨last', hlast, h⟩ := bind_eq_ok.mp h
  obtain rfl := pure_eq_ok.mp h
  intro k' hk'
  rcases mem_compounds.mp hk' with ⟨link', hl', rfl⟩ | rfl
  · obtain ⟨link, hl, hf⟩ := forall₂_exists_left (mapM_eq_ok.mp hlinks) link' hl'
    obtain ⟨k, hk, hf⟩ := bind_eq_ok.mp hf
    obtain rfl := pure_eq_ok.mp hf
    exact ⟨link.compound, mem_compounds.mpr (.inl ⟨link, hl, rfl⟩), hk⟩
  · exact ⟨last, mem_compounds.mpr (.inr rfl), hlast⟩

/-- What chains of branches consist of. -/
theorem linkAll_inv {look : ListMode → SelectorList → Except SelectorError (List (Chain Compound))}
    {branches : List (Chain (List Leaf))} {chains : List (Chain Compound)}
    (h : linkAll look branches = .ok chains) : ∀ c ∈ chains, ∃ chain ∈ branches,
      ∀ k ∈ c.compounds, ∃ compound ∈ chain.compounds, List.Forall₂
        (fun (leaf : Leaf) s => leaf.simple look = .ok s) compound k := by
  intro c hc
  obtain ⟨chain, hchain, hf⟩ := forall₂_exists_left (mapM_eq_ok.mp h) c hc
  refine ⟨chain, hchain, fun k hk => ?_⟩
  obtain ⟨compound, hcompound, hf⟩ := Chain.mapM_inv hf k hk
  exact ⟨compound, hcompound, mapM_eq_ok.mp hf⟩

/-- The simple selector of a leaf when nothing was looked up before. -/
def Leaf.resolve (leaf : Leaf) : Except SelectorError Simple :=
  leaf.simple fun mode list => list.resolve mode

/-- Chains in a simple selector are those of the list that its leaf looks up,
and the number of a list is the one of this list. -/
theorem Leaf.resolve_inv {c : Component} {leaf : Leaf} {s : Simple} (hl : c.leaf = .ok leaf)
    (h : leaf.resolve = .ok s) :
    (s.branches ≠ [] → ∃ mode list, leaf.nested? = some (mode, list) ∧
      list.resolve mode = .ok s.branches) ∧
    ∀ form id branches, s = .nth form (some (id, branches)) → ∃ list,
      leaf.nested? = some (.strict, list) ∧ list.id = id ∧ list.resolve .strict = .ok branches := by
  have hlist : ∀ {mode list} {f : List (Chain Compound) → Simple},
      leaf.nested? = some (mode, list) → f <$> list.resolve mode = .ok s →
      (∀ branches, (f branches).branches = branches) →
      s.branches ≠ [] → ∃ mode list, leaf.nested? = some (mode, list) ∧
        list.resolve mode = .ok s.branches := by
    intro mode list f hn hr hf _
    obtain ⟨branches, hbranches, rfl⟩ := map_eq_ok.mp hr
    exact ⟨mode, list, hn, (hf branches).symm ▸ hbranches⟩
  have hbare : s.IsBare → (s.branches ≠ [] → ∃ mode list, leaf.nested? = some (mode, list) ∧
        list.resolve mode = .ok s.branches) ∧
      ∀ form id branches, s = .nth form (some (id, branches)) → ∃ list,
        leaf.nested? = some (.strict, list) ∧ list.id = id ∧
          list.resolve .strict = .ok branches :=
    fun hs => ⟨fun hb => absurd hs.1 hb, fun form id branches he => absurd he (hs.2 form (id, branches))⟩
  rw [resolve] at h
  cases leaf
  case plain s' =>
    obtain rfl : s' = s := pure_eq_ok.mp h
    obtain ⟨s, hs, hbs⟩ | ⟨list, hn, -⟩ := c.leaf_inv hl
    · exact hbare ((Leaf.plain.inj hs) ▸ hbs)
    · cases hn
  case has list =>
    rw [simple] at h
    split at h
    · obtain rfl : Simple.never = s := pure_eq_ok.mp h
      exact hbare ⟨rfl, by simp⟩
    · rename_i hh
      refine ⟨hlist (by simp [nested?, hh]) h fun _ => rfl, ?_⟩
      obtain ⟨branches, -, rfl⟩ := map_eq_ok.mp h
      simp
  case nth form list =>
    refine ⟨hlist rfl h fun _ => rfl, ?_⟩
    obtain ⟨branches, hr, rfl⟩ := map_eq_ok.mp h
    intro form' id branches' he
    obtain ⟨-, rfl, rfl⟩ : _ ∧ list.id = id ∧ branches = branches' := by simpa using he
    exact ⟨list, rfl, rfl, hr⟩
  all_goals
    refine ⟨hlist rfl h fun _ => rfl, ?_⟩
    obtain ⟨branches, -, rfl⟩ := map_eq_ok.mp h
    simp

namespace SelectorList

variable {top list : SelectorList} {mode : ListMode} {chains : List (Chain Compound)} {s : Simple}

/-- The simple selector is what becomes of a component in a list that is looked
up. -/
def Yields (top : SelectorList) (s : Simple) : Prop :=
  ∃ mode list within component leaf, top.Requests mode list ∧ within ∈ list.selectors ∧
    component ∈ within.components ∧ component.leaf = .ok leaf ∧ leaf.resolve = .ok s

/-- What the chains of a list consist of. -/
theorem Requests.resolve_inv (hd : top.Distinct) (h : top.Requests mode list)
    (hr : list.resolve mode = .ok chains) :
    ∀ c ∈ chains, ∀ k ∈ c.compounds, k ≠ [] ∧ ∀ s ∈ k, top.Yields s := by
  obtain ⟨known, hk⟩ := hd.exists_knows
  rw [h.resolve_eq hd] at hr
  obtain ⟨branches, hb, hr⟩ := bind_eq_ok.mp hr
  intro c hc k hkc
  obtain ⟨chain, hchain, hcompounds⟩ := linkAll_inv hr c hc
  obtain ⟨compound, hcompound, hleaves⟩ := hcompounds k hkc
  obtain ⟨within, hw, hdec⟩ := h.mem_branches hk hb chain hchain
  obtain ⟨hne, hcomponents⟩ := Complex.decompose_inv hdec compound hcompound
  refine ⟨?_, fun s hs => ?_⟩
  · rintro rfl
    exact hne (List.forall₂_nil_right_iff.mp hleaves)
  · obtain ⟨leaf, hl, hs⟩ := forall₂_exists_left hleaves s hs
    obtain ⟨component, hcw, hcl⟩ := hcomponents leaf hl
    exact ⟨mode, list, within, component, leaf, h, hw, hcw, hcl, hs⟩

theorem resolve_ne_nil {text : String} (ht : ofText text = .ok list)
    (hr : list.resolve .strict = .ok chains) : ∀ c ∈ chains, ∀ k ∈ c.compounds, k ≠ [] :=
  fun c hc k hk => (Requests.outermost.resolve_inv (distinct_of_ofText ht) hr c hc k hk).1

/-- What is nested in a simple selector comes from a list that its leaf looks up. -/
theorem Yields.all (hd : top.Distinct) (h : top.Yields s) : s.All top.Yields := by
  induction s using Simple.induct with
  | h s ih =>
    refine .intro h fun c hc k hk s' hs' => ih c hc k hk s' hs' ?_
    obtain ⟨mode, list, within, component, leaf, hrequest, hw, hcw, hl, hs⟩ := h
    obtain ⟨mode', inner, hn, hr⟩ := (Leaf.resolve_inv hl hs).1 (List.ne_nil_of_mem hc)
    exact ((Requests.found hrequest hw hcw hl hn).resolve_inv hd hr c hc k hk).2 s' hs'

/-- A list that is not the outermost one is looked up for a leaf. -/
theorem Requests.exists_leaf (h : top.Requests mode list) (hmode : mode ≠ .strict) :
    ∃ mode' outer within component leaf, top.Requests mode' outer ∧ within ∈ outer.selectors ∧
      component ∈ within.components ∧ component.leaf = .ok leaf ∧
      leaf.nested? = some (mode, list) := by
  cases h with
  | outermost => exact absurd rfl hmode
  | found h hw hc hl hn => exact ⟨_, _, _, _, _, h, hw, hc, hl, hn⟩
  | matched h hw hc hl hn =>
    rw [Leaf.asked_eq, Option.mem_toList] at hn
    exact ⟨_, _, _, _, _, h, hw, hc, hl, hn⟩

/-- The chains of a forgiving list are matched in `:is()`. -/
theorem Requests.yields_matchesAny (h : top.Requests .forgiving list)
    (hr : list.resolve .forgiving = .ok chains) : top.Yields (.matchesAny chains) := by
  obtain ⟨mode, outer, within, component, leaf, hrequest, hw, hc, hl, hn⟩ :=
    h.exists_leaf (by decide)
  refine ⟨mode, outer, within, component, leaf, hrequest, hw, hc, hl, ?_⟩
  cases leaf
  case matchesAny =>
    obtain rfl : _ = list := by simpa [Leaf.nested?] using hn
    exact map_eq_ok.mpr ⟨chains, hr, rfl⟩
  case has => simp [Leaf.nested?] at hn
  all_goals cases hn

theorem each_yields (hd : top.Distinct) (hr : top.resolve .strict = .ok chains) :
    Each (Simple.All top.Yields) chains := fun c hc k hk s hs =>
  ((Requests.outermost.resolve_inv hd hr c hc k hk).2 s hs).all hd

end SelectorList

/-! ### What a number stands for -/

/-- The number of a list that filters siblings stands for the chains in it. -/
def Simple.Numbered (meaning : ListId → List (Chain Compound)) (s : Simple) : Prop :=
  ∀ form id branches, s = .nth form (some (id, branches)) → meaning id = branches

/-- `meaning` gives the chains of lists by their numbers. -/
def SelectorList.Means (top : SelectorList) (meaning : ListId → List (Chain Compound)) : Prop :=
  ∀ mode list, top.Requests mode list → meaning list.id = (list.resolve mode).toOption.getD []

theorem SelectorList.Distinct.exists_means {top : SelectorList} (hd : top.Distinct) :
    ∃ meaning, top.Means meaning :=
  hd.exists_by_id fun mode list => (list.resolve mode).toOption.getD []

theorem SelectorList.Yields.numbered {top : SelectorList}
    {meaning : ListId → List (Chain Compound)} (hm : top.Means meaning) {s : Simple}
    (h : top.Yields s) : s.Numbered meaning := by
  obtain ⟨mode, list, within, component, leaf, hrequest, hw, hcw, hl, hs⟩ := h
  rintro form id branches rfl
  obtain ⟨inner, hn, rfl, hr⟩ := (Leaf.resolve_inv hl hs).2 form id branches rfl
  rw [hm .strict inner (.found hrequest hw hcw hl hn), hr]
  rfl

/-- In the chains of a list, the number of a list determines the chains in it. -/
theorem SelectorList.Requests.each_numbered {top list : SelectorList} {mode : ListMode}
    {meaning : ListId → List (Chain Compound)} (hd : top.Distinct) (hm : top.Means meaning)
    (h : top.Requests mode list) {branches : List (Chain Compound)}
    (hr : list.resolve mode = .ok branches) :
    Each (Simple.All (Simple.Numbered meaning)) branches := fun c hc k hk s hs =>
  (((h.resolve_inv hd hr c hc k hk).2 s hs).all hd).mono fun _ h => h.numbered hm

theorem each_numbered {top : SelectorList} {meaning : ListId → List (Chain Compound)}
    (hd : top.Distinct) (hm : top.Means meaning) {branches : List (Chain Compound)}
    (hr : top.resolve .strict = .ok branches) :
    Each (Simple.All (Simple.Numbered meaning)) branches :=
  SelectorList.Requests.outermost.each_numbered hd hm hr

/-- The list that filters siblings, if there is one, is a list of the selector. -/
def SelectorList.Filters (top : SelectorList)
    (of : Option (ListId × List (Chain Compound))) : Prop :=
  ∀ id branches, of = some (id, branches) →
    ∃ list, top.Requests .strict list ∧ list.id = id ∧ list.resolve .strict = .ok branches

theorem SelectorList.Filters.numbered {top : SelectorList}
    {meaning : ListId → List (Chain Compound)} (hd : top.Distinct) (hm : top.Means meaning)
    {of : Option (ListId × List (Chain Compound))} (h : top.Filters of) (form : NthForm) :
    (Simple.nth form of).All (Simple.Numbered meaning) := by
  refine .intro ?_ ?_
  · rintro form' id branches he
    obtain ⟨rfl, rfl⟩ : form = form' ∧ of = some (id, branches) := by simpa using he
    obtain ⟨list, hl, rfl, hr⟩ := h id branches rfl
    rw [hm .strict list hl, hr]
    rfl
  · rcases of with _ | ⟨id, branches⟩
    · exact fun c hc => nomatch hc
    · obtain ⟨list, hl, -, hr⟩ := h id branches rfl
      exact hl.each_numbered hd hm hr

end DomQuery.Selector
