import DomQuery.Proofs.Remember
import DomQuery.Proofs.Selector.Written
import Mathlib.Data.List.Nodup

/-!
# Looking a list up again

What is remembered under the number of a list are its branches, without a word
about how they were read. That is enough: when no two lists of a selector have
the same number, every list is looked up for one component, and so it is always
read in the same way. Whatever was looked up before, a list has the branches that
it has when nothing was.

* `Requests.unique`: a number stands for one list and one way to read it.
* `Requests.steady_branches` and `Requests.steady_load`: what was looked up
  before does not matter.
* `Requests.fresh_branches` and `Requests.branch_eq_ok`: what the branches of a
  list come to, and when one is in order.
* `Requests.resolve_eq` puts the chains of a list together from those of the
  lists inside of it.
-/

namespace DomQuery.Selector

/-- No two lists have the same number. -/
def SelectorList.Distinct (top : SelectorList) : Prop :=
  (top.allLists.map SelectorList.id).Nodup

/-- What is looked up to match a leaf. -/
def Leaf.asked (leaf : Leaf) : List (ListMode × SelectorList) :=
  let record (mode : ListMode) (list : SelectorList) :
      StateM (List (ListMode × SelectorList)) (List (Chain Compound)) := do
    modify fun asked => (mode, list) :: asked
    return []
  ((leaf.simple record).run []).2

/-- Matching reads a list in the way in which its branches were found. -/
theorem Leaf.asked_eq (leaf : Leaf) : leaf.asked = leaf.nested?.toList := by
  cases leaf
  case has list =>
    rw [asked, simple, nested?]
    split
    · rfl
    · rfl
  all_goals rfl

/-- What is looked up for a selector, and how its branches are read: the
outermost list, and then what its leaves ask for, when branches are found as
well as when they are matched. -/
inductive SelectorList.Requests (top : SelectorList) : ListMode → SelectorList → Prop
  | outermost : Requests top .strict top
  | found {mode mode' : ListMode} {list inner : SelectorList} {within : Complex} {c : Component}
      {leaf : Leaf} (h : Requests top mode list) (hw : within ∈ list.selectors)
      (hc : c ∈ within.components) (hl : c.leaf = .ok leaf)
      (hn : leaf.nested? = some (mode', inner)) : Requests top mode' inner
  | matched {mode mode' : ListMode} {list inner : SelectorList} {within : Complex} {c : Component}
      {leaf : Leaf} (h : Requests top mode list) (hw : within ∈ list.selectors)
      (hc : c ∈ within.components) (hl : c.leaf = .ok leaf)
      (hn : (mode', inner) ∈ leaf.asked) : Requests top mode' inner

namespace SelectorList

variable {top list list' : SelectorList} {mode mode' : ListMode}

/-- A component of `top` holds the list, and asks for it in this way. -/
def Holds (top : SelectorList) (mode : ListMode) (list : SelectorList) : Prop :=
  ∃ c leaf, (c, list) ∈ top.holders ∧ c.leaf = .ok leaf ∧ leaf.nested? = some (mode, list)

theorem holds_inner {inner : SelectorList} {within : Complex} {c : Component} {leaf : Leaf}
    (h : mode = .strict ∧ list = top ∨ top.Holds mode list) (hw : within ∈ list.selectors)
    (hc : c ∈ within.components) (hl : c.leaf = .ok leaf)
    (hn : leaf.nested? = some (mode', inner)) : top.Holds mode' inner := by
  have hm : (c, inner) ∈ list.holders :=
    mem_holders_of_mem hw hc (by simp [c.lists_of_nested? hl hn])
  refine ⟨c, leaf, ?_, hl, hn⟩
  rcases h with ⟨-, rfl⟩ | ⟨c', leaf', hm', -⟩
  · exact hm
  · exact holders_subset hm' hm

/-- A list inside is looked up for the component that holds it. -/
theorem Requests.holds (h : top.Requests mode list) :
    mode = .strict ∧ list = top ∨ top.Holds mode list := by
  induction h with
  | outermost => exact .inl ⟨rfl, rfl⟩
  | found _ hw hc hl hn ih => exact .inr (holds_inner ih hw hc hl hn)
  | matched _ hw hc hl hn ih =>
    rw [Leaf.asked_eq, Option.mem_toList] at hn
    exact .inr (holds_inner ih hw hc hl hn)

/-- A number stands for one list, and for one way to read it. -/
theorem Requests.unique (hd : top.Distinct) (h : top.Requests mode list)
    (h' : top.Requests mode' list') (hid : list.id = list'.id) : mode = mode' ∧ list = list' := by
  obtain ⟨htop, hnodup⟩ : top.id ∉ top.holders.map (fun holder => holder.2.id) ∧
      (top.holders.map fun holder => holder.2.id).Nodup := by
    simpa [Distinct, allLists, Function.comp_def] using hd
  have hnot : ∀ {c inner}, (c, inner) ∈ top.holders → inner.id ≠ top.id :=
    fun hm he => htop (he ▸ List.mem_map_of_mem (f := fun holder => holder.2.id) hm)
  rcases h.holds with ⟨rfl, rfl⟩ | ⟨c, leaf, hm, hl, hn⟩
  · rcases h'.holds with ⟨rfl, rfl⟩ | ⟨c', leaf', hm', -⟩
    · exact ⟨rfl, rfl⟩
    · exact absurd hid.symm (hnot hm')
  · rcases h'.holds with ⟨rfl, rfl⟩ | ⟨c', leaf', hm', hl', hn'⟩
    · exact absurd hid (hnot hm)
    · obtain ⟨rfl, rfl⟩ : c = c' ∧ list = list' := by
        simpa using List.inj_on_of_nodup_map hnodup hm hm' hid
      obtain rfl : leaf = leaf' := by simpa [hl] using hl'
      exact ⟨by simpa [hn] using hn', rfl⟩

/-- What depends on a list and how it is read is a matter of the number. -/
theorem Distinct.exists_by_id {β : Type} [Inhabited β] (hd : top.Distinct)
    (f : ListMode → SelectorList → β) :
    ∃ g : ListId → β, ∀ mode list, top.Requests mode list → g list.id = f mode list := by
  classical
  refine ⟨fun id => if h : ∃ r : ListMode × SelectorList, top.Requests r.1 r.2 ∧ r.2.id = id then
    f h.choose.1 h.choose.2 else default, fun mode list h => ?_⟩
  have hex : ∃ r : ListMode × SelectorList, top.Requests r.1 r.2 ∧ r.2.id = list.id :=
    ⟨(mode, list), h, rfl⟩
  obtain ⟨hr, hid⟩ := hex.choose_spec
  obtain ⟨hm, hl⟩ := hr.unique hd h hid
  simp only [dif_pos hex, hm, hl]

end SelectorList

/-! ### Branches -/

section Branches

variable {known : ListId → Except SelectorError (List (Chain (List Leaf)))}
variable {E : SelectorError → Prop} {α : Type} {mode : ListMode} {branches : List (Lookup α)}

/-- The branches that are collected, when none of them depends on what is
remembered. -/
theorem comesTo_collectBranches (h : ∀ branch ∈ branches, Steady known E branch) :
    ComesTo known E (collectBranches mode branches)
      (if mode = .forgiving then
        .ok (branches.filterMap fun branch => (fresh branch).toOption)
      else branches.mapM fresh) := by
  by_cases hm : mode = .forgiving
  · have hattempt : ComesTo known E (branches.mapM attempt)
        (branches.mapM fun branch => pure (fresh branch).toOption) :=
      .mapM fun branch hb => ⟨(h branch hb).attempt, (h branch hb).fresh_attempt⟩
    have hkept := hattempt.bind (g := fun found => pure (found.filterMap fun branch => branch))
      fun found _ => .pure (found.filterMap fun branch => branch)
    rw [List.mapM_pure, pure_bind, List.filterMap_map] at hkept
    rw [collectBranches, hm]
    exact hkept
  · have hall : ComesTo known E (branches.mapM fun branch => branch) (branches.mapM fresh) :=
      .mapM fun branch hb => ⟨h branch hb, rfl⟩
    simpa only [collectBranches, beq_iff_eq, hm, if_false] using hall

/-- The chain of a branch, after the lists in it were looked up. -/
def Complex.branch (mode : ListMode) (within : Complex) : Lookup (Chain (List Leaf)) := do
  let chain ← liftExcept (within.decompose mode)
  Component.requestAll within.components
  return chain

theorem Complex.branches_eq (mode : ListMode) (selectors : List Complex) :
    Complex.branches mode selectors = selectors.map (Complex.branch mode) := by
  induction selectors with
  | nil => rfl
  | cons within rest ih =>
    obtain ⟨components⟩ := within
    rw [Complex.branches, ih]
    rfl

theorem steady_requestAll {components : List Component}
    (h : ∀ c ∈ components, Steady known E c.request) :
    Steady known E (Component.requestAll components) := by
  induction components with
  | nil => exact .pure ()
  | cons c rest ih =>
    obtain ⟨hc, hrest⟩ := List.forall_mem_cons.mp h
    exact hc.bind fun _ _ => ih hrest

theorem steady_request {c : Component} (h : ∀ leaf mode list, c.leaf = .ok leaf →
    leaf.nested? = some (mode, list) → Steady known E (list.branches mode)) :
    Steady known E c.request := by
  by_cases hex : ∃ leaf mode list, c.leaf = .ok leaf ∧ leaf.nested? = some (mode, list)
  · obtain ⟨leaf, mode, list, hl, hn⟩ := hex
    rw [c.request_of_nested? hl hn]
    exact (h leaf mode list hl hn).map (Function.const _ ())
  · rw [c.request_of_not_nested fun leaf hl => ?_]
    · exact .pure ()
    · rcases hn : leaf.nested? with _ | ⟨mode, list⟩
      · rfl
      · exact absurd ⟨leaf, mode, list, hl, hn⟩ hex

theorem steady_branch {within : Complex} (he : ∀ e, within.decompose mode = .error e → E e)
    (h : ∀ c ∈ within.components, Steady known E c.request) :
    Steady known E (within.branch mode) :=
  (Steady.liftExcept he).bind fun _ _ => (steady_requestAll h).bind fun _ _ => .pure _

/-- The lists in the arguments of components are found when each of them is. -/
theorem requestAll_eq_ok {components : List Component}
    (h : ∀ c ∈ components, Steady known E c.request) :
    fresh (Component.requestAll components) = .ok () ↔
      ∀ c ∈ components, fresh c.request = .ok () := by
  induction components with
  | nil => simp [Component.requestAll]
  | cons c rest ih =>
    obtain ⟨hc, hrest⟩ := List.forall_mem_cons.mp h
    rw [Component.requestAll, hc.fresh_bind fun _ _ => steady_requestAll hrest, bind_eq_ok,
      List.forall_mem_cons, ← ih hrest]
    exact ⟨fun ⟨_, hr⟩ => hr, fun hr => ⟨(), hr⟩⟩

theorem request_eq_ok {c : Component} (h : ∀ leaf mode list, c.leaf = .ok leaf →
    leaf.nested? = some (mode, list) → Steady known E (list.branches mode)) :
    fresh c.request = .ok () ↔ ∀ leaf mode list, c.leaf = .ok leaf →
      leaf.nested? = some (mode, list) → Answers (list.branches mode) := by
  by_cases hex : ∃ leaf mode list, c.leaf = .ok leaf ∧ leaf.nested? = some (mode, list)
  · obtain ⟨leaf, mode, list, hl, hn⟩ := hex
    have hdiscard : fresh (discard (list.branches mode)) =
        Function.const _ () <$> fresh (list.branches mode) := (h leaf mode list hl hn).fresh_map _
    rw [c.request_of_nested? hl hn, hdiscard, map_eq_ok]
    constructor
    · rintro ⟨branches, hb, -⟩ leaf' mode' list' hl' hn'
      obtain rfl := Except.ok.inj (hl.symm.trans hl')
      obtain ⟨rfl, rfl⟩ := Prod.mk.inj (Option.some.inj (hn.symm.trans hn'))
      exact ⟨branches, hb⟩
    · intro hall
      obtain ⟨branches, hb⟩ := hall leaf mode list hl hn
      exact ⟨branches, hb, rfl⟩
  · have hnone : ∀ leaf, c.leaf = .ok leaf → leaf.nested? = none := by
      intro leaf hl
      rcases hn : leaf.nested? with _ | ⟨mode, list⟩
      · rfl
      · exact absurd ⟨leaf, mode, list, hl, hn⟩ hex
    rw [c.request_of_not_nested hnone]
    exact iff_of_true rfl fun leaf mode list hl hn => absurd ⟨leaf, mode, list, hl, hn⟩ hex

end Branches

/-! ### Leaves -/

section Leaves

variable {known : ListId → Except SelectorError (List (Chain (List Leaf)))}
variable {E : SelectorError → Prop} {α β : Type}
variable {look : ListMode → SelectorList → Lookup (List (Chain Compound))}

theorem comesTo_simple {leaf : Leaf} {look' : ListMode → SelectorList → Except SelectorError
    (List (Chain Compound))} (h : ∀ mode list, leaf.nested? = some (mode, list) →
      ComesTo known E (look mode list) (look' mode list)) :
    ComesTo known E (leaf.simple look) (leaf.simple look') := by
  cases leaf
  case plain s => exact .pure s
  case has list =>
    cases hh : list.containsHas with
    | true =>
      simp only [Leaf.simple, hh, if_true]
      exact .pure Simple.never
    | false =>
      have hlist := h .relative list (by simp [Leaf.nested?, hh])
      simp only [Leaf.simple, hh, Bool.false_eq_true, if_false]
      exact hlist.map _
  all_goals exact (h _ _ rfl).map _

theorem comesTo_chain {f : α → Lookup β} {g : α → Except SelectorError β} {c : Chain α}
    (h : ∀ k ∈ c.compounds, ComesTo known E (f k) (g k)) :
    ComesTo known E (c.mapM f) (c.mapM g) := by
  have hlast := h _ c.last_mem_compounds
  have hlink : ∀ link ∈ c.links, ComesTo known E (f link.compound) (g link.compound) :=
    fun link hl => h _ (c.compound_mem_compounds hl)
  refine (ComesTo.mapM fun link hl => ?_).bind fun _ _ => hlast.bind fun _ _ => .pure _
  exact (hlink link hl).bind fun _ _ => .pure _

theorem comesTo_linkAll {look' : ListMode → SelectorList → Except SelectorError
    (List (Chain Compound))} {branches : List (Chain (List Leaf))}
    (h : ∀ chain ∈ branches, ∀ k ∈ chain.compounds, ∀ leaf ∈ k, ∀ mode list,
      leaf.nested? = some (mode, list) → ComesTo known E (look mode list) (look' mode list)) :
    ComesTo known E (linkAll look branches) (linkAll look' branches) :=
  .mapM fun chain hc => comesTo_chain fun k hk => .mapM fun leaf hl =>
    comesTo_simple (h chain hc k hk leaf hl)

end Leaves

/-! ### Lists -/

namespace SelectorList

/-- The branches of a list, without a look at what is remembered for it. -/
def findBranches (mode : ListMode) (list : SelectorList) : Lookup (List (Chain (List Leaf))) :=
  collectBranches mode (list.selectors.map (Complex.branch mode))

theorem branches_eq (mode : ListMode) (list : SelectorList) :
    list.branches mode = remembered list.id (list.findBranches mode) := by
  obtain ⟨id, selectors⟩ := list
  rw [branches, Complex.branches_eq]
  rfl

/-- What `known` says under the number of a list are its branches. -/
def Knows (top : SelectorList)
    (known : ListId → Except SelectorError (List (Chain (List Leaf)))) : Prop :=
  ∀ mode list, top.Requests mode list → known list.id = fresh (list.findBranches mode)

theorem Distinct.exists_knows {top : SelectorList} (hd : top.Distinct) :
    ∃ known, top.Knows known :=
  have : Inhabited (Except SelectorError (List (Chain (List Leaf)))) := ⟨.ok []⟩
  hd.exists_by_id fun mode list => fresh (list.findBranches mode)

variable {top list : SelectorList} {mode : ListMode}
variable {known : ListId → Except SelectorError (List (Chain (List Leaf)))}

/-- The branches of a list do not depend on what was looked up before. -/
theorem Requests.steady (hk : top.Knows known) (h : top.Requests mode list) :
    Steady known (fun _ => True) (list.branches mode) ∧
      ∀ within ∈ list.selectors, ∀ c ∈ within.components,
        Steady known (fun _ => True) c.request := by
  induction list using SelectorList.induct generalizing mode with
  | h list ih =>
    have hrequest : ∀ within ∈ list.selectors, ∀ c ∈ within.components,
        Steady known (fun _ => True) c.request := by
      intro within hw c hc
      refine steady_request fun leaf mode' inner hl hn => ?_
      exact (ih within hw c hc inner (by simp [c.lists_of_nested? hl hn]) (.found h hw hc hl hn)).1
    refine ⟨?_, hrequest⟩
    rw [branches_eq]
    refine .remembered (comesTo_collectBranches fun branch hb => ?_).1 (hk mode list h)
    obtain ⟨within, hw, rfl⟩ := List.mem_map.mp hb
    exact steady_branch (fun _ _ => trivial) (hrequest within hw)

theorem Requests.steady_branches (hk : top.Knows known) (h : top.Requests mode list) :
    Steady known (fun _ => True) (list.branches mode) :=
  (h.steady hk).1

/-- The branches of a list, put together from what each of them comes to. -/
theorem Requests.fresh_branches (hk : top.Knows known) (h : top.Requests mode list) :
    fresh (list.branches mode) =
      if mode = .forgiving then
        .ok (list.selectors.filterMap fun within => (fresh (within.branch mode)).toOption)
      else list.selectors.mapM fun within => fresh (within.branch mode) := by
  have hbranch : ∀ branch ∈ list.selectors.map (Complex.branch mode),
      Steady known (fun _ => True) branch := by
    intro branch hb
    obtain ⟨within, hw, rfl⟩ := List.mem_map.mp hb
    exact steady_branch (fun _ _ => trivial) ((h.steady hk).2 within hw)
  have hfind : ComesTo known (fun _ => True) (list.findBranches mode) _ :=
    comesTo_collectBranches hbranch
  rw [branches_eq, hfind.1.fresh_remembered (hk mode list h), hfind.2, List.filterMap_map,
    List.mapM_map]
  rfl

/-- A branch is in order when it is for itself, and when the lists inside of it
are. -/
theorem Requests.branch_eq_ok (hk : top.Knows known) (h : top.Requests mode list)
    {within : Complex} (hw : within ∈ list.selectors) {mode' : ListMode}
    {chain : Chain (List Leaf)} :
    fresh (within.branch mode') = .ok chain ↔ within.decompose mode' = .ok chain ∧
      ∀ c ∈ within.components, ∀ leaf mode'' inner, c.leaf = .ok leaf →
        leaf.nested? = some (mode'', inner) → Answers (inner.branches mode'') := by
  have hrequest := (h.steady hk).2 within hw
  have hfound : ∀ c ∈ within.components, fresh c.request = .ok () ↔
      ∀ leaf mode'' inner, c.leaf = .ok leaf → leaf.nested? = some (mode'', inner) →
        Answers (inner.branches mode'') := fun c hc =>
    request_eq_ok fun leaf mode'' inner hl hn => (found h hw hc hl hn).steady_branches hk
  have hbranch : fresh (within.branch mode') = (within.decompose mode' >>= fun chain =>
      fresh (Component.requestAll within.components) >>= fun _ => .ok chain) := by
    have hdecompose : Steady known (fun _ => True)
        (liftExcept (within.decompose mode') : Lookup (Chain (List Leaf))) :=
      .liftExcept fun _ _ => trivial
    rw [Complex.branch, hdecompose.fresh_bind fun _ _ =>
      (steady_requestAll hrequest).bind fun _ _ => .pure _, Steady.fresh_liftExcept]
    exact bind_congr fun chain => (steady_requestAll hrequest).fresh_bind fun _ _ => .pure _
  simp only [hbranch, bind_eq_ok]
  constructor
  · rintro ⟨chain', hdecompose, _, hall, hc⟩
    obtain rfl := Except.ok.inj hc
    exact ⟨hdecompose, fun c hc => (hfound c hc).mp ((requestAll_eq_ok hrequest).mp hall c hc)⟩
  · rintro ⟨hdecompose, hnested⟩
    exact ⟨chain, hdecompose, (),
      (requestAll_eq_ok hrequest).mpr fun c hc => (hfound c hc).mpr (hnested c hc), rfl⟩

/-- The branches of a list are what branches written in it come to. -/
theorem Requests.exists_branch (hk : top.Knows known) (h : top.Requests mode list)
    {branches : List (Chain (List Leaf))} (hr : fresh (list.branches mode) = .ok branches) :
    ∀ chain ∈ branches, ∃ within ∈ list.selectors, fresh (within.branch mode) = .ok chain := by
  rw [h.fresh_branches hk] at hr
  split at hr
  · obtain rfl := Except.ok.inj hr
    intro chain hc
    obtain ⟨within, hw, hb⟩ := List.mem_filterMap.mp hc
    rcases hf : fresh (within.branch mode) with e | chain'
    · simp [hf, Except.toOption] at hb
    · exact ⟨within, hw, by simpa [hf, Except.toOption] using hb⟩
  · exact forall₂_exists_left (mapM_eq_ok.mp hr)

/-- The branches of a list are chains of what is written in it. -/
theorem Requests.mem_branches (hk : top.Knows known) (h : top.Requests mode list)
    {branches : List (Chain (List Leaf))} (hr : fresh (list.branches mode) = .ok branches) :
    ∀ chain ∈ branches, ∃ within ∈ list.selectors, within.decompose mode = .ok chain := by
  intro chain hc
  obtain ⟨within, hw, hb⟩ := h.exists_branch hk hr chain hc
  exact ⟨within, hw, ((h.branch_eq_ok hk hw).mp hb).1⟩

/-- The lists in the branches of a list are looked up for the same selector. -/
theorem Requests.nested (hk : top.Knows known) (h : top.Requests mode list)
    {branches : List (Chain (List Leaf))} (hr : fresh (list.branches mode) = .ok branches)
    {chain : Chain (List Leaf)} (hc : chain ∈ branches) {k : List Leaf} (hkc : k ∈ chain.compounds)
    {leaf : Leaf} (hl : leaf ∈ k) {mode' : ListMode} {inner : SelectorList}
    (hn : leaf.nested? = some (mode', inner)) :
    top.Requests mode' inner ∧ ∃ within ∈ list.selectors, ∃ c ∈ within.components,
      inner ∈ c.lists := by
  obtain ⟨within, hw, hd⟩ := h.mem_branches hk hr chain hc
  obtain ⟨c, hcw, hcl⟩ := (Complex.decompose_inv hd k hkc).2 leaf hl
  exact ⟨.found h hw hcw hcl hn, within, hw, c, hcw, by simp [c.lists_of_nested? hcl hn]⟩

/-- Nor do its chains. -/
theorem Requests.steady_load (hk : top.Knows known) (h : top.Requests mode list) (fuel : Nat) :
    Steady known (fun _ => True) (list.load fuel mode) := by
  induction fuel generalizing mode list with
  | zero => exact .pure []
  | succ fuel ih =>
    rw [load]
    refine (h.steady_branches hk).bind fun branches hr => ?_
    have hlink : ComesTo known (fun _ => True) (linkAll (load fuel) branches)
        (linkAll (fun mode inner => fresh (load fuel mode inner)) branches) := by
      refine comesTo_linkAll fun chain hc k hkc leaf hl mode' inner hn => ?_
      exact ⟨ih (h.nested hk hr hc hkc hl hn).1, rfl⟩
    exact hlink.1

/-- Deeper than lists are nested, nothing is to be found. -/
theorem Requests.fresh_load (hk : top.Knows known) (h : top.Requests mode list) {fuel : Nat}
    (hf : list.depth ≤ fuel) : fresh (list.load fuel mode) =
      fresh (list.branches mode) >>= linkAll fun mode inner => inner.resolve mode := by
  induction list using SelectorList.induct generalizing mode fuel with
  | h list ih =>
    rcases fuel with _ | fuel
    · obtain ⟨id, selectors⟩ := list
      simp [depth] at hf
    rw [load]
    refine (ComesTo.bind ⟨h.steady_branches hk, rfl⟩ fun branches hr => ?_).2
    refine comesTo_linkAll fun chain hc k hkc leaf hl mode' inner hn => ?_
    obtain ⟨hinner, within, hw, c, hcw, hi⟩ := h.nested hk hr hc hkc hl hn
    have hlt := depth_lt hw hcw hi
    refine ⟨hinner.steady_load hk fuel, ?_⟩
    rw [ih within hw c hcw inner hi hinner (by omega : inner.depth ≤ fuel), resolve,
      ih within hw c hcw inner hi hinner (Nat.le_refl _)]

/-- The chains of a list are put together from those of the lists inside. -/
theorem Requests.resolve_eq (hd : top.Distinct) (h : top.Requests mode list) :
    list.resolve mode =
      fresh (list.branches mode) >>= linkAll fun mode inner => inner.resolve mode := by
  obtain ⟨known, hk⟩ := hd.exists_knows
  exact h.fresh_load hk (Nat.le_refl _)

end SelectorList

end DomQuery.Selector
