import DomQuery.Proofs.Selector.Split

/-!
# Lists inside of lists

The argument of a component may hold a list, whose branches have components
again. `SelectorList.holders` finds the components with a list at any depth, and
`SelectorList.induct` is induction along that nesting.

* `holders_subset`: what is found in a list that was found, is found.
* `Component.leaf_inv`: the list of a leaf is the one of its component.
-/

namespace DomQuery.Selector

/-- The list in an argument. -/
def Argument.lists : Argument → List SelectorList
  | .selectors list | .nth _ _ (some list) => [list]
  | _ => []

/-- The list in the argument of a component. -/
def Component.lists : Component → List SelectorList
  | .pseudoClass _ (some argument) => argument.lists
  | _ => []

theorem SelectorList.sizeOf_lt_of_mem_lists {list : SelectorList} {c : Component}
    (h : list ∈ c.lists) : sizeOf list < sizeOf c := by
  rcases c with _ | _ | _ | _ | _ | ⟨name, _ | ⟨list⟩ | ⟨a, b, _ | list⟩ | _ | _⟩ | _
  all_goals simp only [Component.lists, Argument.lists, List.not_mem_nil, List.mem_singleton] at h
  all_goals
    subst h
    simp only [Component.pseudoClass.sizeOf_spec, Option.some.sizeOf_spec,
      Argument.selectors.sizeOf_spec, Argument.nth.sizeOf_spec]
    omega

theorem SelectorList.sizeOf_lt_of_component {list : SelectorList} {within : Complex} {c : Component}
    (hw : within ∈ list.selectors) (hc : c ∈ within.components) : sizeOf c < sizeOf list := by
  obtain ⟨id, selectors⟩ := list
  obtain ⟨components⟩ := within
  have := List.sizeOf_lt_of_mem hw
  have := List.sizeOf_lt_of_mem hc
  simp only [SelectorList.selectors, Complex.components, SelectorList.mk.sizeOf_spec,
    Complex.mk.sizeOf_spec] at *
  omega

/-- Induction along the nesting of lists. -/
theorem SelectorList.induct {motive : SelectorList → Prop}
    (h : ∀ list, (∀ within ∈ list.selectors, ∀ c ∈ within.components, ∀ inner ∈ c.lists,
      motive inner) → motive list) : ∀ list, motive list := by
  intro list
  refine h list fun within hw c hc inner hi => ?_
  have := sizeOf_lt_of_mem_lists hi
  have := sizeOf_lt_of_component hw hc
  exact induct h inner
termination_by list => sizeOf list

mutual

/-- The components with a list in their argument, each with that list: this
component, and those in the list. -/
def Component.holders : Component → List (Component × SelectorList)
  | .pseudoClass name (some argument) => argument.holders (.pseudoClass name (some argument))
  | _ => []

def Argument.holders (c : Component) : Argument → List (Component × SelectorList)
  | .selectors list | .nth _ _ (some list) => (c, list) :: list.holders
  | _ => []

/-- The components with a list in their argument, at any depth. -/
def SelectorList.holders : SelectorList → List (Component × SelectorList)
  | .mk _ selectors => Complex.holders selectors

def Complex.holders : List Complex → List (Component × SelectorList)
  | [] => []
  | .mk components :: rest => Component.holdersIn components ++ Complex.holders rest

def Component.holdersIn : List Component → List (Component × SelectorList)
  | [] => []
  | c :: rest => c.holders ++ Component.holdersIn rest

end

/-- The list and all lists in it, at any depth. -/
def SelectorList.allLists (list : SelectorList) : List SelectorList :=
  list :: list.holders.map Prod.snd

theorem Component.holders_eq (c : Component) :
    c.holders = c.lists.flatMap fun list => (c, list) :: list.holders := by
  rcases c with _ | _ | _ | _ | _ | ⟨name, _ | ⟨list⟩ | ⟨a, b, _ | list⟩ | _ | _⟩ | _
  all_goals simp [holders, lists, Argument.holders, Argument.lists]

theorem Component.holdersIn_eq (components : List Component) :
    holdersIn components = components.flatMap holders := by
  induction components with
  | nil => rfl
  | cons c rest ih => rw [holdersIn, ih, List.flatMap_cons]

theorem SelectorList.holders_eq (list : SelectorList) :
    list.holders = list.selectors.flatMap fun within => within.components.flatMap Component.holders := by
  obtain ⟨id, selectors⟩ := list
  rw [holders, SelectorList.selectors]
  induction selectors with
  | nil => rfl
  | cons within rest ih =>
    obtain ⟨components⟩ := within
    rw [Complex.holders, ih, Component.holdersIn_eq, List.flatMap_cons]
    rfl

theorem SelectorList.mem_holders {list inner : SelectorList} {c : Component} :
    (c, inner) ∈ list.holders ↔ ∃ within ∈ list.selectors, ∃ c' ∈ within.components,
      ∃ list' ∈ c'.lists, (c, inner) = (c', list') ∨ (c, inner) ∈ list'.holders := by
  simp only [holders_eq list, Component.holders_eq, List.mem_flatMap, List.mem_cons]

theorem SelectorList.mem_holders_of_mem {list inner : SelectorList} {within : Complex}
    {c : Component} (hw : within ∈ list.selectors) (hc : c ∈ within.components)
    (hi : inner ∈ c.lists) : (c, inner) ∈ list.holders :=
  mem_holders.mpr ⟨within, hw, c, hc, inner, hi, .inl rfl⟩

/-- What is found in a list that was found, is found. -/
theorem SelectorList.holders_subset {list inner : SelectorList} {c : Component}
    (h : (c, inner) ∈ list.holders) : inner.holders ⊆ list.holders := by
  induction list using SelectorList.induct with
  | h list ih =>
    obtain ⟨within, hw, c', hc, list', hl, h⟩ := mem_holders.mp h
    intro found hf
    refine mem_holders.mpr ⟨within, hw, c', hc, list', hl, .inr ?_⟩
    rcases h with h | h
    · obtain ⟨rfl, rfl⟩ : c = c' ∧ inner = list' := by simpa using h
      exact hf
    · exact ih within hw c' hc list' hl h hf

/-! ### Depth -/

theorem Component.depth_of_mem_lists {c : Component} {list : SelectorList} (h : list ∈ c.lists) :
    list.depth = c.depth := by
  rcases c with _ | _ | _ | _ | _ | ⟨name, _ | ⟨inner⟩ | ⟨a, b, _ | inner⟩ | _ | _⟩ | _
  all_goals simp only [lists, Argument.lists, List.not_mem_nil, List.mem_singleton] at h
  all_goals
    subst h
    rw [depth, Argument.depth]

theorem Component.depth_le_maxDepth {components : List Component} {c : Component}
    (h : c ∈ components) : c.depth ≤ maxDepth components := by
  induction components with
  | nil => cases h
  | cons c' rest ih =>
    rw [maxDepth]
    rcases List.mem_cons.mp h with rfl | h
    · exact Nat.le_max_left _ _
    · exact Nat.le_trans (ih h) (Nat.le_max_right _ _)

theorem Complex.maxDepth_le {selectors : List Complex} {within : Complex} (h : within ∈ selectors) :
    Component.maxDepth within.components ≤ maxDepth selectors := by
  induction selectors with
  | nil => cases h
  | cons within' rest ih =>
    obtain ⟨components⟩ := within'
    rw [maxDepth]
    rcases List.mem_cons.mp h with rfl | h
    · exact Nat.le_max_left _ _
    · exact Nat.le_trans (ih h) (Nat.le_max_right _ _)

theorem SelectorList.depth_lt {list inner : SelectorList} {within : Complex} {c : Component}
    (hw : within ∈ list.selectors) (hc : c ∈ within.components) (hi : inner ∈ c.lists) :
    inner.depth < list.depth := by
  obtain ⟨id, selectors⟩ := list
  have hcomponent := Component.depth_le_maxDepth hc
  have hwithin : Component.maxDepth within.components ≤ Complex.maxDepth selectors :=
    Complex.maxDepth_le hw
  rw [Component.depth_of_mem_lists hi, depth]
  omega

/-! ### Leaves -/

/-- There are no chains in the simple selector. -/
def Simple.IsBare (s : Simple) : Prop :=
  s.branches = [] ∧ ∀ form numbered, s ≠ .nth form (some numbered)

theorem isBare_of_readKeywordClass {component : Component} {name : String} {s : Simple}
    (h : readKeywordClass component name = .ok s) : s.IsBare := by
  unfold readKeywordClass at h
  repeat' split at h
  all_goals
    first
    | cases h; done
    | obtain rfl : _ = s := by simpa using h
      exact ⟨rfl, by simp [firstForm]⟩

theorem isBare_of_readWordsClass {component : Component} {name : String} {texts : List String}
    {s : Simple} (h : readWordsClass component name texts = .ok s) : s.IsBare := by
  unfold readWordsClass at h
  repeat' split at h
  all_goals
    first
    | cases h; done
    | obtain rfl : _ = s := by simpa using h
      exact ⟨rfl, by simp⟩

/-- The list of a leaf, also one that is never looked at. -/
def Leaf.list? : Leaf → Option SelectorList
  | .plain _ => none
  | .matchesAny list | .matchesNone list | .has list | .nth _ list | .host list
  | .hostContext list => some list

theorem Leaf.list?_of_nested? {leaf : Leaf} {mode : ListMode} {list : SelectorList}
    (h : leaf.nested? = some (mode, list)) : leaf.list? = some list := by
  cases leaf
  case has inner =>
    rw [nested?] at h
    split at h
    · cases h
    · simp_all [list?]
  all_goals simp_all [nested?, list?]

/-- A leaf has no list at all, or it has the list of its component. -/
theorem Component.leaf_inv {c : Component} {leaf : Leaf} (h : c.leaf = .ok leaf) :
    (∃ s, leaf = .plain s ∧ s.IsBare) ∨ ∃ list, leaf.list? = some list ∧ c.lists = [list] := by
  have hwords : ∀ {component name texts}, Leaf.plain <$> readWordsClass component name texts =
      .ok leaf → ∃ s, leaf = .plain s ∧ s.IsBare := by
    intro component name texts h
    obtain ⟨s, hs, rfl⟩ := map_eq_ok.mp h
    exact ⟨s, rfl, isBare_of_readWordsClass hs⟩
  have hbare : ∀ {s : Simple}, s.branches = [] → (∀ form numbered, s ≠ .nth form (some numbered)) →
      (.ok (.plain s) : Except SelectorError Leaf) = .ok leaf →
      ∃ s, leaf = .plain s ∧ s.IsBare := by
    rintro s hb hn ⟨⟩
    exact ⟨s, rfl, hb, hn⟩
  rcases c with _ | _ | _ | _ | a | ⟨name, _ | ⟨list⟩ | ⟨a, b, _ | list⟩ | texts | text⟩ | ⟨name, argument⟩
  case pseudoClass.none =>
    obtain ⟨s, hs, rfl⟩ := map_eq_ok.mp h
    exact .inl ⟨s, rfl, isBare_of_readKeywordClass hs⟩
  case pseudoClass.some.selectors =>
    rw [Component.leaf, Argument.leaf.eq_def] at h
    simp only at h
    split at h
    case h_7 => exact .inl (hwords h)
    all_goals
      cases h
      exact .inr ⟨list, rfl, rfl⟩
  case pseudoClass.some.nth.some =>
    cases h
    exact .inr ⟨list, rfl, rfl⟩
  case pseudoClass.some.words => exact .inl (hwords h)
  case pseudoClass.some.raw => exact .inl (hwords h)
  case attr =>
    rw [Component.leaf] at h
    split at h
    · exact .inl (hbare rfl (by simp) h)
    · cases h
  case pseudoElement =>
    rw [Component.leaf] at h
    split at h
    · exact .inl (hbare rfl (by simp) h)
    · cases h
  all_goals exact .inl (hbare rfl (by simp) h)

/-- The list that a leaf looks up is the one of its component. -/
theorem Component.lists_of_nested? {c : Component} {leaf : Leaf} {mode : ListMode}
    {list : SelectorList} (h : c.leaf = .ok leaf) (hn : leaf.nested? = some (mode, list)) :
    c.lists = [list] := by
  rcases leaf_inv h with ⟨s, rfl, -⟩ | ⟨list', hl, hc⟩
  · cases hn
  · obtain rfl : list' = list := by simpa [hl] using Leaf.list?_of_nested? hn
    exact hc

theorem Component.request_of_nested? {c : Component} {leaf : Leaf} {mode : ListMode}
    {list : SelectorList} (h : c.leaf = .ok leaf) (hn : leaf.nested? = some (mode, list)) :
    c.request = discard (list.branches mode) := by
  have hm : c.nestedMode? = some mode := by
    rw [nestedMode?, h]
    simp [hn]
  have hl := lists_of_nested? h hn
  rcases c with _ | _ | _ | _ | _ | ⟨name, _ | ⟨inner⟩ | ⟨a, b, _ | inner⟩ | _ | _⟩ | _
  all_goals simp only [lists, Argument.lists, List.cons.injEq, and_true, reduceCtorEq] at hl
  all_goals
    subst hl
    simp only [request, hm, Argument.request]

theorem Component.request_of_not_nested {c : Component}
    (h : ∀ leaf, c.leaf = .ok leaf → leaf.nested? = none) : c.request = pure () := by
  have hm : c.nestedMode? = none := by
    rw [nestedMode?]
    split
    · rename_i leaf hl
      rw [h leaf hl]
      rfl
    · rfl
  rcases c with _ | _ | _ | _ | _ | ⟨name, _ | ⟨inner⟩ | ⟨a, b, _ | inner⟩ | _ | _⟩ | _
  all_goals simp only [request, hm, Argument.request]

/-! ### Branches -/

theorem Leaf.mem_sortCompound {k : List Leaf} {leaf : Leaf} : leaf ∈ sortCompound k ↔ leaf ∈ k :=
  (List.mergeSort_perm k _).mem_iff

theorem Leaf.sortCompound_ne_nil {k : List Leaf} (h : k ≠ []) : sortCompound k ≠ [] := by
  intro hn
  have := (List.mergeSort_perm k fun a b => decide (a.priority ≤ b.priority)).length_eq
  rw [show k.mergeSort _ = sortCompound k from rfl, hn] at this
  exact h (List.length_eq_zero_iff.mp this.symm)

/-- A branch consists of the leaves of its components. -/
theorem Complex.decompose_inv {mode : ListMode} {within : Complex} {chain : Chain (List Leaf)}
    (h : within.decompose mode = .ok chain) : ∀ k ∈ chain.compounds, k ≠ [] ∧
      ∀ leaf ∈ k, ∃ c ∈ within.components, c.leaf = .ok leaf := by
  obtain ⟨shape, hs, h⟩ := bind_eq_ok.mp h
  obtain rfl := pure_eq_ok.mp h
  intro _ hsorted
  obtain ⟨k, hk, rfl⟩ := Chain.mem_compounds_map.mp hsorted
  obtain ⟨hne, hparts⟩ := Chain.split_inv hs k hk
  refine ⟨Leaf.sortCompound_ne_nil hne, fun leaf hl => ?_⟩
  obtain ⟨c, hc, hpart⟩ := List.mem_map.mp (hparts leaf (Leaf.mem_sortCompound.mp hl))
  refine ⟨c, hc, ?_⟩
  unfold Component.part at hpart
  split at hpart
  · cases hpart
  · exact Sum.inr.inj hpart

end DomQuery.Selector
