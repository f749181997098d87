import DomQuery.Proofs.Selector.Denoted

/-!
# One list in the place of another

What is matched are the chains of lists. So where a list comes to the same chains as
another one, it can stand in its place, and the selector around it comes to the same
chains as well, in whatever way its branches are read. Numbers of lists may differ,
for the chains keep them only to tell the lists that filter siblings apart.

* `Component.partOf_replaced`: the simple selector of a component with another list.
* `Distinct.replaces`: lists whose components come to the same simple selectors.
* `Distinct.replaces_renumber`: a list with other numbers.
-/

namespace DomQuery.Selector

variable {f : ListId → ListId}

/-! ### Which selectors contain `:has()` -/

theorem Component.anyContainsHas_eq (components : List Component) :
    anyContainsHas components = components.any containsHas := by
  induction components with
  | nil => rfl
  | cons c rest ih => rw [anyContainsHas, ih, List.any_cons]

theorem SelectorList.containsHas_eq (list : SelectorList) : list.containsHas =
    list.selectors.any fun within => within.components.any Component.containsHas := by
  obtain ⟨id, selectors⟩ := list
  rw [containsHas, SelectorList.selectors]
  induction selectors with
  | nil => rfl
  | cons within rest ih =>
    obtain ⟨components⟩ := within
    rw [Complex.anyContainsHas, ih, Component.anyContainsHas_eq, List.any_cons]
    rfl

theorem SelectorList.containsHas_renumber (list : SelectorList) :
    (list.renumber f).containsHas = list.containsHas := by
  induction list using SelectorList.induct with
  | h list ih =>
    have hcomponent : ∀ within ∈ list.selectors, ∀ c ∈ within.components,
        (c.renumber f).containsHas = c.containsHas := by
      intro within hw c hc
      have hinner := ih within hw c hc
      rcases c with _ | _ | _ | _ | _ | ⟨name, _ | ⟨inner⟩ | ⟨a, b, _ | inner⟩ | _ | _⟩ | _
      all_goals
        simp only [Component.lists, Argument.lists, List.forall_mem_singleton] at hinner
        first
        | rfl
        | simp only [Component.renumber, Argument.renumber?, Component.containsHas,
            Argument.anyContainsHas, hinner]
    rw [containsHas_eq, containsHas_eq list, Bool.eq_iff_iff]
    simp only [List.any_eq_true, selectors_renumber, List.mem_map, exists_exists_and_eq_and,
      Complex.components_renumber]
    refine exists_congr fun within => and_congr_right fun hw => exists_congr fun c => ?_
    exact and_congr_right fun hc => by rw [hcomponent within hw c hc]

/-! ### Lists inside of a list with distinct numbers -/

theorem SelectorList.Distinct.inner {list inner : SelectorList} {within : Complex} {c : Component}
    (hd : list.Distinct) (hw : within ∈ list.selectors) (hc : c ∈ within.components)
    (hi : inner ∈ c.lists) : inner.Distinct := by
  change list.ids.Nodup at hd
  rw [SelectorList.ids_eq] at hd
  have hwithin := (List.nodup_flatMap.mp (List.nodup_cons.mp hd).2).1 within hw
  have hcomponent := (List.nodup_flatMap.mp hwithin).1 c hc
  exact (List.nodup_flatMap.mp hcomponent).1 inner hi

theorem SelectorList.Distinct.renumber {list : SelectorList} (hd : list.Distinct)
    (hf : Function.Injective f) : (list.renumber f).Distinct := by
  change (list.renumber f).ids.Nodup
  rw [ids_renumber]
  exact List.Nodup.map hf hd

/-! ### Components -/

/-- In whatever way it is read, `list'` comes to the chains of `list`, numbered by `f`. -/
structure SelectorList.Replaces (f : ListId → ListId) (list list' : SelectorList) : Prop where
  id_eq : list'.id = f list.id
  resolve_eq : ∀ mode, (mode = .relative → list.containsHas = false ∧ list'.containsHas = false) →
    (list'.resolve mode).toOption = (list.resolve mode).toOption.map (renumberBranches f)

theorem partOf_inr {σ τ : Type} {ρ : σ → τ} {x : Except SelectorError σ}
    {x' : Except SelectorError τ} (h : x'.toOption = x.toOption.map ρ) :
    PartOf ρ (.inr x) (.inr x') := by
  rcases x with e | s
  · rcases x' with e' | s'
    · exact .faulty e e'
    · cases h
  · rcases x' with e' | s'
    · cases h
    · obtain rfl : s' = ρ s := Option.some.inj h
      exact .simple s

theorem toOption_map {ε α β : Type} (g : α → β) (x : Except ε α) :
    (g <$> x).toOption = x.toOption.map g := by
  rcases x with e | a
  · rfl
  · rfl

theorem toOption_map_comm {x x' : Except SelectorError (List (Chain Compound))}
    {g g' : List (Chain Compound) → Simple}
    (hx : x'.toOption = x.toOption.map (renumberBranches f))
    (hg : ∀ branches, g' (renumberBranches f branches) = (g branches).renumber f) :
    PartOf (Simple.renumber f) (.inr (g <$> x)) (.inr (g' <$> x')) := by
  refine partOf_inr ?_
  rw [toOption_map, toOption_map, hx, Option.map_map, Option.map_map]
  congr 1
  exact funext hg

/-- Faults apart, a pseudo-class with words does not know its component. -/
theorem toOption_readWordsClass (c c' : Component) (name : String) (texts : List String) :
    (readWordsClass c' name texts).toOption = (readWordsClass c name texts).toOption := by
  unfold readWordsClass
  split
  · rfl
  · rfl
  · split
    · rfl
    · rfl

theorem bind_plain (x : Except SelectorError Simple) :
    (Leaf.plain <$> x) >>= Leaf.resolve = x := by
  rcases x with e | s
  · rfl
  · rfl

namespace Component

/-- A component without lists does not depend on numbers. -/
theorem partOf_of_lists_nil {c : Component} (h : c.lists = []) :
    PartOf (Simple.renumber f) c.simplePart c.simplePart := by
  have hpart : PartOf (Simple.renumber f) (.inr c.simple) (.inr c.simple) := by
    refine partOf_inr ?_
    rcases hs : c.simple with e | s
    · rfl
    · obtain ⟨leaf, hl, hs⟩ := bind_eq_ok.mp hs
      rcases c.leaf_inv hl with ⟨s', rfl, hbare⟩ | ⟨list, -, hlist⟩
      · obtain rfl : s' = s := pure_eq_ok.mp hs
        exact congrArg some hbare.renumber_eq.symm
      · rw [h] at hlist
        cases hlist
  cases c
  case combinator c => exact .combinator c
  all_goals exact hpart

/-- A component with another list that comes to the same chains. Whether it holds
`:has()` counts in the argument of `:has()` only. -/
theorem partOf_replaced {c : Component} {list list' : SelectorList} (hlist : c.lists = [list])
    (h : list.Replaces f list')
    (hhas : ∀ argument, c = .pseudoClass "has" argument → list'.containsHas = list.containsHas) :
    PartOf (Simple.renumber f) c.simplePart (c.withLists [list']).simplePart := by
  have hmap : ∀ {mode : ListMode} {g g' : List (Chain Compound) → Simple},
      mode ≠ .relative → (∀ branches, g' (renumberBranches f branches) = (g branches).renumber f) →
      PartOf (Simple.renumber f) (.inr (g <$> list.resolve mode)) (.inr (g' <$> list'.resolve mode)) :=
    fun hmode hg => toOption_map_comm (h.resolve_eq _ fun he => absurd he hmode) hg
  have hwords : ∀ {c c' : Component} {name : String} {texts : List String},
      PartOf (Simple.renumber f)
        (.inr ((Leaf.plain <$> readWordsClass c name texts) >>= Leaf.resolve))
        (.inr ((Leaf.plain <$> readWordsClass c' name texts) >>= Leaf.resolve)) := by
    intro c c' name texts
    rw [bind_plain, bind_plain]
    refine partOf_inr ?_
    rw [toOption_readWordsClass c c']
    rcases hs : readWordsClass c name texts with e | s
    · rfl
    · exact congrArg some (isBare_of_readWordsClass hs).renumber_eq.symm
  rcases c with _ | _ | _ | _ | _ | ⟨name, _ | ⟨inner⟩ | ⟨a, b, _ | inner⟩ | _ | _⟩ | _
  case pseudoClass.some.selectors =>
    obtain rfl : inner = list := List.singleton_inj.mp hlist
    simp only [withLists, simplePart, simple, leaf]
    rw [Argument.leaf.eq_def, Argument.leaf.eq_def]
    dsimp only
    split
    case h_4 =>
      -- the list of `:has()` is looked at only if there is no other `:has()` in it
      have hhas := hhas _ rfl
      change PartOf _ (.inr (Leaf.simple _ (.has inner))) (.inr (Leaf.simple _ (.has list')))
      rw [Leaf.simple, Leaf.simple, hhas]
      split
      · exact .simple Simple.never
      · rename_i hnone
        have hnone : inner.containsHas = false := by simpa using hnone
        exact toOption_map_comm (h.resolve_eq _ fun _ => ⟨hnone, hhas.trans hnone⟩) fun _ => by
          simp [Simple.renumber]
    case h_7 => exact hwords
    all_goals exact hmap (by decide) fun branches => by simp [Simple.renumber, Simple.renumberChains?]
  case pseudoClass.some.nth.some =>
    obtain rfl : inner = list := List.singleton_inj.mp hlist
    refine hmap (by decide) fun branches => ?_
    rw [Simple.renumber_nth, h.id_eq]
  all_goals cases hlist

end Component

/-! ### Lists -/

/-- The components of one branch come to the simple selectors of the other one. -/
def Complex.PartsOf (f : ListId → ListId) (within within' : Complex) : Prop :=
  List.Forall₂ (fun c c' => PartOf (Simple.renumber f) c.simplePart c'.simplePart)
    within.components within'.components

theorem Complex.PartsOf.chain?_eq {within within' : Complex} (h : within.PartsOf f within')
    (mode : ListMode) :
    within'.chain? mode = (within.chain? mode).map (Chain.map (Compound.renumber f)) := by
  have hparts : List.Forall₂ (PartOf (Simple.renumber f)) (within.components.map Component.simplePart)
      (within'.components.map Component.simplePart) :=
    List.forall₂_map_left_iff.mpr (List.forall₂_map_right_iff.mpr h)
  have hsort : ∀ k : Compound, Simple.sortCompound (k.map (Simple.renumber f)) =
      Compound.renumber f (Simple.sortCompound k) := fun k =>
    (List.map_mergeSort fun s _ s' _ => by simp only [Simple.priority_renumber]).symm
  rw [chain?, chain?, Chain.toOption_split within hparts, Option.map_map, Option.map_map]
  congr 1
  funext chain
  simp only [Function.comp_apply, Chain.map_map, hsort]

theorem collectChains_map {g : Chain Compound → Chain Compound} (mode : ListMode)
    (branches : List (Option (Chain Compound))) :
    collectChains mode (branches.map (Option.map g)) =
      (collectChains mode branches).map (List.map g) := by
  unfold collectChains
  split
  · simp only [List.filterMap_map, Option.map_some, List.map_filterMap, Function.comp_def]
  · induction branches with
    | nil => rfl
    | cons branch rest ih =>
      rw [List.map_cons, List.mapM_cons, List.mapM_cons, ih]
      rcases branch with _ | chain
      · rfl
      · rcases rest.mapM fun branch => branch with _ | chains
        · rfl
        · rfl

namespace SelectorList.Distinct

variable {list list' : SelectorList}

/-- Lists come to the same chains if their components come to the same simple
selectors. -/
theorem replaces (hd : list.Distinct) (hd' : list'.Distinct) (hid : list'.id = f list.id)
    (h : List.Forall₂ (Complex.PartsOf f) list.selectors list'.selectors) : list.Replaces f list' where
  id_eq := hid
  resolve_eq mode hmode := by
    rw [hd.toOption_resolve fun hm => (hmode hm).1, hd'.toOption_resolve fun hm => (hmode hm).2]
    have hchains : list'.selectors.map (Complex.chain? mode) =
        (list.selectors.map (Complex.chain? mode)).map
          (Option.map (Chain.map (Compound.renumber f))) := by
      rw [List.map_map, eq_comm, ← List.forall₂_eq_eq_eq, List.forall₂_map_left_iff,
        List.forall₂_map_right_iff]
      exact h.imp fun _ _ hw => (hw.chain?_eq mode).symm
    rw [hchains, collectChains_map]
    rfl

/-- A list with other numbers comes to its chains with other numbers. -/
theorem replaces_renumber (hd : list.Distinct) (hf : Function.Injective f) :
    list.Replaces f (list.renumber f) := by
  induction list using SelectorList.induct with
  | h list ih =>
    refine hd.replaces (hd.renumber hf) (by simp) ?_
    rw [selectors_renumber, List.forall₂_map_right_iff]
    refine List.forall₂_same.mpr fun within hw => ?_
    rw [Complex.PartsOf, Complex.components_renumber, List.forall₂_map_right_iff]
    refine List.forall₂_same.mpr fun c hc => ?_
    rcases c.lists_cases with hlists | ⟨inner, hlists⟩
    · rw [c.renumber_of_lists_nil hlists]
      exact c.partOf_of_lists_nil hlists
    · have hinner : inner ∈ c.lists := by simp [hlists]
      rw [← c.withLists_map, hlists]
      exact c.partOf_replaced hlists (ih within hw c hc inner hinner (hd.inner hw hc hinner))
        fun _ _ => inner.containsHas_renumber

end SelectorList.Distinct

end DomQuery.Selector
