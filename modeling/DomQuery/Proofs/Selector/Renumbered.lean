import DomQuery.Proofs.Selector.Validated
import Mathlib.Logic.Equiv.Fintype

/-!
# Other numbers

The numbers of lists are given by their order in the text. So they change when a
list is written somewhere else, or when one before it is left out, and nothing
should depend on them. `SelectorList.renumber` changes the numbers of a list and of
all lists in it, and `SelectorList.unnumbered` forgets them.

* `SelectorList.exists_renumber`: selectors that differ in their numbers alone are
  taken to each other by a permutation of the numbers.
-/

namespace DomQuery.Selector

mutual

/-- The component with other numbers for its lists. -/
def Component.renumber (f : ListId → ListId) : Component → Component
  | .pseudoClass name argument => .pseudoClass name (Argument.renumber? f argument)
  | c => c

def Argument.renumber? (f : ListId → ListId) : Option Argument → Option Argument
  | some (.selectors list) => some (.selectors (list.renumber f))
  | some (.nth a b (some list)) => some (.nth a b (some (list.renumber f)))
  | argument => argument

/-- The list with other numbers, for itself and for all lists in it. -/
def SelectorList.renumber (f : ListId → ListId) : SelectorList → SelectorList
  | .mk id selectors => .mk (f id) (Complex.renumberAll f selectors)

def Complex.renumberAll (f : ListId → ListId) : List Complex → List Complex
  | [] => []
  | .mk components :: rest =>
    .mk (Component.renumberAll f components) :: Complex.renumberAll f rest

def Component.renumberAll (f : ListId → ListId) : List Component → List Component
  | [] => []
  | c :: rest => c.renumber f :: Component.renumberAll f rest

end

/-- The complex selector with other numbers for its lists. -/
def Complex.renumber (f : ListId → ListId) (within : Complex) : Complex :=
  .mk (within.components.map (Component.renumber f))

variable {f g : ListId → ListId}

theorem Component.renumberAll_eq (f : ListId → ListId) (components : List Component) :
    renumberAll f components = components.map (renumber f) := by
  induction components with
  | nil => rfl
  | cons c rest ih => rw [renumberAll, ih, List.map_cons]

theorem Complex.renumberAll_eq (f : ListId → ListId) (selectors : List Complex) :
    renumberAll f selectors = selectors.map (renumber f) := by
  induction selectors with
  | nil => rfl
  | cons within rest ih =>
    obtain ⟨components⟩ := within
    rw [renumberAll, ih, Component.renumberAll_eq, List.map_cons]
    rfl

@[simp]
theorem SelectorList.renumber_mk (id : ListId) (selectors : List Complex) :
    (mk id selectors).renumber f = mk (f id) (selectors.map (Complex.renumber f)) := by
  rw [renumber, Complex.renumberAll_eq]

@[simp]
theorem Complex.components_renumber (within : Complex) :
    (within.renumber f).components = within.components.map (Component.renumber f) :=
  rfl

@[simp]
theorem SelectorList.id_renumber (list : SelectorList) : (list.renumber f).id = f list.id := by
  obtain ⟨id, selectors⟩ := list
  rfl

@[simp]
theorem SelectorList.selectors_renumber (list : SelectorList) :
    (list.renumber f).selectors = list.selectors.map (Complex.renumber f) := by
  obtain ⟨id, selectors⟩ := list
  rw [renumber_mk]
  rfl

/-- There is one list in an argument at most. -/
theorem Component.lists_cases (c : Component) : c.lists = [] ∨ ∃ list, c.lists = [list] := by
  rcases c with _ | _ | _ | _ | _ | ⟨name, _ | ⟨list⟩ | ⟨a, b, _ | list⟩ | _ | _⟩ | _
  all_goals simp [lists, Argument.lists]

theorem Component.lists_renumber (c : Component) :
    (c.renumber f).lists = c.lists.map (SelectorList.renumber f) := by
  rcases c with _ | _ | _ | _ | _ | ⟨name, _ | ⟨list⟩ | ⟨a, b, _ | list⟩ | _ | _⟩ | _
  all_goals rfl

/-- A component without lists has no numbers. -/
theorem Component.renumber_of_lists_nil {c : Component} (h : c.lists = []) : c.renumber f = c := by
  rcases c with _ | _ | _ | _ | _ | ⟨name, _ | ⟨list⟩ | ⟨a, b, _ | list⟩ | _ | _⟩ | _
  all_goals first | rfl | cases h

theorem Component.renumber_renumber {c : Component}
    (h : ∀ list ∈ c.lists, (list.renumber f).renumber g = list.renumber (g ∘ f)) :
    (c.renumber f).renumber g = c.renumber (g ∘ f) := by
  rcases c with _ | _ | _ | _ | _ | ⟨name, _ | ⟨list⟩ | ⟨a, b, _ | list⟩ | _ | _⟩ | _
  all_goals
    simp only [lists, Argument.lists, List.forall_mem_singleton] at h
    first
    | rfl
    | simp only [renumber, Argument.renumber?, h]

theorem SelectorList.renumber_renumber (list : SelectorList) :
    (list.renumber f).renumber g = list.renumber (g ∘ f) := by
  induction list using SelectorList.induct with
  | h list ih =>
    obtain ⟨id, selectors⟩ := list
    simp only [renumber_mk, List.map_map, Function.comp_apply, mk.injEq, true_and]
    refine List.map_congr_left fun within hw => ?_
    simp only [Function.comp_apply, Complex.renumber, Complex.components, List.map_map, Complex.mk.injEq]
    exact List.map_congr_left fun c hc => Component.renumber_renumber (ih within hw c hc)

/-! ### The numbers in use -/

/-- There is always another number. -/
instance : Infinite ListId :=
  Infinite.of_injective ListId.mk fun _ _ h => ListId.mk.inj h

/-- The numbers of a list and of the lists in it, in the order of the text. -/
def SelectorList.ids (list : SelectorList) : List ListId :=
  list.allLists.map SelectorList.id

/-- The numbers of the lists in a component. -/
def Component.ids (c : Component) : List ListId :=
  c.lists.flatMap SelectorList.ids

/-- The numbers of the lists in a complex selector. -/
def Complex.ids (within : Complex) : List ListId :=
  within.components.flatMap Component.ids

theorem SelectorList.ids_eq (list : SelectorList) :
    list.ids = list.id :: list.selectors.flatMap Complex.ids := by
  have hcomponent : ∀ c : Component, c.holders.map (fun holder => holder.2.id) = c.ids := fun c => by
    rw [Component.holders_eq, List.map_flatMap, Component.ids]
    refine List.flatMap_congr fun inner _ => ?_
    simp only [ids, allLists, List.map_cons, List.map_map, Function.comp_def]
  simp only [ids, allLists, List.map_cons, List.map_map, holders_eq list, List.map_flatMap,
    Function.comp_def, hcomponent]
  rfl

theorem SelectorList.ids_renumber (list : SelectorList) :
    (list.renumber f).ids = list.ids.map f := by
  induction list using SelectorList.induct with
  | h list ih =>
    rw [ids_eq, ids_eq list]
    simp only [id_renumber, selectors_renumber, List.flatMap_map, List.map_cons, List.map_flatMap,
      List.cons.injEq, true_and]
    refine List.flatMap_congr fun within hw => ?_
    simp only [Complex.ids, Complex.components_renumber, List.flatMap_map, List.map_flatMap,
      Component.ids, Component.lists_renumber]
    exact List.flatMap_congr fun c hc => List.flatMap_congr fun inner hi => ih within hw c hc inner hi

theorem Component.ids_renumber (c : Component) : (c.renumber f).ids = c.ids.map f := by
  simp only [ids, lists_renumber, List.flatMap_map, List.map_flatMap, SelectorList.ids_renumber]

theorem Complex.ids_renumber (within : Complex) : (within.renumber f).ids = within.ids.map f := by
  simp only [ids, components_renumber, List.flatMap_map, List.map_flatMap, Component.ids_renumber]

/-! ### Selectors that differ in their numbers alone -/

/-- The list without its numbers. -/
def SelectorList.unnumbered (list : SelectorList) : SelectorList :=
  list.renumber fun _ => ⟨0⟩

theorem SelectorList.unnumbered_renumber (list : SelectorList) :
    (list.renumber f).unnumbered = list.unnumbered :=
  renumber_renumber list

section Lists

variable {α β γ : Type}

/-- Lists that are put together from parts of equal lengths are the same only if
their parts are. -/
theorem forall₂_of_flatMap_eq {R : α → β → Prop} {k : α → List γ} {k' : β → List γ} {xs : List α}
    {ys : List β} (h : List.Forall₂ R xs ys) (hlength : ∀ x y, R x y → (k x).length = (k' y).length)
    (heq : xs.flatMap k = ys.flatMap k') : List.Forall₂ (fun x y => R x y ∧ k x = k' y) xs ys := by
  induction h with
  | nil => exact .nil
  | cons hxy _ ih =>
    rw [List.flatMap_cons, List.flatMap_cons] at heq
    obtain ⟨hhead, htail⟩ := List.append_inj heq (hlength _ _ hxy)
    exact .cons ⟨hxy, hhead⟩ (ih htail)

theorem forall₂_of_map_eq {k : α → γ} {k' : β → γ} {xs : List α} {ys : List β}
    (h : xs.map k = ys.map k') : List.Forall₂ (fun x y => k x = k' y) xs ys := by
  induction xs generalizing ys with
  | nil =>
    obtain rfl := List.map_eq_nil_iff.mp h.symm
    exact .nil
  | cons x xs ih =>
    obtain ⟨y, ys, rfl, hy, hys⟩ := List.map_eq_cons_iff.mp h.symm
    exact .cons hy.symm (ih hys.symm)

end Lists

/-- The component with another list in its argument. -/
def Component.withLists : Component → List SelectorList → Component
  | .pseudoClass name (some (.selectors _)), [list] => .pseudoClass name (some (.selectors list))
  | .pseudoClass name (some (.nth a b (some _))), [list] =>
    .pseudoClass name (some (.nth a b (some list)))
  | c, _ => c

theorem Component.withLists_renumber (c : Component) :
    (c.renumber g).withLists (c.lists.map (SelectorList.renumber f)) = c.renumber f := by
  rcases c with _ | _ | _ | _ | _ | ⟨name, _ | ⟨list⟩ | ⟨a, b, _ | list⟩ | _ | _⟩ | _
  all_goals rfl

theorem Component.withLists_map (c : Component) :
    c.withLists (c.lists.map (SelectorList.renumber f)) = c.renumber f := by
  rcases c with _ | _ | _ | _ | _ | ⟨name, _ | ⟨list⟩ | ⟨a, b, _ | list⟩ | _ | _⟩ | _
  all_goals rfl

theorem Component.withLists_lists (c : Component) : (c.renumber f).withLists c.lists = c := by
  rcases c with _ | _ | _ | _ | _ | ⟨name, _ | ⟨list⟩ | ⟨a, b, _ | list⟩ | _ | _⟩ | _
  all_goals rfl

theorem Component.renumber_eq {c c' : Component}
    (h : c.renumber (fun _ => ⟨0⟩) = c'.renumber fun _ => ⟨0⟩) (hids : c.ids.map f = c'.ids)
    (hlists : ∀ list ∈ c.lists, ∀ list', list.unnumbered = list'.unnumbered →
      list.ids.map f = list'.ids → list.renumber f = list') : c.renumber f = c' := by
  have hunnumbered : c.lists.map SelectorList.unnumbered = c'.lists.map SelectorList.unnumbered := by
    have := congrArg Component.lists h
    rwa [lists_renumber, lists_renumber] at this
  rw [ids, List.map_flatMap] at hids
  have hinner := forall₂_of_flatMap_eq (forall₂_of_map_eq hunnumbered) (fun list list' hl => by
    simpa [SelectorList.unnumbered, SelectorList.ids_renumber] using
      congrArg (fun list => list.ids.length) hl) hids
  have hmap : c.lists.map (SelectorList.renumber f) = c'.lists := by
    rw [← List.forall₂_eq_eq_eq, List.forall₂_map_left_iff]
    refine ((List.forall₂_and_left _ _).mpr ⟨fun _ hl => hl, hinner⟩).imp ?_
    rintro list list' ⟨hl, hnumbers, hids⟩
    exact hlists list hl list' hnumbers hids
  rw [← withLists_renumber (g := fun _ => ⟨0⟩), h, hmap, withLists_lists]

/-- What differs in its numbers alone is taken to each other by what takes the
numbers to each other. -/
theorem SelectorList.renumber_eq {list list' : SelectorList} (h : list.unnumbered = list'.unnumbered)
    (hids : list.ids.map f = list'.ids) : list.renumber f = list' := by
  induction list using SelectorList.induct generalizing list' with
  | h list ih =>
    obtain ⟨id, selectors⟩ := list
    obtain ⟨id', selectors'⟩ := list'
    simp only [unnumbered, renumber_mk, mk.injEq, true_and] at h
    rw [ids_eq, ids_eq, List.map_cons, List.cons.injEq, List.map_flatMap] at hids
    obtain ⟨hid, hids⟩ := hids
    have hselectors := forall₂_of_flatMap_eq (forall₂_of_map_eq h) (fun within within' hw => by
      simpa [Complex.ids_renumber] using congrArg (fun w => w.ids.length) hw) hids
    rw [renumber_mk, show f id = id' from hid, mk.injEq]
    refine ⟨rfl, ?_⟩
    rw [← List.forall₂_eq_eq_eq, List.forall₂_map_left_iff]
    refine ((List.forall₂_and_left _ _).mpr ⟨fun _ hw => hw, hselectors⟩).imp ?_
    rintro within within' ⟨hw, hwithin, hids⟩
    rw [Complex.ids, List.map_flatMap] at hids
    have hcomponents := forall₂_of_flatMap_eq (forall₂_of_map_eq (Complex.mk.inj hwithin))
      (fun c c' hc => by simpa [Component.ids_renumber] using congrArg (fun c => c.ids.length) hc)
      hids
    obtain ⟨components'⟩ := within'
    rw [Complex.renumber, Complex.mk.injEq, ← List.forall₂_eq_eq_eq, List.forall₂_map_left_iff]
    refine ((List.forall₂_and_left _ _).mpr ⟨fun _ hc => hc, hcomponents⟩).imp ?_
    rintro c c' ⟨hc, hcomponent, hids⟩
    exact Component.renumber_eq hcomponent hids fun inner hi inner' => ih within hw c hc inner hi

/-- Selectors that differ in their numbers alone are taken to each other by a
permutation of the numbers. -/
theorem SelectorList.exists_renumber {list list' : SelectorList} (hd : list.Distinct)
    (hd' : list'.Distinct) (h : list.unnumbered = list'.unnumbered) :
    ∃ g : Equiv.Perm ListId, list.renumber g = list' := by
  have hlength : list.ids.length = list'.ids.length := by
    simpa [unnumbered, ids_renumber] using congrArg (fun list => list.ids.length) h
  obtain ⟨g, hg⟩ := Equiv.Perm.exists_extending_pair list.ids.get
    (fun i => list'.ids.get (i.cast hlength)) (List.nodup_iff_injective_get.mp hd)
    ((List.nodup_iff_injective_get.mp hd').comp (Fin.cast_injective hlength))
  refine ⟨g, renumber_eq h (List.ext_getElem (by simpa using hlength) fun i hi _ => ?_)⟩
  rw [List.getElem_map]
  exact hg ⟨i, by simpa using hi⟩

/-! ### Simple selectors -/

namespace Simple

mutual

/-- The simple selector with other numbers for the lists that filter siblings. -/
def renumber (f : ListId → ListId) : Simple → Simple
  | .matchesAny branches => .matchesAny (renumberChains f branches)
  | .matchesNone branches => .matchesNone (renumberChains f branches)
  | .has branches => .has (renumberChains f branches)
  | .nth form of => .nth form (renumberFilter f of)
  | .host compounds => .host (renumberChains? f compounds)
  | .hostContext compounds => .hostContext (renumberChains f compounds)
  | s => s

def renumberCompound (f : ListId → ListId) : List Simple → List Simple
  | [] => []
  | s :: rest => renumber f s :: renumberCompound f rest

def renumberLink (f : ListId → ListId) : Link (List Simple) → Link (List Simple)
  | ⟨compound, combinator⟩ => ⟨renumberCompound f compound, combinator⟩

def renumberLinks (f : ListId → ListId) : List (Link (List Simple)) → List (Link (List Simple))
  | [] => []
  | link :: rest => renumberLink f link :: renumberLinks f rest

def renumberChain (f : ListId → ListId) : Chain (List Simple) → Chain (List Simple)
  | ⟨leading, links, last⟩ => ⟨leading, renumberLinks f links, renumberCompound f last⟩

def renumberChains (f : ListId → ListId) : List (Chain (List Simple)) → List (Chain (List Simple))
  | [] => []
  | c :: rest => renumberChain f c :: renumberChains f rest

def renumberChains? (f : ListId → ListId) :
    Option (List (Chain (List Simple))) → Option (List (Chain (List Simple)))
  | none => none
  | some branches => some (renumberChains f branches)

def renumberNumbered (f : ListId → ListId) :
    ListId × List (Chain (List Simple)) → ListId × List (Chain (List Simple))
  | (number, branches) => (f number, renumberChains f branches)

def renumberFilter (f : ListId → ListId) :
    Option (ListId × List (Chain (List Simple))) → Option (ListId × List (Chain (List Simple)))
  | none => none
  | some numbered => some (renumberNumbered f numbered)

end

end Simple

/-- The compound with other numbers. -/
def Compound.renumber (f : ListId → ListId) (k : Compound) : Compound :=
  k.map (Simple.renumber f)

/-- Chains with other numbers. -/
def renumberBranches (f : ListId → ListId) (branches : List (Chain Compound)) :
    List (Chain Compound) :=
  branches.map (Chain.map (Compound.renumber f))

namespace Simple

theorem renumberCompound_eq (f : ListId → ListId) (k : Compound) :
    renumberCompound f k = k.renumber f := by
  induction k with
  | nil => rfl
  | cons s rest ih =>
    rw [renumberCompound, ih]
    rfl

theorem renumberLinks_eq (f : ListId → ListId) (links : List (Link Compound)) :
    renumberLinks f links =
      links.map fun link => ⟨Compound.renumber f link.compound, link.combinator⟩ := by
  induction links with
  | nil => rfl
  | cons link rest ih =>
    obtain ⟨k, combinator⟩ := link
    rw [renumberLinks, ih, renumberLink, renumberCompound_eq, List.map_cons]

@[simp]
theorem renumberChains_eq (f : ListId → ListId) (branches : List (Chain Compound)) :
    renumberChains f branches = renumberBranches f branches := by
  induction branches with
  | nil => rfl
  | cons c rest ih =>
    obtain ⟨leading, links, last⟩ := c
    rw [renumberChains, ih, renumberChain, renumberLinks_eq, renumberCompound_eq]
    rfl

@[simp]
theorem renumber_nth (form : NthForm) (number : ListId) (branches : List (Chain Compound)) :
    (nth form (some (number, branches))).renumber f =
      nth form (some (f number, renumberBranches f branches)) := by
  rw [renumber, renumberFilter, renumberNumbered, renumberChains_eq]

theorem priority_renumber (s : Simple) : (s.renumber f).priority = s.priority := by
  cases s <;> rfl

/-- Simple selectors without chains have no numbers. -/
theorem IsBare.renumber_eq {s : Simple} (h : s.IsBare) : s.renumber f = s := by
  obtain ⟨hbranches, hnth⟩ := h
  cases s
  case nth form of =>
    rcases of with _ | numbered
    · rfl
    · exact absurd rfl (hnth form numbered)
  case host compounds =>
    rcases compounds with _ | branches
    · rfl
    · obtain rfl : branches = [] := hbranches
      rfl
  case matchesAny | matchesNone | has | hostContext =>
    simp only [branches] at hbranches
    subst hbranches
    rfl
  all_goals rfl

/-- Numbers that stay as they are make no difference. -/
theorem renumber_self (s : Simple) : s.renumber (fun number => number) = s := by
  induction s using Simple.induct with
  | h s ih =>
    have hbranches : renumberBranches (fun number => number) s.branches = s.branches := by
      have hcompound : ∀ c ∈ s.branches, ∀ k ∈ c.compounds,
          Compound.renumber (fun number => number) k = k := fun c hc k hk =>
        List.map_congr_left (ih c hc k hk) |>.trans (List.map_id' k)
      refine (List.map_congr_left fun c hc => ?_).trans (List.map_id' s.branches)
      exact (Chain.map_congr (hcompound c hc)).trans (by simp [Chain.map])
    cases s
    case nth form of =>
      rcases of with _ | ⟨number, branches⟩
      · rfl
      · rw [renumber_nth]
        exact congrArg (fun branches => nth form (some (number, branches))) hbranches
    case host compounds =>
      rcases compounds with _ | branches
      · rfl
      · simp only [renumber, renumberChains?, renumberChains_eq]
        exact congrArg (fun branches => host (some branches)) hbranches
    case matchesAny branches | matchesNone branches | has branches | hostContext branches =>
      simp only [renumber, renumberChains_eq]
      congr 1
    all_goals rfl

end Simple

end DomQuery.Selector
