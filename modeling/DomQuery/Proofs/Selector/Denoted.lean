import DomQuery.Proofs.Selector.Compound
import DomQuery.Proofs.Selector.Renumbered

/-!
# Lists put together from their components

To look a list up is to find its branches first, with all lists inside of them, and
then to put the chains together that are matched. What comes of it can be told in
one go: every component has its simple selector or is faulty, a branch is the chain
of those, and in the chains of a list there is nothing else.

* `Chain.toOption_split`: splitting a branch does not look at simple selectors.
* `Distinct.toOption_resolve`: the chains of a list, by those of its branches.
-/

namespace DomQuery.Selector

/-! ### Splitting without a look at simple selectors -/

/-- The second part comes of the first by `ρ`, or both are faulty. -/
inductive PartOf {σ τ : Type} (ρ : σ → τ) :
    Combinator ⊕ Except SelectorError σ → Combinator ⊕ Except SelectorError τ → Prop
  | combinator (c : Combinator) : PartOf ρ (.inl c) (.inl c)
  | faulty (e e' : SelectorError) : PartOf ρ (.inr (.error e)) (.inr (.error e'))
  | simple (s : σ) : PartOf ρ (.inr (.ok s)) (.inr (.ok (ρ s)))

namespace Chain

variable {σ τ : Type} {mode : ListMode} {within within' : Complex} {ρ : σ → τ}

/-- What was read, with other simple selectors. -/
def Partial.map (ρ : σ → τ) (read : Partial σ) : Partial τ :=
  ⟨read.leading, read.links.map fun link => ⟨link.compound.map ρ, link.combinator⟩,
    read.compound.map ρ, read.previous⟩

theorem toOption_splitFrom {parts : List (Combinator ⊕ Except SelectorError σ)}
    {parts' : List (Combinator ⊕ Except SelectorError τ)} (h : List.Forall₂ (PartOf ρ) parts parts')
    (read : Partial σ) : (splitFrom mode within' (read.map ρ) parts').toOption =
      (splitFrom mode within read parts).toOption.map (Chain.map (List.map ρ)) := by
  induction h generalizing read with
  | nil =>
    simp only [splitFrom, Partial.map, List.isEmpty_map]
    split
    · rfl
    split
    · rfl
    · simp [pure, Except.pure, Except.toOption, Chain.map]
  | @cons part part' rest rest' hpart _ ih =>
    cases hpart with
    | combinator c =>
      simp only [splitFrom, Partial.map, List.isEmpty_map]
      split
      · rfl
      split
      · split
        · exact ih ⟨some c, [], [], some c⟩
        · rfl
      · rw [← ih]
        simp only [Partial.map, List.map_cons, List.map_nil, List.map_reverse]
    | faulty e e' => rfl
    | simple s =>
      simp only [splitFrom]
      exact ih { read with compound := s :: read.compound, previous := none }

variable (within) in
/-- Splitting looks at the combinators, and for faults. -/
theorem toOption_split {parts : List (Combinator ⊕ Except SelectorError σ)}
    {parts' : List (Combinator ⊕ Except SelectorError τ)}
    (h : List.Forall₂ (PartOf ρ) parts parts') : (split mode within' parts').toOption =
      (split mode within parts).toOption.map (Chain.map (List.map ρ)) :=
  toOption_splitFrom h ⟨none, [], [], none⟩

end Chain

/-! ### Components -/

/-- A compound in the order in which it is tested. -/
def Simple.sortCompound (k : Compound) : Compound :=
  k.mergeSort fun a b => a.priority ≤ b.priority

/-- A component that is no combinator stands for its simple selector. -/
def Component.simplePart : Component → Combinator ⊕ Except SelectorError Simple
  | .combinator c => .inl c
  | c => .inr c.simple

/-- The chain of a branch, if it is not faulty. -/
def Complex.chain? (mode : ListMode) (within : Complex) : Option (Chain Compound) :=
  (Chain.split mode within (within.components.map Component.simplePart)).toOption.map
    (Chain.map Simple.sortCompound)

/-- The chains of branches. -/
def collectChains (mode : ListMode) (branches : List (Option (Chain Compound))) :
    Option (List (Chain Compound)) :=
  if mode = .forgiving then some (branches.filterMap fun branch => branch)
  else branches.mapM fun branch => branch

/-- The place in a compound does not change when lists are looked up. -/
theorem Leaf.priority_of_resolve {leaf : Leaf} {s : Simple} (h : leaf.resolve = .ok s) :
    s.priority = leaf.priority := by
  rw [resolve] at h
  cases leaf
  case plain s' =>
    obtain rfl : s' = s := pure_eq_ok.mp h
    rfl
  case has list =>
    rw [simple] at h
    split at h
    · obtain rfl : Simple.never = s := pure_eq_ok.mp h
      rfl
    · obtain ⟨branches, -, rfl⟩ := map_eq_ok.mp h
      rfl
  all_goals
    obtain ⟨branches, -, rfl⟩ := map_eq_ok.mp h
    rfl

/-- A leaf has a simple selector just when the list that it looks up has chains. -/
theorem Leaf.resolve_iff {leaf : Leaf} : (∃ s, leaf.resolve = .ok s) ↔
    ∀ mode list, leaf.nested? = some (mode, list) → ∃ chains, list.resolve mode = .ok chains := by
  refine ⟨?_, exists_simple⟩
  rintro ⟨s, h⟩ mode list hn
  rw [resolve] at h
  cases leaf
  case plain => cases hn
  case has inner =>
    rw [nested?] at hn
    split at hn
    · cases hn
    · rename_i hh
      obtain ⟨rfl, rfl⟩ := Prod.mk.inj (Option.some.inj hn)
      rw [simple, if_neg hh] at h
      exact (map_eq_ok.mp h).imp fun _ h => h.1
  all_goals
    obtain ⟨rfl, rfl⟩ := Prod.mk.inj (Option.some.inj hn)
    exact (map_eq_ok.mp h).imp fun _ h => h.1

/-- A component with its leaf and with the simple selector of that. -/
def Component.pairPart : Component → Combinator ⊕ Except SelectorError (Leaf × Simple)
  | .combinator c => .inl c
  | c => .inr (c.leaf >>= fun leaf => leaf.resolve >>= fun s => pure (leaf, s))

theorem Component.partOf_snd (c : Component) : PartOf Prod.snd c.pairPart c.simplePart := by
  have hpart : ∀ x : Except SelectorError Leaf, PartOf Prod.snd
      (.inr (x >>= fun leaf => leaf.resolve >>= fun s => pure (leaf, s)))
      (.inr (x >>= Leaf.resolve)) := by
    rintro (e | leaf)
    · exact .faulty e e
    · change PartOf _ (.inr (leaf.resolve >>= _)) (.inr leaf.resolve)
      rcases leaf.resolve with e | s
      · exact .faulty e e
      · exact .simple (leaf, s)
  cases c
  case combinator c => exact .combinator c
  all_goals exact hpart _

theorem Component.partOf_fst {c : Component}
    (h : ∀ leaf, c.leaf = .ok leaf → ∃ s, leaf.resolve = .ok s) :
    PartOf Prod.fst c.pairPart c.part := by
  have hpart : ∀ x : Except SelectorError Leaf,
      (∀ leaf, x = .ok leaf → ∃ s, leaf.resolve = .ok s) → PartOf Prod.fst
        (.inr (x >>= fun leaf => leaf.resolve >>= fun s => pure (leaf, s))) (.inr x) := by
    rintro (e | leaf) h
    · exact .faulty e e
    · obtain ⟨s, hs⟩ := h leaf rfl
      change PartOf _ (.inr (leaf.resolve >>= _)) _
      rw [hs]
      exact .simple (leaf, s)
  cases c
  case combinator c => exact .combinator c
  all_goals exact hpart _ h

theorem Component.resolve_of_pairPart {c : Component} {leaf : Leaf} {s : Simple}
    (h : c.pairPart = .inr (.ok (leaf, s))) : leaf.resolve = .ok s := by
  have hpart : ∀ x : Except SelectorError Leaf,
      (x >>= fun leaf => leaf.resolve >>= fun s => pure (leaf, s)) = .ok (leaf, s) →
        leaf.resolve = .ok s := by
    intro x hx
    obtain ⟨leaf', -, hx⟩ := bind_eq_ok.mp hx
    obtain ⟨s', hs, hx⟩ := bind_eq_ok.mp hx
    obtain ⟨rfl, rfl⟩ := Prod.mk.inj (pure_eq_ok.mp hx)
    exact hs
  cases c
  case combinator c => cases h
  all_goals exact hpart _ (Sum.inr.inj h)

/-! ### Branches -/

theorem Chain.map_map {κ μ η : Type} (g : κ → μ) (f : μ → η) (c : Chain κ) :
    (c.map g).map f = c.map fun k => f (g k) := by
  simp [map]

theorem Chain.mapM_map {κ μ η : Type} {g : κ → μ} {f : μ → Except SelectorError η} {h : κ → η}
    {c : Chain κ} (hc : ∀ k ∈ c.compounds, f (g k) = .ok (h k)) :
    (c.map g).mapM f = .ok (c.map h) := by
  have hlinks : (c.map g).links.mapM (fun link => do
      return (⟨← f link.compound, link.combinator⟩ : Link η)) = .ok (c.map h).links := by
    refine mapM_eq_ok.mpr (List.forall₂_map_left_iff.mpr (List.forall₂_map_right_iff.mpr ?_))
    refine List.forall₂_same.mpr fun link hl => ?_
    rw [hc _ (c.compound_mem_compounds hl)]
    rfl
  rw [mapM, hlinks]
  change (f (g c.last) >>= _) = _
  rw [hc _ c.last_mem_compounds]
  rfl

/-- Sorting leaves is sorting their simple selectors. -/
theorem mapM_sortCompound {k : List (Leaf × Simple)} (h : ∀ p ∈ k, p.1.resolve = .ok p.2) :
    (Leaf.sortCompound (k.map Prod.fst)).mapM Leaf.resolve =
      .ok (Simple.sortCompound (k.map Prod.snd)) := by
  let le (p q : Leaf × Simple) : Bool := p.1.priority ≤ q.1.priority
  have hfst : (k.mergeSort le).map Prod.fst = Leaf.sortCompound (k.map Prod.fst) :=
    List.map_mergeSort fun _ _ _ _ => rfl
  have hsnd : (k.mergeSort le).map Prod.snd = Simple.sortCompound (k.map Prod.snd) :=
    List.map_mergeSort fun p hp q hq => by
      simp only [le, Leaf.priority_of_resolve (h p hp), Leaf.priority_of_resolve (h q hq)]
  rw [← hfst, ← hsnd, mapM_eq_ok, List.forall₂_map_left_iff, List.forall₂_map_right_iff]
  exact List.forall₂_same.mpr fun p hp => h p (List.mem_mergeSort.mp hp)

namespace Complex

variable (mode : ListMode) (within : Complex)

/-- The chain of a branch, where each simple selector comes with its leaf. -/
def pairs? : Option (Chain (List (Leaf × Simple))) :=
  (Chain.split mode within (within.components.map Component.pairPart)).toOption

theorem chain?_eq_pairs : within.chain? mode =
    (within.pairs? mode).map (Chain.map fun k => Simple.sortCompound (k.map Prod.snd)) := by
  have hsnd : List.Forall₂ (PartOf Prod.snd) (within.components.map Component.pairPart)
      (within.components.map Component.simplePart) :=
    List.forall₂_map_left_iff.mpr (List.forall₂_map_right_iff.mpr
      (List.forall₂_same.mpr fun c _ => c.partOf_snd))
  rw [chain?, Chain.toOption_split within hsnd, Option.map_map]
  congr 1
  exact funext (Chain.map_map _ _)

variable {within}

theorem decompose_eq_pairs
    (h : ∀ c ∈ within.components, ∀ leaf, c.leaf = .ok leaf → ∃ s, leaf.resolve = .ok s) :
    (within.decompose mode).toOption =
      (within.pairs? mode).map (Chain.map fun k => Leaf.sortCompound (k.map Prod.fst)) := by
  have hfst : List.Forall₂ (PartOf Prod.fst) (within.components.map Component.pairPart)
      (within.components.map Component.part) :=
    List.forall₂_map_left_iff.mpr (List.forall₂_map_right_iff.mpr
      (List.forall₂_same.mpr fun c hc => c.partOf_fst (h c hc)))
  have hsort : (within.decompose mode).toOption =
      (Chain.split mode within (within.components.map Component.part)).toOption.map
        (Chain.map Leaf.sortCompound) := by
    rw [decompose]
    rcases Chain.split mode within (within.components.map Component.part) with e | shape
    · rfl
    · rfl
  rw [hsort, Chain.toOption_split within hfst, Option.map_map, pairs?]
  congr 1
  exact funext (Chain.map_map _ _)

variable {mode}

theorem resolve_of_mem_pairs {pairs : Chain (List (Leaf × Simple))}
    (h : within.pairs? mode = some pairs) : ∀ k ∈ pairs.compounds, ∀ p ∈ k, p.1.resolve = .ok p.2 := by
  rw [pairs?] at h
  rcases hp : Chain.split mode within (within.components.map Component.pairPart) with e | pairs'
  · simp [hp, Except.toOption] at h
  · obtain rfl : pairs' = pairs := by simpa [hp, Except.toOption] using h
    intro k hk p hpk
    obtain ⟨c, -, hc⟩ := List.mem_map.mp ((Chain.split_inv hp k hk).2 p hpk)
    exact c.resolve_of_pairPart hc

/-- In a branch with a chain, no component is faulty. -/
theorem exists_simple_of_chain? {chain : Chain Compound} (h : within.chain? mode = some chain) :
    ∀ c ∈ within.components, ∀ leaf, c.leaf = .ok leaf → ∃ s, leaf.resolve = .ok s := by
  rw [chain?, Option.map_eq_some_iff] at h
  obtain ⟨shape, hshape, -⟩ := h
  intro c hc leaf hl
  by_contra hfault
  rcases hs : Chain.split mode within (within.components.map Component.simplePart) with e | shape'
  · simp [hs, Except.toOption] at hshape
  · rcases hr : leaf.resolve with e | s
    · obtain ⟨hparts, -⟩ := Chain.split_eq_ok.mp hs
      refine Chain.error_not_mem_parts (e := e) (hparts ▸ List.mem_map.mpr ⟨c, hc, ?_⟩)
      have hsimple : c.simple = .error e := by
        rw [Component.simple, hl]
        exact hr
      cases c
      case combinator =>
        obtain rfl := Except.ok.inj hl
        cases hr
      all_goals exact congrArg Sum.inr hsimple
    · exact hfault ⟨s, hr⟩

end Complex

section Outcomes

variable {ε α β γ : Type} {f : α → Except ε β} {link : β → Except ε γ} {g : α → Option γ} {xs : List α}

/-- What goes on after each step is told step by step. -/
theorem toOption_bind_mapM (hok : ∀ x ∈ xs, ∀ b, f x = .ok b → ∃ c, link b = .ok c ∧ g x = some c)
    (herror : ∀ x ∈ xs, ∀ e, f x = .error e → g x = none) :
    (xs.mapM f >>= fun ys => ys.mapM link).toOption = xs.mapM g := by
  induction xs with
  | nil => rfl
  | cons x xs ih =>
    obtain ⟨hx, hxs⟩ := List.forall_mem_cons.mp hok
    obtain ⟨hex, hexs⟩ := List.forall_mem_cons.mp herror
    rw [List.mapM_cons, List.mapM_cons, ← ih hxs hexs]
    rcases hf : f x with e | b
    · rw [hex e hf]
      rfl
    · obtain ⟨c, hc, hg⟩ := hx b hf
      rw [hg]
      rcases xs.mapM f with e | ys
      · rfl
      · change ((b :: ys).mapM link).toOption = (ys.mapM link).toOption.bind fun cs => some (c :: cs)
        rw [List.mapM_cons, hc]
        rcases ys.mapM link with e | cs
        · rfl
        · rfl

/-- If nothing goes wrong after the steps, those that fail are left out. -/
theorem toOption_mapM_filterMap
    (hok : ∀ x ∈ xs, ∀ b, f x = .ok b → ∃ c, link b = .ok c ∧ g x = some c)
    (herror : ∀ x ∈ xs, ∀ e, f x = .error e → g x = none) :
    ((xs.filterMap fun x => (f x).toOption).mapM link).toOption = some (xs.filterMap g) := by
  induction xs with
  | nil => rfl
  | cons x xs ih =>
    obtain ⟨hx, hxs⟩ := List.forall_mem_cons.mp hok
    obtain ⟨hex, hexs⟩ := List.forall_mem_cons.mp herror
    have hrest := ih hxs hexs
    rcases hf : f x with e | b
    · rw [List.filterMap_cons_none (by rw [hf]; rfl), hrest, List.filterMap_cons_none (hex e hf)]
    · obtain ⟨c, hc, hg⟩ := hx b hf
      rw [List.filterMap_cons_some (by rw [hf]; rfl), List.filterMap_cons_some hg, List.mapM_cons, hc]
      change (List.mapM link _ >>= fun cs => pure (c :: cs)).toOption = _
      rcases hcs : (xs.filterMap fun x => (f x).toOption).mapM link with e | cs
      · rw [hcs] at hrest
        cases hrest
      · rw [hcs] at hrest
        obtain rfl : cs = xs.filterMap g := by simpa [Except.toOption] using hrest
        rfl

end Outcomes

namespace SelectorList

variable {top list : SelectorList} {mode mode' : ListMode} {within : Complex}
variable {known : ListId → Except SelectorError (List (Chain (List Leaf)))}

theorem Requests.answers_iff (hd : top.Distinct) (h : top.Requests mode list) :
    Answers (list.branches mode) ↔ ∃ chains, list.resolve mode = .ok chains := by
  refine ⟨h.resolve_ok hd, ?_⟩
  rintro ⟨chains, hr⟩
  rw [h.resolve_eq hd] at hr
  exact (bind_eq_ok.mp hr).imp fun _ h => h.1

/-- The lists inside of a branch are in order when its leaves have simple selectors. -/
theorem Requests.answers_nested_iff (hd : top.Distinct) (h : top.Requests mode list)
    (hw : within ∈ list.selectors) :
    (∀ c ∈ within.components, ∀ leaf mode'' inner, c.leaf = .ok leaf →
        leaf.nested? = some (mode'', inner) → Answers (inner.branches mode'')) ↔
      ∀ c ∈ within.components, ∀ leaf, c.leaf = .ok leaf → ∃ s, leaf.resolve = .ok s := by
  simp only [Leaf.resolve_iff]
  refine forall₂_congr fun c hc => forall_congr' fun leaf => ?_
  constructor
  · intro hall hl mode'' inner hn
    exact ((Requests.found h hw hc hl hn).answers_iff hd).mp (hall mode'' inner hl hn)
  · intro hall mode'' inner hl hn
    exact ((Requests.found h hw hc hl hn).answers_iff hd).mpr (hall hl mode'' inner hn)

/-- A branch without faults has the chain of the simple selectors of its
components. -/
theorem Requests.chain?_of_ok (hd : top.Distinct) (hk : top.Knows known)
    (h : top.Requests mode list) (hw : within ∈ list.selectors) {chain : Chain (List Leaf)}
    (hb : fresh (within.branch mode') = .ok chain) : ∃ c,
      (chain.mapM fun k => k.mapM Leaf.resolve) = .ok c ∧ within.chain? mode' = some c := by
  obtain ⟨hdecompose, hnested⟩ := (h.branch_eq_ok hk hw).mp hb
  rw [h.answers_nested_iff hd hw] at hnested
  have hpairs := Complex.decompose_eq_pairs mode' hnested
  rw [hdecompose] at hpairs
  obtain ⟨pairs, hp, rfl⟩ := Option.map_eq_some_iff.mp hpairs.symm
  refine ⟨_, Chain.mapM_map fun k hk => ?_, by rw [Complex.chain?_eq_pairs, hp]; rfl⟩
  exact mapM_sortCompound (Complex.resolve_of_mem_pairs hp k hk)

/-- A faulty branch has no chain. -/
theorem Requests.chain?_of_error (hd : top.Distinct) (hk : top.Knows known)
    (h : top.Requests mode list) (hw : within ∈ list.selectors) {e : SelectorError}
    (hb : fresh (within.branch mode') = .error e) : within.chain? mode' = none := by
  by_contra hne
  obtain ⟨c, hc⟩ := Option.ne_none_iff_exists'.mp hne
  have hnested := Complex.exists_simple_of_chain? hc
  rw [Complex.chain?_eq_pairs] at hc
  obtain ⟨pairs, hp, -⟩ := Option.map_eq_some_iff.mp hc
  have hdecompose := Complex.decompose_eq_pairs mode' hnested
  rw [hp] at hdecompose
  rcases hchain : within.decompose mode' with e' | chain
  · simp [hchain, Except.toOption] at hdecompose
  · rw [← h.answers_nested_iff hd hw] at hnested
    rw [(h.branch_eq_ok hk hw).mpr ⟨hchain, hnested⟩] at hb
    cases hb

/-- The chains of a list are those of its branches. -/
theorem Requests.toOption_resolve (hd : top.Distinct) (h : top.Requests mode list) :
    (list.resolve mode).toOption =
      collectChains mode (list.selectors.map (Complex.chain? mode)) := by
  obtain ⟨known, hk⟩ := hd.exists_knows
  have hok : ∀ within ∈ list.selectors, ∀ chain, fresh (within.branch mode) = .ok chain →
      ∃ c, (chain.mapM fun k => k.mapM Leaf.resolve) = .ok c ∧ within.chain? mode = some c :=
    fun _ hw _ hb => h.chain?_of_ok hd hk hw hb
  have herror : ∀ within ∈ list.selectors, ∀ e, fresh (within.branch mode) = .error e →
      within.chain? mode = none :=
    fun _ hw _ hb => h.chain?_of_error hd hk hw hb
  rw [h.resolve_eq hd, h.fresh_branches hk, collectChains]
  split
  · -- a faulty branch has no chain, and the others have theirs
    refine (toOption_mapM_filterMap hok herror).trans ?_
    rw [List.filterMap_map]
    rfl
  · refine (toOption_bind_mapM hok herror).trans ?_
    rw [List.mapM_map]
    rfl

/-- The list of a component is looked up if it stands on its own. -/
theorem Distinct.exists_requests (hd : list.Distinct)
    (hmode : mode = .relative → list.containsHas = false) :
    ∃ top : SelectorList, top.Distinct ∧ top.Requests mode list := by
  obtain ⟨id, hid⟩ := Infinite.exists_notMem_finset list.ids.toFinset
  have hnew : ∀ name : String, (mk id [.mk [.pseudoClass name (some (.selectors list))]]).Distinct := by
    intro name
    change (SelectorList.ids _).Nodup
    rw [ids_eq]
    simp only [selectors, Complex.ids, Complex.components, Component.ids, Component.lists,
      Argument.lists, List.flatMap_cons, List.flatMap_nil, List.append_nil, List.nodup_cons]
    exact ⟨by simpa [SelectorList.id] using hid, hd⟩
  have hfound : ∀ (name : String) {leaf : Leaf},
      (Component.pseudoClass name (some (.selectors list))).leaf = .ok leaf →
      leaf.nested? = some (mode, list) →
      (mk id [.mk [.pseudoClass name (some (.selectors list))]]).Requests mode list :=
    fun _ _ hl hn => .found .outermost (List.mem_singleton_self _) (List.mem_singleton_self _) hl hn
  cases mode with
  | strict => exact ⟨list, hd, .outermost⟩
  | forgiving => exact ⟨_, hnew "is", hfound "is" rfl rfl⟩
  | relative =>
    exact ⟨_, hnew "has", hfound "has" rfl (by simp [Leaf.nested?, hmode rfl])⟩
  | compound => exact ⟨_, hnew "host", hfound "host" rfl rfl⟩

/-- The chains of a list are those of its branches, wherever the list stands. -/
theorem Distinct.toOption_resolve (hd : list.Distinct)
    (hmode : mode = .relative → list.containsHas = false) :
    (list.resolve mode).toOption =
      collectChains mode (list.selectors.map (Complex.chain? mode)) := by
  obtain ⟨top, htop, hrequests⟩ := hd.exists_requests hmode
  exact hrequests.toOption_resolve htop

end SelectorList

end DomQuery.Selector
