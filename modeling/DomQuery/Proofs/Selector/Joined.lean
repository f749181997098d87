import DomQuery.Proofs.Selector.Replaced

/-!
# A selector joined to a compound

`P c Q` is read as `P`, with one more combinator and one more compound at its end. So
its chain is that of `P` with a link more, and the chain of `:is(P) c Q` has the chain
of `P` in the argument of the one simple selector at its beginning.

* `Complex.chain?_append`: the chain of `P c Q`, by that of `P`.
* `Distinct.simple_isOf`: the simple selector that `:is(P)` is.
-/

namespace DomQuery.Selector

/-- The chain with one more link, and another compound at its end. -/
def Chain.link {κ : Type} (chain : Chain κ) (c : Combinator) (k : κ) : Chain κ :=
  ⟨chain.leading, chain.links ++ [⟨chain.last, c⟩], k⟩

@[simp]
theorem Chain.compounds_link {κ : Type} (chain : Chain κ) (c : Combinator) (k : κ) :
    (chain.link c k).compounds = chain.compounds ++ [k] := by
  simp [link, compounds]

theorem each_link {p : Simple → Prop} {chain : Chain Compound} {c : Combinator} {k : Compound} :
    Each p [chain.link c k] ↔ Each p [chain] ∧ ∀ s ∈ k, p s := by
  simp [Each, or_imp, forall_and]

namespace Chain

variable {σ : Type} {within : Complex}

/-- What follows a chain is read with that chain as what was read before. -/
theorem toOption_splitFrom_append (within' : Complex) {c : Combinator}
    {parts rest : List (Combinator ⊕ Except SelectorError σ)} {read : Partial σ}
    (hread : read.previous ≠ none → read.compound = []) :
    (splitFrom .strict within read (parts ++ .inl c :: rest)).toOption =
      (splitFrom .strict within' read parts).toOption.bind fun chain =>
        (splitFrom .strict within ⟨chain.leading, ⟨chain.last, c⟩ :: chain.links.reverse, [], some c⟩
          rest).toOption := by
  induction parts generalizing read with
  | nil =>
    rw [List.nil_append, splitFrom, splitFrom]
    rcases hp : read.previous with _ | before
    · cases hk : read.compound.isEmpty with
      | true => rfl
      | false => simp [pure, Except.pure, Except.toOption]
    · rw [hread (by simp [hp])]
      rfl
  | cons part parts ih =>
    rw [List.cons_append]
    rcases part with combinator | e | s
    · simp only [splitFrom]
      split
      · rfl
      split
      · rfl
      · exact ih fun _ => rfl
    · rfl
    · exact ih fun h => absurd rfl h

/-- Simple selectors are read into the open compound. -/
theorem toOption_splitFrom_simples {simples : List (Except SelectorError σ)} {read : Partial σ} :
    (splitFrom .strict within read (simples.map .inr)).toOption =
      (simples.mapM Except.toOption).bind fun found =>
        if read.compound = [] ∧ found = [] then none
        else some ⟨read.leading, read.links.reverse, read.compound.reverse ++ found⟩ := by
  induction simples generalizing read with
  | nil =>
    rw [List.map_nil, splitFrom]
    rcases hk : read.compound with _ | ⟨s, k⟩
    · rfl
    · simp [pure, Except.pure, Except.toOption]
  | cons simple rest ih =>
    rw [List.map_cons, List.mapM_cons]
    rcases simple with e | s
    · rfl
    · refine (@ih { read with compound := s :: read.compound, previous := none }).trans ?_
      change _ = ((rest.mapM Except.toOption).bind fun found => some (s :: found)).bind _
      rw [Option.bind_assoc]
      simp

end Chain

theorem IsCompound.map_simplePart {components : List Component} (h : IsCompound components) :
    components.map Component.simplePart = (components.map Component.simple).map .inr := by
  rw [List.map_map]
  refine List.map_congr_left fun c hc => ?_
  cases c with
  | combinator combinator => exact absurd rfl (h _ hc combinator)
  | _ => rfl

/-- The simple selectors of a compound, if none is faulty and there is one. -/
def compound? (components : List Component) : Option Compound :=
  (components.mapM fun c : Component => c.simple.toOption).bind fun k =>
    if k = [] then none else some (Simple.sortCompound k)

namespace Complex

variable {components last : List Component}

theorem toOption_splitFrom_compound (hlast : IsCompound last) {within : Complex}
    {read : Chain.Partial Simple} (hread : read.compound = []) :
    (Chain.splitFrom .strict within read (last.map Component.simplePart)).toOption.map
        (Chain.map Simple.sortCompound) =
      (compound? last).map fun k =>
        ⟨read.leading, read.links.reverse.map fun link =>
          ⟨Simple.sortCompound link.compound, link.combinator⟩, k⟩ := by
  have hsimples : (last.map Component.simple).mapM Except.toOption =
      last.mapM fun c : Component => c.simple.toOption := List.mapM_map
  rw [hlast.map_simplePart, Chain.toOption_splitFrom_simples, hsimples, compound?, Option.map_bind,
    Option.map_bind, hread]
  congr 1
  funext k
  by_cases hk : k = []
  · simp [hk]
  · simp [hk, Chain.map]

/-- The chain of a selector that ends in a compound. -/
theorem chain?_append (hlast : IsCompound last) (c : Combinator) :
    (mk (components ++ .combinator c :: last)).chain? .strict =
      ((mk components).chain? .strict).bind fun chain => (compound? last).map (chain.link c) := by
  have hmap : (components ++ .combinator c :: last).map Component.simplePart =
      components.map Component.simplePart ++ .inl c :: last.map Component.simplePart := by
    rw [List.map_append, List.map_cons]
    rfl
  simp only [chain?, Complex.components, Chain.split, hmap]
  rw [Chain.toOption_splitFrom_append (mk components) (fun h => absurd rfl h),
    Option.map_bind, Option.bind_map]
  congr 1
  funext shape
  rw [Function.comp_apply, toOption_splitFrom_compound hlast rfl, List.reverse_cons,
    List.reverse_reverse, List.map_append]
  rfl

/-- The chain of a compound on its own. -/
theorem chain?_compound (hlast : IsCompound last) : (mk last).chain? .strict =
    (compound? last).map fun k => ⟨none, [], k⟩ :=
  toOption_splitFrom_compound hlast rfl

theorem chain?_forgiving (within : Complex) : within.chain? .forgiving = within.chain? .strict := by
  rw [chain?, chain?, Chain.split, Chain.split, Chain.splitFrom_forgiving]

end Complex

namespace SelectorList

/-- The chains of a list of one branch. -/
theorem Distinct.toOption_resolve_single {id : ListId} {within : Complex}
    (hd : (mk id [within]).Distinct) :
    ((mk id [within]).resolve .strict).toOption =
      (within.chain? .strict).map fun chain => [chain] := by
  have hmode : ListMode.strict = .relative → (mk id [within]).containsHas = false := fun h => nomatch h
  rw [hd.toOption_resolve hmode, collectChains, if_neg (by simp)]
  change [within.chain? .strict].mapM (fun branch => branch) = _
  rcases within.chain? .strict with _ | chain
  · rfl
  · rfl

/-- A branch that is found without a fault has a chain. -/
theorem Distinct.exists_chain? {id : ListId} {within : Complex} (hd : (mk id [within]).Distinct)
    {mode : ListMode} {chain : Chain (List Leaf)} (h : fresh (within.branch mode) = .ok chain) :
    ∃ c, within.chain? mode = some c := by
  obtain ⟨known, hk⟩ := hd.exists_knows
  obtain ⟨c, -, hc⟩ := Requests.outermost.chain?_of_ok hd hk (List.mem_singleton_self within) h
  exact ⟨c, hc⟩

/-- The simple selector of `:is()` with one branch. -/
theorem Distinct.simple_isOf {id : ListId} {within : Complex} (hd : (mk id [within]).Distinct)
    {chain : Chain Compound} (h : within.chain? .strict = some chain) :
    (Component.isOf (mk id [within])).simple.toOption = some (.matchesAny [chain]) := by
  have hmode : ListMode.forgiving = .relative → (mk id [within]).containsHas = false := fun h => nomatch h
  rw [Component.simple_isOf, toOption_map, hd.toOption_resolve hmode, collectChains, if_pos rfl]
  simp [selectors, within.chain?_forgiving, h]

end SelectorList

end DomQuery.Selector
