import DomQuery.Proofs.Selector.Resolved

/-!
# Selectors that were looked at as a whole

When the branches of the outermost list are found, so are those of every list
that matching reads later on. A faulty branch of a forgiving list is left out
together with the lists inside of it; what is kept was found to be in order. So
nothing is left to be wrong with a selector while it is matched, but the prefixes
in its type selectors, which depend on the tree.

* `Requests.resolve_ok`: when the branches of a list were found, its chains exist.
* `Yields.mem_typePrefixes`: the prefixes in these chains were written.
-/

namespace DomQuery.Selector

/-- A leaf has a simple selector when the list that it looks up has chains. -/
theorem Leaf.exists_simple {look : ListMode → SelectorList → Except SelectorError (List (Chain Compound))}
    {leaf : Leaf} (h : ∀ mode list, leaf.nested? = some (mode, list) →
      ∃ chains, look mode list = .ok chains) : ∃ s, leaf.simple look = .ok s := by
  have hmap : ∀ {mode list} (f : List (Chain Compound) → Simple), leaf.nested? = some (mode, list) →
      ∃ s, f <$> look mode list = .ok s := by
    intro mode list f hn
    obtain ⟨chains, hc⟩ := h mode list hn
    exact ⟨f chains, by rw [hc]; rfl⟩
  cases leaf
  case plain s => exact ⟨s, rfl⟩
  case has list =>
    cases hh : list.containsHas with
    | true => exact ⟨.never, by simp [simple, hh, pure, Except.pure]⟩
    | false =>
      simp only [simple, hh, Bool.false_eq_true, if_false]
      exact hmap _ (by simp [nested?, hh])
  all_goals exact hmap _ rfl

theorem Chain.exists_mapM {ε κ μ : Type} {f : κ → Except ε μ} {c : Chain κ}
    (h : ∀ k ∈ c.compounds, ∃ k', f k = .ok k') : ∃ c', c.mapM f = .ok c' := by
  have hlink : ∀ link ∈ c.links,
      ∃ link', (do return (⟨← f link.compound, link.combinator⟩ : Link μ)) = Except.ok link' := by
    intro link hl
    obtain ⟨k', hk⟩ := h _ (c.compound_mem_compounds hl)
    exact ⟨⟨k', link.combinator⟩, by rw [hk]; rfl⟩
  obtain ⟨links, hlinks⟩ := exists_mapM_eq_ok hlink
  obtain ⟨last, hlast⟩ := h _ c.last_mem_compounds
  exact ⟨⟨c.leading, links, last⟩, by rw [mapM, hlinks, hlast]; rfl⟩

theorem exists_linkAll {look : ListMode → SelectorList → Except SelectorError (List (Chain Compound))}
    {branches : List (Chain (List Leaf))}
    (h : ∀ chain ∈ branches, ∀ k ∈ chain.compounds, ∀ leaf ∈ k, ∀ mode list,
      leaf.nested? = some (mode, list) → ∃ chains, look mode list = .ok chains) :
    ∃ chains, linkAll look branches = .ok chains :=
  exists_mapM_eq_ok fun chain hc => Chain.exists_mapM fun k hk => exists_mapM_eq_ok fun leaf hl =>
    Leaf.exists_simple (h chain hc k hk leaf hl)

namespace SelectorList

variable {top list : SelectorList} {mode : ListMode} {s : Simple}

/-- When the branches of a list were found, nothing can be wrong with its chains. -/
theorem Requests.resolve_ok (hd : top.Distinct) (h : top.Requests mode list)
    (ha : Answers (list.branches mode)) : ∃ chains, list.resolve mode = .ok chains := by
  obtain ⟨known, hk⟩ := hd.exists_knows
  induction list using SelectorList.induct generalizing mode with
  | h list ih =>
    obtain ⟨branches, hb⟩ := ha
    rw [h.resolve_eq hd, hb]
    refine exists_linkAll fun chain hc k hkc leaf hl mode' inner hn => ?_
    obtain ⟨within, hw, hbranch⟩ := h.exists_branch hk hb chain hc
    obtain ⟨hdecompose, hnested⟩ := (h.branch_eq_ok hk hw).mp hbranch
    obtain ⟨c, hcw, hcl⟩ := (Complex.decompose_inv hdecompose k hkc).2 leaf hl
    exact ih within hw c hcw inner (by simp [c.lists_of_nested? hcl hn]) (.found h hw hcw hcl hn)
      (hnested c hcw leaf mode' inner hcl hn)

end SelectorList

/-! ### Type selectors -/

theorem readKeywordClass_ne_type {component : Component} {name : String} {t : TypeSelector} :
    readKeywordClass component name ≠ .ok (.type t) := by
  intro h
  unfold readKeywordClass at h
  repeat' split at h
  all_goals simp [firstForm] at h

theorem readWordsClass_ne_type {component : Component} {name : String} {texts : List String}
    {t : TypeSelector} : readWordsClass component name texts ≠ .ok (.type t) := by
  intro h
  unfold readWordsClass at h
  repeat' split at h
  all_goals simp at h

/-- Only a type selector is read as one. -/
theorem Component.eq_type_of_leaf {c : Component} {t : TypeSelector}
    (h : c.leaf = .ok (.plain (.type t))) : c = .type t := by
  have hwords : ∀ {component name texts},
      Leaf.plain <$> readWordsClass component name texts ≠ .ok (.plain (.type t)) := by
    intro component name texts h
    obtain ⟨s, hs, he⟩ := map_eq_ok.mp h
    exact readWordsClass_ne_type (Leaf.plain.inj he ▸ hs)
  rcases c with _ | _ | _ | _ | a | ⟨name, _ | ⟨list⟩ | ⟨a, b, _ | list⟩ | texts | text⟩ | ⟨name, argument⟩
  case type => simpa [leaf] using h
  case pseudoClass.none =>
    obtain ⟨s, hs, he⟩ := map_eq_ok.mp h
    exact absurd (Leaf.plain.inj he ▸ hs) readKeywordClass_ne_type
  case pseudoClass.some.selectors =>
    rw [leaf, Argument.leaf.eq_def] at h
    simp only at h
    split at h
    case h_7 => exact absurd h hwords
    all_goals cases h
  case pseudoClass.some.words => exact absurd h hwords
  case pseudoClass.some.raw => exact absurd h hwords
  case attr | pseudoElement =>
    rw [leaf] at h
    split at h
    all_goals simp at h
  all_goals cases h

theorem Leaf.eq_type_of_resolve {leaf : Leaf} {t : TypeSelector} (h : leaf.resolve = .ok (.type t)) :
    leaf = .plain (.type t) := by
  have hmap : ∀ {x : Except SelectorError (List (Chain Compound))} {f : List (Chain Compound) → Simple},
      (∀ chains, f chains ≠ .type t) → f <$> x ≠ .ok (.type t) := by
    intro x f hf h
    obtain ⟨chains, -, he⟩ := map_eq_ok.mp h
    exact hf chains he
  cases leaf
  case plain s => exact congrArg plain (pure_eq_ok.mp h)
  case has list =>
    rw [resolve, simple] at h
    split at h
    · cases h
    · exact absurd h (hmap (by simp))
  all_goals exact absurd h (hmap (by simp))

/-- The prefix that a type selector begins with. -/
def Component.typePrefix? : Component → Option String
  | .type ⟨some (.named q), _⟩ => some q
  | _ => none

namespace SelectorList

variable {top list : SelectorList} {mode : ListMode} {s : Simple}

/-- The components that are written in a selector, at any depth. -/
def allComponents (top : SelectorList) : List Component :=
  top.allLists.flatMap fun list => list.selectors.flatMap Complex.components

/-- The prefixes that are written in type selectors, at any depth. -/
def typePrefixes (top : SelectorList) : List String :=
  top.allComponents.filterMap Component.typePrefix?

theorem Requests.mem_allLists (h : top.Requests mode list) : list ∈ top.allLists := by
  rcases h.holds with ⟨-, rfl⟩ | ⟨c, leaf, hm, -⟩
  · exact List.mem_cons_self
  · exact List.mem_cons_of_mem _ (List.mem_map_of_mem (f := Prod.snd) hm)

/-- A type selector that is matched was written. -/
theorem Yields.mem_allComponents {t : TypeSelector} (h : top.Yields (.type t)) :
    .type t ∈ top.allComponents := by
  obtain ⟨mode, list, within, component, leaf, hrequest, hw, hcw, hl, hs⟩ := h
  obtain rfl := Leaf.eq_type_of_resolve hs
  obtain rfl := Component.eq_type_of_leaf hl
  exact List.mem_flatMap.mpr ⟨list, hrequest.mem_allLists, List.mem_flatMap.mpr ⟨within, hw, hcw⟩⟩

theorem Yields.mem_typePrefixes {q name : String} (h : top.Yields (.type ⟨some (.named q), name⟩)) :
    q ∈ top.typePrefixes :=
  List.mem_filterMap.mpr ⟨_, h.mem_allComponents, rfl⟩

end SelectorList

end DomQuery.Selector
