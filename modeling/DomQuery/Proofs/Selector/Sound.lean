import DomQuery.Proofs.Css.Sound
import DomQuery.Proofs.Selector.Renumbered
import DomQuery.Selector.Parser

/-!
# What a selector may hold

Not every selector can come from a text. Its names are names of tokens, the argument of
a pseudo-class is of the kind that is read after its name, and descendant combinators
stand between simple selectors.

* `SelectorList.Sound`: all of this holds, at any depth.
* `SelectorList.sound_of_selectors`: it is enough to look at the branches.
-/

namespace DomQuery.Selector

open DomQuery.Css DomQuery.Text

theorem forall_mem_some {α : Type} {p : α → Prop} {a : α} (h : p a) : ∀ b ∈ some a, p b := by
  rintro _ ⟨⟩
  exact h

def Qualifier.Sound : Qualifier → Prop
  | .named p => IsName p
  | _ => True

structure TypeSelector.Sound (t : TypeSelector) : Prop where
  qualifier : ∀ q ∈ t.qualifier, q.Sound
  localName : IsName t.localName

structure AttributeSelector.Sound (a : AttributeSelector) : Prop where
  qualifier : ∀ q ∈ a.qualifier, q.Sound
  name : IsName a.name
  value : ∀ c ∈ a.comparison, '\x00' ∉ c.value.toList
  flag : ∀ c ∈ a.comparison, ∀ flag ∈ c.flag, IsName flag

/-- A name after a colon. -/
def IsLowerName (name : String) : Prop :=
  IsName name ∧ lower name = name

theorem toList_lower (name : String) : (lower name).toList = name.toList.map Char.toLower := by
  rw [lower, String.toList_map]

theorem isLowerName_lower {name : String} (h : IsName name) : IsLowerName (lower name) := by
  refine ⟨⟨fun hempty => h.1 ?_, fun hnul => h.2 ?_⟩, ?_⟩
  · have hlist := congrArg String.toList hempty
    rw [toList_lower] at hlist
    exact String.toList_eq_nil_iff.mp (List.map_eq_nil_iff.mp hlist)
  · rw [toList_lower] at hnul
    obtain ⟨c, hc, hcn⟩ := List.mem_map.mp hnul
    rcases toLower_cases c with heq | hrange
    · rwa [← hcn, heq]
    · rw [hcn] at hrange
      exact absurd hrange.1 (by decide)
  · apply String.toList_injective
    rw [toList_lower, toList_lower, List.map_map]
    exact List.map_congr_left fun c _ => toLower_toLower c

/-- The argument is of a kind that is read after `name` and a bracket. -/
def Argument.Fits (name : String) : Argument → Prop
  | .selectors list => ∃ forgiving, (list.selectors = [] → forgiving = true) ∧
      ∀ items source, readArgument name items source = .selectors <$> readList forgiving items
  | .nth a b list? => InRange a ∧ InRange b ∧
      ∃ allowOf, (∀ list ∈ list?, allowOf = true ∧ list.selectors ≠ []) ∧
        ∀ items source, readArgument name items source = readNth allowOf items
  | _ => True

/-- The component is one that is read, whatever the lists in it hold. -/
def Component.Fits : Component → Prop
  | .combinator _ => True
  | .type t => t.Sound
  | .id name | .className name => IsName name
  | .attr a => a.Sound
  | .pseudoClass name argument => IsLowerName name ∧ ∀ a ∈ argument, a.Fits name
  | .pseudoElement name _ => IsLowerName name

/-- Components, last first: descendant combinators stand between simple selectors. -/
inductive Spaced : List Component → Prop
  | nil : Spaced []
  | combinator {c : Combinator} {components : List Component} (hc : c ≠ .descendant)
      (h : Spaced components) : Spaced (.combinator c :: components)
  | simple {s : Component} {components : List Component} (hs : ∀ c, s ≠ .combinator c)
      (space : Bool) (h : Spaced components) : Spaced (s :: joined space components)

structure Complex.Fits (within : Complex) : Prop where
  nonempty : within.components ≠ []
  spaced : Spaced within.components.reverse
  components : ∀ c ∈ within.components, c.Fits

/-- The list is one that is read, with all lists in it. -/
def SelectorList.Sound (list : SelectorList) : Prop :=
  ∀ inner ∈ list.allLists, ∀ within ∈ inner.selectors, within.Fits

structure Component.Sound (c : Component) : Prop where
  fits : c.Fits
  lists : ∀ list ∈ c.lists, list.Sound

structure Argument.Sound (name : String) (a : Argument) : Prop where
  fits : a.Fits name
  lists : ∀ list ∈ a.lists, list.Sound

theorem SelectorList.allLists_eq (list : SelectorList) : list.allLists =
    list :: list.selectors.flatMap fun within =>
      within.components.flatMap fun c => c.lists.flatMap allLists := by
  rw [allLists, holders_eq, List.map_flatMap]
  congr 2
  funext within
  rw [List.map_flatMap]
  congr 1
  funext c
  rw [Component.holders_eq, List.map_flatMap]
  rfl

theorem SelectorList.sound_of_selectors {list : SelectorList}
    (h : ∀ within ∈ list.selectors, within.components ≠ [] ∧ Spaced within.components.reverse ∧
      ∀ c ∈ within.components, c.Sound) : list.Sound := by
  intro inner hi
  rw [allLists_eq] at hi
  rcases List.mem_cons.mp hi with rfl | hi
  · intro within hw
    obtain ⟨hne, hspaced, hc⟩ := h within hw
    exact ⟨hne, hspaced, fun c hc' => (hc c hc').fits⟩
  · obtain ⟨within, hw, hi⟩ := List.mem_flatMap.mp hi
    obtain ⟨c, hc, hi⟩ := List.mem_flatMap.mp hi
    obtain ⟨list', hl, hi⟩ := List.mem_flatMap.mp hi
    exact ((h within hw).2.2 c hc).lists list' hl inner hi

end DomQuery.Selector
