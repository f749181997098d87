import DomQuery.Proofs.Outcome
import DomQuery.Proofs.Selector.Nested
import DomQuery.Selector.Resolve

/-!
# Splitting a branch

A branch is split into a chain part by part. `Chain.spell` writes a chain out again,
and what is split is exactly what is written in this way: the same combinators between
the same compounds.

* `Chain.splitFrom_cons`: what one part does to what was read.
* `Chain.Partial.Step.parts_eq`, `Chain.Partial.Step.sound`: a step writes its part
  down, and keeps the shape.
* `Chain.split_eq_ok`: splitting undoes writing out, and does nothing else.
-/

namespace DomQuery.Selector

namespace Chain

/-! ### Chains by their compounds and combinators -/

section Compounds

variable {κ μ : Type}

@[simp]
theorem compounds_map (f : κ → μ) (c : Chain κ) : (c.map f).compounds = c.compounds.map f := by
  simp [compounds, map]

theorem mem_compounds_map {f : κ → μ} {c : Chain κ} {k : μ} :
    k ∈ (c.map f).compounds ↔ ∃ k' ∈ c.compounds, f k' = k := by
  rw [compounds_map, List.mem_map]

end Compounds

/-! ### Chains written out -/

section Spell

variable {α β : Type}

/-- The members of the compounds of a chain in order, with the combinators at their
places. -/
def spell (combinator : Combinator → α) (c : Chain (List α)) : List α :=
  c.leading.toList.map combinator ++
    (c.links.flatMap (fun link => link.compound ++ [combinator link.combinator]) ++ c.last)

/-- No compound is empty, and a leading combinator and inner ones stand only where
they may. -/
structure Fits (mode : ListMode) (c : Chain (List α)) : Prop where
  ne_nil : ∀ k ∈ c.compounds, k ≠ []
  leading : c.leading ≠ none → mode = .relative
  links : mode = .compound → c.links = []

/-- What is written out are the combinators and the members of the compounds. -/
theorem mem_spell {combinator : Combinator → α} {c : Chain (List α)} {x : α}
    (h : x ∈ c.spell combinator) : (∃ k, x = combinator k) ∨ ∃ k ∈ c.compounds, x ∈ k := by
  simp only [spell, List.mem_append, List.mem_map, List.mem_flatMap, List.mem_singleton] at h
  rcases h with ⟨k, -, rfl⟩ | ⟨link, hl, hx | rfl⟩ | hx
  · exact .inl ⟨k, rfl⟩
  · exact .inr ⟨_, compound_mem_compounds hl, hx⟩
  · exact .inl ⟨_, rfl⟩
  · exact .inr ⟨_, last_mem_compounds c, hx⟩

theorem mem_spell_of_mem {combinator : Combinator → α} {c : Chain (List α)} {k : List α}
    (hk : k ∈ c.compounds) {x : α} (hx : x ∈ k) : x ∈ c.spell combinator := by
  rcases mem_compounds.mp hk with ⟨link, hl, rfl⟩ | rfl
  · simp only [spell, List.mem_append, List.mem_flatMap]
    exact .inr (.inl ⟨link, hl, .inl hx⟩)
  · simp only [spell, List.mem_append]
    exact .inr (.inr hx)

end Spell

section Split

variable {σ : Type} {mode : ListMode} {within : Complex}

/-- A chain as the parts of a branch, none of which is faulty. -/
def parts (c : Chain (List σ)) : List (Combinator ⊕ Except SelectorError σ) :=
  (c.map (List.map fun s => .inr (.ok s))).spell .inl

theorem ok_mem_parts {c : Chain (List σ)} {k : List σ} (hk : k ∈ c.compounds) {s : σ}
    (hs : s ∈ k) : .inr (.ok s) ∈ c.parts := by
  refine mem_spell_of_mem (k := k.map fun s => .inr (.ok s)) ?_ (List.mem_map_of_mem hs)
  rw [compounds_map]
  exact List.mem_map_of_mem hk

theorem error_not_mem_parts {c : Chain (List σ)} {e : SelectorError} :
    .inr (.error e) ∉ c.parts := by
  intro h
  rcases mem_spell h with ⟨k, hk⟩ | ⟨k, hk, he⟩
  · cases hk
  · rw [compounds_map, List.mem_map] at hk
    obtain ⟨k, -, rfl⟩ := hk
    obtain ⟨s, -, hs⟩ := List.mem_map.mp he
    cases hs

/-! ### One part -/

/-- What was read, as a chain that ends in the open compound. -/
def Partial.toChain (read : Partial σ) : Chain (List σ) :=
  ⟨read.leading, read.links.reverse, read.compound.reverse⟩

/-- What was read has the right shape up to the open compound, and a combinator is
pending unless there is something in it or nothing was read at all. -/
structure Partial.Sound (mode : ListMode) (read : Partial σ) : Prop where
  ne_nil : ∀ link ∈ read.links, link.compound ≠ []
  leading : read.leading ≠ none → mode = .relative
  start : read.compound = [] → read.previous = none → read.leading = none

/-- What a part does to what was read: a combinator begins the branch or closes the
open compound, and a simple selector goes into it. -/
inductive Partial.Step (mode : ListMode) (read : Partial σ) :
    Combinator ⊕ Except SelectorError σ → Partial σ → Prop
  | begin (c : Combinator) (hprevious : read.previous = none) (hopen : read.compound = [])
      (hmode : mode = .relative) (hlinks : read.links = []) :
      Step mode read (.inl c) ⟨some c, [], [], some c⟩
  | close (c : Combinator) (hprevious : read.previous = none) (hopen : read.compound ≠ []) :
      Step mode read (.inl c)
        ⟨read.leading, ⟨read.compound.reverse, c⟩ :: read.links, [], some c⟩
  | add (s : σ) :
      Step mode read (.inr (.ok s)) { read with compound := s :: read.compound, previous := none }

variable {read read' : Partial σ} {c : Chain (List σ)}
variable {part : Combinator ⊕ Except SelectorError σ}
variable {rest : List (Combinator ⊕ Except SelectorError σ)}

/-- A branch ends after a compound that is not empty. -/
theorem splitFrom_nil : splitFrom mode within read [] = .ok c ↔
    read.toChain = c ∧ read.compound ≠ [] ∧ (mode = .compound → read.links = []) := by
  rw [splitFrom]
  split
  · rename_i hopen
    rw [List.isEmpty_iff] at hopen
    exact ⟨nofun, fun h => absurd hopen h.2.1⟩
  rename_i hopen
  rw [List.isEmpty_iff] at hopen
  split
  · rename_i hmode
    simp only [Bool.and_eq_true, beq_iff_eq, Bool.not_eq_true', List.isEmpty_eq_false_iff] at hmode
    exact ⟨nofun, fun h => absurd (h.2.2 hmode.1) hmode.2⟩
  · rename_i hmode
    have hlinks : mode = .compound → read.links = [] := by simpa using hmode
    exact pure_eq_ok.trans ⟨fun h => ⟨h, hopen, hlinks⟩, fun h => h.1⟩

/-- A branch is split part by part. -/
theorem splitFrom_cons : splitFrom mode within read (part :: rest) = .ok c ↔
    ∃ read', Partial.Step mode read part read' ∧ splitFrom mode within read' rest = .ok c := by
  constructor
  · intro h
    rcases part with combinator | result
    · rw [splitFrom] at h
      split at h
      · cases h
      rename_i hprevious
      split at h
      · rename_i hopen
        split at h
        · rename_i hbegin
          rw [Bool.and_eq_true, beq_iff_eq, List.isEmpty_iff] at hbegin
          exact ⟨_, .begin _ hprevious (List.isEmpty_iff.mp hopen) hbegin.1 hbegin.2, h⟩
        · cases h
      · rename_i hopen
        rw [List.isEmpty_iff] at hopen
        exact ⟨_, .close _ hprevious hopen, h⟩
    · obtain ⟨s, rfl, h⟩ := bind_eq_ok.mp h
      exact ⟨_, .add s, h⟩
  · rintro ⟨read', hstep, h⟩
    cases hstep with
    | begin combinator hprevious hopen hmode hlinks =>
      simpa [splitFrom, hprevious, hopen, hmode, hlinks] using h
    | close combinator hprevious hopen =>
      simpa [splitFrom, hprevious, hopen] using h
    | add s => exact h

namespace Partial

/-- A step writes its part down. -/
theorem Step.parts_eq (h : Step mode read part read') (hread : read.Sound mode) :
    read'.toChain.parts = read.toChain.parts ++ [part] := by
  cases h with
  | begin combinator hprevious hopen _ hlinks =>
    simp [parts, spell, map, toChain, hread.start hopen hprevious, hlinks, hopen]
  | close combinator _ _ => simp [parts, spell, map, toChain]
  | add s => simp [parts, spell, map, toChain]

/-- A step keeps the shape. -/
theorem Step.sound (h : Step mode read part read') (hread : read.Sound mode) :
    read'.Sound mode := by
  cases h with
  | begin combinator _ _ hmode _ => exact ⟨by simp, fun _ => hmode, by simp⟩
  | close combinator _ hopen =>
    exact ⟨List.forall_mem_cons.mpr ⟨by simpa using hopen, hread.ne_nil⟩, hread.leading, by simp⟩
  | add s => exact ⟨hread.ne_nil, hread.leading, by simp⟩

end Partial

/-! ### All parts -/

/-- A branch that could be split spells the chain it was split into. -/
theorem eq_parts_of_splitFrom (hread : read.Sound mode)
    (h : splitFrom mode within read rest = .ok c) :
    read.toChain.parts ++ rest = c.parts ∧ c.Fits mode := by
  induction rest generalizing read with
  | nil =>
    obtain ⟨rfl, hopen, hmode⟩ := splitFrom_nil.mp h
    refine ⟨List.append_nil _, ?_, hread.leading, fun hm => ?_⟩
    · intro k hk
      rcases mem_compounds.mp hk with ⟨link, hl, rfl⟩ | rfl
      · exact hread.ne_nil link (List.mem_reverse.mp hl)
      · simpa [Partial.toChain] using hopen
    · simp [Partial.toChain, hmode hm]
  | cons part rest ih =>
    obtain ⟨read', hstep, h⟩ := splitFrom_cons.mp h
    obtain ⟨hparts, hfits⟩ := ih (hstep.sound hread) h
    refine ⟨?_, hfits⟩
    rw [← hparts, hstep.parts_eq hread, List.append_assoc, List.singleton_append]

/-- Simple selectors are read into the open compound. -/
theorem splitFrom_simples (k : List σ) (rest : List (Combinator ⊕ Except SelectorError σ)) :
    splitFrom mode within read (k.map (fun s => .inr (.ok s)) ++ rest) =
      splitFrom mode within { read with
        compound := k.reverse ++ read.compound
        previous := if k = [] then read.previous else none } rest := by
  induction k generalizing read with
  | nil => rfl
  | cons s k ih =>
    rw [List.map_cons, List.cons_append, splitFrom]
    refine (@ih { read with compound := s :: read.compound, previous := none }).trans ?_
    simp

/-- Links written out are read as they are. -/
theorem splitFrom_links {links : List (Link (List σ))} (hne : ∀ link ∈ links, link.compound ≠ [])
    (rest : List (Combinator ⊕ Except SelectorError σ)) (hopen : read.compound = []) :
    ∃ previous, splitFrom mode within read
        (links.flatMap (fun link => link.compound.map (fun s => .inr (.ok s)) ++
          [.inl link.combinator]) ++ rest) =
      splitFrom mode within ⟨read.leading, links.reverse ++ read.links, [], previous⟩ rest := by
  induction links generalizing read with
  | nil =>
    obtain ⟨leading, links, compound, previous⟩ := read
    obtain rfl : compound = [] := hopen
    exact ⟨previous, rfl⟩
  | cons link links ih =>
    obtain ⟨hlink, hlinks⟩ := List.forall_mem_cons.mp hne
    obtain ⟨previous, ih⟩ :=
      @ih ⟨read.leading, link :: read.links, [], some link.combinator⟩ hlinks rfl
    refine ⟨previous, ?_⟩
    rw [List.flatMap_cons, List.append_assoc, List.append_assoc, splitFrom_simples,
      List.singleton_append, splitFrom]
    simp only [hopen, List.append_nil, hlink, if_false, List.isEmpty_reverse, List.reverse_reverse]
    rw [if_neg (by simpa using hlink), ih]
    simp

/-- A chain of the right shape that is written out is split into itself. -/
theorem split_parts (hfits : c.Fits mode) : split mode within c.parts = .ok c := by
  obtain ⟨leading, links, last⟩ := c
  have hne : ∀ link ∈ links, link.compound ≠ [] := fun link hl =>
    hfits.ne_nil _ (compound_mem_compounds hl)
  have hlast : last ≠ [] := hfits.ne_nil _ (last_mem_compounds _)
  -- what follows the leading combinator, if there is one
  have hrest (read : Partial σ) (hopen : read.compound = []) (hlinks : read.links = []) :
      splitFrom mode within read (links.flatMap (fun link =>
          link.compound.map (fun s => .inr (.ok s)) ++ [.inl link.combinator]) ++
        last.map fun s => .inr (.ok s)) = .ok ⟨read.leading, links, last⟩ := by
    obtain ⟨previous, h⟩ := splitFrom_links hne (last.map fun s => .inr (.ok s)) hopen
    rw [h, ← List.append_nil (last.map _), splitFrom_simples, splitFrom_nil]
    refine ⟨by simp [Partial.toChain, hlinks], by simpa using hlast, fun hmode => ?_⟩
    rw [hlinks, show links = [] from hfits.links hmode]
    rfl
  have hparts : (Chain.mk leading links last).parts = leading.toList.map .inl ++
      (links.flatMap (fun link =>
          link.compound.map (fun s => .inr (.ok s)) ++ [.inl link.combinator]) ++
        last.map fun s => .inr (.ok s)) := by
    simp [parts, spell, map, List.flatMap_map]
  rw [split, hparts]
  cases leading with
  | none => exact hrest ⟨none, [], [], none⟩ rfl rfl
  | some k =>
    have hmode : mode = .relative := hfits.leading (by simp)
    exact splitFrom_cons.mpr ⟨_, .begin k rfl rfl hmode rfl, hrest ⟨some k, [], [], some k⟩ rfl rfl⟩

/-- A branch is split into a chain exactly if it is that chain, in the right shape and
without a fault, written out. -/
theorem split_eq_ok :
    split mode within rest = .ok c ↔ rest = c.parts ∧ c.Fits mode := by
  constructor
  · exact fun h => eq_parts_of_splitFrom ⟨by simp, by simp, fun _ _ => rfl⟩ h
  · rintro ⟨rfl, hfits⟩
    exact split_parts hfits

/-- What a chain was split from: its compounds are not empty, and what is in them was
among the parts. -/
theorem split_inv (h : split mode within rest = .ok c) :
    ∀ k ∈ c.compounds, k ≠ [] ∧ ∀ s ∈ k, .inr (.ok s) ∈ rest := by
  obtain ⟨rfl, hfits⟩ := split_eq_ok.mp h
  exact fun k hk => ⟨hfits.ne_nil k hk, fun s hs => ok_mem_parts hk hs⟩

/-- Without combinators there is one compound. -/
theorem split_compound {simples : List (Except SelectorError σ)}
    (h : split mode within (simples.map .inr) = .ok c) :
    ∃ found, List.Forall₂ (fun simple s => simple = .ok s) simples found ∧
      c = ⟨none, [], found⟩ := by
  obtain ⟨hparts, -⟩ := split_eq_ok.mp h
  have hno : ∀ combinator, .inl combinator ∉ c.parts := fun combinator hm => by
    obtain ⟨_, _, h⟩ := List.mem_map.mp (hparts ▸ hm)
    cases h
  obtain ⟨leading, links, last⟩ := c
  obtain rfl : leading = none := Option.eq_none_iff_forall_ne_some.mpr fun combinator he =>
    hno combinator (by simp [parts, spell, map, he])
  obtain rfl : links = [] := List.eq_nil_iff_forall_not_mem.mpr fun link hl =>
    hno link.combinator (by simpa [parts, spell, map] using ⟨link, hl, rfl⟩)
  have hlast : simples = last.map .ok := by
    refine List.map_injective_iff.mpr (fun _ _ => Sum.inr.inj) (hparts.trans ?_)
    simp [parts, spell, map]
  refine ⟨last, ?_, rfl⟩
  rw [hlast, List.forall₂_map_left_iff, List.forall₂_same]
  exact fun s _ => rfl

end Split

end Chain

end DomQuery.Selector
