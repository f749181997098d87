import DomQuery.Proofs.Query.Evaluation
import DomQuery.Proofs.Tree.Walk

/-!
# Following combinators

A combinator relates two nodes of a tree, in whichever direction it is followed.
`Related` is that relation. Where a step looks descendants up in an index, it
finds what a walk would find, for what the index leaves out cannot satisfy the
compound.

* `View.IsSound` is what matching relies on: the shape of the tree, document
  order, and indices that are exact where there are any.
* `mem_related_forward` and `mem_related_backward` say what a step leads to.
-/

namespace DomQuery.Query

open DomQuery.Selector DomQuery.Tree Matcher

/-! ### Trees to match on -/

section Trees

variable {ν : Type}

/-- The element satisfies the simple selector that is looked up. -/
def Lookup.Fits [DecidableEq ν] (t : Links ν) : Lookup → ν → Prop
  | .id name, n => t.id? n = some name
  | .className name, n => t.hasClass n name = true
  | .localName name, n => selectsType? t ⟨none, name⟩ n = .ok true

/-- The tree is well-formed, it compares its nodes by document order, and where
it keeps an index, the index is exact. -/
structure IsSound [DecidableEq ν] (v : View ν) : Prop where
  wellFormed : v.toLinks.WellFormed
  compare_eq_lt : ∀ {a b}, v.SameTree a b → (v.compare a b = .lt ↔ v.Before a b)
  compare_eq_eq : ∀ {a b}, v.SameTree a b → (v.compare a b = .eq ↔ a = b)
  elementsById : ∀ {scope name found}, v.elementsById scope name = some found →
    v.Lists scope ((Lookup.id name).Fits v.toLinks) found
  elementsByClass : ∀ {scope name found}, v.elementsByClass scope name = some found →
    v.Lists scope ((Lookup.className name).Fits v.toLinks) found
  elementsByName : ∀ {scope name found}, v.elementsByName scope name = some found →
    v.Lists scope ((Lookup.localName name).Fits v.toLinks) found

/-- A combinator leads from `x` to `y`. What stands between neighbours are no
elements. -/
def Related (t : Links ν) : Combinator → ν → ν → Prop
  | .child, x, y => t.parent y = some x
  | .descendant, x, y => t.Below x y
  | .nextSibling, x, y => ∃ p before between after,
      t.children p = before ++ x :: (between ++ y :: after) ∧ ∀ z ∈ between, ¬ t.isElement z = true
  | .subsequentSibling, x, y => t.Precedes x y

namespace Related

variable {t : Links ν} {c : Combinator} {x y : ν}

theorem exists_parent (ht : t.IsForest) (h : Related t c x y) : ∃ p, t.parent y = some p := by
  cases c with
  | child => exact ⟨x, h⟩
  | descendant =>
    obtain ⟨p, hp, -⟩ := Links.below_iff_parent.mp h
    exact ⟨p, hp⟩
  | nextSibling =>
    obtain ⟨p, before, between, after, hs, -⟩ := h
    exact ⟨p, ht.mem_children.mp (by simp [hs])⟩
  | subsequentSibling =>
    obtain ⟨p, -, hp⟩ := ht.parent_of_precedes h
    exact ⟨p, hp⟩

/-- Forward is onward in document order. -/
theorem before (ht : t.IsForest) (h : Related t c x y) : t.Before x y := by
  cases c with
  | child => exact ht.before_of_below (Links.below_of_parent h)
  | descendant => exact ht.before_of_below h
  | nextSibling =>
    obtain ⟨p, before, between, after, hs, -⟩ := h
    exact ht.before_of_after (Links.Precedes.after ⟨p, before, between, after, hs⟩)
  | subsequentSibling => exact ht.before_of_after (Links.Precedes.after h)

theorem sameTree (ht : t.IsForest) (h : Related t c x y) : t.SameTree x y := by
  have hsiblings : t.Precedes x y → t.SameTree x y := fun h => by
    obtain ⟨p, hx, hy⟩ := ht.parent_of_precedes h
    exact (ht.topmost_of_parent hx).trans (ht.topmost_of_parent hy).symm
  cases c with
  | child => exact ht.sameTree_of_within (Links.below_of_parent h).within
  | descendant => exact ht.sameTree_of_within h.within
  | nextSibling =>
    obtain ⟨p, before, between, after, hs, -⟩ := h
    exact hsiblings ⟨p, before, between, after, hs⟩
  | subsequentSibling => exact hsiblings h

end Related

end Trees

variable {ν : Type} [DecidableEq ν] {ctx : Context ν}

namespace Context

/-- The tree around the context node is sound, and its root is the top of the
tree. -/
structure Grounded (ctx : Context ν) : Prop where
  sound : IsSound ctx.tree
  root_eq : ctx.root = ctx.tree.topmost ctx.node

/-- The nodes that are tested: those of the tree and, from within a shadow tree,
the host and what is around it. -/
def InReach (ctx : Context ν) (n : ν) : Prop :=
  ctx.shadow = true ∨ ctx.tree.Within ctx.root n

/-- The compound holds at `n`. -/
def Satisfies (ctx : Context ν) (k : Compound) (n : ν) : Prop :=
  Yes ((ctx.compoundProbe false k).holds n)

namespace Grounded

variable (hctx : ctx.Grounded)
include hctx

theorem wellFormed : ctx.tree.toLinks.WellFormed :=
  hctx.sound.wellFormed

theorem isForest : ctx.tree.toLinks.IsForest :=
  hctx.sound.wellFormed.toIsForest

theorem within_root {n : ν} : ctx.tree.Within ctx.root n ↔ ctx.tree.SameTree ctx.node n := by
  have ht := hctx.isForest
  rw [hctx.root_eq]
  constructor
  · intro h
    have := ht.sameTree_of_within h
    rw [Links.SameTree, Links.topmost_of_parent_none (ht.parent_topmost _)] at this
    exact this
  · intro h
    rw [Links.SameTree] at h
    rw [h]
    exact ht.within_topmost n

theorem within_root_of_sameTree {a b : ν} (h : ctx.tree.SameTree a b)
    (ha : ctx.tree.Within ctx.root a) : ctx.tree.Within ctx.root b :=
  hctx.within_root.mpr ((hctx.within_root.mp ha).trans h)

theorem sameTree {a b : ν} (ha : ctx.tree.Within ctx.root a) (hb : ctx.tree.Within ctx.root b) :
    ctx.tree.SameTree a b :=
  (hctx.within_root.mp ha).symm.trans (hctx.within_root.mp hb)

/-- Among nodes that have a parent, elements are the only candidates. -/
theorem candidate_iff {n p : ν} (hp : ctx.tree.parent n = some p) :
    ctx.isAncestorCandidate n = true ↔ ctx.tree.isElement n = true := by
  have hk := (hctx.wellFormed.kind_of_child hp).2
  unfold isAncestorCandidate Links.isElement
  cases h : ctx.tree.kind n <;> simp_all

end Grounded

/-! ### Looking descendants up -/

omit [DecidableEq ν] in
theorem yes_holdsType {forgive : Bool} {s : TypeSelector} {n : ν} :
    Yes (ctx.holdsType forgive s n) ↔ selectsType? ctx.tree.toLinks s n = .ok true := by
  unfold holdsType
  rcases selectsType? ctx.tree.toLinks s n with e | b
  · cases forgive <;> simp [Yes]
  · simp [Yes]

/-- What is looked up is the first simple selector of the compound, and it holds
of the elements that fit. -/
theorem lookup?_cons (ctx : Context ν) {k : Compound} {l : Lookup} (h : lookup? k = some l) :
    ∃ s rest, k = s :: rest ∧ ∀ forgive n, Yes (ctx.holdsSimple forgive s n) ↔
      ctx.tree.kind n = .element ∧ l.Fits ctx.tree.toLinks n := by
  unfold lookup? at h
  split at h
  · obtain rfl : _ = l := by simpa using h
    refine ⟨_, _, rfl, fun forgive n => ?_⟩
    rw [holdsSimple, yes_onElements, yes_pure, beq_iff_eq]
    rfl
  · obtain rfl : _ = l := by simpa using h
    refine ⟨_, _, rfl, fun forgive n => ?_⟩
    rw [holdsSimple, yes_onElements, yes_pure]
    rfl
  · rename_i s rest
    split at h
    · rename_i hs
      obtain rfl : _ = l := by simpa using h
      refine ⟨_, _, rfl, fun forgive n => ?_⟩
      obtain ⟨qualifier, localName⟩ := s
      obtain rfl : qualifier = none := by simp_all
      rw [holdsSimple, yes_onElements, yes_holdsType]
      rfl
    · cases h
  · cases h

theorem fits_of_satisfies {k : Compound} {l : Lookup} {n : ν} (hl : lookup? k = some l)
    (h : ctx.Satisfies k n) : ctx.tree.isElement n = true ∧ l.Fits ctx.tree.toLinks n := by
  obtain ⟨s, rest, rfl, hs⟩ := lookup?_cons ctx hl
  rw [Links.isElement_iff]
  exact (hs false n).mp (yes_of_cons h)

omit [DecidableEq ν] in
theorem allHold_singleton (test : ν → Eval ν Bool) (n : ν) : allHold [test] n = test n := by
  change (test n >>= fun b => match b with
    | true => pure true
    | false => pure false) = test n
  refine Eq.trans ?_ (bind_pure _)
  congr 1
  funext b
  cases b <;> rfl

theorem satisfies_singleton {s : Simple} {n : ν} :
    ctx.Satisfies [s] n ↔ Yes (ctx.holdsSimple false s n) := by
  rw [← allHold_singleton (ctx.holdsSimple false s)]
  rfl

theorem satisfies_of_fits {k : Compound} {l : Lookup} {n : ν} (hl : lookup? k = some l)
    (hk : k.length = 1) (he : ctx.tree.isElement n = true) (h : l.Fits ctx.tree.toLinks n) :
    ctx.Satisfies k n := by
  obtain ⟨s, rest, rfl, hs⟩ := lookup?_cons ctx hl
  obtain rfl : rest = [] := by simpa using hk
  exact satisfies_singleton.mpr ((hs false n).mpr ⟨Links.isElement_iff.mp he, h⟩)

theorem Grounded.lists_indexedBelow (hctx : ctx.Grounded) {scope : ν} {l : Lookup}
    {found : List ν} (hs : ctx.InReach scope)
    (h : ctx.indexedBelow scope l = some found) :
    ctx.tree.Lists scope (l.Fits ctx.tree.toLinks) found := by
  have ht := hctx.isForest
  cases l with
  | id name =>
    rw [indexedBelow] at h
    split at h
    · rename_i hd
      -- ids are not looked up in shadow trees
      have hs : ctx.tree.Within ctx.root scope :=
        hs.resolve_left (by simp_all [searchesDocument])
      obtain ⟨all, hall, rfl⟩ := Option.map_eq_some_iff.mp h
      obtain ⟨hpairwise, hmem⟩ := hctx.sound.elementsById hall
      refine ⟨hpairwise.filter _, fun n => ?_⟩
      rw [List.mem_filter, hmem, Bool.and_eq_true, ht.contains_iff, bne_iff_ne]
      constructor
      · rintro ⟨⟨he, -, hf⟩, hne, hw⟩
        exact ⟨he, (Links.within_iff.mp hw).resolve_left hne, hf⟩
      · rintro ⟨he, hb, hf⟩
        refine ⟨⟨he, hs.trans_below hb, hf⟩, ?_, hb.within⟩
        rintro rfl
        exact ht.acyclic _ hb
    · cases h
  | className name => exact hctx.sound.elementsByClass h
  | localName name => exact hctx.sound.elementsByName h

/-- With or without an index, the same descendants satisfy the compound. -/
theorem Grounded.mem_descendants (hctx : ctx.Grounded) {k : Compound} {n y : ν}
    (hn : ctx.tree.Within ctx.root n) (hy : ctx.Satisfies k y) :
    y ∈ ctx.descendants (lookup? k) n ↔ ctx.tree.isElement y = true ∧ ctx.tree.Below n y := by
  unfold descendants
  rcases hl : lookup? k with _ | l
  · exact hctx.wellFormed.mem_walk
  rcases hi : ctx.indexedBelow n l with _ | found
  · simp only [Option.bind_some, hi]
    exact hctx.wellFormed.mem_walk
  · simp only [Option.bind_some, hi, Option.getD_some]
    rw [(hctx.lists_indexedBelow (.inr hn) hi).2]
    have hf := (fits_of_satisfies hl hy).2
    exact ⟨fun ⟨he, hb, _⟩ => ⟨he, hb⟩, fun ⟨he, hb⟩ => ⟨he, hb, hf⟩⟩

/-! ### Siblings -/

section Siblings

variable (hctx : ctx.Grounded)
include hctx

theorem Grounded.mem_siblings_forward {x y : ν} :
    y ∈ ctx.siblings ctx.tree.nextSibling x ↔
      Related ctx.tree.toLinks .subsequentSibling x y ∧ ctx.tree.isElement y = true := by
  have ht := hctx.isForest
  unfold siblings
  split
  · rename_i p hp
    obtain ⟨before, after, hs⟩ := ht.children_of_parent hp
    rw [ht.follow_nextSibling hs (ht.length_split_le hs).2, List.mem_filter,
      ← ht.precedes_iff_right hs]
    rfl
  · rename_i hp
    simp only [List.not_mem_nil, false_iff]
    rintro ⟨h, -⟩
    obtain ⟨p, hx, -⟩ := ht.parent_of_precedes h
    simp [hp] at hx

theorem Grounded.mem_siblings_backward {x y : ν} :
    x ∈ ctx.siblings ctx.tree.previousSibling y ↔
      Related ctx.tree.toLinks .subsequentSibling x y ∧ ctx.tree.isElement x = true := by
  have ht := hctx.isForest
  unfold siblings
  split
  · rename_i p hp
    obtain ⟨before, after, hs⟩ := ht.children_of_parent hp
    rw [ht.follow_previousSibling hs (ht.length_split_le hs).1, List.mem_filter,
      List.mem_reverse, ← ht.precedes_iff_left hs]
    rfl
  · rename_i hp
    simp only [List.not_mem_nil, false_iff]
    rintro ⟨h, -⟩
    obtain ⟨p, -, hy⟩ := ht.parent_of_precedes h
    simp [hp] at hy

theorem Grounded.mem_adjacent_forward {x y : ν} :
    y ∈ ctx.adjacent ctx.tree.nextElementSibling x ↔
      Related ctx.tree.toLinks .nextSibling x y ∧ ctx.tree.isElement y = true := by
  have ht := hctx.isForest
  unfold adjacent
  split
  · rename_i p hp
    obtain ⟨before, after, hs⟩ := ht.children_of_parent hp
    rw [ht.nextElementSibling_eq hs, Option.mem_toList, List.find?_eq_some_iff_append]
    constructor
    · rintro ⟨he, between, after, rfl, hb⟩
      exact ⟨⟨p, before, between, after, hs, by simpa using hb⟩, he⟩
    · rintro ⟨⟨p', before', between, after', hs', hb⟩, he⟩
      obtain rfl : p = p' := by simpa [hp] using ht.parent_of_children hs'
      obtain ⟨-, rfl⟩ := ht.split_unique hs hs'
      exact ⟨he, between, after', rfl, by simpa using hb⟩
  · rename_i hp
    simp only [List.not_mem_nil, false_iff]
    rintro ⟨⟨p, before, between, after, hs, -⟩, -⟩
    have hx := ht.parent_of_children hs
    simp [hp] at hx

theorem Grounded.mem_adjacent_backward {x y : ν} :
    x ∈ ctx.adjacent ctx.tree.previousElementSibling y ↔
      Related ctx.tree.toLinks .nextSibling x y ∧ ctx.tree.isElement x = true := by
  have ht := hctx.isForest
  unfold adjacent
  split
  · rename_i p hp
    obtain ⟨before, after, hs⟩ := ht.children_of_parent hp
    rw [ht.previousElementSibling_eq hs, Option.mem_toList, List.find?_eq_some_iff_append]
    constructor
    · rintro ⟨he, between, rest, hb, hbetween⟩
      have hb' : before = rest.reverse ++ x :: between.reverse := by
        simpa using congrArg List.reverse hb
      subst hb'
      refine ⟨⟨p, rest.reverse, between.reverse, after, by simpa using hs, ?_⟩, he⟩
      simpa using hbetween
    · rintro ⟨⟨p', before', between, after', hs', hb⟩, he⟩
      have hs'' : ctx.tree.children p' = (before' ++ x :: between) ++ y :: after' := by
        simpa using hs'
      obtain rfl : p = p' := by simpa [hp] using ht.parent_of_children hs''
      obtain ⟨rfl, -⟩ := ht.split_unique hs hs''
      exact ⟨he, between.reverse, before'.reverse, by simp, by simpa using hb⟩
  · rename_i hp
    simp only [List.not_mem_nil, false_iff]
    rintro ⟨h, -⟩
    obtain ⟨p, hy⟩ := h.exists_parent ht
    simp [hp] at hy

end Siblings

/-! ### Steps -/

section Steps

variable (hctx : ctx.Grounded)
include hctx

/-- A step forward leads to elements. -/
theorem Grounded.mem_related_forward {c : Combinator} {k : Compound} {x y : ν}
    (hx : ctx.tree.Within ctx.root x) (hy : ctx.Satisfies k y) :
    y ∈ ctx.related .forward c (lookup? k) x ↔
      Related ctx.tree.toLinks c x y ∧ ctx.tree.isElement y = true := by
  cases c with
  | child =>
    rw [related, Links.elementChildren, List.mem_filter, hctx.isForest.mem_children]
    rfl
  | descendant =>
    rw [related, hctx.mem_descendants hx hy, and_comm]
    rfl
  | nextSibling => exact hctx.mem_adjacent_forward
  | subsequentSibling => exact hctx.mem_siblings_forward

/-- Only the last node on the way up may be no element. -/
theorem Grounded.mem_takeWhile_ancestors {x y : ν} :
    x ∈ (ctx.tree.ancestors y).takeWhile ctx.isAncestorCandidate ↔
      ctx.tree.Below x y ∧ ctx.isAncestorCandidate x = true := by
  have ht := hctx.isForest
  induction y using ht.induction with
  | top y hp =>
    simp only [Links.ancestors_of_parent_none hp, List.takeWhile_nil, List.not_mem_nil, false_iff]
    exact fun h => Links.not_below_of_parent_none hp h.1
  | child y p hp ih =>
    rw [ht.ancestors_of_parent hp, List.takeWhile_cons]
    have hbelow : ctx.tree.Below x y ↔ x = p ∨ ctx.tree.Below x p := by
      rw [Links.below_iff_parent]
      constructor
      · rintro ⟨p', hp', hw⟩
        obtain rfl : p = p' := by simpa [hp] using hp'
        exact (Links.within_iff.mp hw).imp Eq.symm id
      · rintro (rfl | h)
        · exact ⟨x, hp, .refl x⟩
        · exact ⟨p, hp, h.within⟩
    split
    · rename_i hc
      rw [List.mem_cons, hbelow]
      refine (or_congr_right ih).trans ?_
      constructor
      · rintro (rfl | ⟨h, hx⟩)
        · exact ⟨.inl rfl, hc⟩
        · exact ⟨.inr h, hx⟩
      · rintro ⟨rfl | h, hx⟩
        · exact .inl rfl
        · exact .inr ⟨h, hx⟩
    · rename_i hc
      simp only [List.not_mem_nil, false_iff, hbelow]
      rintro ⟨rfl | h, hx⟩
      · exact hc hx
      -- a node with something above it that has children itself is an element
      · obtain ⟨q, hq, -⟩ := Links.below_iff_parent.mp h
        refine hc ((hctx.candidate_iff hq).mpr ?_)
        rw [Links.isElement_iff]
        obtain ⟨hd, hf⟩ := hctx.wellFormed.kind_of_child hq
        exact ((hctx.wellFormed.kind_of_parent hp).resolve_left hd).resolve_left hf

/-- A step backward leads to elements and to the shadow root. -/
theorem Grounded.mem_related_backward {c : Combinator} {l : Option Lookup} {x y : ν} :
    x ∈ ctx.related .backward c l y ↔
      Related ctx.tree.toLinks c x y ∧ ctx.isAncestorCandidate x = true := by
  have ht := hctx.isForest
  cases c with
  | child =>
    rw [related, List.mem_filter, Option.mem_toList]
    rfl
  | descendant => exact hctx.mem_takeWhile_ancestors
  | nextSibling =>
    refine hctx.mem_adjacent_backward.trans (and_congr_right fun h => ?_)
    obtain ⟨p, before, between, after, hs, -⟩ := h
    exact (hctx.candidate_iff (ht.parent_of_children hs)).symm
  | subsequentSibling =>
    refine hctx.mem_siblings_backward.trans (and_congr_right fun h => ?_)
    obtain ⟨p, hp, -⟩ := ht.parent_of_precedes h
    exact (hctx.candidate_iff hp).symm

end Steps

end Context

end DomQuery.Query
