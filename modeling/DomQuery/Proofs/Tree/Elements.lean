import DomQuery.Proofs.Tree.Walk

/-!
# The elements of a forest

A walk steps from element to element and visits nothing below other nodes, so it
cannot tell a forest from what is left of it when only elements have a parent
(`Links.elements`). What is left is well-formed if only documents, fragments and
elements have children (`IsForest.elements`), wherever fragments may stand; so the
walk visits what a path of elements leads to.

* `IsForest.walk_elements`: a walk is the same in both.
* `IsForest.mem_walk_iff_reaches`, `IsForest.pairwise_walk`: what a walk visits, and in
  which order.
-/

namespace DomQuery.Tree.Links

variable {ν : Type} (t : Links ν)

/-- The forest of the elements: other nodes are at the top. -/
def elements : Links ν :=
  { t with
    parent := fun n => if t.isElement n then t.parent n else none
    firstChild := t.firstElementChild
    lastChild := fun p => (t.elementChildren p).getLast?
    nextSibling := t.nextElementSibling
    previousSibling := t.previousElementSibling }

/-- A path of elements leads from `top` down to `n`. -/
def Reaches (top n : ν) : Prop :=
  Relation.TransGen (fun p c => t.parent c = some p ∧ t.isElement c = true) top n

variable {t}

theorem parent_elements {n p : ν} :
    t.elements.parent n = some p ↔ t.parent n = some p ∧ t.isElement n = true := by
  change (if t.isElement n then t.parent n else none) = some p ↔ _
  split <;> simp [*]

theorem Reaches.isElement {top n : ν} (h : t.Reaches top n) : t.isElement n = true := by
  obtain ⟨p, -, hp⟩ := Relation.TransGen.tail'_iff.mp h
  exact hp.2

theorem Reaches.below {top n : ν} (h : t.Reaches top n) : t.Below top n :=
  Relation.TransGen.mono (fun _ _ => And.left) _ _ h

theorem below_elements {top n : ν} : t.elements.Below top n ↔ t.Reaches top n := by
  simp only [Below, Reaches, parent_elements]

/-- There are only elements among the children that are. -/
theorem find?_of_elementChildren {p : ν} {before after : List ν}
    (h : t.elementChildren p = before ++ after) : after.find? t.isElement = after.head? := by
  have hall : ∀ c ∈ after, t.isElement c = true := fun c hc =>
    (List.mem_filter.mp (h ▸ List.mem_append_right before hc)).2
  rw [← List.head?_filter, List.filter_eq_self.mpr hall]

namespace IsForest

variable (ht : t.IsForest)

include ht

theorem nextElementSibling_of_split {p n : ν} {before after : List ν}
    (h : t.elementChildren p = before ++ n :: after) : t.nextElementSibling n = after.head? := by
  obtain ⟨l, l', hs, -, hl'⟩ := List.filter_eq_append_iff.mp h
  obtain ⟨skipped, rest, rfl, -, -, hrest⟩ := List.filter_eq_cons_iff.mp hl'
  have hs' : t.children p = (l ++ skipped) ++ n :: rest := by simpa using hs
  rw [ht.nextElementSibling_eq hs', ← hrest, List.head?_filter]

theorem previousElementSibling_of_split {p n : ν} {before after : List ν}
    (h : t.elementChildren p = before ++ n :: after) :
    t.previousElementSibling n = before.getLast? := by
  obtain ⟨l, l', hs, hl, hl'⟩ := List.filter_eq_append_iff.mp h
  obtain ⟨skipped, rest, rfl, hskipped, -, -⟩ := List.filter_eq_cons_iff.mp hl'
  have hs' : t.children p = (l ++ skipped) ++ n :: rest := by simpa using hs
  have hbefore : (l ++ skipped).filter t.isElement = before := by
    rw [List.filter_append, hl, List.filter_eq_nil_iff.mpr (by simpa using hskipped),
      List.append_nil]
  rw [ht.previousElementSibling_eq hs', ← List.head?_filter, List.filter_reverse, hbefore,
    List.head?_reverse]

theorem precedes_of_split {p x y : ν} {before between after : List ν}
    (h : t.elementChildren p = before ++ x :: (between ++ y :: after)) : t.Precedes x y := by
  obtain ⟨l, l', hs, -, hl'⟩ := List.filter_eq_append_iff.mp h
  obtain ⟨skipped, rest, rfl, -, -, hrest⟩ := List.filter_eq_cons_iff.mp hl'
  have hs' : t.children p = (l ++ skipped) ++ x :: rest := by simpa using hs
  have hy : y ∈ rest.filter t.isElement := hrest ▸ List.mem_append_right _ List.mem_cons_self
  exact (ht.precedes_iff_right hs').mpr (List.mem_filter.mp hy).1

theorem length_elementChildren_le (p : ν) : (t.elementChildren p).length ≤ t.size :=
  Nat.le_trans (List.length_filter_le _ _) (ht.length_children_le p)

theorem children_elements (p : ν) : t.elements.children p = t.elementChildren p := by
  have hfirst : t.elements.firstChild p = (t.elementChildren p).head? := by
    rw [elementChildren, List.head?_filter]
    exact ht.firstElementChild_eq p
  rw [children, hfirst]
  cases hc : t.elementChildren p with
  | nil => rfl
  | cons c rest =>
    have hlength := ht.length_elementChildren_le p
    rw [hc, List.length_cons] at hlength
    have hsplit : t.elementChildren p = [] ++ c :: rest := hc
    exact congrArg (c :: ·) (follow_eq_of_step (fun _ _ _ => ht.nextElementSibling_of_split)
      hsplit (Nat.le_of_succ_le hlength))

/-- What is left is a forest again, without fragments further down. -/
theorem elements (hk : ∀ {n p}, t.parent n = some p →
      t.kind p = .document ∨ t.kind p = .fragment ∨ t.kind p = .element) :
    t.elements.WellFormed where
  finite := by
    obtain ⟨nodes, hsize, hmem⟩ := ht.finite
    exact ⟨nodes, hsize, fun n p hp => hmem n p (parent_elements.mp hp).1⟩
  acyclic n hn := ht.acyclic n (below_elements.mp hn).below
  mem_children {p n} := by
    rw [ht.children_elements, elementChildren, List.mem_filter, ht.mem_children, parent_elements]
  nodup_children p := by
    rw [ht.children_elements]
    exact (ht.nodup_children p).filter _
  lastChild_eq p := by
    rw [ht.children_elements]
    rfl
  nextSibling_eq {p before n after} h := by
    rw [ht.children_elements] at h
    exact ht.nextElementSibling_of_split h
  previousSibling_eq {p before n after} h := by
    rw [ht.children_elements] at h
    exact ht.previousElementSibling_of_split h
  kind_of_parent hp := hk (parent_elements.mp hp).1
  kind_of_child hp := by
    have hn := isElement_iff.mp (parent_elements.mp hp).2
    change t.kind _ ≠ _ ∧ t.kind _ ≠ _
    rw [hn]
    exact ⟨nofun, nofun⟩

/-- What is left is in the order in which it was. -/
theorem before_of_elements (hleft : t.elements.IsForest) {a b : ν} (h : t.elements.Before a b) :
    t.Before a b := by
  have hwithin : ∀ {x y : ν}, t.elements.Within x y → t.Within x y := fun hw =>
    Relation.ReflTransGen.mono (fun _ _ hp => (parent_elements.mp hp).1) _ _ hw
  rcases hleft.before_iff.mp h with hbelow | ⟨x, y, hxy, hx, hy⟩
  · exact ht.before_of_below (below_elements.mp hbelow).below
  · obtain ⟨p, before, between, after, hs⟩ := hxy
    rw [ht.children_elements] at hs
    exact ht.before_of_after ⟨x, y, ht.precedes_of_split hs, hwithin hx, hwithin hy⟩

/-! ### Walking -/

section Walk

variable (hleft : t.elements.IsForest)

include hleft

theorem firstElementChild_elements (n : ν) :
    t.elements.firstElementChild n = t.firstElementChild n := by
  have h : t.elementChildren n = [] ++ t.elementChildren n := rfl
  rw [hleft.firstElementChild_eq, ht.children_elements, ht.firstElementChild_eq]
  exact (find?_of_elementChildren h).trans (List.head?_filter ..)

theorem nextElementSibling_elements {p n : ν} (hp : t.elements.parent n = some p) :
    t.elements.nextElementSibling n = t.nextElementSibling n := by
  obtain ⟨before, after, hs⟩ := hleft.children_of_parent hp
  rw [hleft.nextElementSibling_eq hs]
  rw [ht.children_elements] at hs
  have hs' : t.elementChildren p = (before ++ [n]) ++ after := by simpa using hs
  exact (@find?_of_elementChildren _ t _ _ _ hs').trans (ht.nextElementSibling_of_split hs).symm

variable [DecidableEq ν] {root : ν}

theorem climb_elements {k : Nat} {n : ν} (hw : t.elements.Within root n) :
    t.elements.climb root k n = t.climb root k n := by
  induction k generalizing n with
  | zero => rfl
  | succ k ih =>
    rw [climb, climb]
    split
    · rfl
    · rename_i hn
      obtain ⟨p, hp, hwp⟩ := below_iff_parent.mp ((within_iff.mp hw).resolve_left hn)
      simp only [ht.nextElementSibling_elements hleft hp, hp, (parent_elements.mp hp).1, ih hwp]

theorem nextElement_elements {n : ν} (hw : t.elements.Within root n) :
    t.elements.nextElement root n = t.nextElement root n := by
  rw [nextElement, nextElement, ht.firstElementChild_elements hleft]
  split
  · rfl
  · exact ht.climb_elements hleft hw

end Walk

variable [DecidableEq ν]
variable (hk : ∀ {n p}, t.parent n = some p →
  t.kind p = .document ∨ t.kind p = .fragment ∨ t.kind p = .element)

include hk

theorem walk_elements (root : ν) : t.elements.walk root = t.walk root := by
  have hleft := ht.elements hk
  -- both walks stay within the root, where the two trees have the same next element
  have hfollow (k : Nat) {n : ν} (hw : t.elements.Within root n) :
      follow (t.elements.nextElement root) k n = follow (t.nextElement root) k n := by
    induction k generalizing n with
    | zero => rfl
    | succ k ih =>
      rw [follow, follow, ← ht.nextElement_elements hleft.toIsForest hw]
      split
      · rename_i m hm
        rw [ih ((hleft.nextElement_spec hw).1 m hm).2.1.within]
      · rfl
  exact hfollow t.size (.refl root)

/-- A walk visits the elements in document order. -/
theorem pairwise_walk (root : ν) : (t.walk root).Pairwise t.Before := by
  rw [← ht.walk_elements hk]
  exact ((ht.elements hk).pairwise_walk root).imp
    (ht.before_of_elements (ht.elements hk).toIsForest)

/-- A walk visits what a path of elements leads to. -/
theorem mem_walk_iff_reaches {root n : ν} : n ∈ t.walk root ↔ t.Reaches root n := by
  rw [← ht.walk_elements hk, (ht.elements hk).mem_walk, below_elements]
  exact and_iff_right_of_imp Reaches.isElement

end IsForest

end DomQuery.Tree.Links
