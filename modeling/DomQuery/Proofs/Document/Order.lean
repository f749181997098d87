import DomQuery.Proofs.Document.Answers

/-!
# Document order

A document compares any two of its nodes, whether they are inserted or not. In
one tree, the order of siblings decides; of different trees, the one whose
topmost node was created first comes first. Sorting relies on this being a
strict total order, across all these cases.

* `mem_subtree` and `pairwise_subtreeWithin`: a subtree is listed in document order.
* `Reachable.compareOrder_strict`: the comparison is a strict total order, and
  within a tree it is the order in which its subtree is listed.
-/

namespace DomQuery.Tree

theorem mem_follow_succ {ν : Type} {step : ν → Option ν} {k : Nat} {n m : ν} :
    n ∈ follow step (k + 1) m ↔ ∃ c ∈ m :: follow step k m, step c = some n := by
  induction k generalizing m with
  | zero =>
    cases h : step m <;> simp [follow, h, eq_comm]
  | succ k ih =>
    rw [follow]
    cases h : step m with
    | none => simp [follow, h]
    | some p =>
      have hfollow : follow step (k + 1) m = p :: follow step k p := by simp [follow, h]
      rw [List.mem_cons, ih, hfollow]
      simp only [List.mem_cons (a := _) (b := m), or_and_right, exists_or, exists_eq_left, h,
        Option.some.injEq, eq_comm (a := n)]

end DomQuery.Tree

namespace DomQuery.Document

open DomQuery.Tree

variable {d : Document} {a b c n m : NodeId}

/-! ### Subtrees -/

namespace Linked

variable (h : d.Linked)
include h

theorem mem_subtreeWithin {k : Nat} :
    m ∈ d.subtreeWithin k n ↔ n ∈ m :: follow d.links.parent k m := by
  induction k generalizing n with
  | zero => simp [subtreeWithin, follow, eq_comm]
  | succ k ih =>
    rw [subtreeWithin, List.mem_cons, List.mem_cons, List.mem_flatMap, mem_follow_succ, eq_comm]
    refine or_congr_right (exists_congr fun c => ?_)
    rw [h.mem_children, ih, and_comm]
    rfl

/-- A subtree is listed as a whole. -/
theorem mem_subtree : m ∈ d.subtree n ↔ d.links.Within n m := by
  rw [subtree, h.mem_subtreeWithin, List.mem_cons, Links.within_iff, eq_comm]
  exact or_congr_right h.isForest.mem_ancestors

/-- A node comes before what is below it, and the subtree of a child before
those of later ones. -/
theorem pairwise_subtreeWithin (k : Nat) (n : NodeId) :
    (d.subtreeWithin k n).Pairwise d.links.Before := by
  have ht := h.isForest
  have hwithin : ∀ {k n m}, m ∈ d.subtreeWithin k n → d.links.Within n m := by
    intro k n m hm
    rw [h.mem_subtreeWithin, List.mem_cons] at hm
    exact Links.within_iff.mpr (hm.imp Eq.symm fun hm => (ht.follow_parent k m).1 n hm)
  induction k generalizing n with
  | zero => exact List.pairwise_singleton _ _
  | succ k ih =>
    rw [subtreeWithin, List.pairwise_cons, List.pairwise_flatMap]
    refine ⟨fun m hm => ?_, fun c _ => ih c, ?_⟩
    · obtain ⟨c, hc, hm⟩ := List.mem_flatMap.mp hm
      refine ht.before_of_below (Links.below_iff_child.mpr ⟨c, ?_, hwithin hm⟩)
      exact h.mem_children.mp hc
    · rw [← h.links_children]
      refine (Links.pairwise_children n).imp fun hab x hx y hy => ?_
      exact ht.before_of_after (hab.after.of_within (hwithin hx) (hwithin hy))

end Linked

/-! ### The comparison -/

namespace Linked

variable (h : d.Linked)
include h

theorem compareOrder_apart (hab : ¬ d.links.SameTree a b) : d.compareOrder a b =
    compare (d.links.topmost a).index (d.links.topmost b).index :=
  h.isForest.compareOrder_apart _ hab

/-- A node comes before another one in its tree, or in an earlier tree. -/
theorem compareOrder_eq_lt_iff : d.compareOrder a b = .lt ↔
    d.links.SameTree a b ∧ d.links.Before a b ∨
      (d.links.topmost a).index < (d.links.topmost b).index := by
  by_cases hab : d.links.SameTree a b
  · have hindex : ¬ (d.links.topmost a).index < (d.links.topmost b).index := by
      rw [Links.SameTree] at hab
      rw [hab]
      exact Nat.lt_irrefl _
    rw [or_iff_left hindex, and_iff_right hab]
    exact h.isForest.compareOrder_eq_lt _ hab
  · rw [h.compareOrder_apart hab, Nat.compare_eq_lt]
    simp [hab]

theorem compareOrder_eq_eq_iff : d.compareOrder a b = .eq ↔ a = b := by
  by_cases hab : d.links.SameTree a b
  · exact h.isForest.compareOrder_eq_eq _ hab
  · rw [h.compareOrder_apart hab, Nat.compare_eq_eq]
    exact iff_of_false (fun he => hab (congrArg NodeId.mk he)) fun he => hab (he ▸ rfl)

theorem compareOrder_swap (a b : NodeId) :
    d.compareOrder b a = (d.compareOrder a b).swap := by
  have ht := h.isForest
  by_cases hab : d.links.SameTree a b
  · rcases ht.before_total hab with rfl | hb | hb
    · rw [h.compareOrder_eq_eq_iff.mpr rfl]
      rfl
    · rw [compareOrder, compareOrder, (ht.compareOrder_of_before _ hb).1,
        (ht.compareOrder_of_before _ hb).2]
      rfl
    · rw [compareOrder, compareOrder, (ht.compareOrder_of_before _ hb).1,
        (ht.compareOrder_of_before _ hb).2]
      rfl
  · rw [h.compareOrder_apart hab, h.compareOrder_apart fun hba => hab hba.symm, Nat.compare_swap]

/-- Before and earlier can be mixed: what is before a node is in its tree. -/
theorem compareOrder_trans (hab : d.compareOrder a b = .lt) (hbc : d.compareOrder b c = .lt) :
    d.compareOrder a c = .lt := by
  rw [h.compareOrder_eq_lt_iff] at hab hbc ⊢
  rcases hab with ⟨hab, hb⟩ | hab <;> rcases hbc with ⟨hbc, hb'⟩ | hbc
  · exact .inl ⟨hab.trans hbc, h.isForest.before_trans hb hb'⟩
  · rw [Links.SameTree] at hab
    exact .inr (hab ▸ hbc)
  · rw [Links.SameTree] at hbc
    exact .inr (hbc ▸ hab)
  · exact .inr (hab.trans hbc)

/-- Within a tree, a document compares as its links do. -/
theorem compareOrder_eq_bare (hab : d.links.SameTree a b) :
    d.compareOrder a b = (View.bare d.links).compare a b := by
  have ht := h.isForest
  rcases ht.before_total hab with rfl | hb | hb
  · rw [h.compareOrder_eq_eq_iff.mpr rfl]
    exact ((ht.compareOrder_eq_eq _ rfl).mpr rfl).symm
  · exact (ht.compareOrder_of_before _ hb).1.trans (ht.compareOrder_of_before _ hb).1.symm
  · exact (ht.compareOrder_of_before _ hb).2.trans (ht.compareOrder_of_before _ hb).2.symm

end Linked

/-- Document order is a strict total order on all nodes. In one tree, it is the
order in which the tree is listed from its top, and what the links tell. Trees
come in the order in which their topmost nodes were created. -/
theorem Reachable.compareOrder_strict (h : d.Reachable) :
    (∀ a b, d.compareOrder a b = .eq ↔ a = b) ∧
    (∀ a b, d.compareOrder b a = (d.compareOrder a b).swap) ∧
    (∀ a b c, d.compareOrder a b = .lt → d.compareOrder b c = .lt → d.compareOrder a c = .lt) ∧
    (∀ a b, d.links.SameTree a b →
      (d.compareOrder a b = .lt ↔ d.links.Below a b ∨ d.links.After a b) ∧
      d.compareOrder a b = (View.bare d.links).compare a b) ∧
    (∀ top, (d.subtree top).Pairwise (fun a b => d.compareOrder a b = .lt) ∧
      ∀ n, n ∈ d.subtree top ↔ d.links.Within top n) ∧
    ∀ a b, ¬ d.links.SameTree a b →
      d.compareOrder a b = compare (d.links.topmost a).index (d.links.topmost b).index ∧
      ∀ (d₀ : Document) (ops : List Operation), d₀.run ops = d → (d₀.data? (d.links.topmost a)).isSome = true →
        d₀.data? (d.links.topmost b) = none → d.compareOrder a b = .lt := by
  have hl := h.coherent.linked
  have ht := hl.isForest
  refine ⟨fun a b => hl.compareOrder_eq_eq_iff, hl.compareOrder_swap,
    fun a b c => hl.compareOrder_trans, fun a b hab => ⟨?_, hl.compareOrder_eq_bare hab⟩,
    fun top => ⟨?_, fun n => hl.mem_subtree⟩,
    fun a b hab => ⟨hl.compareOrder_apart hab, fun d₀ ops _ ha hb => ?_⟩⟩
  · rw [← ht.before_iff]
    exact ht.compareOrder_eq_lt _ hab
  · exact (hl.pairwise_subtreeWithin _ top).imp fun hab => (ht.compareOrder_of_before _ hab).1
  · rw [hl.compareOrder_apart hab, Nat.compare_eq_lt]
    have ha : (d.links.topmost a).index < d₀.nodes.size := by
      simpa [data?, node?] using ha
    have hb : d₀.nodes.size ≤ (d.links.topmost b).index := by
      simpa [data?, node?] using hb
    exact ha.trans_le hb

/-- Two boxes in a box, one of them taken out, and an element that was never put
anywhere. -/
def scattered : Document :=
  boxes.run [.remove ⟨2⟩, .createElement "i"]

theorem compareOrder_strict_scattered : scattered.Reachable ∧
    scattered.compareOrder ⟨1⟩ ⟨3⟩ = .lt ∧ scattered.compareOrder ⟨3⟩ ⟨2⟩ = .lt ∧
      scattered.compareOrder ⟨2⟩ ⟨4⟩ = .lt ∧ scattered.compareOrder ⟨1⟩ ⟨4⟩ = .lt ∧
      scattered.subtree root = [root, ⟨1⟩, ⟨3⟩] ∧
      ∀ n, n ∈ scattered.subtree root ↔ scattered.links.Within root n := by
  have hr : scattered.Reachable := reachable_boxes.run _
  have hbelow : scattered.compareOrder ⟨1⟩ ⟨3⟩ = .lt := by decide +kernel
  have hremoved : scattered.compareOrder ⟨3⟩ ⟨2⟩ = .lt := by decide +kernel
  have hloose : scattered.compareOrder ⟨2⟩ ⟨4⟩ = .lt := by decide +kernel
  have hlist : scattered.subtree root = [root, ⟨1⟩, ⟨3⟩] := by decide +kernel
  obtain ⟨-, -, htrans, -, hlisted, -⟩ := hr.compareOrder_strict
  exact ⟨hr, hbelow, hremoved, hloose, htrans _ _ _ hbelow (htrans _ _ _ hremoved hloose), hlist,
    (hlisted root).2⟩

end DomQuery.Document
