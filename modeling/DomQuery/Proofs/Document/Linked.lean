import DomQuery.Proofs.Document.Table
import DomQuery.Proofs.Tree.Forest
import Mathlib.Data.List.Nodup
import Mathlib.Data.List.Perm.Subperm

/-!
# Documents whose links fit together

In a document, the children that a node lists are those that name it as their
parent, each once, and no node lies below itself. Then the links describe a
forest. Taking a node out keeps that up, and so does putting a node without a
parent where it is not below itself.

* `Linked.isForest`: such links describe a forest.
* `Linked.detach` and `Linked.link`: moving nodes keeps them in order.
-/

namespace DomQuery.Document

open DomQuery.Tree

variable {d d' : Document} {m n p : NodeId}

/-- Parents and children name each other, and no node lies below itself. -/
structure Linked (d : Document) : Prop where
  mem_children : ∀ {p n}, n ∈ d.children p ↔ d.parent n = some p
  nodup_children : ∀ p, (d.children p).Nodup
  acyclic : ∀ n, ¬ d.links.Below n n

namespace Linked

theorem empty (contentType : ContentType) : (Document.empty contentType).Linked := by
  have hp : ∀ n, (Document.empty contentType).parent n = none := by
    intro n
    rw [parent, node?_empty]
    split <;> rfl
  have hc : ∀ n, (Document.empty contentType).children n = [] := by
    intro n
    rw [children, node?_empty]
    split <;> rfl
  refine ⟨by simp [hp, hc], by simp [hc], fun n h => ?_⟩
  exact Links.not_below_of_parent_none (hp n) h

theorem congr (h : d.Linked) (hp : ∀ n, d'.parent n = d.parent n)
    (hc : ∀ n, d'.children n = d.children n) : d'.Linked where
  mem_children := by
    intro p n
    rw [hp, hc, h.mem_children]
  nodup_children p := hc p ▸ h.nodup_children p
  acyclic n hn := by
    have hparent : d'.links.parent = d.links.parent := funext hp
    rw [Links.Below, hparent] at hn
    exact h.acyclic n hn

theorem detach (h : d.Linked) (n : NodeId) : (d.detach n).Linked where
  mem_children := by
    intro p m
    rw [children_detach fun _ => h.mem_children, parent_detach, (h.nodup_children p).mem_erase_iff,
      h.mem_children]
    split <;> simp_all
  nodup_children p := by
    rw [children_detach fun _ => h.mem_children]
    exact (h.nodup_children p).erase n
  acyclic m hm := by
    refine h.acyclic m (Relation.TransGen.mono (fun a b hab => ?_) m m hm)
    have hab : (d.detach n).parent b = some a := hab
    rw [parent_detach] at hab
    split at hab
    · cases hab
    · exact hab

/-- What is inside of a node stays inside of it when it is taken out. -/
theorem within_detach (h : d.Linked) : (d.detach n).links.Within n m ↔ d.links.Within n m := by
  constructor
  · intro hw
    refine Relation.ReflTransGen.mono (fun a b hab => ?_) n m hw
    have hab : (d.detach n).parent b = some a := hab
    rw [parent_detach] at hab
    split at hab
    · cases hab
    · exact hab
  · intro hw
    induction hw with
    | refl => exact .refl n
    | @tail b c hb hbc ih =>
      have hne : c ≠ n := by
        rintro rfl
        exact h.acyclic _ (Relation.TransGen.tail' hb hbc)
      refine ih.tail ?_
      change (d.detach n).parent c = some b
      rw [parent_detach, if_neg hne]
      exact hbc

section Link

variable {place : List NodeId → List NodeId} (hn : (d.node? n).isSome = true)
include hn

/-- Whatever is below after a node was linked was so before, or the way leads
through the new link. -/
theorem below_link {a b : NodeId} (h : (d.link p n place).links.Below a b) :
    d.links.Below a b ∨ d.links.Within a p ∧ d.links.Within n b := by
  refine transGen_of_insert (fun {x y} hxy => ?_) h
  have hxy : (d.link p n place).parent y = some x := hxy
  rw [parent_link hn] at hxy
  split at hxy
  · rename_i hy
    exact .inr ⟨(Option.some.inj hxy).symm, hy⟩
  · exact .inl hxy

theorem link (h : d.Linked) (hp : (d.node? p).isSome = true) (hnone : d.parent n = none)
    (hw : ¬ d.links.Within n p) (hplace : (place (d.children p)).Perm (n :: d.children p)) :
    (d.link p n place).Linked where
  mem_children := by
    intro q m
    have hm : m ∈ d.children q ↔ d.parent m = some q := h.mem_children
    rw [children_link hp, parent_link hn]
    by_cases hq : q = p <;> by_cases hmn : m = n
    · simp [hq, hmn, hplace.mem_iff]
    · rw [if_pos hq, if_neg hmn, hplace.mem_iff, List.mem_cons, or_iff_right hmn, ← hq, hm]
    · rw [if_neg hq, if_pos hmn, hm, hmn, hnone]
      simp [Ne.symm hq]
    · rw [if_neg hq, if_neg hmn, hm]
  nodup_children q := by
    rw [children_link hp]
    split
    · refine hplace.nodup_iff.mpr (List.nodup_cons.mpr ⟨?_, h.nodup_children p⟩)
      rw [h.mem_children, hnone]
      exact nofun
    · exact h.nodup_children q
  acyclic m hm := by
    rcases below_link hn hm with hm | ⟨hp', hn'⟩
    · exact h.acyclic m hm
    · exact hw (hn'.trans hp')

end Link

/-! ### The forest -/

theorem following_eq {before after : List NodeId} (h : (before ++ n :: after).Nodup) :
    following n (before ++ n :: after) = after := by
  induction before with
  | nil => simp [following]
  | cons m before ih =>
    rw [List.cons_append, List.nodup_cons] at h
    rw [List.cons_append, following, if_neg, ih h.2]
    rintro rfl
    exact h.1 (by simp)

variable (h : d.Linked)
include h

theorem isSome_node?_child (hn : n ∈ d.children p) : (d.node? n).isSome = true :=
  isSome_node?_of_parent (h.mem_children.mp hn)

theorem length_children_le (p : NodeId) : (d.children p).length ≤ d.nodes.size := by
  have hsub : d.children p ⊆ d.allNodes := fun n hn => mem_allNodes (h.isSome_node?_child hn)
  have := ((h.nodup_children p).subperm hsub).length_le
  simpa [allNodes] using this

section Split

variable {before after : List NodeId} (hs : d.children p = before ++ n :: after)
include hs

theorem siblings_eq : d.siblings n = d.children p := by
  have hn : n ∈ d.children p := by simp [hs]
  rw [siblings, h.mem_children.mp hn]

theorem nextSibling_eq : d.nextSibling n = after.head? := by
  rw [nextSibling, h.siblings_eq hs, hs, following_eq (hs ▸ h.nodup_children p)]

theorem previousSibling_eq : d.previousSibling n = before.getLast? := by
  have hr : (d.children p).reverse = after.reverse ++ n :: before.reverse := by simp [hs]
  have hn : (d.children p).reverse.Nodup := List.nodup_reverse.mpr (h.nodup_children p)
  rw [previousSibling, h.siblings_eq hs, hr, following_eq (hr ▸ hn), List.head?_reverse]

end Split

/-- The children that are found along the links are the ones that are listed. -/
theorem links_children (p : NodeId) : d.links.children p = d.children p := by
  unfold Links.children
  cases hc : d.children p with
  | nil =>
    have hf : d.links.firstChild p = none := by simp [links, hc]
    rw [hf]
  | cons c rest =>
    have hf : d.links.firstChild p = some c := by simp [links, hc]
    have hlen := h.length_children_le p
    have hsplit : d.children p = [] ++ c :: rest := hc
    have hk : rest.length ≤ d.links.size := by
      rw [hc, List.length_cons] at hlen
      exact Nat.le_of_succ_le hlen
    have hfollow : follow d.links.nextSibling d.links.size c = rest :=
      follow_eq_of_step (fun _ _ _ hs => h.nextSibling_eq hs) hsplit hk
    simp only [hf, hfollow]

theorem isForest : d.links.IsForest where
  finite := by
    refine ⟨d.allNodes, by simp [allNodes, links], fun n p hp => ⟨?_, ?_⟩⟩
    · exact mem_allNodes (isSome_node?_of_parent hp)
    · exact mem_allNodes (isSome_node?_of_child (h.mem_children.mpr hp))
  acyclic := h.acyclic
  mem_children := by
    intro p n
    rw [h.links_children]
    exact h.mem_children
  nodup_children p := h.links_children p ▸ h.nodup_children p
  lastChild_eq p := by
    rw [h.links_children]
    rfl
  nextSibling_eq hs := h.nextSibling_eq (h.links_children _ ▸ hs)
  previousSibling_eq hs := h.previousSibling_eq (h.links_children _ ▸ hs)

end Linked

end DomQuery.Document
