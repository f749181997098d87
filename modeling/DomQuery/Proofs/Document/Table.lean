import DomQuery.Document.Operation
import DomQuery.Proofs.Outcome

/-!
# The table of nodes

What is found in the table of a document after a node was added or changed. The
links between nodes are moved in three ways, and each of them is described by
the parents and the children afterwards.

* `parent_detach` and `children_detach`: a node is taken from where it is.
* `parent_link` and `children_link`: a node is put among the children of
  another one.
-/

namespace DomQuery.Document

open DomQuery.Tree

variable {d d' : Document} {m n p : NodeId}

/-! ### Adding and changing nodes -/

theorem node?_addNode (data : NodeData) :
    (d.addNode data).2.node? m = if m = ⟨d.nodes.size⟩ then some { data } else d.node? m := by
  obtain ⟨m⟩ := m
  simp only [addNode, node?, Array.getElem?_push, NodeId.mk.injEq]

theorem node?_modifyNode (f : Node → Node) :
    (d.modifyNode n f).node? m = if m = n then (d.node? m).map f else d.node? m := by
  obtain ⟨m⟩ := m
  obtain ⟨n⟩ := n
  simp only [modifyNode, node?, Array.getElem?_modify, NodeId.mk.injEq, eq_comm]

theorem node?_empty (contentType : ContentType) :
    (Document.empty contentType).node? n = if n = root then some { data := .document } else none := by
  obtain ⟨n⟩ := n
  cases n <;> simp [node?, Document.empty, root]

theorem node?_size : d.node? ⟨d.nodes.size⟩ = none := by
  simp [node?]

theorem data?_of_node? (h : d'.node? m = d.node? m) : d'.data? m = d.data? m := by
  rw [data?, data?, h]

theorem data?_addNode_of_some {data x : NodeData} (h : d.data? m = some x) :
    (d.addNode data).2.data? m = some x := by
  rw [data?, node?_addNode, if_neg]
  · exact h
  · rintro rfl
    simp [data?, node?_size] at h

/-- Changing a node in a way that keeps its parent. -/
theorem parent_modifyNode {f : Node → Node} (h : ∀ node, (f node).parent = node.parent) :
    (d.modifyNode n f).parent m = d.parent m := by
  rw [parent, parent, node?_modifyNode]
  split
  · cases d.node? m <;> simp [h]
  · rfl

theorem children_modifyNode {f : Node → Node} (h : ∀ node, (f node).children = node.children) :
    (d.modifyNode n f).children m = d.children m := by
  rw [children, children, node?_modifyNode]
  split
  · cases d.node? m <;> simp [h]
  · rfl

theorem data?_modifyNode {f : Node → Node} (h : ∀ node, (f node).data = node.data) :
    (d.modifyNode n f).data? m = d.data? m := by
  rw [data?, data?, node?_modifyNode]
  split
  · cases d.node? m <;> simp [h]
  · rfl

theorem isSome_node?_modifyNode {f : Node → Node} :
    ((d.modifyNode n f).node? m).isSome = (d.node? m).isSome := by
  rw [node?_modifyNode]
  split <;> simp

theorem isSome_node?_of_parent (h : d.parent n = some p) : (d.node? n).isSome = true := by
  unfold parent at h
  cases hn : d.node? n <;> simp_all

theorem isSome_node?_of_child (h : n ∈ d.children p) : (d.node? p).isSome = true := by
  unfold children at h
  cases hp : d.node? p <;> simp_all

theorem isSome_node?_of_data? {x : NodeData} (h : d.data? n = some x) :
    (d.node? n).isSome = true := by
  obtain ⟨node, hnode, -⟩ := Option.map_eq_some_iff.mp h
  simp [hnode]

/-- All nodes of the table, in the order of creation. -/
def allNodes (d : Document) : List NodeId :=
  (List.range d.nodes.size).map NodeId.mk

theorem mem_allNodes (h : (d.node? n).isSome = true) : n ∈ d.allNodes := by
  have h : n.index < d.nodes.size := by simpa [node?] using h
  exact List.mem_map.mpr ⟨n.index, List.mem_range.mpr h, rfl⟩

/-! ### Moving nodes -/

theorem parent_detach : (d.detach n).parent m = if m = n then none else d.parent m := by
  unfold detach
  split
  · rename_i h
    split
    · rename_i hm
      rw [hm, h]
    · rfl
  · rename_i p h
    rw [parent, node?_modifyNode]
    split
    · cases ((d.modifyNode p _).node? m) <;> rfl
    · exact parent_modifyNode fun _ => rfl

theorem data?_detach : (d.detach n).data? m = d.data? m := by
  unfold detach
  split
  · rfl
  · rw [data?_modifyNode, data?_modifyNode] <;> exact fun _ => rfl

theorem isSome_node?_detach : ((d.detach n).node? m).isSome = (d.node? m).isSome := by
  unfold detach
  split
  · rfl
  · rw [isSome_node?_modifyNode, isSome_node?_modifyNode]

theorem index_detach : (d.detach n).index = d.index := by
  unfold detach
  split <;> rfl

/-- In a table where parents list their children, the children of the others
are as before. -/
theorem children_detach (h : ∀ q, n ∈ d.children q ↔ d.parent n = some q) :
    (d.detach n).children p = (d.children p).erase n := by
  unfold detach
  split
  · rename_i hn
    rw [List.erase_of_not_mem]
    rw [h, hn]
    exact nofun
  · rename_i q hq
    rw [children_modifyNode]
    · by_cases hp : p = q
      · subst hp
        simp only [children, node?_modifyNode, if_true]
        cases d.node? p <;> simp
      · rw [List.erase_of_not_mem (by rw [h, hq]; simp [Ne.symm hp]), children, children,
          node?_modifyNode, if_neg hp]
    · exact fun _ => rfl

section Link

variable {place : List NodeId → List NodeId}

theorem parent_link (hn : (d.node? n).isSome = true) :
    (d.link p n place).parent m = if m = n then some p else d.parent m := by
  unfold link
  split
  · rename_i hm
    subst hm
    obtain ⟨node, hnode⟩ := Option.isSome_iff_exists.mp hn
    simp only [parent, node?_modifyNode, hnode, if_true]
    split <;> rfl
  · rename_i hm
    rw [parent, node?_modifyNode, if_neg hm]
    exact parent_modifyNode fun _ => rfl

theorem children_link (hp : (d.node? p).isSome = true) {q : NodeId} :
    (d.link p n place).children q = if q = p then place (d.children p) else d.children q := by
  rw [link, children_modifyNode]
  · split
    · rename_i hq
      subst hq
      obtain ⟨node, hnode⟩ := Option.isSome_iff_exists.mp hp
      simp [children, node?_modifyNode, hnode]
    · rename_i hq
      rw [children, children, node?_modifyNode, if_neg hq]
  · exact fun _ => rfl

theorem data?_link : (d.link p n place).data? m = d.data? m := by
  rw [link, data?_modifyNode, data?_modifyNode] <;> exact fun _ => rfl

end Link

end DomQuery.Document
