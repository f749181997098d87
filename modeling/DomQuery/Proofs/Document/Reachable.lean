import DomQuery.Proofs.Document.Indexed

/-!
# What holds of every document

Whatever operations a document went through, failed ones included, its links
fit together, only containers have children, there is one node of the document
itself, and the indices are in step.

* `Coherent` is all of that, and `Reachable.coherent` says that it holds.
* `Coherent.change`: no change breaks it.
* `Reachable.isSome_data?_root`: the document itself stays where it is.
-/

namespace DomQuery.Document

open DomQuery.Tree

variable {d d' : Document} {m n p : NodeId}

/-- The links fit together and the indices are in step. -/
structure Coherent (d : Document) : Prop where
  linked : d.Linked
  indexed : d.Indexed
  /-- Only containers have children. -/
  isContainer_of_parent : ∀ {n p}, d.parent n = some p →
    ∃ data, d.data? p = some data ∧ data.isContainer = true
  /-- There is no other document. -/
  eq_root_of_document : ∀ {n}, d.data? n = some .document → n = root

theorem parent_addNode (data : NodeData) : (d.addNode data).2.parent m = d.parent m := by
  rw [parent, parent, node?_addNode]
  split
  · rename_i hm
    rw [hm, node?_size]
    rfl
  · rfl

theorem children_addNode (data : NodeData) : (d.addNode data).2.children m = d.children m := by
  rw [children, children, node?_addNode]
  split
  · rename_i hm
    rw [hm, node?_size]
    rfl
  · rfl

/-- A node that was of a kind stays so when its data is changed within the kind. -/
theorem kind_modifyNode {f : Node → Node} {x : NodeData} (h : d.data? m = some x)
    (hf : ∀ node, d.node? n = some node → (f node).data.kind = node.data.kind) :
    ∃ y, (d.modifyNode n f).data? m = some y ∧ y.kind = x.kind := by
  obtain ⟨node, hnode, rfl⟩ := Option.map_eq_some_iff.mp h
  rw [data?, node?_modifyNode]
  split
  · rename_i hm
    subst hm
    exact ⟨(f node).data, by simp [hnode], hf node hnode⟩
  · exact ⟨node.data, by simp [hnode], rfl⟩

theorem kind_modifyElement {e e' : Element} {x : NodeData} (hn : d.data? n = some (.element e))
    (h : d.data? m = some x) :
    ∃ y, (d.modifyNode n fun node => { node with data := .element e' }).data? m = some y ∧
      y.kind = x.kind := by
  refine kind_modifyNode h fun node hnode => ?_
  obtain ⟨node', hnode', hdata⟩ := Option.map_eq_some_iff.mp hn
  obtain rfl : node' = node := by simpa [hnode'] using hnode
  rw [hdata]
  rfl

theorem data?_modifyNode_of_none {f : Node → Node} (h : d.data? m = none) :
    (d.modifyNode n f).data? m = none := by
  have hm : d.node? m = none := Option.map_eq_none_iff.mp h
  rw [data?, node?_modifyNode, hm]
  split <;> rfl

theorem isContainer_of_kind {x y : NodeData} (h : y.kind = x.kind) :
    y.isContainer = x.isContainer := by
  cases x <;> cases y <;> first
    | rfl
    | cases h

namespace Alteration

/-- No node becomes one of another kind. -/
theorem kind_eq (h : Alteration d d') {x : NodeData} (hx : d.data? m = some x) :
    ∃ y, d'.data? m = some y ∧ y.kind = x.kind := by
  cases h with
  | create data hk he hs => exact ⟨x, data?_addNode_of_some hx, rfl⟩
  | createElement localName ns nsPrefix => exact ⟨x, data?_addNode_of_some hx, rfl⟩
  | detach n => exact ⟨x, data?_detach.trans hx, rfl⟩
  | rewrite hn hr => exact kind_modifyElement hn hx
  | modifyElement hn => exact kind_modifyElement hn hx
  | attachShadow mode hn hnone =>
    exact kind_modifyElement (data?_addNode_of_some hn) (data?_addNode_of_some hx)
  | extendText n text =>
    refine kind_modifyNode hx fun node _ => ?_
    split
    · rename_i hdata
      rw [hdata]
      rfl
    · rfl
  | settings => exact ⟨x, hx, rfl⟩

/-- A node is taken out, or the links stay as they are. -/
theorem links_cases (h : Alteration d d') :
    (∃ n, d' = d.detach n) ∨
      ∀ m, d'.parent m = d.parent m ∧ d'.children m = d.children m := by
  cases h with
  | create data hk he hs => exact .inr fun m => ⟨parent_addNode data, children_addNode data⟩
  | createElement localName ns nsPrefix =>
    exact .inr fun m => ⟨parent_addNode _, children_addNode _⟩
  | detach n => exact .inl ⟨n, rfl⟩
  | rewrite hn hr =>
    refine .inr fun m => ⟨?_, ?_⟩
    · exact parent_modifyNode fun _ => rfl
    · exact children_modifyNode fun _ => rfl
  | modifyElement hn =>
    refine .inr fun m => ⟨?_, ?_⟩
    · exact parent_modifyNode fun _ => rfl
    · exact children_modifyNode fun _ => rfl
  | attachShadow mode hn hnone =>
    refine .inr fun m => ⟨?_, ?_⟩
    · refine (parent_modifyNode ?_).trans (parent_addNode _)
      exact fun _ => rfl
    · refine (children_modifyNode ?_).trans (children_addNode _)
      exact fun _ => rfl
  | extendText n text =>
    refine .inr fun m => ⟨?_, ?_⟩
    · exact parent_modifyNode fun node => by split <;> rfl
    · exact children_modifyNode fun node => by split <;> rfl
  | settings => exact .inr fun m => ⟨rfl, rfl⟩

theorem linked (h : Alteration d d') (hd : d.Linked) : d'.Linked := by
  rcases h.links_cases with ⟨n, rfl⟩ | hlinks
  · exact hd.detach n
  · exact hd.congr (fun m => (hlinks m).1) fun m => (hlinks m).2

/-- A node that has a parent had it before. -/
theorem parent_before (h : Alteration d d') (hp : d'.parent n = some p) : d.parent n = some p := by
  rcases h.links_cases with ⟨m, rfl⟩ | hlinks
  · rw [parent_detach] at hp
    split at hp
    · cases hp
    · exact hp
  · exact (hlinks n).1.symm.trans hp

/-- Nodes do not become documents. -/
theorem document_before (h : Alteration d d') (hm : d'.data? m = some .document) :
    d.data? m = some .document := by
  rcases hx : d.data? m with _ | x
  · have hgone : none ≠ some NodeData.document := (Option.some_ne_none _).symm
    have hadd : ∀ data : NodeData, data.kind ≠ .document →
        (d.addNode data).2.data? m ≠ some .document := by
      intro data hk hm
      rw [data?, node?_addNode] at hm
      split at hm
      · exact hk (by simp_all [NodeData.kind])
      · exact absurd (hx.symm.trans hm) hgone
    have hmodify : ∀ n (f : Node → Node), (d.modifyNode n f).data? m ≠ some .document := by
      intro n f hm
      rw [data?_modifyNode_of_none hx] at hm
      cases hm
    cases h with
    | create data hk he hs => exact absurd hm (hadd data hk)
    | createElement localName ns nsPrefix => exact absurd hm (hadd _ (by simp [NodeData.kind]))
    | detach n => exact absurd (hx.symm.trans (data?_detach.symm.trans hm)) hgone
    | rewrite hn hr => exact absurd hm (hmodify _ _)
    | modifyElement hn => exact absurd hm (hmodify _ _)
    | @attachShadow host e mode hn hnone =>
      have hne : m ≠ host := by
        rintro rfl
        simp [hx] at hn
      refine absurd (Eq.trans ?_ hm) (hadd (.fragment (some (host, mode))) (by simp [NodeData.kind]))
      rw [data?, data?, node?_modifyNode, if_neg hne]
    | extendText n text => exact absurd hm (hmodify _ _)
    | settings => exact absurd (hx.symm.trans hm) hgone
  · obtain ⟨y, hy, hk⟩ := h.kind_eq hx
    obtain rfl : y = .document := by simpa [hm] using hy.symm
    cases x <;> first
      | rfl
      | cases hk

end Alteration

namespace Coherent

theorem empty (contentType : ContentType) : (Document.empty contentType).Coherent where
  linked := .empty contentType
  indexed := .empty contentType
  isContainer_of_parent {n p} h := by
    rw [parent, node?_empty] at h
    split at h <;> cases h
  eq_root_of_document {n} h := by
    rw [data?, node?_empty] at h
    split at h
    · assumption
    · cases h

theorem alteration (h : d.Coherent) (ha : Alteration d d') : d'.Coherent where
  linked := ha.linked h.linked
  indexed := h.indexed.alteration ha
  isContainer_of_parent {n p} hp := by
    obtain ⟨x, hx, hcontainer⟩ := h.isContainer_of_parent (ha.parent_before hp)
    obtain ⟨y, hy, hk⟩ := ha.kind_eq hx
    exact ⟨y, hy, (isContainer_of_kind hk).trans hcontainer⟩
  eq_root_of_document h' := h.eq_root_of_document (ha.document_before h')

theorem link {data : NodeData} {place : List NodeId → List NodeId} (h : d.Coherent)
    (hp : d.data? p = some data) (hc : data.isContainer = true)
    (hn : (d.node? n).isSome = true) (hnone : d.parent n = none) (hw : ¬ d.links.Within n p)
    (hplace : (place (d.children p)).Perm (n :: d.children p)) : (d.link p n place).Coherent where
  linked := h.linked.link hn (isSome_node?_of_data? hp) hnone hw hplace
  indexed := h.indexed.change (.link hp hc hn hnone hw hplace)
  isContainer_of_parent {m q} hq := by
    rw [data?_link]
    rw [parent_link hn] at hq
    split at hq
    · obtain rfl := Option.some.inj hq
      exact ⟨_, hp, hc⟩
    · exact h.isContainer_of_parent hq
  eq_root_of_document h' := h.eq_root_of_document (data?_link.symm.trans h')

theorem change (h : d.Coherent) (hc : Change d d') : d'.Coherent := by
  cases hc with
  | alter ha => exact h.alteration ha
  | link hp hc hn hnone hw hplace => exact h.link hp hc hn hnone hw hplace

theorem changes (h : d.Coherent) (hc : Changes d d') : d'.Coherent := by
  induction hc with
  | refl => exact h
  | tail _ hc ih => exact ih.change hc

end Coherent

/-- No run of operations breaks a document, whether they succeed or fail. -/
theorem Reachable.coherent (h : d.Reachable) : d.Coherent := by
  induction h with
  | empty contentType => exact .empty contentType
  | apply _ op ih => exact ih.changes (changes_apply ih.linked op)

/-- No change takes a node out of the table. -/
theorem Changes.isSome_data? (h : Changes d d') (hn : (d.data? n).isSome = true) :
    (d'.data? n).isSome = true := by
  induction h with
  | refl => exact hn
  | tail _ hc ih =>
    obtain ⟨x, hx⟩ := Option.isSome_iff_exists.mp ih
    cases hc with
    | alter ha =>
      obtain ⟨y, hy, -⟩ := ha.kind_eq hx
      rw [hy]
      rfl
    | link =>
      rw [data?_link]
      exact ih

theorem Reachable.isSome_data?_root (h : d.Reachable) : (d.data? root).isSome = true := by
  induction h with
  | empty contentType =>
    rw [data?, node?_empty, if_pos rfl]
    rfl
  | apply h op ih => exact (changes_apply h.coherent.linked op).isSome_data? ih

end DomQuery.Document
