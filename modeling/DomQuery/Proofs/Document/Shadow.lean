import DomQuery.Proofs.Document.Reachable

/-!
# Hosts and shadow roots

An element names its shadow root and a shadow root names its host. Both names
are given when the root is attached, which happens once for an element, and no
other change touches them.

* `Alteration.ties_cases`: they are left alone, or a new root is attached.
* `Reachable.hosted`: after any operations, hosts and shadow roots name each
  other one to one.
-/

namespace DomQuery.Document

open DomQuery.Tree

variable {d d' : Document} {m n : NodeId}

/-- What a node says of shadow trees: its shadow root and its host. -/
def ties (d : Document) (n : NodeId) : Option NodeId × Option NodeId :=
  (d.shadowRoot n, d.shadowHost n)

/-- The ties of a node are read from its data. -/
def NodeData.ties : Option NodeData → Option NodeId × Option NodeId
  | some (.element e) => (e.shadowRoot, none)
  | some (.fragment (some (host, _))) => (none, some host)
  | _ => (none, none)

theorem ties_eq : d.ties n = NodeData.ties (d.data? n) := by
  unfold ties shadowRoot shadowHost element?
  rcases d.data? n with _ | (_ | (_ | _) | _ | _ | _ | _) <;> rfl

theorem ties_of_data? (h : d'.data? m = d.data? n) : d'.ties m = d.ties n := by
  rw [ties_eq, ties_eq, h]

theorem ties_size : d.ties ⟨d.nodes.size⟩ = (none, none) := by
  rw [ties_eq, data?, node?_size]
  rfl

theorem ties_empty (contentType : ContentType) :
    (Document.empty contentType).ties n = (none, none) := by
  rw [ties_eq, data?, node?_empty]
  split <;> rfl

theorem ties_addNode (data : NodeData) :
    (d.addNode data).2.ties m =
      if m = ⟨d.nodes.size⟩ then NodeData.ties (some data) else d.ties m := by
  rw [ties_eq, data?, node?_addNode]
  split
  · rfl
  · exact (ties_eq (d := d)).symm

theorem ties_addNode_of_none {data : NodeData} (h : NodeData.ties (some data) = (none, none)) :
    (d.addNode data).2.ties m = d.ties m := by
  rw [ties_addNode]
  split
  · rename_i hm
    rw [h, hm, ties_size]
  · rfl

/-- Another node keeps its ties when `n` is changed, and so does `n` if the
change leaves them alone. -/
theorem ties_modifyNode {f : Node → Node}
    (h : ∀ node, d.node? n = some node →
      NodeData.ties (some (f node).data) = NodeData.ties (some node.data)) :
    (d.modifyNode n f).ties m = d.ties m := by
  rw [ties_eq, ties_eq, data?, data?, node?_modifyNode]
  split
  · rename_i hm
    subst hm
    cases hnode : d.node? m with
    | none => rfl
    | some node => exact h node hnode
  · rfl

/-- An element that is changed in other ways keeps its ties. -/
theorem ties_modifyElement {e e' : Element} (hn : d.data? n = some (.element e))
    (hshadow : e'.shadowRoot = e.shadowRoot) :
    (d.modifyNode n fun node => { node with data := .element e' }).ties m = d.ties m := by
  refine ties_modifyNode fun node hnode => ?_
  obtain ⟨node', hnode', hdata⟩ := Option.map_eq_some_iff.mp hn
  obtain rfl : node' = node := by simpa [hnode'] using hnode
  rw [hdata]
  exact congrArg (·, none) hshadow

/-- The new node is a shadow root of `host`, which had none. -/
structure Attaches (d : Document) (host : NodeId) (d' : Document) : Prop where
  exists_host : (d.node? host).isSome = true
  shadowRoot_host : d.shadowRoot host = none
  shadowRoot_eq : ∀ n, d'.shadowRoot n = if n = host then some ⟨d.nodes.size⟩ else d.shadowRoot n
  shadowHost_eq : ∀ n, d'.shadowHost n = if n = ⟨d.nodes.size⟩ then some host else d.shadowHost n

theorem attaches_attachShadow {host : NodeId} {e : Element} (mode : ShadowMode)
    (hn : d.data? host = some (.element e)) (hnone : e.shadowRoot = none) :
    d.Attaches host ((d.addNode (.fragment (some (host, mode)))).2.modifyNode host fun node =>
      { node with data := .element { e with shadowRoot := some ⟨d.nodes.size⟩ } }) := by
  set d' := (d.addNode (.fragment (some (host, mode)))).2.modifyNode host fun node =>
    { node with data := .element { e with shadowRoot := some ⟨d.nodes.size⟩ } }
  have hties : d.ties host = (none, none) := by
    rw [ties_eq, hn, NodeData.ties, hnone]
  have hnew : ∀ n, d'.ties n = if n = host then (some ⟨d.nodes.size⟩, none)
      else if n = ⟨d.nodes.size⟩ then (none, some host) else d.ties n := by
    intro n
    by_cases hhost : n = host
    · have hdata : (d.addNode (.fragment (some (host, mode)))).2.data? host = some (.element e) :=
        data?_addNode_of_some hn
      obtain ⟨node, hnode, -⟩ := Option.map_eq_some_iff.mp hdata
      rw [if_pos hhost, ties_eq, data?, node?_modifyNode, if_pos hhost, hhost, hnode]
      rfl
    · have hdata : d'.data? n = (d.addNode (.fragment (some (host, mode)))).2.data? n := by
        rw [data?, data?, node?_modifyNode, if_neg hhost]
      rw [if_neg hhost, ties_of_data? hdata, ties_addNode]
      rfl
  have hne : host ≠ ⟨d.nodes.size⟩ := by
    rintro rfl
    simp [data?, node?_size] at hn
  refine ⟨isSome_node?_of_data? hn, congrArg Prod.fst hties, fun n => ?_, fun n => ?_⟩
  · refine (congrArg Prod.fst (hnew n)).trans ?_
    split
    · rfl
    · split
      · rename_i hsize
        exact (congrArg Prod.fst (hsize ▸ ties_size)).symm
      · rfl
  · refine (congrArg Prod.snd (hnew n)).trans ?_
    split
    · rename_i hhost
      rw [hhost, if_neg hne]
      exact (congrArg Prod.snd hties).symm
    · split <;> rfl

/-- Hosts and shadow roots are left alone, or a new root is attached. -/
theorem Alteration.ties_cases (h : Alteration d d') :
    (∀ n, d'.ties n = d.ties n) ∨
      (∃ host, d.Attaches host d') ∧ ∀ n, d'.parent n = d.parent n := by
  cases h with
  | create data hk he hs =>
    refine .inl fun n => ties_addNode_of_none ?_
    rcases data with _ | (_ | shadow) | _ | _ | _ | _
    case fragment.some => exact absurd rfl (hs shadow)
    case element => exact absurd rfl he
    all_goals rfl
  | createElement localName ns nsPrefix => exact .inl fun n => ties_addNode_of_none rfl
  | detach n => exact .inl fun m => ties_of_data? data?_detach
  | rewrite hn hr => exact .inl fun m => ties_modifyElement hn rfl
  | modifyElement hn hname hns hpre hattributes hshadow =>
    exact .inl fun m => ties_modifyElement hn hshadow
  | attachShadow mode hn hnone =>
    refine .inr ⟨⟨_, attaches_attachShadow mode hn hnone⟩, fun m => ?_⟩
    refine (parent_modifyNode ?_).trans (parent_addNode _)
    exact fun _ => rfl
  | extendText n text =>
    refine .inl fun m => ties_modifyNode fun node hnode => ?_
    split
    · rename_i hdata
      rw [hdata]
      rfl
    · rfl
  | settings => exact .inl fun _ => rfl

/-! ### One to one -/

/-- Hosts and shadow roots name each other. -/
def Hosted (d : Document) : Prop :=
  ∀ host shadow, d.shadowRoot host = some shadow ↔ d.shadowHost shadow = some host

namespace Hosted

theorem empty (contentType : ContentType) : (Document.empty contentType).Hosted := by
  intro host shadow
  have hroot : (Document.empty contentType).shadowRoot host = none :=
    congrArg Prod.fst (ties_empty contentType)
  have hhost : (Document.empty contentType).shadowHost shadow = none :=
    congrArg Prod.snd (ties_empty contentType)
  simp [hroot, hhost]

theorem congr (h : d.Hosted) (ht : ∀ n, d'.ties n = d.ties n) : d'.Hosted := by
  intro host shadow
  have hroot : d'.shadowRoot host = d.shadowRoot host := congrArg Prod.fst (ht host)
  have hhost : d'.shadowHost shadow = d.shadowHost shadow := congrArg Prod.snd (ht shadow)
  rw [hroot, hhost]
  exact h host shadow

/-- A root that was there before has a host, and the new one has its own. -/
theorem attach {host : NodeId} (h : d.Hosted) (ha : d.Attaches host d') : d'.Hosted := by
  have hsize : d.ties ⟨d.nodes.size⟩ = (none, none) := ties_size
  intro host' shadow
  rw [ha.shadowRoot_eq, ha.shadowHost_eq]
  by_cases hh : host' = host <;> by_cases hs : shadow = ⟨d.nodes.size⟩
  · simp [hh, hs]
  · rw [if_pos hh, if_neg hs, ← h host' shadow, hh, ha.shadowRoot_host]
    simp [Ne.symm hs]
  · have hnone : d.shadowHost shadow = none := hs ▸ congrArg Prod.snd hsize
    rw [if_neg hh, if_pos hs, h host' shadow, hnone]
    simp [Ne.symm hh]
  · rw [if_neg hh, if_neg hs]
    exact h host' shadow

theorem change (h : d.Hosted) (hc : Change d d') : d'.Hosted := by
  cases hc with
  | alter ha =>
    rcases ha.ties_cases with ht | ⟨⟨host, ha⟩, -⟩
    · exact h.congr ht
    · exact h.attach ha
  | link => exact h.congr fun m => ties_of_data? data?_link

theorem changes (h : d.Hosted) (hc : Changes d d') : d'.Hosted := by
  induction hc with
  | refl => exact h
  | tail _ hc ih => exact ih.change hc

end Hosted

/-- After any operations, hosts and shadow roots name each other. -/
theorem Reachable.hosted (h : d.Reachable) : d.Hosted := by
  induction h with
  | empty contentType => exact .empty contentType
  | apply hd op ih => exact ih.changes (changes_apply hd.coherent.linked op)

end DomQuery.Document
