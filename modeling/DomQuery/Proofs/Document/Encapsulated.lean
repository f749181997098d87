import DomQuery.Proofs.Document.Answers
import DomQuery.Proofs.Query.Agreement
import Mathlib

/-!
# What is outside of the document tree

Shadow trees, the contents of templates and nodes that are not inserted stand in
the table and in the indices like all others. Two documents with the same document
tree may differ in all of that, so also in the fuel that walks are given.

* `SameDocumentTree` says what the two have in common, and
  `SameDocumentTree.agree`, that they agree on the document tree.
* `SameDocumentTree.same_outcome`: questions asked in the document tree do not tell
  them apart.
* `outcome_depends_on_host`: they do when a shadow root was put into the document
  tree without its host, for it inherits from there.
-/

namespace DomQuery.Document

open DomQuery.Query DomQuery.Text DomQuery.Tree

/-- The element, but for the trees it keeps apart from its children. -/
def Element.trimmed (e : Element) : Element :=
  { e with shadowRoot := none, contents := none }

def NodeData.trimmed : NodeData → NodeData
  | .element e => .element e.trimmed
  | data => data

variable {d d' : Document} {n : NodeId}

/-- `n` is the document or lies below it. -/
def InDocument (d : Document) (n : NodeId) : Prop :=
  d.links.Within root n

/-- The settings are the same and so is the document tree, which is all of its tree. -/
structure SameDocumentTree (d d' : Document) : Prop where
  contentType_eq : d'.contentType = d.contentType
  fragment_eq : d'.fragment = d.fragment
  focused_eq : d'.focused = d.focused
  mem_defined : ∀ name, name ∈ d'.defined ↔ name ∈ d.defined
  parent_root : d.parent root = none
  parent_eq : ∀ n, d.InDocument n → d'.parent n = d.parent n
  children_eq : ∀ n, d.InDocument n → d'.children n = d.children n
  data_eq : ∀ n, d.InDocument n →
    (d'.data? n).map NodeData.trimmed = (d.data? n).map NodeData.trimmed

/-- Shadow roots in the document tree have their hosts there as well. -/
def KeepsHosts (d : Document) : Prop :=
  ∀ n host, d.InDocument n → d.shadowHost n = some host → d.InDocument host

namespace Reachable

variable (h : d.Reachable)
include h

theorem mem_allNodes_of_inDocument (hn : d.InDocument n) : n ∈ d.allNodes := by
  rcases Links.within_iff.mp hn with rfl | hb
  · obtain ⟨data, hdata⟩ := Option.isSome_iff_exists.mp h.isSome_data?_root
    exact mem_allNodes (isSome_node?_of_data? hdata)
  · obtain ⟨p, hp, -⟩ := Links.below_iff_parent.mp hb
    exact mem_allNodes (isSome_node?_of_parent hp)

theorem forall_inDocument_iff {P : NodeId → Prop} : (∀ n, d.InDocument n → P n) ↔
    ∀ n ∈ d.allNodes, d.links.contains root n = true → P n := by
  have hwithin : ∀ {n}, d.links.contains root n = true ↔ d.InDocument n :=
    h.coherent.linked.isForest.contains_iff
  exact ⟨fun hall n _ hn => hall n (hwithin.mp hn), fun hall n hn =>
    hall n (h.mem_allNodes_of_inDocument hn) (hwithin.mpr hn)⟩

/-- It is enough to look at the nodes of one table. -/
theorem sameDocumentTree
    (hsettings : (d'.contentType, d'.fragment, d'.focused, d'.defined) =
      (d.contentType, d.fragment, d.focused, d.defined))
    (hroot : d.parent root = none)
    (hnodes : ∀ n ∈ d.allNodes, d.links.contains root n = true →
      (d'.parent n, d'.children n, (d'.data? n).map NodeData.trimmed) =
        (d.parent n, d.children n, (d.data? n).map NodeData.trimmed)) : d.SameDocumentTree d' := by
  obtain ⟨hcontent, hfragment, hfocused, hdefined⟩ := by simpa only [Prod.mk.injEq] using hsettings
  have hsame := h.forall_inDocument_iff.mpr hnodes
  simp only [Prod.mk.injEq] at hsame
  exact ⟨hcontent, hfragment, hfocused, fun name => by rw [hdefined], hroot,
    fun n hn => (hsame n hn).1, fun n hn => (hsame n hn).2.1, fun n hn => (hsame n hn).2.2⟩

end Reachable

namespace SameDocumentTree

variable (hs : d.SameDocumentTree d')
include hs

/-! ### Data -/

section Data

variable (hn : d.InDocument n)
include hn

/-- A node holds the same in both documents, or it is an element that keeps other
trees apart. -/
theorem data?_cases : d'.data? n = d.data? n ∨ ∃ e shadowRoot contents,
    d.data? n = some (.element e) ∧
      d'.data? n = some (.element { e with shadowRoot, contents }) := by
  have hdata := hs.data_eq n hn
  rcases hd : d.data? n with _ | (_ | _ | e | _ | _ | _) <;>
    rcases hd' : d'.data? n with _ | (_ | _ | e' | _ | _ | _) <;>
    simp_all [NodeData.trimmed]
  obtain ⟨localName, ns, nsPrefix, attributes, shadowRoot, contents, state⟩ := e'
  simp_all [Element.trimmed]

theorem element?_cases : d'.element? n = d.element? n ∨ ∃ e shadowRoot contents,
    d.element? n = some e ∧ d'.element? n = some { e with shadowRoot, contents } := by
  rcases hs.data?_cases hn with heq | ⟨e, shadowRoot, contents, he, he'⟩
  · exact .inl (by rw [element?, element?, heq])
  · exact .inr ⟨e, shadowRoot, contents, by rw [element?, he]; rfl, by rw [element?, he']; rfl⟩

/-- Whatever is read off an element but for the trees it keeps apart is the same. -/
theorem map_element? {β : Type} {f : Element → β} (hf : ∀ e, f e.trimmed = f e) :
    (d'.element? n).map f = (d.element? n).map f := by
  rcases hs.element?_cases hn with heq | ⟨e, shadowRoot, contents, he, he'⟩
  · rw [heq]
  · rw [he, he', Option.map_some, Option.map_some, ← hf e, ← hf { e with shadowRoot, contents }]
    rfl

theorem bind_element? {β : Type} {f : Element → Option β} (hf : ∀ e, f e.trimmed = f e) :
    (d'.element? n).bind f = (d.element? n).bind f := by
  rw [← Function.id_comp f, ← Option.bind_map, ← Option.bind_map, hs.map_element? hn hf]

theorem kind_eq : d'.links.kind n = d.links.kind n := by
  change ((d'.data? n).map NodeData.kind).getD .other = ((d.data? n).map NodeData.kind).getD .other
  rcases hs.data?_cases hn with heq | ⟨e, shadowRoot, contents, he, he'⟩
  · rw [heq]
  · rw [he, he']
    rfl

theorem textData_eq : d'.textData n = d.textData n := by
  rcases hs.data?_cases hn with heq | ⟨e, shadowRoot, contents, he, he'⟩
  · rw [textData, textData, heq]
  · rw [textData, textData, he, he']

theorem shadowHost_eq : d'.shadowHost n = d.shadowHost n := by
  rcases hs.data?_cases hn with heq | ⟨e, shadowRoot, contents, he, he'⟩
  · rw [shadowHost, shadowHost, heq]
  · rw [shadowHost, shadowHost, he, he']

end Data

/-! ### Links -/

variable (h : d.Reachable) (h' : d'.Reachable) (hk : d.KeepsHosts)
include h h' hk

theorem agree_links : Links.Agree d.InDocument d.links d'.links where
  forest := h.coherent.linked.isForest
  forest' := h'.coherent.linked.isForest
  bounded := by
    have hlength : ∀ d : Document, d.allNodes.length = d.nodes.size := fun d => by simp [allNodes]
    have hmem' : ∀ n, d.InDocument n → n ∈ d'.allNodes := fun n hn => by
      have hsome : ((d.data? n).map NodeData.trimmed).isSome = true := by
        obtain ⟨i, hi, rfl⟩ := List.mem_map.mp (h.mem_allNodes_of_inDocument hn)
        have hi : i < d.nodes.size := List.mem_range.mp hi
        simp [data?, node?, hi]
      rw [← hs.data_eq n hn, Option.isSome_map] at hsome
      obtain ⟨data, hdata⟩ := Option.isSome_iff_exists.mp hsome
      exact mem_allNodes (isSome_node?_of_data? hdata)
    -- the nodes of the smaller table
    rcases Nat.le_total d.nodes.size d'.nodes.size with hle | hle
    · exact ⟨d.allNodes, fun n => h.mem_allNodes_of_inDocument, (hlength d).le,
        (hlength d).le.trans hle⟩
    · exact ⟨d'.allNodes, hmem', (hlength d').le.trans hle, (hlength d').le⟩
  connected a b ha hb :=
    have ht := h.coherent.linked.isForest
    (ht.sameTree_of_within ha).symm.trans (ht.sameTree_of_within hb)
  inside_parent n p hn hp := by
    rcases Links.within_iff.mp hn with rfl | hb
    · cases hs.parent_root.symm.trans hp
    · obtain ⟨q, hq, hw⟩ := Links.below_iff_parent.mp hb
      obtain rfl := Option.some.inj (hp.symm.trans hq)
      exact hw
  inside_child p n hp hn := Relation.ReflTransGen.tail hp hn
  inside_host := hk
  kind_eq n := hs.kind_eq
  parent_eq := hs.parent_eq
  children_eq n hn := by
    rw [h.coherent.linked.links_children, h'.coherent.linked.links_children, hs.children_eq n hn]
  localName_eq n hn := congrArg (Option.getD · "") (hs.map_element? hn fun _ => rfl)
  nsPrefix_eq n hn := hs.bind_element? hn fun _ => rfl
  ns_eq n hn := hs.bind_element? hn fun _ => rfl
  attributes_eq n hn := congrArg (Option.getD · []) (hs.map_element? hn fun _ => rfl)
  textData_eq n := hs.textData_eq
  shadowHost_eq n := hs.shadowHost_eq
  isHtmlDocument_eq _ _ := congrArg (· == ContentType.html) hs.contentType_eq

/-! ### Direction -/

theorem value_eq (hn : d.InDocument n) : d'.value n = d.value n := by
  have hinitial := (hs.agree_links h h' hk).initialValue_eq hn
  rcases hs.element?_cases hn with heq | ⟨e, shadowRoot, contents, he, he'⟩
  · rw [value, value, heq, hinitial]
  · rw [value, value, he, he']
    simp only [hinitial]

/-- Content is searched to the end, however large the rest of the table is. -/
theorem firstStrongWithin_eq {nodes : List NodeId} (hnodes : ∀ n, d.InDocument n → n ∈ nodes)
    {k k' : Nat} (hn : d.InDocument n) (hsize : nodes.length ≤ k + (d.links.ancestors n).length)
    (hsize' : nodes.length ≤ k' + (d.links.ancestors n).length) :
    d'.firstStrongWithin k' n = d.firstStrongWithin k n := by
  have hagree := hs.agree_links h h' hk
  have hshort := hagree.length_ancestors_lt hnodes hn
  induction k generalizing n k' with
  | zero => omega
  | succ k ih =>
    obtain ⟨k', rfl⟩ : ∃ j, k' = j + 1 := ⟨k' - 1, by omega⟩
    rw [firstStrongWithin, firstStrongWithin, hs.children_eq n hn]
    refine findSome?_congr fun c hc => ?_
    have hparent : d.links.parent c = some n := h.coherent.linked.mem_children.mp hc
    have hinside := hagree.inside_child n c hn hparent
    have hlength : (d.links.ancestors c).length = (d.links.ancestors n).length + 1 :=
      congrArg List.length (hagree.forest.ancestors_of_parent hparent)
    have hbelow : d'.firstStrongWithin k' c = d.firstStrongWithin k c :=
      ih hinside (by omega) (by omega) (hagree.length_ancestors_lt hnodes hinside)
    rcases hs.data?_cases hinside with heq | ⟨e, shadowRoot, contents, he, he'⟩
    · rw [heq, hbelow]
    · rw [he, he']
      simp only [hbelow]
      rfl

theorem firstStrong?_eq (hn : d.InDocument n) : d'.firstStrong? n = d.firstStrong? n := by
  obtain ⟨nodes, hnodes, hsize, hsize'⟩ := (hs.agree_links h h' hk).bounded
  exact hs.firstStrongWithin_eq h h' hk hnodes hn (Nat.le_add_right_of_le hsize)
    (Nat.le_add_right_of_le hsize')

theorem ownDirection?_eq (hn : d.InDocument n) : d'.ownDirection? n = d.ownDirection? n := by
  have hcontent : ∀ e, d'.contentDirection e n = d.contentDirection e n := fun e => by
    rw [contentDirection, contentDirection, hs.value_eq h h' hk hn, hs.firstStrong?_eq h h' hk hn]
  have htype := (hs.agree_links h h' hk).attribute?_eq hn "type"
  rcases hs.element?_cases hn with heq | ⟨e, shadowRoot, contents, he, he'⟩
  · simp only [ownDirection?, heq, hcontent, htype]
  · simp only [ownDirection?, he, he', hcontent, htype]
    rfl

theorem direction_eq (hn : d.InDocument n) : d'.direction n = d.direction n := by
  have hsome : (d'.element? n).isSome = (d.element? n).isSome := by
    simpa using congrArg Option.isSome (hs.map_element? hn (f := Element.trimmed) fun _ => rfl)
  rw [direction, direction, hsome, (hs.agree_links h h' hk).findSome?_heritageLine_eq
    (fun m => hs.ownDirection?_eq h h' hk) hn]

/-! ### State and indices -/

theorem agree : View.Agree d.InDocument d.view d'.view where
  toAgree := hs.agree_links h h' hk
  ownerDocument_eq _ _ := rfl
  inside_ownerDocument n owner _ howner := Option.some.inj howner ▸ .refl root
  compare_eq a b := (hs.agree_links h h' hk).compareOrder_eq _ _
  elementsById scope id hscope := by
    have hagree := hs.agree_links h h' hk
    refine .some (hagree.eq_of_lists hscope (h.coherent.lists_ids scope id)
      (h'.coherent.lists_ids scope id) fun n hn => ?_)
    rw [hagree.isElement_eq hn, hagree.id?_eq hn]
  elementsByClass scope name hscope := by
    have hagree := hs.agree_links h h' hk
    refine .some (hagree.eq_of_lists hscope (h.coherent.lists_classes scope name)
      (h'.coherent.lists_classes scope name) fun n hn => ?_)
    rw [hagree.isElement_eq hn, hagree.hasClass_eq hn]
  elementsByName scope name hscope := by
    have hagree := hs.agree_links h h' hk
    by_cases hname : name == "*"
    · have hnone : ∀ d : Document, d.view.elementsByName scope name = none := fun d => if_pos hname
      rw [hnone, hnone]
      exact .none
    · have hsome : ∀ d : Document, d.view.elementsByName scope name =
          some (d.below scope (d.namedElements name)) := fun d => if_neg hname
      rw [hsome, hsome]
      refine .some (hagree.eq_of_lists hscope (h.coherent.lists_names scope name)
        (h'.coherent.lists_names scope name) fun n hn => ?_)
      rw [hagree.isElement_eq hn, hagree.localName_eq n hn, hagree.isHtmlElement_eq hn]
  direction_eq n := hs.direction_eq h h' hk
  isDefined_eq n hn := by
    have hname := (hs.agree_links h h' hk).localName_eq n hn
    have hdefined : d'.defined.contains (d.links.localName n) =
        d.defined.contains (d.links.localName n) := by
      rw [Bool.eq_iff_iff, List.contains_iff_mem, List.contains_iff_mem, hs.mem_defined]
    simp only [view, hname, hdefined]
  activeElement_eq _ _ := hs.focused_eq
  fragment_eq _ _ := hs.fragment_eq
  isChecked_eq n hn := by
    have hstate := hs.bind_element? hn (f := fun e => e.state.checked) fun _ => rfl
    simp only [view, hstate, (hs.agree_links h h' hk).hasAttribute_eq hn]
  isSelected_eq n hn := by
    have hstate := hs.bind_element? hn (f := fun e => e.state.selected) fun _ => rfl
    simp only [view, hstate, (hs.agree_links h h' hk).hasAttribute_eq hn]
  isIndeterminate_eq n hn := by
    have hstate := hs.map_element? hn (f := fun e => e.state.indeterminate) fun _ => rfl
    have hany : ∀ d : Document, d.view.isIndeterminate n =
        ((d.element? n).map fun e => e.state.indeterminate).any id := fun d => by
      cases he : d.element? n <;> simp [view, he]
    rw [hany, hany, hstate]
  value_eq n := hs.value_eq h h' hk

/-- A question asked in the document tree has the same outcome whatever there is
outside of it, errors included. -/
theorem same_outcome (hn : d.InDocument n) (text : String) (warn : Bool) (call : Call) :
    outcome d'.view text n warn call = outcome d.view text n warn call :=
  outcome_eq_of_agree (hs.agree h h' hk) hn text warn call

end SameDocumentTree

/-- A box in a box. -/
def plain : Document :=
  (Document.empty .html).run
    [.createElement "div", .append root ⟨1⟩, .createElement "p", .setAttribute ⟨2⟩ "class" "x",
      .append ⟨1⟩ ⟨2⟩]

/-- The same with another one in a shadow tree, and one more that is not inserted. -/
def crowded : Document :=
  plain.run
    [.attachShadow ⟨1⟩ .open, .createElement "p", .setAttribute ⟨4⟩ "class" "x", .append ⟨3⟩ ⟨4⟩,
      .createElement "p", .setAttribute ⟨5⟩ "class" "x", .append ⟨5⟩ ⟨5⟩]

theorem reachable_plain : plain.Reachable :=
  (Reachable.empty .html).run _

theorem sameDocumentTree_crowded : plain.SameDocumentTree crowded :=
  reachable_plain.sameDocumentTree (by decide +kernel) (by decide +kernel) (by decide +kernel)

theorem same_outcome_crowded : plain.Reachable ∧ crowded.Reachable ∧ plain.SameDocumentTree crowded ∧
    plain.KeepsHosts ∧ plain.InDocument root ∧
    outcome crowded.view ".x" root false .all = .ok (.nodes [⟨2⟩]) := by
  have hr := reachable_plain
  have hr' : crowded.Reachable := hr.run _
  have hk : plain.KeepsHosts := fun n host hn hhost => by
    have hnone := hr.forall_inDocument_iff (P := fun n => plain.shadowHost n = none) |>.mpr
      (by decide +kernel)
    cases (hnone n hn).symm.trans hhost
  have hroot : plain.InDocument root := .refl root
  have hplain : outcome plain.view ".x" root false .all = .ok (.nodes [⟨2⟩]) :=
    ok_of_toOption (by cbv)
  refine ⟨hr, hr', sameDocumentTree_crowded, hk, hroot, ?_⟩
  exact (SameDocumentTree.same_outcome sameDocumentTree_crowded hr hr' hk hroot ".x" false .all).trans
    hplain

/-- A shadow root is put into the document, and its host is not. -/
def lodged (lang : String) : Document :=
  (Document.empty .html).run
    [.createElement "div", .attachShadow ⟨1⟩ .open, .createElement "p", .append ⟨2⟩ ⟨3⟩,
      .append root ⟨2⟩, .setAttribute ⟨1⟩ "lang" lang]

theorem reachable_lodged (lang : String) : (lodged lang).Reachable :=
  (Reachable.empty .html).run _

theorem sameDocumentTree_lodged : (lodged "en").SameDocumentTree (lodged "de") :=
  (reachable_lodged "en").sameDocumentTree (by decide +kernel) (by decide +kernel)
    (by decide +kernel)

/-- What lies outside of the document tree has a say where a shadow root in it
inherits from a host that is not. -/
theorem outcome_depends_on_host : (lodged "en").Reachable ∧ (lodged "de").Reachable ∧
    (lodged "en").SameDocumentTree (lodged "de") ∧ (lodged "en").InDocument ⟨3⟩ ∧
    outcome (lodged "en").view ":lang(en)" ⟨3⟩ false .isMatch = .ok (.truth true) ∧
    outcome (lodged "de").view ":lang(en)" ⟨3⟩ false .isMatch = .ok (.truth false) := by
  have hr := reachable_lodged "en"
  have hn : (lodged "en").InDocument ⟨3⟩ :=
    (hr.coherent.linked.isForest.contains_iff).mp (by decide +kernel)
  exact ⟨hr, reachable_lodged "de", sameDocumentTree_lodged, hn, ok_of_toOption (by cbv),
    ok_of_toOption (by cbv)⟩

end DomQuery.Document
