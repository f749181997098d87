import DomQuery.Document.View
import DomQuery.Proofs.Document.Reachable
import DomQuery.Proofs.Tree.Order
import Mathlib

/-!
# Looking elements up

A lookup takes what an index holds under a key, leaves out what is not below the
scope and sorts the rest. Since the indices of a document are in step, that
gives the elements below the scope which have the key, in document order.

* `Linked.lists_below`: leaving out and sorting gives what is below the scope.
* `Reachable.lookups_exact`: after any operations, the lookups are exact.
-/

namespace DomQuery.Document

open DomQuery.Text DomQuery.Tree

variable {d : Document} {n : NodeId}

/-! ### Keys -/

theorem isElement_iff_profile? : d.links.isElement n = true ↔ (d.profile? n).isSome = true := by
  unfold Links.isElement profile? element?
  change ((d.data? n).map NodeData.kind).getD .other == .element ↔ _
  rcases d.data? n with _ | (_ | _ | _ | _ | _ | _) <;> simp [NodeData.kind, NodeData.element?]

theorem localName_eq {profile : String × List Attribute} (h : d.profile? n = some profile) :
    d.links.localName n = profile.1 := by
  obtain ⟨e, he, rfl⟩ := Option.map_eq_some_iff.mp h
  simp [links, he]

/-- An attribute whose name is in lower case is kept under that name. -/
theorem attribute?_eq_kept? {name : String} (h : lower name = name) :
    d.links.attribute? n name = d.kept? n name := by
  unfold Links.attribute? kept? profile? valueOf?
  rw [h, ite_self]
  change ((((d.element? n).map Element.attributes).getD []).find? _).map _ = _
  cases d.element? n <;> rfl

theorem id?_eq : d.links.id? n = d.kept? n "id" :=
  attribute?_eq_kept? (by cbv)

theorem hasClass_iff {name : String} : d.links.hasClass n name = true ↔ name ∈ d.classKeys n := by
  unfold Links.hasClass classKeys
  rw [attribute?_eq_kept? (by cbv)]
  cases d.kept? n "class" with
  | none => simp [words, wordsOf, cut]
  | some value => simp

theorem isElement_of_kept? {name value : String} (h : d.kept? n name = some value) :
    d.links.isElement n = true := by
  obtain ⟨profile, hp, -⟩ := Option.bind_eq_some_iff.mp h
  rw [isElement_iff_profile?, hp]
  rfl

/-- An empty id is no key. -/
theorem mem_idKeys {v : String} : v ∈ d.idKeys n ↔ v ≠ "" ∧ d.links.id? n = some v := by
  rw [idKeys, List.mem_filter, Option.mem_toList, id?_eq, and_comm]
  simp

theorem mem_nameKeys {name : String} :
    name ∈ d.nameKeys n ↔ d.links.isElement n = true ∧ d.links.localName n = name := by
  rw [nameKeys, Option.mem_toList, Option.map_eq_some_iff, isElement_iff_profile?]
  constructor
  · rintro ⟨profile, hp, rfl⟩
    exact ⟨by simp [hp], localName_eq hp⟩
  · rintro ⟨he, rfl⟩
    obtain ⟨profile, hp⟩ := Option.isSome_iff_exists.mp he
    exact ⟨profile, hp, (localName_eq hp).symm⟩

/-! ### Lookups -/

/-- What is below `scope` is put in document order. -/
theorem Linked.lists_below (h : d.Linked) (scope : NodeId) {nodes : List NodeId}
    (hn : nodes.Nodup) (he : ∀ n ∈ nodes, d.links.isElement n = true) :
    d.links.Lists scope (· ∈ nodes) (d.below scope nodes) := by
  have ht := h.isForest
  have hmem : ∀ n, n ∈ d.below scope nodes ↔ n ∈ nodes ∧ d.links.Below scope n := by
    intro n
    rw [below, List.mem_mergeSort, List.mem_filter, Bool.and_eq_true, bne_iff_ne, ht.contains_iff,
      Links.within_iff]
    refine and_congr_right fun _ => ⟨fun ⟨hne, hw⟩ => hw.resolve_left hne, fun hb => ⟨?_, .inr hb⟩⟩
    rintro rfl
    exact ht.acyclic _ hb
  have hsame : ∀ {a b}, d.links.Below scope a → d.links.Below scope b → d.links.SameTree a b :=
    fun ha hb => (ht.sameTree_of_within ha.within).symm.trans (ht.sameTree_of_within hb.within)
  refine ⟨ht.pairwise_mergeSort hsame ?_ (hn.filter _) fun n hn => ?_, fun n => ?_⟩
  · exact fun ha hb => ht.isLE_compareOrder _ (hsame ha hb)
  · exact ((hmem n).mp (List.mem_mergeSort.mpr hn)).2
  · rw [hmem]
    exact ⟨fun ⟨hn, hb⟩ => ⟨he n hn, hb, hn⟩, fun ⟨_, hb, hn⟩ => ⟨hn, hb⟩⟩

namespace Coherent

variable (h : d.Coherent)
include h

theorem lists_ids (scope : NodeId) (v : String) :
    d.links.Lists scope (fun n => v ≠ "" ∧ d.links.id? n = some v)
      (d.below scope (d.index.ids.find v)) := by
  have hmem : ∀ n, n ∈ d.index.ids.find v ↔ v ≠ "" ∧ d.links.id? n = some v := fun n => by
    rw [Entries.mem_find, h.indexed.ids.mem_iff, mem_idKeys]
  refine (h.linked.lists_below scope (Entries.nodup_find h.indexed.ids.nodup v) fun n hn =>
    ?_).congr hmem
  exact isElement_of_kept? (id?_eq.symm.trans ((hmem n).mp hn).2)

theorem lists_classes (scope : NodeId) (c : String) :
    d.links.Lists scope (fun n => d.links.hasClass n c = true)
      (d.below scope (d.index.classes.find c)) := by
  have hmem : ∀ n, n ∈ d.index.classes.find c ↔ d.links.hasClass n c = true := fun n => by
    rw [Entries.mem_find, h.indexed.classes.mem_iff, hasClass_iff]
  refine (h.linked.lists_below scope (Entries.nodup_find h.indexed.classes.nodup c) fun n hn =>
    ?_).congr hmem
  have hn := hasClass_iff.mp ((hmem n).mp hn)
  cases hk : d.kept? n "class" with
  | none => simp [classKeys, hk, words, wordsOf, cut] at hn
  | some value => exact isElement_of_kept? hk

theorem mem_names {t : String} :
    n ∈ d.index.names.find t ↔ d.links.isElement n = true ∧ d.links.localName n = t := by
  rw [Entries.mem_find, h.indexed.names.mem_iff, mem_nameKeys]

/-- HTML elements are found by the name in lower case, and the others by the
name as it is. -/
theorem mem_namedElements {t : String} :
    n ∈ d.namedElements t ↔ d.links.isElement n = true ∧
      d.links.localName n = if d.links.isHtmlElement n then lower t else t := by
  have hexact : n ∈ (d.index.names.find t).filter
      (fun n => !d.links.isHtmlElement n || t == lower t) ↔
      d.links.isElement n = true ∧ d.links.localName n = t ∧
        (d.links.isHtmlElement n = true → t = lower t) := by
    rw [List.mem_filter, h.mem_names, and_assoc]
    cases d.links.isHtmlElement n <;> simp
  unfold namedElements
  dsimp only
  split
  · rename_i hl
    have hl : lower t = t := by simpa using hl
    rw [hexact]
    simp [hl]
  · rename_i hl
    have hl : ¬ t = lower t := fun he => hl (by simpa using he.symm)
    rw [List.mem_append, hexact, List.mem_filter, h.mem_names]
    cases d.links.isHtmlElement n <;> simp [hl]

theorem nodup_namedElements (t : String) : (d.namedElements t).Nodup := by
  have hfind := Entries.nodup_find h.indexed.names.nodup
  unfold namedElements
  dsimp only
  split
  · exact (hfind t).filter _
  · rename_i hl
    have hl : ¬ t = lower t := fun he => hl (by simpa using he.symm)
    refine ((hfind t).filter _).append ((hfind _).filter _) fun n hn hn' => hl ?_
    -- an element has only one name
    exact (h.mem_names.mp (List.mem_filter.mp hn).1).2.symm.trans
      (h.mem_names.mp (List.mem_filter.mp hn').1).2

theorem lists_names (scope : NodeId) (t : String) :
    d.links.Lists scope
      (fun n => d.links.localName n = if d.links.isHtmlElement n then lower t else t)
      (d.below scope (d.namedElements t)) := by
  have hlists := h.linked.lists_below scope (h.nodup_namedElements t) fun n hn =>
    (h.mem_namedElements.mp hn).1
  refine ⟨hlists.1, fun n => (hlists.2 n).trans ?_⟩
  constructor
  · rintro ⟨he, hb, hn⟩
    exact ⟨he, hb, (h.mem_namedElements.mp hn).2⟩
  · rintro ⟨he, hb, hn⟩
    exact ⟨he, hb, h.mem_namedElements.mpr ⟨he, hn⟩⟩

end Coherent

/-- After any operations, failed ones included, the lookups give the elements
below the scope that have the class, the id or the name now, each once and in
document order. -/
theorem Reachable.lookups_exact (h : d.Reachable) (scope : NodeId) :
    (∀ c, ∃ found, d.view.elementsByClass scope c = some found ∧ found.Nodup ∧
      d.links.Lists scope (fun n => d.links.hasClass n c = true) found) ∧
    (∀ v, v ≠ "" → ∃ found, d.view.elementsById scope v = some found ∧ found.Nodup ∧
      d.links.Lists scope (fun n => d.links.id? n = some v) found) ∧
    ∀ t, t ≠ "*" → ∃ found, d.view.elementsByName scope t = some found ∧ found.Nodup ∧
      d.links.Lists scope
        (fun n => d.links.localName n = if d.links.isHtmlElement n then lower t else t) found := by
  have hd := h.coherent
  have ht := hd.linked.isForest
  refine ⟨fun c => ?_, fun v hv => ?_, fun t hne => ?_⟩
  · have hlists := hd.lists_classes scope c
    exact ⟨_, rfl, ht.nodup_of_pairwise hlists.1, hlists⟩
  · have hlists := (hd.lists_ids scope v).congr fun n => and_iff_right hv
    exact ⟨_, rfl, ht.nodup_of_pairwise hlists.1, hlists⟩
  · have hlists := hd.lists_names scope t
    refine ⟨_, ?_, ht.nodup_of_pairwise hlists.1, hlists⟩
    exact if_neg (by simpa using hne)

/-- Two elements whose classes are written, repeated and overwritten. One of them
is to go below itself, which fails and takes it out of the tree. -/
def reclassed : Document :=
  (Document.empty .html).run
    [.createElement "p", .setAttribute ⟨1⟩ "class" "a b a", .append root ⟨1⟩,
      .createElement "em", .setAttribute ⟨2⟩ "CLASS" "a", .insertBefore ⟨1⟩ ⟨2⟩,
      .append ⟨1⟩ ⟨1⟩, .setAttribute ⟨1⟩ "class" "b", .append ⟨2⟩ ⟨1⟩,
      .addMissingAttributes ⟨1⟩ [⟨"class", none, "c"⟩], .setAttribute ⟨1⟩ "class" "c a"]

theorem lookups_exact_reclassed : reclassed.Reachable ∧
    ∃ found, reclassed.view.elementsByClass root "a" = some found ∧ found = [⟨2⟩, ⟨1⟩] ∧
      reclassed.links.Lists root (fun n => reclassed.links.hasClass n "a" = true) found := by
  have hr : reclassed.Reachable := (Reachable.empty .html).run _
  obtain ⟨found, hf, -, hlists⟩ := (Reachable.lookups_exact hr root).1 "a"
  refine ⟨hr, found, hf, ?_, hlists⟩
  have heval : reclassed.view.elementsByClass root "a" = some [⟨2⟩, ⟨1⟩] := by cbv
  exact Option.some.inj (hf.symm.trans heval)

end DomQuery.Document
