import DomQuery.Proofs.Document.Lookup
import DomQuery.Proofs.Document.Move
import DomQuery.Proofs.Query.Calls
import DomQuery.Proofs.Query.Indices

/-!
# Matching on documents

A document is a tree that matching can rely on, and so its indices are nothing
but a shorter way to the answers, as long as they agree with selectors on what
is asked for. They do not always: an index finds what lies below a fragment that
was put into an element, where a walk does not look; it knows no empty ids; and
it takes the name of an element as it is stored, while a selector splits it at a
colon and ignores the case of an HTML name. Documents without any of that are
`Regular`.

* `Regular.isSound_view`: regular documents can be relied on.
* `Regular.answers_unindexed`: their indices change no answer, but they may keep a
  search from a fault.
* `indices_diverge`: what the indices of other documents change.
-/

namespace DomQuery.Document

open DomQuery.Query DomQuery.Selector DomQuery.Text DomQuery.Tree
open Matcher (new fresh)

variable {d : Document} {n : NodeId}

/-- The indices and selectors mean the same by the id and by the name of `n`, and
a walk comes to all that lies below it. -/
def RegularAt (d : Document) (n : NodeId) : Prop :=
  (d.parent n = none ∨ d.links.kind n ≠ .document ∧ d.links.kind n ≠ .fragment) ∧
    d.links.id? n ≠ some "" ∧ ':' ∉ (d.links.localName n).toList ∧
    (d.links.isHtmlElement n = true → lower (d.links.localName n) = d.links.localName n)

/-- Documents and fragments are at the top, no id is empty, no name has a colon
in it, and names of HTML elements are in lower case. -/
def Regular (d : Document) : Prop :=
  ∀ n, d.RegularAt n

instance : Decidable (d.RegularAt n) := by
  unfold RegularAt
  infer_instance

/-- Only the nodes in the table count. -/
theorem regularAt_of_node?_eq_none (h : d.node? n = none) : d.RegularAt n := by
  have hdata : d.data? n = none := by rw [data?, h]; rfl
  have hname : d.links.localName n = "" := by
    change ((d.element? n).map Element.localName).getD "" = ""
    rw [element?, hdata]
    rfl
  have hattributes : d.links.attributes n = [] := by
    change ((d.element? n).map Element.attributes).getD [] = []
    rw [element?, hdata]
    rfl
  refine ⟨.inl ?_, ?_, ?_, fun _ => ?_⟩
  · rw [parent, h]
    rfl
  · simp [Links.id?, Links.attribute?, hattributes]
  · simp [hname]
  · simp [hname, lower]

theorem regular_iff : d.Regular ↔ ∀ n ∈ d.allNodes, d.RegularAt n := by
  refine ⟨fun h n _ => h n, fun h n => ?_⟩
  cases hn : d.node? n with
  | none => exact regularAt_of_node?_eq_none hn
  | some node => exact h n (mem_allNodes (by rw [hn]; rfl))

instance : Decidable d.Regular :=
  decidable_of_iff _ regular_iff.symm

theorem splitName_of_not_mem {name : String} (h : ':' ∉ name.toList) :
    splitName name = (none, name) := by
  have hspan : name.toList.span (· != ':') = (name.toList, []) := by
    rw [List.span_eq_takeWhile_dropWhile, List.takeWhile_eq_self_iff.mpr,
      List.dropWhile_eq_nil_iff.mpr]
    all_goals
      intro c hc
      simp only [bne_iff_ne]
      rintro rfl
      exact h hc
  rw [splitName, splitOnce, hspan]

/-- A document belongs to itself, and everything in it does. -/
theorem Coherent.hasOwners_view (h : d.Coherent) : HasOwners d.view where
  ownerDocument_eq _ := rfl
  ownerDocument_self {n} hn := by
    have hk : ((d.data? n).map NodeData.kind).getD .other = .document := hn
    have hdata : d.data? n = some .document := by
      rcases hd : d.data? n with _ | (_ | _ | _ | _ | _ | _) <;> simp_all [NodeData.kind]
    exact congrArg some (h.eq_root_of_document hdata).symm

namespace Regular

variable (hr : d.Regular)
include hr

theorem wellFormed (h : d.Coherent) : d.links.WellFormed where
  __ := h.linked.isForest
  kind_of_parent hp := h.canHold hp
  kind_of_child {n p} hp := (hr n).1.resolve_left (by rw [show d.parent n = some p from hp]; exact nofun)

/-- A name is selected by a selector of the same name, up to case if it is one
of HTML. -/
theorem selects_iff {t : String} : selectsType? d.links ⟨none, t⟩ n = .ok true ↔
    t = "*" ∨ d.links.localName n = if d.links.isHtmlElement n then lower t else t := by
  have hparts : (nameParts d.links n).2 = d.links.localName n := by
    rw [nameParts, splitName_of_not_mem (hr n).2.2.1]
  unfold selectsType?
  simp only [hparts, TypeSelector.isUniversal, Except.ok.injEq, Bool.or_eq_true,
    beq_iff_eq]
  refine or_congr_right ?_
  split
  · rename_i hhtml
    rw [eqFold, beq_iff_eq, (hr n).2.2.2 hhtml, eq_comm]
  · rw [beq_iff_eq, eq_comm]

theorem isSound_view (h : d.Coherent) : IsSound d.view where
  wellFormed := hr.wellFormed h
  compare_eq_lt hab := h.linked.isForest.compareOrder_eq_lt _ hab
  compare_eq_eq hab := h.linked.isForest.compareOrder_eq_eq _ hab
  elementsById {scope name found} hf := by
    obtain rfl := Option.some.inj hf
    refine (h.lists_ids scope name).congr fun n => and_iff_right_of_imp ?_
    rintro hid rfl
    exact (hr n).2.1 hid
  elementsByClass {scope name found} hf := by
    obtain rfl := Option.some.inj hf
    exact h.lists_classes scope name
  elementsByName {scope name found} hf := by
    have hf : (if name == "*" then none else some (d.below scope (d.namedElements name))) =
      some found := hf
    split at hf
    · cases hf
    · rename_i hname
      obtain rfl := Option.some.inj hf
      refine (h.lists_names scope name).congr fun n => ?_
      exact (hr.selects_iff.trans (or_iff_right (by simpa using hname))).symm

/-- On a regular document, the indices change no answer. But a search that tests
more nodes than the indices give may fail at one of them. -/
theorem answers_unindexed (h : d.Reachable) (text : String) (node : NodeId) (warn : Bool) :
    new d.view.unindexed text node warn =
        (new d.view text node warn).map Matcher.unindexed ∧
      ∀ m, new d.view text node warn = .ok m →
        fresh m.unindexed.isMatch = fresh m.isMatch ∧
        fresh m.unindexed.closest = fresh m.closest ∧
        (fresh m.unindexed.first = fresh m.first ∨ m.unindexed.IsCutShort .first) ∧
        (fresh m.unindexed.all = fresh m.all ∨ m.unindexed.IsCutShort .all) := by
  have hv := hr.isSound_view h.coherent
  refine ⟨Matcher.new_unindexed _ _ _ _, fun m hm => ⟨?_, ?_, ?_, ?_⟩⟩
  · rw [Matcher.isMatch_unindexed hv hm]
  · rw [Matcher.closest_unindexed hv hm]
  · exact Matcher.first_unindexed hv hm
  · exact Matcher.all_unindexed hv hm

end Regular

theorem ok_of_toOption {ε α : Type} {x : Except ε α} {a : α} (h : x.toOption = some a) :
    x = .ok a := by
  rcases x with e | b
  · cases h
  · exact congrArg Except.ok (Option.some.inj h)

theorem exists_of_toOption_map {ε α β : Type} {x : Except ε α} {f : α → β} {b : β}
    (h : x.toOption.map f = some b) : ∃ a, x = .ok a ∧ f a = b := by
  obtain ⟨a, ha, hf⟩ := Option.map_eq_some_iff.mp h
  exact ⟨a, ok_of_toOption ha, hf⟩

/-- Two boxes in a box. -/
def boxes : Document :=
  (Document.empty .html).run
    [.createElement "div", .append root ⟨1⟩, .createElement "p", .setAttribute ⟨2⟩ "class" "x y",
      .append ⟨1⟩ ⟨2⟩, .createElement "p", .setAttribute ⟨3⟩ "class" "y", .append ⟨1⟩ ⟨3⟩]

theorem reachable_boxes : boxes.Reachable :=
  (Reachable.empty .html).run _

theorem regular_boxes : boxes.Regular := by
  decide +kernel

/-- What a session answers, where it answers, and the children counted for that:
the number of the list that filters them, their parent, and those selected. -/
def report (s : Session NodeId) (calls : List Call) :
    List (Option (Answer NodeId)) × List (Option ListId × NodeId × List NodeId) :=
  let (answers, s) := s.askAll calls
  (answers.map Except.toOption, s.counts.map fun entry => (entry.1.of, entry.1.parent, entry.2))

/-- What is asked of the boxes below. -/
theorem matchers_boxes :
    (∃ m, new boxes.view "div > .x, .y" root false = .ok m ∧
      m.branches = [⟨none, [⟨[.type ⟨none, "div"⟩], .child⟩], [.className "x"]⟩,
        ⟨none, [], [.className "y"]⟩] ∧
      fresh m.all = .ok [⟨2⟩, ⟨3⟩] ∧ fresh m.first = .ok (some ⟨2⟩)) ∧
    (∃ m, new boxes.view "div > .x, .y" ⟨1⟩ false = .ok m ∧ fresh m.all = .ok [⟨2⟩, ⟨3⟩]) ∧
    (∃ m, new boxes.view "div > .x, .y" ⟨3⟩ false = .ok m ∧ fresh m.isMatch = .ok true) ∧
    ∃ s, Session.start boxes.view ":nth-child(1 of .y), :is(.x)" root false = .ok s ∧
      report s [.all, .isMatch, .first] = ([some (.nodes [⟨2⟩]), none, some (.node (some ⟨2⟩))],
        [(some ⟨1⟩, ⟨1⟩, [⟨2⟩]), (some ⟨1⟩, root, [])]) := by
  refine ⟨?_, ?_, ?_, ?_⟩
  · have heval : (new boxes.view "div > .x, .y" root false).toOption.map
        (fun m => (m.branches, (fresh m.all).toOption, (fresh m.first).toOption)) =
          some ([⟨none, [⟨[.type ⟨none, "div"⟩], .child⟩], [.className "x"]⟩,
            ⟨none, [], [.className "y"]⟩], some [⟨2⟩, ⟨3⟩], some (some ⟨2⟩)) := by cbv
    obtain ⟨m, hm, hrun⟩ := exists_of_toOption_map heval
    obtain ⟨hbranches, hrun⟩ := Prod.mk.inj hrun
    obtain ⟨hall, hfirst⟩ := Prod.mk.inj hrun
    exact ⟨m, hm, hbranches, ok_of_toOption hall, ok_of_toOption hfirst⟩
  · have heval : (new boxes.view "div > .x, .y" ⟨1⟩ false).toOption.map
        (fun m => (fresh m.all).toOption) = some (some [⟨2⟩, ⟨3⟩]) := by cbv
    obtain ⟨m, hm, hall⟩ := exists_of_toOption_map heval
    exact ⟨m, hm, ok_of_toOption hall⟩
  · have heval : (new boxes.view "div > .x, .y" ⟨3⟩ false).toOption.map
        (fun m => (fresh m.isMatch).toOption) = some (some true) := by cbv
    obtain ⟨m, hm, hmatch⟩ := exists_of_toOption_map heval
    exact ⟨m, hm, ok_of_toOption hmatch⟩
  · have heval : (Session.start boxes.view ":nth-child(1 of .y), :is(.x)" root false).toOption.map
        (fun s => report s [.all, .isMatch, .first]) =
          some ([some (.nodes [⟨2⟩]), none, some (.node (some ⟨2⟩))],
            [(some ⟨1⟩, ⟨1⟩, [⟨2⟩]), (some ⟨1⟩, root, [])]) := by cbv
    exact exists_of_toOption_map heval

theorem answers_unindexed_boxes : boxes.Regular ∧ boxes.Reachable ∧
    ∃ m, new boxes.view "div > .x, .y" ⟨1⟩ false = .ok m ∧ fresh m.all = .ok [⟨2⟩, ⟨3⟩] ∧
      fresh m.unindexed.isMatch = fresh m.isMatch ∧
      (fresh m.unindexed.all = fresh m.all ∨ m.unindexed.IsCutShort .all) := by
  obtain ⟨-, ⟨m, hm, hall⟩, -⟩ := matchers_boxes
  have hanswers := (Regular.answers_unindexed regular_boxes reachable_boxes _ _ _).2 m hm
  exact ⟨regular_boxes, reachable_boxes, m, hm, hall, hanswers.1, hanswers.2.2.2⟩

/-! ### All matches in a document -/

theorem mem_all_iff_isMatch_boxes : IsSound boxes.view ∧ HasOwners boxes.view ∧
    ∃ m m', new boxes.view "div > .x, .y" root false = .ok m ∧ m.IgnoresScope ∧
      fresh m.all = .ok [⟨2⟩, ⟨3⟩] ∧ new boxes.view "div > .x, .y" ⟨3⟩ false = .ok m' ∧
      fresh m'.isMatch = .ok true ∧
      ((⟨3⟩ : NodeId) ∈ [⟨2⟩, ⟨3⟩] ↔ true = true ∧ boxes.view.Below root ⟨3⟩) := by
  have hv := regular_boxes.isSound_view reachable_boxes.coherent
  have ho := reachable_boxes.coherent.hasOwners_view
  obtain ⟨⟨m, hm, hbranches, hall, -⟩, -, ⟨m', hm', hmatch⟩, -⟩ := matchers_boxes
  have hscope : m.IgnoresScope := by
    rw [Matcher.IgnoresScope, hbranches]
    simp only [Each, Chain.compounds, List.forall_mem_cons, List.map_cons, List.map_nil,
      List.cons_append, List.nil_append, List.not_mem_nil, false_implies, implies_true, and_true]
    exact ⟨⟨.leaf rfl (by simp), .leaf rfl (by simp)⟩, .leaf rfl (by simp)⟩
  have hanswers := Matcher.mem_all_iff_isMatch hv ho hm hscope hall
  exact ⟨hv, ho, m, m', hm, hscope, hall, hm', hmatch, hanswers.2.2.2.2 ⟨3⟩ m' true hm' hmatch⟩

theorem first_eq_head?_all_boxes : IsSound boxes.view ∧
    ∃ m r, new boxes.view "div > .x, .y" root false = .ok m ∧ fresh m.all = .ok [⟨2⟩, ⟨3⟩] ∧
      fresh m.first = .ok r ∧ r = [⟨2⟩, ⟨3⟩].head? := by
  have hv := regular_boxes.isSound_view reachable_boxes.coherent
  obtain ⟨⟨m, hm, -, hall, hfirst⟩, -⟩ := matchers_boxes
  exact ⟨hv, m, _, hm, hall, hfirst, Matcher.first_eq_head?_all hv hm hall hfirst
    (Matcher.not_swallows hm _) (Matcher.not_swallows hm _)⟩

/-! ### Questions one after another -/

/-- The second question fails, since a document is no element. -/
theorem askAll_transparent_boxes :
    ∃ s, SelectorList.ofText ":nth-child(1 of .y), :is(.x)" = .ok s.list ∧
      Session.start boxes.view ":nth-child(1 of .y), :is(.x)" root false = .ok s ∧
      report s [.all, .isMatch, .first] = ([some (.nodes [⟨2⟩]), none, some (.node (some ⟨2⟩))],
        [(some ⟨1⟩, ⟨1⟩, [⟨2⟩]), (some ⟨1⟩, root, [])]) ∧
      s.list.Distinct ∧ (s.askAll [.all, .isMatch, .first]).1 =
        [Call.all, .isMatch, .first].map fun call =>
          new boxes.view ":nth-child(1 of .y), :is(.x)" root false >>= fun m =>
            fresh (m.ask call) := by
  obtain ⟨-, -, -, s, hs, hreport⟩ := matchers_boxes
  have hl := (Session.start_ok hs).2.1
  have htransparent := Session.askAll_transparent (ν := NodeId) hl
  exact ⟨s, hl, hs, hreport, htransparent.1, (htransparent.2.2.2.2 _ _ _ _ hs _).1⟩

/-! ### Where indices matter -/

/-- The same search finds something else, or fails, when the document keeps no
indices. -/
def Diverges (d : Document) (text : String) : Prop :=
  ∃ m m', new d.view text root false = .ok m ∧ new d.view.unindexed text root false = .ok m' ∧
    fresh m'.first ≠ fresh m.first

/-- What the search for the first match comes to with the indices and without
them. -/
def firsts (d : Document) (text : String) :
    Option (Option (Option NodeId) × Option (Option NodeId)) :=
  (new d.view text root false).toOption.map fun m =>
    ((fresh m.first).toOption, (fresh m.unindexed.first).toOption)

theorem diverges_of_firsts {text : String} {r r' : Option (Option NodeId)}
    (h : d.firsts text = some (r, r')) (hne : r' ≠ r) : d.Diverges text := by
  obtain ⟨m, hm, hr⟩ := exists_of_toOption_map h
  refine ⟨m, m.unindexed, hm, by rw [Matcher.new_unindexed, hm]; rfl, fun he => hne ?_⟩
  obtain ⟨rfl, rfl⟩ := Prod.mk.inj hr
  rw [he]

/-- An element below a fragment that is below an element, one that declares a
prefix before one that does not, an HTML element with a name in upper case, and
a name with a colon. -/
def motley : Document :=
  (Document.empty .html).run
    [.createElement "div", .append root ⟨1⟩, .createFragment, .append ⟨1⟩ ⟨2⟩,
      .createElement "i", .setAttribute ⟨3⟩ "class" "x", .append ⟨2⟩ ⟨3⟩,
      .createElement "p", .setAttribute ⟨4⟩ "xmlns:foo" "urn:foo", .append ⟨1⟩ ⟨4⟩,
      .createElement "p", .append ⟨1⟩ ⟨5⟩,
      .createElementNS (some htmlNamespace) "B", .append ⟨1⟩ ⟨6⟩,
      .createElement "x:y", .append ⟨1⟩ ⟨7⟩]

/-- A button that names its form by an empty id. -/
def nameless : Document :=
  (Document.empty .html).run
    [.createElement "form", .setAttribute ⟨1⟩ "id" "", .append root ⟨1⟩,
      .createElement "button", .setAttribute ⟨2⟩ "form" "", .append ⟨1⟩ ⟨2⟩]

/-- For `p:not(foo|q)`, the second `p` is tested as well if there is no index. -/
theorem firsts_motley : [".x", "p:not(foo|q)", "b", "y"].map motley.firsts =
    [some (some (some ⟨3⟩), some none), some (some (some ⟨4⟩), none),
      some (some none, some (some ⟨6⟩)), some (some none, some (some ⟨7⟩))] := by
  cbv

theorem firsts_nameless : nameless.firsts ":default" = some (some none, some (some ⟨2⟩)) := by
  decide +kernel

theorem indices_diverge : motley.Reachable ∧ nameless.Reachable ∧
    (∀ text ∈ [".x", "p:not(foo|q)", "b", "y"], motley.Diverges text) ∧
    nameless.Diverges ":default" := by
  refine ⟨(Reachable.empty .html).run _, (Reachable.empty .html).run _, ?_,
    diverges_of_firsts firsts_nameless (by decide)⟩
  have hfirsts := firsts_motley
  simp only [List.map_cons, List.map_nil, List.cons.injEq, and_true] at hfirsts
  obtain ⟨hfragment, hprefix, hcase, hcolon⟩ := hfirsts
  simp only [List.forall_mem_cons, List.not_mem_nil, false_implies, implies_true, and_true]
  refine ⟨?_, ?_, ?_, ?_⟩
  · exact diverges_of_firsts hfragment (by decide)
  · exact diverges_of_firsts hprefix (by decide)
  · exact diverges_of_firsts hcase (by decide)
  · exact diverges_of_firsts hcolon (by decide)

end DomQuery.Document
