import DomQuery.Proofs.Document.Shadow
import Mathlib

/-!
# Moving nodes

Appending and inserting move a node: it is taken out of where it is, and then
put among the children of its new parent, unless that would be inside of it.

* `move_cases`: all that can come of a move.
* `IsMoved` describes the document after a move that succeeds, by the children
  of every node.
* `Reachable.edits_are_moves`: documents are ordered forests, and appending and
  inserting succeed exactly when the new place is not inside of the node, which
  is moved then.
* `Reachable.failed_edits`: when they fail the document is as it was, unless the
  node was to go inside of itself. Then it is left out of its place.
-/

namespace DomQuery.Document

open DomQuery.Tree

variable {d d' : Document} {m n p q anchor reference child : NodeId}

/-- Nodes can be put below `p`. -/
def CanHold (d : Document) (p : NodeId) : Prop :=
  d.links.kind p = .document ∨ d.links.kind p = .fragment ∨ d.links.kind p = .element

theorem canHold_iff : d.CanHold p ↔ (d.data? p).any NodeData.isContainer = true := by
  unfold CanHold
  change ((d.data? p).map NodeData.kind).getD .other = _ ∨
    ((d.data? p).map NodeData.kind).getD .other = _ ∨
    ((d.data? p).map NodeData.kind).getD .other = _ ↔ _
  rcases d.data? p with _ | (_ | _ | _ | _ | _ | _) <;>
    simp [NodeData.kind, NodeData.isContainer]

/-- Parents can hold nodes. -/
theorem Coherent.canHold (h : d.Coherent) (hp : d.parent n = some p) : d.CanHold p := by
  obtain ⟨data, hdata, hc⟩ := h.isContainer_of_parent hp
  rw [canHold_iff, hdata]
  exact hc

/-! ### A node in its new place -/

/-- `d'` is `d` after `n` was moved below `p`, which has the children `nodes`
then. Every other node has its children without `n`, and all else is as it was. -/
structure IsMoved (d : Document) (n p : NodeId) (nodes : List NodeId) (d' : Document) : Prop where
  parent_self : d'.parent n = some p
  parent_eq : ∀ m, m ≠ n → d'.parent m = d.parent m
  children_self : d'.children p = nodes
  /-- The old parent loses `n` and nothing else. -/
  children_old : ∀ q, q ≠ p → d.parent n = some q → d'.children q = (d.children q).erase n
  children_eq : ∀ q, q ≠ p → d.parent n ≠ some q → d'.children q = d.children q
  data?_eq : ∀ m, d'.data? m = d.data? m
  /-- Indices and settings. -/
  rest_eq : { d' with nodes := d.nodes } = d

theorem detach_with_nodes : { d.detach n with nodes := d.nodes } = d := by
  unfold detach
  split <;> rfl

theorem isMoved_link (h : d.Linked) (hn : (d.node? n).isSome = true) (hp : d.CanHold p)
    (place : List NodeId → List NodeId) :
    d.IsMoved n p (place ((d.children p).erase n)) ((d.detach n).link p n place) := by
  have hn' : ((d.detach n).node? n).isSome = true := by rw [isSome_node?_detach, hn]
  have hp' : ((d.detach n).node? p).isSome = true := by
    obtain ⟨data, hdata, -⟩ := any_isContainer (canHold_iff.mp hp)
    rw [isSome_node?_detach, isSome_node?_of_data? hdata]
  have hchildren : ∀ q, (d.detach n).children q = (d.children q).erase n := fun q =>
    children_detach fun _ => h.mem_children
  refine ⟨?_, fun m hm => ?_, ?_, fun q hq _ => ?_, fun q hq hparent => ?_, fun m => ?_, ?_⟩
  · rw [parent_link hn', if_pos rfl]
  · rw [parent_link hn', if_neg hm, parent_detach, if_neg hm]
  · rw [children_link hp', if_pos rfl, hchildren]
  · rw [children_link hp', if_neg hq, hchildren]
  · rw [children_link hp', if_neg hq, hchildren, List.erase_of_not_mem]
    rwa [h.mem_children]
  · rw [data?_link, data?_detach]
  · exact detach_with_nodes

/-- Taking out a node changes the document if the node had a parent. -/
theorem detach_eq_self_iff : d.detach n = d ↔ d.parent n = none := by
  constructor
  · intro h
    rw [← h, parent_detach, if_pos rfl]
  · intro h
    rw [detach, h]

/-! ### What comes of a move -/

theorem run_requireContainer_of_canHold (h : d.CanHold p) :
    (requireContainer p).run.run d = (.ok (), d) := by
  obtain ⟨data, hdata, hc⟩ := any_isContainer (canHold_iff.mp h)
  simp only [requireContainer, run_bind, run_get, hdata, hc, if_true, run_pure]

theorem run_requireContainer_of_not (h : ¬ d.CanHold p) :
    ∃ e, (e = .missing p ∨ e = .notAContainer p) ∧
      (requireContainer p).run.run d = (.error e, d) := by
  rw [canHold_iff] at h
  cases hdata : d.data? p with
  | none =>
    refine ⟨_, .inl rfl, ?_⟩
    simp only [requireContainer, run_bind, run_get, hdata, run_throw]
  | some data =>
    have hc : data.isContainer = false := by simpa [hdata] using h
    refine ⟨_, .inr rfl, ?_⟩
    simp only [requireContainer, run_bind, run_get, hdata, hc, if_false, Bool.false_eq_true,
      run_throw]

theorem run_requireNode_of_isSome (hn : (d.node? n).isSome = true) :
    (requireNode n).run.run d = (.ok (), d) := by
  obtain ⟨node, hnode⟩ := Option.isSome_iff_exists.mp hn
  simp only [requireNode, run_bind, run_get, hnode, Option.isNone_some, Bool.false_eq_true,
    if_false, run_pure]

theorem run_requireNode_of_not (hn : ¬ (d.node? n).isSome = true) :
    (requireNode n).run.run d = (.error (.missing n), d) := by
  have hnone : d.node? n = none := by simpa using hn
  simp only [requireNode, run_bind, run_get, hnone, Option.isNone_none, if_true, run_throw]

/-- A node is asked for that is not there or cannot hold others. -/
def IsRefusal (e : DocumentError) : Prop :=
  (∃ m, e = .missing m) ∨ ∃ m, e = .notAContainer m

section Cases

variable (place : List NodeId → List NodeId) (toItself toDescendant : DocumentError)

/-- A move is refused before anything happens, or turns out to lead into the
node itself when that is already out of its place, or succeeds. -/
theorem move_cases (h : d.Linked) (p n anchor : NodeId) :
    (∃ e, IsRefusal e ∧ ¬ (d.CanHold p ∧ (d.node? n).isSome = true) ∧
      (move p n anchor place toItself toDescendant).run.run d = (.error e, d)) ∨
    (∃ e, (e = toItself ∨ e = toDescendant) ∧ d.CanHold p ∧ d.links.Within n anchor ∧
      (move p n anchor place toItself toDescendant).run.run d = (.error e, d.detach n)) ∨
    (d.CanHold p ∧ (d.node? n).isSome = true ∧ ¬ d.links.Within n anchor ∧
      (move p n anchor place toItself toDescendant).run.run d =
        (.ok (), (d.detach n).link p n place)) := by
  by_cases hp : d.CanHold p
  swap
  · obtain ⟨e, he, hrun⟩ := run_requireContainer_of_not hp
    refine .inl ⟨e, he.imp (⟨p, ·⟩) (⟨p, ·⟩), fun hc => hp hc.1, ?_⟩
    simp only [move, run_bind, hrun]
  by_cases hn : (d.node? n).isSome = true
  swap
  · refine .inl ⟨.missing n, .inl ⟨n, rfl⟩, fun hc => hn hc.2, ?_⟩
    simp only [move, run_bind, run_requireContainer_of_canHold hp, run_requireNode_of_not hn]
  have hstart : (move p n anchor place toItself toDescendant).run.run d =
      (do if anchor = n then throw toItself
          if (← get).isWithin n anchor then throw toDescendant
          modify fun d => d.link p n place : Edit Unit).run.run (d.detach n) := by
    simp only [move, run_bind, run_requireContainer_of_canHold hp, run_requireNode_of_isSome hn,
      run_modify]
  rw [hstart]
  by_cases hanchor : anchor = n
  · refine .inr (.inl ⟨toItself, .inl rfl, hp, Links.within_iff.mpr (.inl hanchor), ?_⟩)
    simp only [hanchor, if_true, run_bind, run_throw]
  by_cases hw : (d.detach n).isWithin n anchor = true
  · refine .inr (.inl ⟨toDescendant, .inr rfl, hp, ?_, ?_⟩)
    · exact h.within_detach.mp ((h.detach n).isForest.contains_iff.mp hw)
    · simp only [hanchor, if_false, hw, if_true, run_bind, run_get, run_throw]
  · refine .inr (.inr ⟨hp, hn, mt h.within_detach.mpr ((h.detach n).not_within hw), ?_⟩)
    simp only [hanchor, if_false, hw, Bool.false_eq_true, run_bind, run_get, run_modify]

end Cases

/-! ### Appending and inserting -/

theorem run_insertBefore_of_none (hr : d.parent reference = none) :
    (insertBefore reference n).run.run d = (.error (.noParent reference), d) := by
  simp only [insertBefore, run_bind, run_get, hr, run_throw]

theorem run_insertBefore_of_parent (hr : d.parent reference = some p) :
    (insertBefore reference n).run.run d =
      (move p n reference (placeBefore reference n) .insertBeforeItself
        .insertBeforeDescendant).run.run d := by
  simp only [insertBefore, run_bind, run_get, hr]

theorem run_append_iff (h : d.Coherent) :
    (append p n).run.run d = (.ok (), d') ↔
      (d.CanHold p ∧ (d.node? n).isSome = true ∧ ¬ d.links.Within n p) ∧
        d' = (d.detach n).link p n (placeLast n) := by
  rcases move_cases (placeLast n) .appendToItself .appendToDescendant h.linked p n p with
    ⟨e, -, hnot, hrun⟩ | ⟨e, -, -, hw, hrun⟩ | ⟨hp, hn, hw, hrun⟩
  · rw [append, hrun]
    exact iff_of_false nofun fun hd => hnot ⟨hd.1.1, hd.1.2.1⟩
  · rw [append, hrun]
    exact iff_of_false nofun fun hd => hd.1.2.2 hw
  · rw [append, hrun, Prod.mk.injEq, eq_comm (b := d')]
    exact ⟨fun hd => ⟨⟨hp, hn, hw⟩, hd.2⟩, fun hd => ⟨rfl, hd.2⟩⟩

theorem run_insertBefore_iff (h : d.Coherent) :
    (insertBefore reference n).run.run d = (.ok (), d') ↔
      ∃ p, (d.parent reference = some p ∧ (d.node? n).isSome = true ∧
          ¬ d.links.Within n reference) ∧
        d' = (d.detach n).link p n (placeBefore reference n) := by
  cases hr : d.parent reference with
  | none =>
    rw [run_insertBefore_of_none hr]
    exact iff_of_false nofun fun ⟨p, ⟨hp, _⟩, _⟩ => nomatch hp
  | some p =>
    rw [run_insertBefore_of_parent hr]
    rcases move_cases (placeBefore reference n) .insertBeforeItself .insertBeforeDescendant
        h.linked p n reference with
      ⟨e, -, hnot, hrun⟩ | ⟨e, -, -, hw, hrun⟩ | ⟨hp, hn, hw, hrun⟩
    · rw [hrun]
      exact iff_of_false nofun fun ⟨q, ⟨_, hn, _⟩, _⟩ => hnot ⟨h.canHold hr, hn⟩
    · rw [hrun]
      exact iff_of_false nofun fun ⟨q, ⟨_, _, hnot⟩, _⟩ => hnot hw
    · rw [hrun, Prod.mk.injEq, eq_comm (b := d')]
      constructor
      · exact fun hd => ⟨p, ⟨rfl, hn, hw⟩, hd.2⟩
      · rintro ⟨q, ⟨hq, -⟩, hd⟩
        obtain rfl := Option.some.inj hq
        exact ⟨rfl, hd⟩

/-- Where a node is found, another one is put in front of it. -/
theorem placeBefore_eq {before after : List NodeId} (hm : reference ∉ before) :
    placeBefore reference n (before ++ reference :: after) =
      before ++ n :: reference :: after := by
  induction before with
  | nil => simp [placeBefore]
  | cons m before ih =>
    have hne : m ≠ reference := fun he => hm (he ▸ List.mem_cons_self)
    rw [List.cons_append, placeBefore, if_neg hne, ih (fun hb => hm (List.mem_cons_of_mem m hb))]
    rfl

/-- The place before a sibling, seen in the list of children. -/
theorem Linked.exists_placeBefore (h : d.Linked) (hr : d.parent reference = some p)
    (hne : reference ≠ n) : ∃ before after,
      (d.children p).erase n = before ++ reference :: after ∧
        placeBefore reference n ((d.children p).erase n) = before ++ n :: reference :: after := by
  have hmem : reference ∈ (d.children p).erase n :=
    (List.mem_erase_of_ne hne).mpr (h.mem_children.mpr hr)
  obtain ⟨before, after, hs⟩ := List.append_of_mem hmem
  have hnodup : (before ++ reference :: after).Nodup := hs ▸ (h.nodup_children p).erase n
  refine ⟨before, after, hs, ?_⟩
  rw [hs]
  exact placeBefore_eq fun hb => (List.nodup_append.mp hnodup).2.2 _ hb _ List.mem_cons_self rfl

/-- Whatever operations a document went through, its links describe an ordered
forest, and hosts and shadow roots name each other. A node can be put at the end
of the children of `p`, or before a node with a parent, if it does not contain
that place. Then it is moved there, and nothing else happens. -/
theorem Reachable.edits_are_moves (h : d.Reachable) :
    d.links.IsForest ∧
      (∀ n, d.parent n = none → d.nextSibling n = none ∧ d.previousSibling n = none) ∧
      d.Hosted ∧
      (∀ p n, (d.node? n).isSome = true →
        ((∃ d', (append p n).run.run d = (.ok (), d')) ↔
          d.CanHold p ∧ ¬ d.links.Within n p) ∧
        ∀ d', (append p n).run.run d = (.ok (), d') →
          d.IsMoved n p ((d.children p).erase n ++ [n]) d') ∧
      ∀ reference n, (d.node? n).isSome = true →
        ((∃ d', (insertBefore reference n).run.run d = (.ok (), d')) ↔
          (∃ p, d.parent reference = some p) ∧ ¬ d.links.Within n reference) ∧
        ∀ d', (insertBefore reference n).run.run d = (.ok (), d') →
          ∃ p before after, d.parent reference = some p ∧
            (d.children p).erase n = before ++ reference :: after ∧
            d.IsMoved n p (before ++ n :: reference :: after) d' := by
  have hc := h.coherent
  refine ⟨hc.linked.isForest, fun n hn => ?_, h.hosted, fun p n hn => ⟨?_, fun d' hrun => ?_⟩,
    fun reference n hn => ⟨?_, fun d' hrun => ?_⟩⟩
  · simp [nextSibling, previousSibling, siblings, hn, following]
  · simp only [run_append_iff hc, hn, true_and, exists_and_left, exists_eq, and_true]
  · obtain ⟨⟨hp, -⟩, rfl⟩ := (run_append_iff hc).mp hrun
    exact isMoved_link hc.linked hn hp (placeLast n)
  · simp only [run_insertBefore_iff hc, hn, true_and]
    constructor
    · rintro ⟨d', p, ⟨hp, hw⟩, -⟩
      exact ⟨⟨p, hp⟩, hw⟩
    · rintro ⟨⟨p, hp⟩, hw⟩
      exact ⟨_, p, ⟨hp, hw⟩, rfl⟩
  · obtain ⟨p, ⟨hr, -, hw⟩, rfl⟩ := (run_insertBefore_iff hc).mp hrun
    have hne : reference ≠ n := fun he => hw (Links.within_iff.mpr (.inl he))
    obtain ⟨before, after, hs, hplace⟩ := hc.linked.exists_placeBefore hr hne
    have hmoved := isMoved_link hc.linked hn (hc.canHold hr) (placeBefore reference n)
    rw [hplace] at hmoved
    exact ⟨p, before, after, hr, hs, hmoved⟩

/-- A box with two children. -/
def nested : Document :=
  (Document.empty .html).run
    [.createElement "div", .append root ⟨1⟩, .createElement "span", .append ⟨1⟩ ⟨2⟩,
      .createElement "b", .append ⟨1⟩ ⟨3⟩]

theorem reachable_nested : nested.Reachable :=
  (Reachable.empty .html).run _

/-- The links of the box, and what becomes of it when it is to go below its child. -/
theorem links_nested : (nested.node? ⟨3⟩).isSome = true ∧ nested.parent ⟨1⟩ = some root ∧
    nested.parent ⟨2⟩ = some ⟨1⟩ ∧ nested.children ⟨1⟩ = [⟨2⟩, ⟨3⟩] ∧
    nested.links.contains ⟨3⟩ ⟨2⟩ = false ∧
    ((append ⟨2⟩ ⟨1⟩).run.run nested).1 = .error .appendToDescendant ∧
    (nested.after (append ⟨2⟩ ⟨1⟩)).parent ⟨1⟩ = none := by
  refine ⟨?_, ?_, ?_, ?_, ?_, ?_, ?_⟩
  all_goals cbv

theorem edits_are_moves_nested : nested.Reachable ∧
    ∃ d', (insertBefore ⟨2⟩ ⟨3⟩).run.run nested = (.ok (), d') ∧
      nested.IsMoved ⟨3⟩ ⟨1⟩ [⟨3⟩, ⟨2⟩] d' := by
  obtain ⟨hn, -, hr, hchildren, hcontains, -⟩ := links_nested
  obtain ⟨hforest, -, -, -, hinsert⟩ := Reachable.edits_are_moves reachable_nested
  have hw : ¬ nested.links.Within ⟨3⟩ ⟨2⟩ := by
    rw [← hforest.contains_iff, hcontains]
    exact Bool.false_ne_true
  obtain ⟨d', hrun⟩ := (hinsert ⟨2⟩ ⟨3⟩ hn).1.mpr ⟨⟨_, hr⟩, hw⟩
  obtain ⟨p, before, after, hp, hs, hmoved⟩ := (hinsert ⟨2⟩ ⟨3⟩ hn).2 d' hrun
  obtain rfl : ⟨1⟩ = p := Option.some.inj (hr.symm.trans hp)
  obtain ⟨rfl, rfl⟩ : before = [] ∧ after = [] := by
    have hlength := congrArg List.length hs
    rw [hchildren, List.length_append] at hlength
    have hlength : 1 = before.length + (after.length + 1) := hlength
    exact ⟨List.length_eq_zero_iff.mp (by omega), List.length_eq_zero_iff.mp (by omega)⟩
  exact ⟨reachable_nested, d', hrun, hmoved⟩

/-! ### Failures -/

/-- The node would be put inside of itself. -/
def DocumentError.isCycle : DocumentError → Bool
  | .appendToItself | .appendToDescendant | .insertBeforeItself | .insertBeforeDescendant => true
  | _ => false

theorem IsRefusal.not_isCycle {e : DocumentError} (h : IsRefusal e) : e.isCycle = false := by
  rcases h with ⟨m, rfl⟩ | ⟨m, rfl⟩ <;> rfl

section Fail

variable {place : List NodeId → List NodeId} {toItself toDescendant e : DocumentError}

theorem failed_move (h : d.Linked) (hself : toItself.isCycle = true)
    (hdescendant : toDescendant.isCycle = true)
    (hrun : (move p n anchor place toItself toDescendant).run.run d = (.error e, d')) :
    d' = if e.isCycle then d.detach n else d := by
  rcases move_cases place toItself toDescendant h p n anchor with
    ⟨e', he', -, hrun'⟩ | ⟨e', he', -, -, hrun'⟩ | ⟨-, -, -, hrun'⟩
  · cases hrun'.symm.trans hrun
    rw [he'.not_isCycle, if_neg Bool.false_ne_true]
  · cases hrun'.symm.trans hrun
    have hcycle : e.isCycle = true := by rcases he' with rfl | rfl <;> assumption
    rw [if_pos hcycle]
  · cases hrun'.symm.trans hrun

theorem failed_append (h : d.Linked) (hrun : (append p n).run.run d = (.error e, d')) :
    d' = if e.isCycle then d.detach n else d :=
  failed_move h rfl rfl hrun

theorem failed_insertBefore (h : d.Linked)
    (hrun : (insertBefore reference n).run.run d = (.error e, d')) :
    d' = if e.isCycle then d.detach n else d := by
  cases hr : d.parent reference with
  | none =>
    cases (run_insertBefore_of_none hr).symm.trans hrun
    rfl
  | some p =>
    rw [run_insertBefore_of_parent hr] at hrun
    exact failed_move h rfl rfl hrun

/-- When a node cannot be put where it should go, the document is as it was,
unless that place is inside of the node. Then the node is left without a
parent. -/
theorem Reachable.failed_edits (h : d.Reachable) (n : NodeId) :
    (∀ p e d', (append p n).run.run d = (.error e, d') →
      d' = if e.isCycle then d.detach n else d) ∧
    (∀ reference e d', (insertBefore reference n).run.run d = (.error e, d') →
      d' = if e.isCycle then d.detach n else d) ∧
    (d.detach n = d ↔ d.parent n = none) :=
  ⟨fun _ _ _ => failed_append h.coherent.linked,
    fun _ _ _ => failed_insertBefore h.coherent.linked, detach_eq_self_iff⟩

end Fail

theorem failed_edits_nested : nested.Reachable ∧
    ∃ e d', (append ⟨2⟩ ⟨1⟩).run.run nested = (.error e, d') ∧ e.isCycle = true ∧
      d' = nested.detach ⟨1⟩ := by
  obtain ⟨-, -, -, -, -, hrun, -⟩ := links_nested
  have hfailed := (Reachable.failed_edits reachable_nested ⟨1⟩).1 ⟨2⟩ .appendToDescendant
    ((append ⟨2⟩ ⟨1⟩).run.run nested).2 (Prod.ext hrun rfl)
  exact ⟨reachable_nested, _, _, Prod.ext hrun rfl, rfl, hfailed⟩

/-- The box was in the document, and is not after it was to go below its child. -/
theorem append_below_itself_detaches : nested.Reachable ∧
    ((append ⟨2⟩ ⟨1⟩).run.run nested).1 = .error .appendToDescendant ∧
    nested.parent ⟨1⟩ = some root ∧ (nested.after (append ⟨2⟩ ⟨1⟩)).parent ⟨1⟩ = none ∧
    nested.after (append ⟨2⟩ ⟨1⟩) ≠ nested := by
  obtain ⟨-, hbefore, -, -, -, hrun, hafter⟩ := links_nested
  refine ⟨reachable_nested, hrun, hbefore, hafter, fun he => ?_⟩
  rw [he, hbefore] at hafter
  cases hafter

end DomQuery.Document
