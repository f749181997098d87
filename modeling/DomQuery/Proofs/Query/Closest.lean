import DomQuery.Proofs.Document.Answers

/-!
# The nearest match on the way up

A search on the way up tests every element there against the last compounds of
all branches, follows the branches back from those that satisfy one, and then
goes up a second time to pick the nearest element found. A search at one node
does the same at that node alone. Nothing in either depends on the context node,
unless the selector asks for it, nor on indices or on how nodes are compared.

* `closest_eq_find?`: `closest` answers with the first of the elements on the
  way up that matches when it is asked on its own.
-/

namespace DomQuery.Query

open DomQuery.Selector DomQuery.Tree

variable {ν : Type}

/-- What `p` finds in a list is found in its beginning, where `b` says the same,
if `p` holds nowhere else. -/
theorem find?_eq_find?_takeWhile {α : Type} {l : List α} {q p b : α → Bool}
    (hmem : ∀ a ∈ l, p a = true → a ∈ l.takeWhile q) (heq : ∀ a ∈ l.takeWhile q, p a = b a) :
    l.find? p = (l.takeWhile q).find? b := by
  induction l with
  | nil => rfl
  | cons x l ih =>
    by_cases hq : q x = true
    · rw [List.takeWhile_cons_of_pos hq] at hmem heq ⊢
      obtain ⟨hx, heq⟩ := List.forall_mem_cons.mp heq
      rw [List.find?_cons, List.find?_cons, ← hx]
      cases hp : p x with
      | true => rfl
      | false =>
        refine ih (fun a ha hpa => ?_) heq
        rcases List.mem_cons.mp (hmem a (List.mem_cons_of_mem x ha) hpa) with rfl | ha
        · simp [hp] at hpa
        · exact ha
    · rw [List.takeWhile_cons_of_neg hq] at hmem ⊢
      exact List.find?_eq_none.mpr fun a ha hp => List.not_mem_nil (hmem a ha hp)

namespace Context

variable {tree : View ν} {node n : ν} {warn : Bool} {ctx ctx' : Context ν}

/-- An element brings the same surroundings along as the elements around it, if
its tree belongs to one document. -/
theorem of_element_eq_withNode
    (ho : ∀ {a b}, tree.SameTree a b → tree.ownerDocument a = tree.ownerDocument b)
    (h : of tree node warn = .ok ctx) (h' : of tree n warn = .ok ctx')
    (hnode : tree.kind node = .element) (hkind : tree.kind n = .element)
    (hn : tree.SameTree node n) : ctx' = ctx.withNode n := by
  simp only [of, hnode] at h
  simp only [of, hkind] at h'
  cases h
  cases h'
  rw [← ho hn, ← (show tree.topmost node = tree.topmost n from hn)]
  rfl

variable [DecidableEq ν]

/-- The node satisfies the last compound of the chain, and the rest of it leads
back from there. -/
def EndsChain (ctx : Context ν) (c : Chain Compound) (n : ν) : Prop :=
  ctx.Satisfies c.last n ∧
    Yes (ctx.leadsBack (c.map (ctx.compoundProbe false)).links.reverse n)

theorem endsChain_withNode {c : Chain Compound}
    (h : ∀ k ∈ c.compounds, ∀ s ∈ k, s.All (· ≠ .keyword .scope)) :
    (ctx.withNode node).EndsChain c n ↔ ctx.EndsChain c n := by
  have hprobes : c.map ((ctx.withNode node).compoundProbe false) =
      c.map (ctx.compoundProbe false) :=
    Chain.map_congr fun k hk => compoundProbe_withNode (h k hk) false
  rw [EndsChain, EndsChain, Satisfies, Satisfies, hprobes,
    compoundProbe_withNode (h _ c.last_mem_compounds), leadsBack_withNode]

end Context

namespace Matcher

variable [DecidableEq ν] {tree : View ν} {text : String} {node : ν} {m : Matcher ν}

/-- What a search finds that does not go below the context node. -/
theorem find_upward_ok {target : Target} (ht : target.isBelow = false)
    (hm : new tree text node false = .ok m) {l : List ν} (hl : fresh (m.find target) = .ok l) :
    ∃ found : List ν, l = m.context.answer target found ∧
      ∀ n, n ∈ found ↔ n ∈ m.context.upward target ∧
        ∃ c ∈ m.branches, m.context.EndsChain c n := by
  obtain ⟨counts, htest⟩ := exists_testable hm
  obtain ⟨found, hanswer, -, hmem⟩ := htest.find_upward ht (fun c _ n _ => decides_yes _)
    (fresh_find_ok (not_swallows hm _) hl)
  exact ⟨found, hanswer, hmem⟩

/-- The context node matches if some branch of the selector ends there. -/
theorem isMatch_iff_endsChain (hm : new tree text node false = .ok m) {b : Bool}
    (hb : fresh m.isMatch = .ok b) :
    b = true ↔ ∃ c ∈ m.branches, m.context.EndsChain c node := by
  obtain ⟨htree, hnode, -⟩ := Context.of_ok (new_ok hm).1
  obtain ⟨he, l, hl, rfl⟩ := isMatch_ok hb
  obtain ⟨found, rfl, hmem⟩ := find_upward_ok rfl hm hl
  rw [List.contains_iff_mem, Context.answer, List.mem_filter, hmem]
  rw [hnode] at he ⊢
  simp [Context.upward, hnode, he]

theorem closest_ok {r : Option ν} (h : fresh m.closest = .ok r) :
    m.context.tree.kind m.context.node = .element ∧
      ∃ l, fresh (m.find .nearest) = .ok l ∧ l.head? = r := by
  unfold closest requireElement at h
  cases hk : m.context.tree.kind m.context.node
  case element => exact ⟨rfl, fresh_map_ok (by simpa [hk] using h)⟩
  all_goals simp [hk] at h

/-- The answer is the first of the elements from the context node up, as far as
there are only elements, that matches when it is asked on its own. -/
theorem closest_eq_find? (ht : tree.WellFormed)
    (ho : ∀ {a b}, tree.SameTree a b → tree.ownerDocument a = tree.ownerDocument b)
    (hm : new tree text node false = .ok m) (hs : m.IgnoresScope) {r : Option ν}
    (hr : fresh m.closest = .ok r) {b : ν → Bool}
    (hb : ∀ a ∈ tree.elementLine node, ∃ m', new tree text a false = .ok m' ∧
      fresh m'.isMatch = .ok (b a)) :
    r = (tree.elementLine node).find? b ∧ (b node = true ↔ r = some node) := by
  obtain ⟨htree, hnode, -⟩ := Context.of_ok (new_ok hm).1
  obtain ⟨hkind, l, hl, rfl⟩ := closest_ok hr
  rw [htree, hnode] at hkind
  obtain ⟨found, rfl, hmem⟩ := find_upward_ok rfl hm hl
  have hupward : m.context.upward .nearest = tree.elementLine node := by
    rw [← htree, ← hnode]
    rfl
  rw [hupward] at hmem
  -- each element on the way up is asked in a context that differs in its node only
  have hfound : ∀ a ∈ tree.elementLine node, found.contains a = b a := by
    intro a ha
    obtain ⟨m', hm', hmatch⟩ := hb a ha
    have hwithin : tree.Within a node := by
      have ha : a ∈ node :: tree.ancestors node := List.takeWhile_subset _ ha
      rcases List.mem_cons.mp ha with rfl | ha
      · exact .refl a
      · exact (ht.mem_ancestors.mp ha).within
    have hctx := Context.of_element_eq_withNode ho (new_ok hm).1 (new_ok hm').1 hkind
      (Links.isElement_iff.mp (List.all_eq_true.mp List.all_takeWhile a ha))
      (ht.toIsForest.sameTree_of_within hwithin).symm
    rw [Bool.eq_iff_iff, List.contains_iff_mem, hmem, isMatch_iff_endsChain hm' hmatch,
      branches_of_new hm hm', hctx]
    refine (and_iff_right ha).trans (exists_congr fun c => and_congr_right fun hc => ?_)
    exact (Context.endsChain_withNode (hs c hc)).symm
  have hanswer : (m.context.answer .nearest found).head? = (tree.elementLine node).find? b := by
    rw [Context.answer, htree, hnode, Option.head?_toList]
    exact find?_eq_find?_takeWhile (fun a _ h => ((hmem a).mp (List.contains_iff_mem.mp h)).1)
      hfound
  have hline : tree.elementLine node =
      node :: (tree.ancestors node).takeWhile tree.isElement := by
    rw [Links.elementLine, List.takeWhile_cons_of_pos (Links.isElement_iff.mpr hkind)]
  refine ⟨hanswer, ?_⟩
  rw [hanswer]
  constructor
  · intro h
    rw [hline, List.find?_cons_of_pos h]
  · exact fun h => List.find?_some h

open Document in
theorem closest_eq_find?_boxes : boxes.view.WellFormed ∧ HasOwners boxes.view ∧
    boxes.view.elementLine ⟨3⟩ = [⟨3⟩, ⟨1⟩] ∧
    ∃ m, new boxes.view "div, .x + .x" ⟨3⟩ false = .ok m ∧ m.IgnoresScope ∧
      fresh m.closest = .ok (some ⟨1⟩) ∧
      (∀ a ∈ boxes.view.elementLine ⟨3⟩, ∃ m',
        new boxes.view "div, .x + .x" a false = .ok m' ∧ fresh m'.isMatch = .ok (a == ⟨1⟩)) ∧
      some (⟨1⟩ : NodeId) = (boxes.view.elementLine ⟨3⟩).find? (· == ⟨1⟩) := by
  have hv := regular_boxes.isSound_view reachable_boxes.coherent
  have ho := reachable_boxes.coherent.hasOwners_view
  have hline : boxes.view.elementLine ⟨3⟩ = [⟨3⟩, ⟨1⟩] := by decide +kernel
  have heval : (new boxes.view "div, .x + .x" ⟨3⟩ false).toOption.map
      (fun m => (m.branches, (fresh m.closest).toOption)) =
        some ([⟨none, [], [.type ⟨none, "div"⟩]⟩,
          ⟨none, [⟨[.className "x"], .nextSibling⟩], [.className "x"]⟩], some (some ⟨1⟩)) := by
    cbv
  obtain ⟨m, hm, hrun⟩ := exists_of_toOption_map heval
  obtain ⟨hbranches, hclosest⟩ := Prod.mk.inj hrun
  have hscope : m.IgnoresScope := by
    rw [IgnoresScope, hbranches]
    simp only [Each, Chain.compounds, List.forall_mem_cons, List.map_cons, List.map_nil,
      List.cons_append, List.nil_append, List.not_mem_nil, false_implies, implies_true, and_true]
    exact ⟨.leaf rfl (by simp), .leaf rfl (by simp), .leaf rfl (by simp)⟩
  have heach : [⟨3⟩, ⟨1⟩].map (fun a => (new boxes.view "div, .x + .x" a false).toOption.map
      fun m => (fresh m.isMatch).toOption) = [some (some false), some (some true)] := by cbv
  have hmatches : ∀ a ∈ boxes.view.elementLine ⟨3⟩, ∃ m',
      new boxes.view "div, .x + .x" a false = .ok m' ∧ fresh m'.isMatch = .ok (a == ⟨1⟩) := by
    simp only [List.map_cons, List.map_nil, List.cons.injEq, and_true] at heach
    rw [hline]
    simp only [List.forall_mem_cons, List.not_mem_nil, false_implies, implies_true, and_true]
    refine ⟨?_, ?_⟩
    · obtain ⟨m', hm', hmatch⟩ := exists_of_toOption_map heach.1
      exact ⟨m', hm', ok_of_toOption hmatch⟩
    · obtain ⟨m', hm', hmatch⟩ := exists_of_toOption_map heach.2
      exact ⟨m', hm', ok_of_toOption hmatch⟩
  have hanswer := closest_eq_find? hv.wellFormed ho.ownerDocument_eq hm hscope
    (ok_of_toOption hclosest) hmatches
  exact ⟨hv.wellFormed, ho, hline, m, hm, hscope, ok_of_toOption hclosest, hmatches, hanswer.1⟩

end Matcher

end DomQuery.Query
