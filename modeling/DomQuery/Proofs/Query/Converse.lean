import DomQuery.Proofs.Query.Featureless
import DomQuery.Proofs.Query.Relative

/-!
# Combinators, followed from either side

Forward and backward a combinator is followed in quite different ways: by an index or a
walk on one side, along the ancestors on the other. Both ways lead through the same pairs
of nodes, those that are `Related`. So where two compounds hold at the two ends, one end is
found from the other in either direction. How the tree compares its nodes plays no part.

* `pairwise_related_forward`, `pairwise_related_backward`: the order in which nodes are
  led to.
* `comesTo_step`: a step comes to the nodes that it leads to, as far as they are accepted.
* `Session.step_converse`: steps forward and backward are converse.
-/

namespace DomQuery

open DomQuery.Document DomQuery.Selector DomQuery.Tree

variable {ν : Type} [DecidableEq ν]

/-- The same tree, that compares its nodes by document order. -/
def Tree.View.ordered (v : View ν) : View ν where
  __ := v
  compare := v.compareOrder fun _ _ => .eq

namespace Query

/-- The tree is well-formed, and where it keeps an index, the index is exact. -/
structure IsIndexed (v : View ν) : Prop where
  wellFormed : v.toLinks.WellFormed
  elementsById : ∀ {scope name found}, v.elementsById scope name = some found →
    v.Lists scope ((Lookup.id name).Fits v.toLinks) found
  elementsByClass : ∀ {scope name found}, v.elementsByClass scope name = some found →
    v.Lists scope ((Lookup.className name).Fits v.toLinks) found
  elementsByName : ∀ {scope name found}, v.elementsByName scope name = some found →
    v.Lists scope ((Lookup.localName name).Fits v.toLinks) found

theorem IsSound.isIndexed {v : View ν} (h : IsSound v) : IsIndexed v :=
  ⟨h.wellFormed, h.elementsById, h.elementsByClass, h.elementsByName⟩

theorem IsIndexed.isSound_ordered {v : View ν} (h : IsIndexed v) : IsSound v.ordered where
  wellFormed := h.wellFormed
  compare_eq_lt := h.wellFormed.toIsForest.compareOrder_eq_lt _
  compare_eq_eq := h.wellFormed.toIsForest.compareOrder_eq_eq _
  elementsById := h.elementsById
  elementsByClass := h.elementsByClass
  elementsByName := h.elementsByName

omit [DecidableEq ν] in
theorem Related.ne {t : Links ν} (ht : t.IsForest) {c : Combinator} {x y : ν}
    (h : Related t c x y) : x ≠ y := by
  rintro rfl
  exact ht.not_before_self x (h.before ht)

namespace Context

variable {ctx : Context ν}

/-! ### The order of nodes -/

section Order

omit [DecidableEq ν] in
theorem pairwise_adjacent (r : ν → ν → Prop) (find : ν → Option ν) (n : ν) :
    (ctx.adjacent find n).Pairwise r := by
  unfold adjacent
  split
  · cases find n with
    | none => exact .nil
    | some m => exact List.pairwise_singleton r m
  · exact .nil

/-- Forward, nodes are led to in document order. -/
theorem pairwise_related_forward (ht : ctx.tree.WellFormed) (c : Combinator) (x : ν) :
    (ctx.related .forward c none x).Pairwise ctx.tree.Before := by
  have hchildren : ∀ p, (ctx.tree.children p).Pairwise ctx.tree.Before := fun p =>
    (Links.pairwise_children p).imp fun h => ht.before_of_after h.after
  cases c with
  | child => exact (hchildren x).filter _
  | descendant => exact ht.pairwise_walk x
  | nextSibling => exact pairwise_adjacent _ _ _
  | subsequentSibling =>
    rw [related, siblings]
    split
    · rename_i p hp
      obtain ⟨before, after, hs⟩ := ht.children_of_parent hp
      rw [ht.follow_nextSibling hs (ht.length_split_le hs).2]
      have hall := hs ▸ hchildren p
      exact (List.pairwise_cons.mp (List.pairwise_append.mp hall).2.1).2.filter _
    · exact .nil

/-- Backward, the nearest ones come first: from each node the combinator leads to those
before it. -/
theorem pairwise_related_backward (ht : ctx.tree.IsForest) (c : Combinator) (l : Option Lookup)
    (y : ν) : (ctx.related .backward c l y).Pairwise fun m n => Related ctx.tree.toLinks c n m := by
  cases c with
  | child =>
    rw [related]
    refine List.Pairwise.filter _ ?_
    cases ctx.tree.parent y with
    | none => exact .nil
    | some p => exact List.pairwise_singleton _ p
  | descendant => exact (ht.pairwise_ancestors y).sublist (List.takeWhile_sublist _)
  | nextSibling => exact pairwise_adjacent _ _ _
  | subsequentSibling =>
    rw [related, siblings]
    split
    · rename_i p hp
      obtain ⟨before, after, hs⟩ := ht.children_of_parent hp
      rw [ht.follow_previousSibling hs (ht.length_split_le hs).1]
      have hall := hs ▸ Links.pairwise_children (t := ctx.tree.toLinks) p
      exact (List.pairwise_reverse.mpr (List.pairwise_append.mp hall).1).filter _
    · exact .nil

end Order

/-! ### Steps -/

/-- The same surroundings in a tree that compares its nodes by document order. -/
def ordered (ctx : Context ν) : Context ν :=
  { ctx with tree := ctx.tree.ordered }

/-- A node that compounds can be asked of: an element of the tree around the context
node, or the top of it when that is a shadow root. -/
def IsSubject (ctx : Context ν) (n : ν) : Prop :=
  ctx.tree.Within ctx.root n ∧ (ctx.tree.isElement n = true ∨
    n = ctx.root ∧ ctx.tree.kind n = .fragment ∧ (ctx.tree.shadowHost n).isSome = true)

section Steps

variable (hctx : ctx.ordered.Grounded)
include hctx

/-- Forward, a combinator leads to elements. -/
theorem mem_forward {c : Combinator} {x y : ν} (hx : ctx.tree.Within ctx.root x) :
    y ∈ ctx.related .forward c none x ↔
      Related ctx.tree.toLinks c x y ∧ ctx.tree.isElement y = true := by
  -- every node satisfies the empty compound
  have hall : ctx.ordered.Satisfies [] y := rfl
  exact hctx.mem_related_forward hx hall

/-- Backward, it leads to elements and to the shadow root. -/
theorem mem_backward {c : Combinator} {x y : ν} :
    x ∈ ctx.related .backward c none y ↔
      Related ctx.tree.toLinks c x y ∧ ctx.isAncestorCandidate x = true :=
  hctx.mem_related_backward

variable {counts : MemoKey ν → Except QueryError (List ν)} {E : QueryError → Prop}
variable {forgive : Bool} {k : Compound}

/-- If the compound can be tested wherever the combinator leads to, a step comes to the
nodes among these where it holds, in the same order. -/
theorem comesTo_step (hk : (ctx.compoundProbe forgive k).Steady counts E) (heading : Heading)
    (c : Combinator) {n : ν} (hn : ctx.tree.Within ctx.root n)
    (ha : ∀ m ∈ ctx.related heading c none n, Answers ((ctx.compoundProbe forgive k).holds m)) :
    ∃ found, ComesTo counts E (ctx.step heading c (ctx.compoundProbe forgive k) n) (.ok found) ∧
      found.Sublist (ctx.related heading c none n) ∧
      ∀ m, m ∈ found ↔ m ∈ ctx.related heading c none n ∧ ctx.Accepts forgive k m := by
  have ht : ctx.tree.WellFormed := hctx.wellFormed
  have hlists : ∀ {l found}, ctx.indexedBelow n l = some found →
      ctx.tree.Lists n (l.Fits ctx.tree.toLinks) found := hctx.lists_indexedBelow (.inr hn)
  have hstep : ctx.step heading c (ctx.compoundProbe forgive k) n =
      (ctx.related heading c none n).filterM (ctx.compoundProbe forgive k).holds :=
    step_eq_of_lists ht hlists heading c
  obtain ⟨found, hfound⟩ := Steady.filterM_answers (fun m _ => hk m) ha
  obtain ⟨hsublist, hmem⟩ := filterM_ok (fun m _ => hk m) (fun m _ => decides_yes _) hfound
  exact ⟨found, ⟨steady_step hk heading c n, hstep ▸ hfound⟩, hsublist, hmem⟩

/-- What has a parent is not the top of its tree. -/
theorem isElement_of_isSubject {n p : ν} (hn : ctx.IsSubject n) (hp : ctx.tree.parent n = some p) :
    ctx.tree.isElement n = true := by
  refine hn.2.resolve_right ?_
  rintro ⟨rfl, -⟩
  have hroot : ctx.root = ctx.tree.topmost ctx.node := hctx.root_eq
  have htop : ctx.tree.parent ctx.root = none := hroot ▸ hctx.isForest.parent_topmost _
  simp [htop] at hp

end Steps

section Of

variable {tree : View ν} {node : ν} {warn : Bool} (hc : of tree node warn = .ok ctx)
include hc

theorem grounded_ordered_of (hv : IsIndexed tree) : ctx.ordered.Grounded := by
  rw [of_eq hv.wellFormed hc]
  exact ⟨hv.isSound_ordered, rfl⟩

omit [DecidableEq ν] in
theorem candidate_of_isSubject (ht : tree.WellFormed) {n : ν} (hn : ctx.IsSubject n) :
    ctx.isAncestorCandidate n = true := by
  rcases hn.2 with he | ⟨rfl, hkind, hhost⟩
  · exact candidate_of_isElement he
  · have hshadow : ctx.shadow = true := by
      rw [of_eq ht hc] at hkind hhost ⊢
      exact Bool.and_eq_true_iff.mpr ⟨beq_iff_eq.mpr hkind, hhost⟩
    rw [isAncestorCandidate, hkind, hshadow]

end Of

end Context

namespace Session

variable {tree : View ν} {text : String} {node : ν} {warn : Bool} {s : Session ν}

/-- Where compounds hold at two nodes, the second one is found from the first forward exactly
if the first one is found from the second backward, and that is if the combinator relates
them. Both steps come to a list if the compounds can be tested where they lead to: forward
in document order, backward the nearest first, each node once and never the one that is
started from. This is so in every state of the session, since what it keeps from earlier
calls is what `counts` says. The compounds refer to lists by the numbers of its selector,
and `meaning` tells which list a number stands for. -/
theorem step_converse (h : start tree text node warn = .ok s) (hv : IsIndexed tree)
    {meaning : ListId → List (Chain Compound)} (hm : s.list.Means meaning) {A B : Compound}
    (hA : ∀ t ∈ A, t.All (Simple.Numbered meaning)) (hB : ∀ t ∈ B, t.All (Simple.Numbered meaning))
    (forgive : Bool) (c : Combinator) {x y : ν} (hx : s.context.IsSubject x)
    (hy : s.context.IsSubject y)
    (htestA : ∀ n, Related tree.toLinks c n y → Answers ((s.context.compoundProbe forgive A).holds n))
    (htestB : ∀ n, Related tree.toLinks c x n → Answers ((s.context.compoundProbe forgive B).holds n)) :
    (∀ calls, Recalls (s.context.counts meaning) (s.askAll calls).2.counts) ∧
    ∃ ys xs,
      ComesTo (s.context.counts meaning) s.context.MayFail
        (s.context.step .forward c (s.context.compoundProbe forgive B) x) (.ok ys) ∧
      ComesTo (s.context.counts meaning) s.context.MayFail
        (s.context.step .backward c (s.context.compoundProbe forgive A) y) (.ok xs) ∧
      (s.context.Accepts forgive A x → s.context.Accepts forgive B y →
        (y ∈ ys ↔ x ∈ xs) ∧ (x ∈ xs ↔ Related tree.toLinks c x y)) ∧
      (ys.Pairwise tree.Before ∧ ys.Nodup ∧ x ∉ ys) ∧
      (xs.Pairwise (fun m n => Related tree.toLinks c n m) ∧ xs.Nodup ∧ y ∉ xs) := by
  obtain ⟨hc, hl, -⟩ := start_ok h
  have hctx := Context.grounded_ordered_of hc hv
  have hcandidate := Context.candidate_of_isSubject hc hv.wellFormed hx
  obtain ⟨rfl, -, -⟩ := Context.of_ok hc
  have ht := hctx.isForest
  have hsteady : ∀ k : Compound, (∀ t ∈ k, t.All (Simple.Numbered meaning)) →
      (s.context.compoundProbe forgive k).Steady (s.context.counts meaning) s.context.MayFail :=
    fun k hk => Context.steady_compoundProbe fun t ht n =>
      Context.steady_holdsSimple t (hk t ht) forgive n
  obtain ⟨ys, hys, hforward, hmemy⟩ := Context.comesTo_step hctx (hsteady B hB) .forward c hx.1
    fun n hn => htestB n ((Context.mem_forward hctx hx.1).mp hn).1
  obtain ⟨xs, hxs, hbackward, hmemx⟩ := Context.comesTo_step hctx (hsteady A hA) .backward c hy.1
    fun n hn => htestA n ((Context.mem_backward hctx).mp hn).1
  have hbefore := (Context.pairwise_related_forward hctx.wellFormed c x).sublist hforward
  have hnearest := (Context.pairwise_related_backward ht c none y).sublist hbackward
  refine ⟨fun calls => ?_, ys, xs, hys, hxs, fun hAx hBy => ?_, ⟨hbefore, ?_, fun hxy => ?_⟩,
    hnearest, ?_, fun hyx => ?_⟩
  · obtain ⟨known, hk⟩ := (SelectorList.distinct_of_ofText hl).exists_knows
    exact (askAll_of_start h hk hm calls).2.2
  · have hfound : x ∈ xs ↔ Related s.context.tree.toLinks c x y := by
      rw [hmemx, and_iff_left hAx, Context.mem_backward hctx, and_iff_left hcandidate]
    refine ⟨?_, hfound⟩
    rw [hfound, hmemy, and_iff_left hBy, Context.mem_forward hctx hx.1]
    refine and_iff_left_of_imp fun hrelated => ?_
    -- what a combinator leads to has a parent, so it is not the shadow root
    obtain ⟨p, hp⟩ := hrelated.exists_parent ht
    exact Context.isElement_of_isSubject hctx hy hp
  · exact ht.nodup_of_pairwise hbefore
  · exact ((Context.mem_forward hctx hx.1).mp ((hmemy x).mp hxy).1).1.ne ht rfl
  · exact hnearest.imp fun hrelated => (hrelated.ne ht).symm
  · exact ((Context.mem_backward hctx).mp ((hmemx y).mp hyx).1).1.ne ht rfl

/-- Inside of a box, a box with a paragraph of class `y`. -/
def sheltered : Document :=
  (Document.empty .html).run
    [.createElement "div", .attachShadow ⟨1⟩ .open, .createElement "div", .append ⟨2⟩ ⟨3⟩,
      .createElement "p", .setAttribute ⟨4⟩ "class" "y", .append ⟨3⟩ ⟨4⟩]

theorem isIndexed_sheltered : IsIndexed sheltered.view := by
  have hreachable : sheltered.Reachable := (Reachable.empty .html).run _
  have hregular : sheltered.Regular := by decide +kernel
  exact (hregular.isSound_view hreachable.coherent).isIndexed

/-- What the steps between the shadow root and the paragraph come to. -/
theorem steps_sheltered : ∃ s, start sheltered.view ":not(.x) .y" ⟨4⟩ false = .ok s ∧
    s.context.root = ⟨2⟩ ∧ s.context.Accepts false otherThanX ⟨2⟩ ∧
    s.context.Accepts false otherThanX ⟨3⟩ ∧ s.context.Accepts false [.className "y"] ⟨4⟩ ∧
    fresh (s.context.step .forward .descendant
      (s.context.compoundProbe false [.className "y"]) ⟨2⟩) = .ok [⟨4⟩] ∧
    fresh (s.context.step .backward .descendant
      (s.context.compoundProbe false otherThanX) ⟨4⟩) = .ok [⟨3⟩, ⟨2⟩] := by
  have heval : (start sheltered.view ":not(.x) .y" ⟨4⟩ false).toOption.map (fun s =>
      (s.context.root, (fresh ((s.context.compoundProbe false otherThanX).holds ⟨2⟩)).toOption,
        (fresh ((s.context.compoundProbe false otherThanX).holds ⟨3⟩)).toOption,
        (fresh ((s.context.compoundProbe false [.className "y"]).holds ⟨4⟩)).toOption,
        (fresh (s.context.step .forward .descendant
          (s.context.compoundProbe false [.className "y"]) ⟨2⟩)).toOption,
        (fresh (s.context.step .backward .descendant
          (s.context.compoundProbe false otherThanX) ⟨4⟩)).toOption)) =
      some (⟨2⟩, some true, some true, some true, some [⟨4⟩], some [⟨3⟩, ⟨2⟩]) := by cbv
  obtain ⟨s, hs, hrun⟩ := exists_of_toOption_map heval
  simp only [Prod.mk.injEq] at hrun
  obtain ⟨hroot, htop, hbox, hparagraph, hforward, hbackward⟩ := hrun
  exact ⟨s, hs, hroot, ok_of_toOption htop, ok_of_toOption hbox, ok_of_toOption hparagraph,
    ok_of_toOption hforward, ok_of_toOption hbackward⟩

/-- The paragraph is looked up from the shadow root, which is found from it behind the
inner box. -/
theorem step_converse_sheltered : ∃ s meaning,
    start sheltered.view ":not(.x) .y" ⟨4⟩ false = .ok s ∧ IsIndexed sheltered.view ∧
    s.list.Means meaning ∧ (∀ t ∈ otherThanX, t.All (Simple.Numbered meaning)) ∧
    (∀ t ∈ [Simple.className "y"], t.All (Simple.Numbered meaning)) ∧
    s.context.IsSubject ⟨2⟩ ∧ s.context.IsSubject ⟨4⟩ ∧
    (∀ n, Related sheltered.view.toLinks .descendant n ⟨4⟩ →
      Answers ((s.context.compoundProbe false otherThanX).holds n)) ∧
    (∀ n, Related sheltered.view.toLinks .descendant ⟨2⟩ n →
      Answers ((s.context.compoundProbe false [.className "y"]).holds n)) ∧
    s.context.Accepts false otherThanX ⟨2⟩ ∧ s.context.Accepts false [.className "y"] ⟨4⟩ ∧
    ComesTo (s.context.counts meaning) s.context.MayFail
      (s.context.step .forward .descendant (s.context.compoundProbe false [.className "y"]) ⟨2⟩)
      (.ok [⟨4⟩]) ∧
    ComesTo (s.context.counts meaning) s.context.MayFail
      (s.context.step .backward .descendant (s.context.compoundProbe false otherThanX) ⟨4⟩)
      (.ok [⟨3⟩, ⟨2⟩]) ∧
    ((⟨4⟩ : NodeId) ∈ [⟨4⟩] ↔ (⟨2⟩ : NodeId) ∈ [⟨3⟩, ⟨2⟩]) ∧
    ([⟨3⟩, ⟨2⟩] : List NodeId).Pairwise
      (fun m n => Related sheltered.view.toLinks .descendant n m) := by
  obtain ⟨s, hs, hroot, htop, hbox, hparagraph, hforward, hbackward⟩ := steps_sheltered
  obtain ⟨hc, hl, -⟩ := start_ok hs
  obtain ⟨htree, -, -⟩ := Context.of_ok hc
  have hv := isIndexed_sheltered
  have ht := hv.wellFormed.toIsForest
  obtain ⟨meaning, hm⟩ := (SelectorList.distinct_of_ofText hl).exists_means
  have hclass : ∀ name, (Simple.className name).All (Simple.Numbered meaning) := fun name =>
    .leaf rfl nofun
  have hA : ∀ t ∈ otherThanX, t.All (Simple.Numbered meaning) := by
    refine List.forall_mem_singleton.mpr (.intro nofun ?_)
    simpa [Simple.branches, Chain.compounds] using hclass "x"
  have hB : ∀ t ∈ [Simple.className "y"], t.All (Simple.Numbered meaning) :=
    List.forall_mem_singleton.mpr (hclass "y")
  have hx : s.context.IsSubject ⟨2⟩ := by
    rw [Context.IsSubject, hroot, htree]
    exact ⟨.refl _, .inr ⟨rfl, by decide +kernel, by decide +kernel⟩⟩
  have hy : s.context.IsSubject ⟨4⟩ := by
    rw [Context.IsSubject, hroot, htree]
    exact ⟨ht.contains_iff.mp (by decide +kernel), .inl (by decide +kernel)⟩
  have htestA : ∀ n, Related sheltered.view.toLinks .descendant n ⟨4⟩ →
      Answers ((s.context.compoundProbe false otherThanX).holds n) := by
    have hancestors : sheltered.view.ancestors ⟨4⟩ = [⟨3⟩, ⟨2⟩] := by decide +kernel
    have hanswers : ∀ n ∈ sheltered.view.ancestors ⟨4⟩,
        Answers ((s.context.compoundProbe false otherThanX).holds n) := by
      rw [hancestors]
      exact List.forall_mem_cons.mpr ⟨⟨true, hbox⟩, List.forall_mem_singleton.mpr ⟨true, htop⟩⟩
    exact fun n hn => hanswers n (ht.mem_ancestors.mpr hn)
  have htestB : ∀ n, Related sheltered.view.toLinks .descendant ⟨2⟩ n →
      Answers ((s.context.compoundProbe false [.className "y"]).holds n) := by
    intro n _
    obtain ⟨b, hb⟩ := Pairing.plain_pure (s := .className "y") rfl s.context false n
    have htest : (s.context.compoundProbe false [.className "y"]).holds n = pure b :=
      (Context.allHold_singleton _ n).trans hb
    exact ⟨b, by rw [htest, fresh_pure]⟩
  obtain ⟨-, ys, xs, hys, hxs, hiff, -, hnearest, -⟩ :=
    step_converse hs hv hm hA hB false .descendant hx hy htestA htestB
  obtain rfl := Except.ok.inj (hys.2.symm.trans hforward)
  obtain rfl := Except.ok.inj (hxs.2.symm.trans hbackward)
  exact ⟨s, meaning, hs, hv, hm, hA, hB, hx, hy, htestA, htestB, htop, hparagraph, hys, hxs,
    (hiff htop hparagraph).1, hnearest⟩

end Session

end Query

end DomQuery
