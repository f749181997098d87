import DomQuery.Proofs.Document.Answers
import DomQuery.Proofs.Query.AlikeSearch
import DomQuery.Proofs.Query.Lenient
import DomQuery.Proofs.Selector.Compound

/-!
# What `:is()` and `:not()` divide

A search for all results of a compound tests every element below the context node,
or an index has turned it down. So when the search for `X:not(L)` comes to an end,
`:not(L)` has an answer wherever `X` holds, and the answer of `:is(L)` is the
opposite one.

* `Grounded.answers_of_find`: a search that comes to an end has an answer for every
  element.
* `CompoundSearch.mem_iff`: what a search for a compound finds.
* `is_not_partition`: what `X` finds is what one of the two finds, and not the other.
-/

namespace DomQuery.Query

open DomQuery.Selector DomQuery.Tree

variable {ν : Type} [DecidableEq ν]

namespace Context

section Tested

variable {ctx : Context ν} {counts : MemoKey ν → Except QueryError (List ν)}

/-- A search for all results does not come to an end unless the compound where a
chain is entered from below has an answer everywhere. -/
theorem Grounded.answers_of_find (hctx : ctx.Grounded) {branches : List (Chain Compound)}
    (h : ctx.Testable counts branches) {l : List ν} (hl : fresh (ctx.find .all branches) = .ok l)
    {c : Chain Compound} (hc : c ∈ branches) (hb : entryHeading .all c = .backward) {n : ν}
    (he : ctx.tree.isElement n = true) (hn : ctx.tree.Below ctx.node n) :
    Answers ((ctx.compoundProbe false c.last).holds n) := by
  have hblank : ∀ c ∈ branches, Steady counts ctx.MayFail (ctx.findFrom .all (ctx.blank .all c)) :=
    fun c hc => steady_findFrom rfl (h.steady hc)
  obtain ⟨entries, -, hp, -⟩ := h.find_ok hl
  -- with a plan, the search is one that tests all there is
  rw [hctx.fresh_find rfl h hp] at hl
  obtain ⟨found, hf, -⟩ := (Steady.collectM hblank).bind_ok (fun _ _ => .pure _) hl
  obtain ⟨lists, hlists, -⟩ := collectM_ok hblank hf
  obtain ⟨list, -, hlist⟩ := forall₂_exists_left hlists.flip c hc
  have hheading : (ctx.blank .all c).heading = .backward := hb
  have hmem : n ∈ ctx.entryNodes (ctx.blank .all c) := by
    simp only [entryNodes, blank, hb, entryScope]
    exact List.mem_cons_of_mem _ (hctx.wellFormed.mem_walk.mpr ⟨he, hn⟩)
  simp only [findFrom, hheading, findBackward] at hlist
  obtain ⟨b, hends⟩ :=
    answers_of_filterM (fun n _ => steady_endsAt rfl (h.steady hc) n) ⟨list, hlist⟩ n hmem
  unfold endsAt at hends
  rw [(isEligible_iff hctx rfl).mpr hn, Bool.not_true, if_neg Bool.false_ne_true] at hends
  obtain ⟨a, ha, -⟩ := (steady_accepts rfl (h.steady hc) n).bind_ok (fun a _ => by
    split
    · exact .pure false
    · exact steady_leadsBack_links rfl (h.steady hc) n) hends
  have haccepts : (ctx.blank .all c).accepts n = (ctx.blank .all c).probe.holds n := rfl
  rw [haccepts, probe_eq_of_chain rfl, hheading] at ha
  exact ⟨a, ha⟩

end Tested

end Context

/-! ### Searching for a compound -/

namespace Matcher

variable {tree : View ν} {node : ν} {text : String} {components : List Component}

/-- `l` is all that a selector without combinators finds, and warnings are off. -/
structure CompoundSearch (tree : View ν) (node : ν) (text : String) (components : List Component)
    (m : Matcher ν) (l : List ν) : Prop where
  exists_id : ∃ id, SelectorList.ofText text = .ok (.mk id [.mk components])
  isCompound : IsCompound components
  new_eq : new tree text node false = .ok m
  all_eq : fresh m.all = .ok l

namespace CompoundSearch

variable {m : Matcher ν} {l : List ν} (h : CompoundSearch tree node text components m l)
include h

/-- The one compound that is searched for, and what tests need to be steady. -/
theorem exists_compound : ∃ k counts, m.branches = [⟨none, [], k⟩] ∧
    m.context.Testable counts m.branches ∧
    (∀ s ∈ k, ∀ n, Steady counts m.context.MayFail (m.context.holdsSimple false s n)) ∧
    (∀ s, s ∈ k ↔ ∃ c ∈ components, c.simple = .ok s) ∧
    ∀ c ∈ components, ∃ s, c.simple = .ok s := by
  obtain ⟨id, htext⟩ := h.exists_id
  obtain ⟨-, list, hl, hb⟩ := new_ok h.new_eq
  obtain rfl := Except.ok.inj (htext.symm.trans hl)
  have hd := SelectorList.distinct_of_ofText htext
  obtain ⟨meaning, hmeaning⟩ := hd.exists_means
  obtain ⟨k, hk, hmem, hsimple⟩ := SelectorList.resolve_compound hd h.isCompound hb
  have hnumbered := each_numbered hd hmeaning hb
  refine ⟨k, _, hk, testable_of_means htext hb hmeaning, fun s hs n => ?_, hmem, hsimple⟩
  refine Context.steady_holdsSimple s (hnumbered ⟨none, [], k⟩ (by simp [hk]) k ?_ s hs) false n
  simp [Chain.compounds]

variable (hv : IsSound tree)
include hv

/-- What is found are the nodes below the context node of which each component
holds. -/
theorem mem_iff {n : ν} : n ∈ l ↔ tree.Below node n ∧
    ∀ c ∈ components, ∃ s, c.simple = .ok s ∧ Yes (m.context.holdsSimple false s n) := by
  obtain ⟨k, counts, hk, -, hsteady, hmem, hsimple⟩ := h.exists_compound
  obtain ⟨hc, -⟩ := new_ok h.new_eq
  obtain ⟨htree, hnode, -⟩ := Context.of_ok hc
  rw [(all_ok hv h.new_eq (not_swallows h.new_eq _) h.all_eq).2 n, hk]
  simp only [Context.FindsSome, Context.Finds, List.mem_singleton, exists_eq_left,
    Context.matches_single, Context.Satisfies, Context.holds_compoundProbe, htree, hnode]
  refine and_congr_right fun _ => (yes_allM fun s hs => hsteady s hs n).trans ?_
  constructor
  · intro hyes c hcc
    obtain ⟨s, hs⟩ := hsimple c hcc
    exact ⟨s, hs, hyes s ((hmem s).mpr ⟨c, hcc, hs⟩)⟩
  · intro hyes s hs
    obtain ⟨c, hcc, hcs⟩ := (hmem s).mp hs
    obtain ⟨s', hcs', hyes⟩ := hyes c hcc
    obtain rfl := Except.ok.inj (hcs.symm.trans hcs')
    exact hyes

/-- What is found are elements. -/
theorem isElement {n : ν} (hn : n ∈ l) : tree.isElement n = true := by
  obtain ⟨k, counts, -, htestable, -⟩ := h.exists_compound
  obtain ⟨hc, -⟩ := new_ok h.new_eq
  obtain ⟨htree, -, -⟩ := Context.of_ok hc
  obtain ⟨c, hcb, hfinds⟩ := ((all_ok hv h.new_eq (not_swallows h.new_eq _) h.all_eq).2 n).mp hn
  rw [← htree]
  exact Context.isElement_of_finds (Context.grounded_of hv hc) (htestable.ne_nil hcb) hfinds

/-- Where all other components hold, the search has an answer for the one. -/
theorem answers {n : ν} (he : tree.isElement n = true) (hn : tree.Below node n) {s₀ : Simple}
    {c₀ : Component} (hc₀ : c₀ ∈ components) (hs₀ : c₀.simple = .ok s₀)
    (hothers : ∀ c ∈ components, c = c₀ ∨
      ∃ s, c.simple = .ok s ∧ Yes (m.context.holdsSimple false s n)) :
    Answers (m.context.holdsSimple false s₀ n) := by
  obtain ⟨k, counts, hk, htestable, hsteady, hmem, -⟩ := h.exists_compound
  obtain ⟨hc, -⟩ := new_ok h.new_eq
  obtain ⟨htree, hnode, -⟩ := Context.of_ok hc
  have hfind := fresh_find_ok (not_swallows h.new_eq _) h.all_eq
  have hall : Answers ((m.context.compoundProbe false k).holds n) :=
    (Context.grounded_of hv hc).answers_of_find htestable hfind
      (c := ⟨none, [], k⟩) (by simp [hk]) rfl (by rwa [htree]) (by rwa [htree, hnode])
  rw [Context.holds_compoundProbe] at hall
  refine answers_of_allM (fun s hs => hsteady s hs n) ((hmem s₀).mpr ⟨c₀, hc₀, hs₀⟩) ?_ hall
  intro s hs
  obtain ⟨c, hcc, hcs⟩ := (hmem s).mp hs
  rcases hothers c hcc with rfl | ⟨s', hcs', hyes⟩
  · exact .inl (Except.ok.inj (hcs.symm.trans hs₀))
  · obtain rfl := Except.ok.inj (hcs.symm.trans hcs')
    exact .inr hyes

/-- What is found is in the tree. -/
theorem place_ne {n : ν} (hn : n ∈ l) : m.context.place n ≠ .elsewhere := by
  rw [Context.place, (Context.of_ok (new_ok h.new_eq).1).1,
    Links.isElement_iff.mp (h.isElement hv hn)]
  rintro ⟨⟩

/-! ### One more component -/

variable {text' : String} {c : Component} {m' : Matcher ν} {l' : List ν}
variable (h' : CompoundSearch tree node text' (components ++ [c]) m' l')
variable {s : Simple} (hs : c.simple = .ok s)
include h'

omit hv in
theorem context_eq : m'.context = m.context :=
  Except.ok.inj ((new_ok h'.new_eq).1.symm.trans (new_ok h.new_eq).1)

include hs

/-- One more component is one more test. -/
theorem mem_append_iff {n : ν} :
    n ∈ l' ↔ n ∈ l ∧ Yes (m.context.holdsSimple false s n) := by
  rw [h'.mem_iff hv, h.mem_iff hv, h.context_eq h', List.forall_mem_append,
    List.forall_mem_singleton, hs, and_assoc]
  simp only [Except.ok.injEq, exists_eq_left']

/-- It has an answer for all that was found without it. -/
theorem answers_append {n : ν} (hn : n ∈ l) : Answers (m.context.holdsSimple false s n) := by
  obtain ⟨hbelow, hcomponents⟩ := (h.mem_iff hv).mp hn
  rw [← h.context_eq h'] at hcomponents ⊢
  refine h'.answers hv (h.isElement hv hn) hbelow
    (List.mem_append_right _ (List.mem_singleton_self c)) hs fun c' hc' => ?_
  rcases List.mem_append.mp hc' with hc' | hc'
  · exact .inr (hcomponents c' hc')
  · exact .inl (List.mem_singleton.mp hc')

end CompoundSearch

end Matcher

/-! ### `X`, `X:is(L)` and `X:not(L)` -/

section Partition

open Matcher

variable {text textIs textNot : String} {id idIs idNot : ListId} {components : List Component}
variable {list : SelectorList} {branches : List (Chain Compound)}

/-- The two pseudo-classes have the same chains. -/
theorem simple_of_resolve
    (his : SelectorList.ofText textIs = .ok (.mk idIs [.mk (components ++ [.isOf list])]))
    (hnot : SelectorList.ofText textNot = .ok (.mk idNot [.mk (components ++ [.notOf list])]))
    (hr : list.resolve .strict = .ok branches) :
    (Component.isOf list).simple = .ok (.matchesAny branches) ∧
      (Component.notOf list).simple = .ok (.matchesNone branches) := by
  have hstrict : (SelectorList.mk idNot [.mk (components ++ [.notOf list])]).Requests .strict list :=
    .found .outermost (List.mem_singleton_self _) (List.mem_append_right _ (by simp))
      (Component.leaf_notOf list) rfl
  have hforgiving :
      (SelectorList.mk idIs [.mk (components ++ [.isOf list])]).Requests .forgiving list :=
    .found .outermost (List.mem_singleton_self _) (List.mem_append_right _ (by simp))
      (Component.leaf_isOf list) rfl
  have hr' := hstrict.resolve_forgiving (SelectorList.distinct_of_ofText hnot)
    (SelectorList.distinct_of_ofText his) hforgiving hr
  rw [Component.simple_isOf, Component.simple_notOf, hr, hr']
  exact ⟨rfl, rfl⟩

/-- `:is(L)` says the opposite of `:not(L)` wherever that comes to an answer, and
what a compound finds is divided between the two. -/
theorem is_not_partition (hcompound : IsCompound components)
    (htext : SelectorList.ofText text = .ok (.mk id [.mk components]))
    (his : SelectorList.ofText textIs = .ok (.mk idIs [.mk (components ++ [.isOf list])]))
    (hnot : SelectorList.ofText textNot = .ok (.mk idNot [.mk (components ++ [.notOf list])]))
    (hr : list.resolve .strict = .ok branches) :
    ((Component.isOf list).simple = .ok (.matchesAny branches) ∧
      (Component.notOf list).simple = .ok (.matchesNone branches) ∧
      ∀ (ctx : Context ν) (n : ν), ctx.place n ≠ .elsewhere → ∀ forgive forgive' memo memo' b,
        (ctx.holdsSimple forgive (.matchesNone branches) n).run.run memo = (.ok b, memo') →
        (ctx.holdsSimple forgive' (.matchesAny branches) n).run.run memo = (.ok (!b), memo')) ∧
    ∀ (tree : View ν) (node : ν) (m mIs mNot : Matcher ν) (l lIs lNot : List ν), IsSound tree →
      new tree text node false = .ok m → new tree textIs node false = .ok mIs →
      new tree textNot node false = .ok mNot → fresh m.all = .ok l → fresh mIs.all = .ok lIs →
      fresh mNot.all = .ok lNot →
        lIs.Disjoint lNot ∧ ∀ n, n ∈ l ↔ n ∈ lIs ∨ n ∈ lNot := by
  obtain ⟨hsimpleIs, hsimpleNot⟩ := simple_of_resolve his hnot hr
  refine ⟨⟨hsimpleIs, hsimpleNot, fun ctx n hn forgive forgive' memo memo' b h =>
    Context.matchesAny_of_matchesNone hn forgive' h⟩, ?_⟩
  intro tree node m mIs mNot l lIs lNot hv hm hmIs hmNot hl hlIs hlNot
  have hX : CompoundSearch tree node text components m l := ⟨⟨_, htext⟩, hcompound, hm, hl⟩
  have hIs : CompoundSearch tree node textIs (components ++ [.isOf list]) mIs lIs :=
    ⟨⟨_, his⟩, hcompound.concat (by simp [Component.isOf]), hmIs, hlIs⟩
  have hNot : CompoundSearch tree node textNot (components ++ [.notOf list]) mNot lNot :=
    ⟨⟨_, hnot⟩, hcompound.concat (by simp [Component.notOf]), hmNot, hlNot⟩
  have hmemIs : ∀ n, n ∈ lIs ↔ n ∈ l ∧ Yes (m.context.holdsSimple false (.matchesAny branches) n) :=
    fun n => hX.mem_append_iff hv hIs hsimpleIs
  have hmemNot : ∀ n,
      n ∈ lNot ↔ n ∈ l ∧ Yes (m.context.holdsSimple false (.matchesNone branches) n) :=
    fun n => hX.mem_append_iff hv hNot hsimpleNot
  refine ⟨fun n hnIs hnNot => ?_, fun n => ⟨fun hn => ?_, ?_⟩⟩
  · obtain ⟨hn, hyes⟩ := (hmemNot n).mp hnNot
    have hno := Context.fresh_matchesAny (hX.place_ne hv hn) false hyes
    cases ((hmemIs n).mp hnIs).2.symm.trans hno
  · obtain ⟨b, hb⟩ := hX.answers_append hv hNot hsimpleNot hn
    cases b with
    | true => exact .inr ((hmemNot n).mpr ⟨hn, hb⟩)
    | false =>
      exact .inl ((hmemIs n).mpr ⟨hn, Context.fresh_matchesAny (hX.place_ne hv hn) false hb⟩)
  · rintro (hn | hn)
    · exact ((hmemIs n).mp hn).1
    · exact ((hmemNot n).mp hn).1

open Document in
theorem is_not_partition_boxes : IsCompound [.type ⟨none, "p"⟩] ∧
    ∃ m mIs mNot, new boxes.view "p" root false = .ok m ∧
      new boxes.view "p:is(.x)" root false = .ok mIs ∧
      new boxes.view "p:not(.x)" root false = .ok mNot ∧
      fresh m.all = .ok [⟨2⟩, ⟨3⟩] ∧ fresh mIs.all = .ok [⟨2⟩] ∧ fresh mNot.all = .ok [⟨3⟩] ∧
      [(⟨2⟩ : NodeId)].Disjoint [⟨3⟩] ∧
      ∀ n : NodeId, n ∈ [⟨2⟩, ⟨3⟩] ↔ n ∈ [⟨2⟩] ∨ n ∈ [⟨3⟩] := by
  have hcompound : IsCompound [.type ⟨none, "p"⟩] := by simp [IsCompound]
  have hv := regular_boxes.isSound_view reachable_boxes.coherent
  have hall : ["p", "p:is(.x)", "p:not(.x)"].map (fun text =>
      (new boxes.view text root false).toOption.map fun m => (fresh m.all).toOption) =
      [some (some [⟨2⟩, ⟨3⟩]), some (some [⟨2⟩]), some (some [⟨3⟩])] := by cbv
  simp only [List.map_cons, List.map_nil, List.cons.injEq, and_true] at hall
  obtain ⟨h, hIs, hNot⟩ := hall
  obtain ⟨m, hm, hl⟩ := exists_of_toOption_map h
  obtain ⟨mIs, hmIs, hlIs⟩ := exists_of_toOption_map hIs
  obtain ⟨mNot, hmNot, hlNot⟩ := exists_of_toOption_map hNot
  have htext : SelectorList.ofText "p" = .ok (.mk ⟨0⟩ [.mk [.type ⟨none, "p"⟩]]) := by cbv
  have his : SelectorList.ofText "p:is(.x)" = .ok (.mk ⟨0⟩ [.mk ([.type ⟨none, "p"⟩] ++
      [.isOf (.mk ⟨1⟩ [.mk [.className "x"]])])]) := by cbv
  have hnot : SelectorList.ofText "p:not(.x)" = .ok (.mk ⟨0⟩ [.mk ([.type ⟨none, "p"⟩] ++
      [.notOf (.mk ⟨1⟩ [.mk [.className "x"]])])]) := by cbv
  have hresolve : (SelectorList.mk ⟨1⟩ [.mk [.className "x"]]).resolve .strict =
      .ok [⟨none, [], [.className "x"]⟩] := by cbv
  have hpartition := (is_not_partition hcompound htext his hnot hresolve).2 boxes.view root m mIs
    mNot _ _ _ hv hm hmIs hmNot (ok_of_toOption hl) (ok_of_toOption hlIs) (ok_of_toOption hlNot)
  exact ⟨hcompound, m, mIs, mNot, hm, hmIs, hmNot, ok_of_toOption hl, ok_of_toOption hlIs,
    ok_of_toOption hlNot, hpartition⟩

end Partition

end DomQuery.Query
