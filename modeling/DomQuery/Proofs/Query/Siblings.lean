import DomQuery.Proofs.Document.Answers
import DomQuery.Proofs.Query.Positions

/-!
# Where an element stands among its siblings

A child-indexed pseudo-class selects elements by their position: among the siblings
that pass a list, if there is one, and are of the same type, if types matter. The
children that are selected are found for all siblings at once and then remembered,
which does not show.

Without a parent an element has no siblings, and is taken for an only child. But it
is only asked whether the first position of the form is the first of all, so an
only child may be selected where it is not.

* `Session.isNth_iff`: siblings are selected by their positions, in whatever order
  they are asked for.
* `Session.isNth_of_parent_none`: what an element without a parent has in common with
  an only child, and what it does not.
-/

namespace DomQuery

open DomQuery.Document DomQuery.Selector DomQuery.Tree

/-- A box in a document, and one that was not inserted. -/
def Document.stray : Document :=
  (Document.empty .html).run [.createElement "div", .append root ⟨1⟩, .createElement "div"]

theorem Document.wellFormed_stray : stray.view.WellFormed := by
  have hreachable : stray.Reachable := (Reachable.empty .html).run _
  have hregular : stray.Regular := by decide +kernel
  exact (hregular.isSound_view hreachable.coherent).wellFormed

namespace Query

variable {ν : Type} [DecidableEq ν]

namespace Context

variable (ctx : Context ν)

/-- The test that siblings have to pass. -/
def filterTest (of : Option (ListId × List (Chain Compound))) (n : ν) : Eval ν Bool :=
  match of with
  | none => return true
  | some (_, branches) => ctx.matchesSome (ctx.probes false branches) n

/-- The node passes the list that filters siblings, if there is one. -/
def passes (of : Option (ListId × List (Chain Compound))) (n : ν) : Bool :=
  match fresh (ctx.filterTest of n) with
  | .ok b => b
  | .error _ => false

/-- The sibling `s` counts for the position of `n`. -/
def isCounted (form : NthForm) (of : Option (ListId × List (Chain Compound))) (n s : ν) : Bool :=
  ctx.tree.isElement s && ctx.passes of s && (!form.ofType || sameType ctx.tree.toLinks n s)

/-- The position of `n` between its siblings, counted from one and from the end that
the form tells. -/
def position (form : NthForm) (of : Option (ListId × List (Chain Compound)))
    (before after : List ν) (n : ν) : Nat :=
  (if form.fromEnd then after else before).countP (ctx.isCounted form of n) + 1

/-- The child `n` of `p` passes the list, and the form hits its position. -/
def Selects (form : NthForm) (of : Option (ListId × List (Chain Compound))) (p n : ν) : Prop :=
  ctx.passes of n = true ∧ ∃ before after, ctx.tree.children p = before ++ n :: after ∧
    form.Hits (ctx.position form of before after n)

variable {ctx} {form : NthForm} {of : Option (ListId × List (Chain Compound))} {p n : ν}

theorem fresh_filterTest (h : Answers (ctx.filterTest of n)) :
    fresh (ctx.filterTest of n) = .ok (ctx.passes of n) := by
  obtain ⟨b, hb⟩ := h
  rw [passes, hb]

/-- Among the elements that count for it, a child that counts is at its position. -/
theorem mem_selectAmong_iff (ht : ctx.tree.IsForest) (hn : ctx.tree.isElement n = true)
    (hp : ctx.tree.parent n = some p) :
    n ∈ selectAmong ctx.tree.toLinks form ((ctx.tree.elementChildren p).filter (ctx.passes of)) ↔
      ctx.Selects form of p n := by
  obtain ⟨before, after, hs⟩ := ht.children_of_parent hp
  have hcounted : ((ctx.tree.elementChildren p).filter (ctx.passes of)).filter
      (fun s => !form.ofType || sameType ctx.tree.toLinks n s) =
        (ctx.tree.children p).filter (ctx.isCounted form of n) := by
    rw [Links.elementChildren, List.filter_filter, List.filter_filter]
    refine List.filter_congr fun s _ => ?_
    simp only [isCounted]
    ac_rfl
  rw [mem_selectAmong, hcounted, hs]
  cases hpass : ctx.passes of n with
  | false =>
    refine iff_of_false (fun h => ?_) fun h => ?_
    · have hself := (List.mem_filter.mp (mem_of_mem_selectInGroup h)).2
      simp [isCounted, hpass] at hself
    · exact Bool.false_ne_true (hpass.symm.trans h.1)
  | true =>
    have hself : ctx.isCounted form of n n = true := by
      simp [isCounted, hn, hpass, sameType_iff]
    have hnodup := (hs ▸ ht.nodup_children p).filter (ctx.isCounted form of n)
    rw [List.filter_append, List.filter_cons_of_pos hself] at hnodup ⊢
    have hlength : (if form.fromEnd then after.filter (ctx.isCounted form of n)
        else before.filter (ctx.isCounted form of n)).length + 1 =
          ctx.position form of before after n := by
      rw [position, List.countP_eq_length_filter]
      split <;> rfl
    rw [mem_selectInGroup hnodup, hlength]
    constructor
    · exact fun hit => ⟨hpass, before, after, hs, hit⟩
    · rintro ⟨-, before', after', hs', hit⟩
      obtain ⟨rfl, rfl⟩ := ht.split_unique hs hs'
      exact hit

omit [DecidableEq ν] in
theorem mem_of_only (honly : ctx.tree.elementChildren p = [n]) :
    n ∈ ctx.tree.children p ∧ ctx.tree.isElement n = true := by
  have hn : n ∈ ctx.tree.elementChildren p := honly ▸ List.mem_singleton_self n
  exact List.mem_filter.mp hn

/-- An only child is at the first position. -/
theorem selects_of_only (ht : ctx.tree.IsForest) (honly : ctx.tree.elementChildren p = [n]) :
    ctx.Selects form of p n ↔ ctx.passes of n = true ∧ form.Hits 1 := by
  have hn := mem_of_only honly
  have hposition : ∀ before after, ctx.tree.children p = before ++ n :: after →
      ctx.position form of before after n = 1 := by
    intro before after hs
    rw [Links.elementChildren, hs, List.filter_append, List.filter_cons_of_pos hn.2] at honly
    have hlength := congrArg List.length honly
    simp only [List.length_append, List.length_cons, List.length_nil] at hlength
    have hnone : ∀ siblings : List ν, siblings.filter ctx.tree.isElement = [] →
        siblings.countP (ctx.isCounted form of n) = 0 := by
      intro siblings hnone
      refine List.countP_eq_zero.mpr fun x hx hcounted => ?_
      simp only [isCounted, Bool.and_eq_true] at hcounted
      exact List.filter_eq_nil_iff.mp hnone x hx hcounted.1.1
    rw [position]
    split
    · rw [hnone after (List.eq_nil_of_length_eq_zero (by omega))]
    · rw [hnone before (List.eq_nil_of_length_eq_zero (by omega))]
  obtain ⟨before, after, hs⟩ := ht.children_of_parent (ht.mem_children.mp hn.1)
  refine and_congr_right fun _ => ⟨?_, fun hit => ⟨before, after, hs, by rwa [hposition _ _ hs]⟩⟩
  rintro ⟨before, after, hs, hit⟩
  rwa [hposition _ _ hs] at hit

section Evaluation

variable {meaning : ListId → List (Chain Compound)}
variable (hs : (Simple.nth form of).All (Simple.Numbered meaning))
include hs

theorem steady_filterTest (n : ν) :
    Steady (ctx.counts meaning) ctx.MayFail (ctx.filterTest of n) := by
  rcases of with _ | ⟨id, branches⟩
  · exact .pure true
  · exact steady_matchesSome (steady_probes hs.nested false) n

/-- The children that are selected, when the list can be matched to all of them. -/
theorem fresh_selectChildren
    (ha : ∀ c ∈ ctx.tree.elementChildren p, Answers (ctx.filterTest of c)) :
    fresh (ctx.selectChildren form ((ctx.siblingFilter of).map Prod.snd) p) =
      .ok (selectAmong ctx.tree.toLinks form
        ((ctx.tree.elementChildren p).filter (ctx.passes of))) := by
  have hfilter := Steady.fresh_filterM_eq (fun c _ => steady_filterTest hs c) fun c hc =>
    fresh_filterTest (ha c hc)
  rcases of with _ | ⟨id, branches⟩
  · have hall : (ctx.tree.elementChildren p).filter (ctx.passes none) =
        ctx.tree.elementChildren p := List.filter_eq_self.mpr fun _ _ => rfl
    rw [hall]
    rfl
  · have hsteady : Steady (ctx.counts meaning) ctx.MayFail
        ((ctx.tree.elementChildren p).filterM (ctx.filterTest (some (id, branches)))) :=
      .filterM fun c _ => steady_filterTest hs c
    change fresh (((ctx.tree.elementChildren p).filterM (ctx.filterTest (some (id, branches)))) >>=
      fun counted => pure (selectAmong ctx.tree.toLinks form counted)) = _
    rw [hsteady.fresh_bind fun _ _ => .pure _, hfilter]
    rfl

/-- A child is selected by its position. -/
theorem fresh_isNth_of_parent (ht : ctx.tree.IsForest) (hn : ctx.tree.isElement n = true)
    (hp : ctx.tree.parent n = some p)
    (ha : ∀ c ∈ ctx.tree.elementChildren p, Answers (ctx.filterTest of c)) :
    ∃ b, fresh (ctx.isNth form (ctx.siblingFilter of) n) = .ok b ∧
      (b = true ↔ ctx.Selects form of p n) := by
  have hselect : Steady (ctx.counts meaning) ctx.MayFail
      (ctx.selectChildren form ((ctx.siblingFilter of).map Prod.snd) p) :=
    steady_selectChildren p (steady_siblingFilter (steady_probes hs.nested false))
  have hremembered := hselect.remembered (counts_siblingFilter hs.self p)
  refine ⟨_, ?_, (List.contains_iff_mem ..).trans (mem_selectAmong_iff ht hn hp)⟩
  unfold isNth
  simp only [hp]
  rw [hremembered.fresh_bind fun _ _ => .pure _,
    hselect.fresh_remembered (counts_siblingFilter hs.self p), fresh_selectChildren hs ha]
  rfl

/-- Without a parent it is only asked for the first position of the form. -/
theorem fresh_isNth_of_parent_none (hp : ctx.tree.parent n = none)
    (ha : Answers (ctx.filterTest of n)) :
    fresh (ctx.isNth form (ctx.siblingFilter of) n) =
      .ok (ctx.passes of n && form.step + form.offset == 1) := by
  have hfilter := fresh_filterTest ha
  have htest : ctx.isNth form (ctx.siblingFilter of) n = ctx.filterTest of n >>= fun counts =>
      pure (counts && form.step + form.offset == 1) := by
    unfold isNth
    simp only [hp]
    rcases of with _ | ⟨id, branches⟩
    · rfl
    · rfl
  rw [htest, (steady_filterTest hs n).fresh_bind fun _ _ => .pure _, hfilter]
  rfl

end Evaluation

end Context

namespace Session

variable {tree : View ν} {text : String} {node : ν} {warn : Bool} {s : Session ν}
variable (form : NthForm) {of : Option (ListId × List (Chain Compound))} {memo : Memo ν}

section Children

variable (h : start tree text node warn = .ok s) (hof : s.list.Filters of)
include h hof

omit [DecidableEq ν] in
theorem exists_numbered : ∃ meaning, (Simple.nth form of).All (Simple.Numbered meaning) := by
  obtain ⟨-, hl, -⟩ := start_ok h
  have hd := SelectorList.distinct_of_ofText hl
  obtain ⟨meaning, hm⟩ := hd.exists_means
  exact ⟨meaning, hof.numbered hd hm form⟩

/-- A child-indexed pseudo-class is true of the children that stand where the form
hits. This is so in whatever order they are asked for, and whatever was remembered
before. -/
theorem isNth_iff (ht : tree.WellFormed) {p : ν}
    (hanswers : ∀ n ∈ tree.elementChildren p, Answers (s.context.filterTest of n))
    (hmemo : s.Counted memo) {asked : List ν}
    (hasked : ∀ n ∈ asked, tree.parent n = some p ∧ tree.isElement n = true) :
    ∃ answers memo', s.Counted memo' ∧
      (asked.mapM (s.context.isNth form (s.context.siblingFilter of))).run.run memo =
        (.ok answers, memo') ∧
      List.Forall₂ (fun n b => b = true ↔ s.context.Selects form of p n) asked answers := by
  obtain ⟨hc, -⟩ := start_ok h
  obtain ⟨rfl, -, -⟩ := Context.of_ok hc
  obtain ⟨meaning, hnumbered⟩ := exists_numbered form h hof
  induction asked generalizing memo with
  | nil => exact ⟨[], memo, hmemo, rfl, .nil⟩
  | cons n asked ih =>
    obtain ⟨⟨hp, hn⟩, hasked⟩ := List.forall_mem_cons.mp hasked
    obtain ⟨b, hb, hiff⟩ := Context.fresh_isNth_of_parent hnumbered
      ht.toIsForest hn hp hanswers
    obtain ⟨memo₁, hmemo₁, hrun⟩ := run_isNth h hof form n hmemo
    obtain ⟨answers, memo₂, hmemo₂, hrest, hall⟩ := ih hmemo₁ hasked
    refine ⟨b :: answers, memo₂, hmemo₂, ?_, .cons hiff hall⟩
    rw [List.mapM_cons, run_bind, hrun, hb]
    simp only [run_bind, hrest, run_pure]

end Children

/-- The boxes of class `y` from the end, the second one and those before it. -/
theorem isNth_iff_boxes : ∃ s memo,
    start boxes.view ":nth-last-child(n+2 of .y)" root false = .ok s ∧
    s.list.Filters (some (⟨1⟩, [⟨none, [], [.className "y"]⟩])) ∧ boxes.view.WellFormed ∧
    (∀ n ∈ boxes.view.elementChildren ⟨1⟩,
      Answers (s.context.filterTest (some (⟨1⟩, [⟨none, [], [.className "y"]⟩])) n)) ∧
    s.Counted memo ∧
    (∀ n ∈ [(⟨3⟩ : NodeId), ⟨2⟩], boxes.view.parent n = some ⟨1⟩ ∧ boxes.view.isElement n = true) ∧
    ∃ answers memo', s.Counted memo' ∧
      ([⟨3⟩, ⟨2⟩].mapM (s.context.isNth ⟨true, false, 1, 2⟩
        (s.context.siblingFilter (some (⟨1⟩, [⟨none, [], [.className "y"]⟩]))))).run.run memo =
          (.ok answers, memo') ∧
      List.Forall₂ (fun n b => b = true ↔ s.context.Selects ⟨true, false, 1, 2⟩
        (some (⟨1⟩, [⟨none, [], [.className "y"]⟩])) ⟨1⟩ n) [⟨3⟩, ⟨2⟩] answers := by
  have heval : (start boxes.view ":nth-last-child(n+2 of .y)" root false).toOption.map
      (fun s => (s.list, ([⟨2⟩, ⟨3⟩] : List NodeId).map fun n =>
        (fresh (s.context.filterTest (some (⟨1⟩, [⟨none, [], [.className "y"]⟩])) n)).toOption)) =
      some (.mk ⟨0⟩ [.mk [.pseudoClass "nth-last-child"
        (some (.nth 1 2 (some (.mk ⟨1⟩ [.mk [.className "y"]]))))]], [some true, some true]) := by
    cbv
  obtain ⟨s, hs, hrun⟩ := exists_of_toOption_map heval
  obtain ⟨hlist, hrun⟩ := Prod.mk.inj hrun
  obtain ⟨hsecond, hthird⟩ : _ ∧ _ := by simpa using hrun
  have hof : s.list.Filters (some (⟨1⟩, [⟨none, [], [.className "y"]⟩])) := by
    rintro _ _ ⟨⟩
    rw [hlist]
    exact ⟨_, .found .outermost (List.mem_singleton_self _) (List.mem_singleton_self _) rfl rfl,
      rfl, by cbv⟩
  have ht := (regular_boxes.isSound_view reachable_boxes.coherent).wellFormed
  have hchildren : boxes.view.elementChildren ⟨1⟩ = [⟨2⟩, ⟨3⟩] := by decide +kernel
  have hanswers : ∀ n ∈ boxes.view.elementChildren ⟨1⟩,
      Answers (s.context.filterTest (some (⟨1⟩, [⟨none, [], [.className "y"]⟩])) n) := by
    rw [hchildren]
    exact List.forall_mem_cons.mpr ⟨⟨_, ok_of_toOption hsecond⟩,
      List.forall_mem_singleton.mpr ⟨_, ok_of_toOption hthird⟩⟩
  have hasked : ∀ n ∈ [(⟨3⟩ : NodeId), ⟨2⟩],
      boxes.view.parent n = some ⟨1⟩ ∧ boxes.view.isElement n = true := by decide +kernel
  have hmemo : s.Counted _ := .asked [.all, .first]
  exact ⟨s, _, hs, hof, ht, hanswers, hmemo, hasked, isNth_iff _ hs hof ht hanswers hmemo hasked⟩

section NoParent

variable (h : start tree text node warn = .ok s) (hof : s.list.Filters of)
include h hof

/-- An only child is selected if it passes the list and the form hits the first
position. -/
theorem isNth_only_child (ht : tree.WellFormed) {p c : ν} (honly : tree.elementChildren p = [c])
    (ha : Answers (s.context.filterTest of c)) (hmemo : s.Counted memo) :
    ∃ b memo', s.Counted memo' ∧
      (s.context.isNth form (s.context.siblingFilter of) c).run.run memo = (.ok b, memo') ∧
      (b = true ↔ s.context.passes of c = true ∧ form.Hits 1) := by
  obtain ⟨hc, -⟩ := start_ok h
  obtain ⟨rfl, -, -⟩ := Context.of_ok hc
  obtain ⟨meaning, hnumbered⟩ := exists_numbered form h hof
  have hchild := Context.mem_of_only honly
  obtain ⟨b, hb, hiff⟩ := Context.fresh_isNth_of_parent hnumbered ht.toIsForest
    hchild.2 (ht.toIsForest.mem_children.mp hchild.1) (by simpa [honly] using ha)
  obtain ⟨memo', hmemo', hrun⟩ := run_isNth h hof form c hmemo
  rw [Context.selects_of_only ht.toIsForest honly] at hiff
  exact ⟨b, memo', hmemo', by rw [hrun, hb], hiff⟩

/-- An element without a parent is selected if it passes the list and the form gives the
first position for `n = 1`. An only child is selected for any `n` that gives it, so the
two differ if the form gives the first position, but not for `n = 1`. -/
theorem isNth_of_parent_none (ht : tree.WellFormed) {e : ν} (he : tree.parent e = none)
    (ha : Answers (s.context.filterTest of e)) (hmemo : s.Counted memo) :
    ∃ b memo', s.Counted memo' ∧
      (s.context.isNth form (s.context.siblingFilter of) e).run.run memo = (.ok b, memo') ∧
      (b = true ↔ s.context.passes of e = true ∧ form.step + form.offset = 1) ∧
      ∀ p c, tree.elementChildren p = [c] → Answers (s.context.filterTest of c) →
        s.context.passes of c = s.context.passes of e →
        ∃ b' memo'', s.Counted memo'' ∧
          (s.context.isNth form (s.context.siblingFilter of) c).run.run memo' = (.ok b', memo'') ∧
          (b' = true ↔ s.context.passes of e = true ∧ form.Hits 1) ∧
          (b = b' ↔
            (s.context.passes of e = true → form.Hits 1 → form.step + form.offset = 1)) := by
  obtain ⟨hc, -⟩ := start_ok h
  obtain ⟨htree, -, -⟩ := Context.of_ok hc
  obtain ⟨meaning, hnumbered⟩ := exists_numbered form h hof
  have hb := Context.fresh_isNth_of_parent_none hnumbered (htree ▸ he) ha
  have hiff : (s.context.passes of e && form.step + form.offset == 1) = true ↔
      s.context.passes of e = true ∧ form.step + form.offset = 1 := by simp
  obtain ⟨memo', hmemo', hrun⟩ := run_isNth h hof form e hmemo
  refine ⟨_, memo', hmemo', by rw [hrun, hb], hiff, fun p c honly hac hsame => ?_⟩
  obtain ⟨b', memo'', hmemo'', hrun', hiff'⟩ := isNth_only_child form h hof ht honly hac hmemo'
  rw [hsame] at hiff'
  refine ⟨b', memo'', hmemo'', hrun', hiff', ?_⟩
  rw [Bool.eq_iff_iff, hiff, hiff']
  constructor
  · exact fun heq hpass hit => (heq.mpr ⟨hpass, hit⟩).2
  · intro hone
    exact ⟨fun ⟨hpass, hfirst⟩ => ⟨hpass, 1, by simpa using hfirst⟩,
      fun ⟨hpass, hit⟩ => ⟨hpass, hone hpass hit⟩⟩

end NoParent

/-- The box that was not inserted is no only child: `2n+1` hits the first position, but
not for `n = 1`. -/
theorem isNth_stray : ∃ s, start stray.view ":nth-child(2n+1)" ⟨2⟩ false = .ok s ∧
    fresh (s.context.isNth ⟨false, false, 2, 1⟩ (s.context.siblingFilter none) ⟨2⟩) =
      .ok false := by
  have heval : (start stray.view ":nth-child(2n+1)" ⟨2⟩ false).toOption.map (fun s =>
      (fresh (s.context.isNth ⟨false, false, 2, 1⟩ (s.context.siblingFilter none) ⟨2⟩)).toOption) =
        some (some false) := by cbv
  obtain ⟨s, hs, hrun⟩ := exists_of_toOption_map heval
  exact ⟨s, hs, ok_of_toOption hrun⟩

theorem isNth_of_parent_none_stray : ∃ s memo,
    start stray.view ":nth-child(2n+1)" ⟨2⟩ false = .ok s ∧ s.list.Filters none ∧
    stray.view.WellFormed ∧ stray.view.parent ⟨2⟩ = none ∧
    Answers (s.context.filterTest none ⟨2⟩) ∧ s.Counted memo ∧
    ∃ memo' memo'',
      (s.context.isNth ⟨false, false, 2, 1⟩ (s.context.siblingFilter none) ⟨2⟩).run.run memo =
        (.ok false, memo') ∧
      (s.context.isNth ⟨false, false, 2, 1⟩ (s.context.siblingFilter none) ⟨1⟩).run.run memo' =
        (.ok true, memo'') := by
  obtain ⟨s, hs, -⟩ := isNth_stray
  have hof : s.list.Filters none := fun _ _ he => nomatch he
  have hparent : stray.view.parent ⟨2⟩ = none := by decide +kernel
  have honly : stray.view.elementChildren root = [⟨1⟩] := by decide +kernel
  have hmemo : s.Counted _ := .asked [.all]
  obtain ⟨b, memo', -, hrun, hb, hchild⟩ := isNth_of_parent_none ⟨false, false, 2, 1⟩
    hs hof wellFormed_stray hparent ⟨true, rfl⟩ hmemo
  obtain ⟨b', memo'', -, hrun', hb', -⟩ := hchild root ⟨1⟩ honly ⟨true, rfl⟩ rfl
  obtain rfl : b = false := Bool.eq_false_iff.mpr fun h => absurd (hb.mp h).2 (by decide)
  obtain rfl : b' = true := hb'.mpr ⟨rfl, 0, rfl⟩
  exact ⟨s, _, hs, hof, wellFormed_stray, hparent, ⟨true, rfl⟩, hmemo, memo', memo'', hrun, hrun'⟩

/-- So an element without a parent does not count as an only child. -/
theorem no_only_child_without_parent : ¬ ∀ (tree : View NodeId) text node warn s,
    start tree text node warn = .ok s → tree.WellFormed → ∀ of, s.list.Filters of →
      ∀ (form : NthForm) e, tree.parent e = none → tree.isElement e = true →
        Answers (s.context.filterTest of e) →
        ∀ b, fresh (s.context.isNth form (s.context.siblingFilter of) e) = .ok b →
          (b = true ↔ s.context.passes of e = true ∧ form.Hits 1) := by
  intro hall
  obtain ⟨s, hs, hrun⟩ := isNth_stray
  have hiff := hall _ _ _ _ s hs wellFormed_stray none (fun _ _ he => nomatch he)
    ⟨false, false, 2, 1⟩ ⟨2⟩ (by decide +kernel) (by decide +kernel) ⟨true, rfl⟩ false hrun
  exact Bool.false_ne_true (hiff.mpr ⟨rfl, 0, rfl⟩)

end Session

end Query

end DomQuery
