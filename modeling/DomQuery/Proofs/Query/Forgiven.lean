import DomQuery.Proofs.Query.Flat
import DomQuery.Proofs.Selector.Validated

/-!
# Whatever fails is forgiven

`:is()` is told to forgive, but it does not hand that on to everything in it: `:not()`
and the lists that filter siblings are strict wherever they stand. What fails there makes
the branch fail that it is in, and only that branch, at the `:is()` around it. Without
warnings nothing else fails, so `:is()` always comes to an answer.

* `fresh_forgiving`: what is forgiven is true or false.
* `Requests.exists_forgiving`: the chains of a forgiving list are those of the branches
  without faults.
* `Session.matchesAny_total`: what `:is()` comes to, wherever it stands and whatever was
  remembered before.
-/

namespace DomQuery

open DomQuery.Document DomQuery.Selector DomQuery.Tree

/-! ### The branches of a forgiving list -/

namespace Selector.SelectorList

variable {top list : SelectorList}

/-- A forgiving list always has chains, one for each branch that is in order for itself. -/
theorem Requests.exists_forgiving (hd : top.Distinct) (h : top.Requests .forgiving list) :
    ∃ branches, list.resolve .forgiving = .ok branches ∧ ∀ c, c ∈ branches ↔
      ∃ within ∈ list.selectors, ∃ leaves, fresh (within.branch .forgiving) = .ok leaves ∧
        (leaves.mapM fun k => k.mapM Leaf.resolve) = .ok c := by
  obtain ⟨known, hk⟩ := hd.exists_knows
  have hfound := h.fresh_branches hk
  rw [if_pos rfl] at hfound
  obtain ⟨branches, hr⟩ := h.resolve_ok hd ⟨_, hfound⟩
  refine ⟨branches, hr, fun c => ?_⟩
  rw [h.resolve_eq hd, hfound] at hr
  have hchains : List.Forall₂ (fun leaves c => (leaves.mapM fun k => k.mapM Leaf.resolve) = .ok c)
      (list.selectors.filterMap fun within => (fresh (within.branch .forgiving)).toOption)
      branches := mapM_eq_ok.mp hr
  have hmem : ∀ leaves, leaves ∈ list.selectors.filterMap
        (fun within => (fresh (within.branch .forgiving)).toOption) ↔
      ∃ within ∈ list.selectors, fresh (within.branch .forgiving) = .ok leaves := by
    intro leaves
    rw [List.mem_filterMap]
    refine exists_congr fun within => and_congr_right fun _ => ?_
    rcases fresh (within.branch .forgiving) with e | leaves' <;> simp [Except.toOption]
  constructor
  · intro hc
    obtain ⟨leaves, hl, hlc⟩ := forall₂_exists_left hchains c hc
    obtain ⟨within, hw, hb⟩ := (hmem leaves).mp hl
    exact ⟨within, hw, leaves, hb, hlc⟩
  · rintro ⟨within, hw, leaves, hb, hlc⟩
    obtain ⟨c', hc', hlc'⟩ := forall₂_exists_left hchains.flip leaves
      ((hmem leaves).mpr ⟨within, hw, hb⟩)
    obtain rfl := Except.ok.inj (hlc.symm.trans hlc')
    exact hc'

end Selector.SelectorList

/-! ### Branches that fail -/

namespace Query

variable {ν : Type} [DecidableEq ν]

namespace Context

variable {ctx : Context ν}

theorem holds_elsewhere {n : ν} (hn : ctx.place n = .elsewhere) (forgive : Bool) {k : Compound}
    (hk : k ≠ []) : (ctx.compoundProbe forgive k).holds n = pure false := by
  obtain ⟨s, rest, rfl⟩ := List.exists_cons_of_ne_nil hk
  rw [holds_compoundProbe, List.allM, holdsSimple_elsewhere hn, pure_bind]

variable (hw : ctx.warn = false)
include hw

omit [DecidableEq ν] in
/-- Without warnings nothing fails but the selector. -/
theorem fault_of_mayFail {e : QueryError} (he : ctx.MayFail e) : e.fault = .badSelector := by
  rcases he with ⟨p, rfl⟩ | ⟨hwarn, -⟩
  · rfl
  · exact absurd (hwarn.symm.trans hw) (by decide)

omit [DecidableEq ν] in
/-- So what is forgiven comes to an answer, which is no where it would have failed. -/
theorem fresh_forgiving {known : MemoKey ν → Except QueryError (List ν)} {test : Eval ν Bool}
    (h : Steady known ctx.MayFail test) :
    ∃ b, fresh (forgiving test) = .ok b ∧ (b = true ↔ Yes test) := by
  have hcatch : fresh (forgiving test) = tryCatch (fresh test) fun e =>
      fresh (if e.fault == .badSelector then return false else throw e : Eval ν Bool) :=
    h.fresh_tryCatch fun e he => by
      rw [fault_of_mayFail hw he]
      exact .pure false
  rw [hcatch, Yes]
  rcases hr : fresh test with e | b
  · have hfault := fault_of_mayFail hw (h.error hr)
    refine ⟨false, ?_, by simp⟩
    simp [tryCatch, tryCatchThe, MonadExceptOf.tryCatch, Except.tryCatch, hfault]
  · exact ⟨b, rfl, by simp⟩

variable {meaning : ListId → List (Chain Compound)} {branches : List (Chain Compound)}

omit hw in
theorem steady_matchesSome_singleton {c : Chain Compound}
    (hb : Each (Simple.All (Simple.Numbered meaning)) branches) (hc : c ∈ branches) (n : ν) :
    Steady (ctx.counts meaning) ctx.MayFail (ctx.matchesSome (ctx.probes true [c]) n) := by
  refine steady_matchesSome (steady_probes (fun c' hc' => hb c' ?_) true) n
  rwa [List.mem_singleton.mp hc']

/-- A list in which failing branches are forgiven comes to an answer, to which each branch
adds what it comes to on its own. -/
theorem fresh_matchesSomeForgiving
    (hb : Each (Simple.All (Simple.Numbered meaning)) branches) (n : ν) :
    ∃ b, fresh (ctx.matchesSomeForgiving (ctx.probes true branches) n) = .ok b ∧
      (b = true ↔ ∃ c ∈ branches, Yes (ctx.matchesSome (ctx.probes true [c]) n)) := by
  have hforgiven : ∀ c ∈ branches, Steady (ctx.counts meaning) ctx.MayFail
      (forgiving (ctx.matchesSome (ctx.probes true [c]) n)) := fun c hc =>
    steady_forgiving (steady_matchesSome_singleton hb hc n)
  have hsome : ctx.matchesSomeForgiving (ctx.probes true branches) n =
      branches.anyM fun c => forgiving (ctx.matchesSome (ctx.probes true [c]) n) := by
    rw [probes_eq, matchesSomeForgiving, anyM_map]
    refine congrArg (branches.anyM ·) (funext fun c => ?_)
    rw [probes_eq, matchesSome, List.map_singleton, anyM_singleton]
  have hanswer : ∀ c ∈ branches, ∃ b,
      fresh (forgiving (ctx.matchesSome (ctx.probes true [c]) n)) = .ok b ∧
        (b = true ↔ Yes (ctx.matchesSome (ctx.probes true [c]) n)) := fun c hc =>
    fresh_forgiving hw (steady_matchesSome_singleton hb hc n)
  obtain ⟨b, hb⟩ := Steady.anyM_answers hforgiven fun c hc =>
    (hanswer c hc).imp fun _ hb => hb.1
  rw [hsome]
  refine ⟨b, hb, Decides.anyM hforgiven (fun c hc b' hb' => ?_) b hb⟩
  obtain ⟨b'', hb'', hiff⟩ := hanswer c hc
  obtain rfl := Except.ok.inj (hb'.symm.trans hb'')
  exact hiff

/-- `:is()` comes to an answer at every node. -/
theorem fresh_matchesAny_forgiving (forgive : Bool) (n : ν)
    (hb : Each (Simple.All (Simple.Numbered meaning)) branches)
    (hne : ∀ c ∈ branches, ∀ k ∈ c.compounds, k ≠ []) :
    ∃ b, fresh (ctx.holdsSimple forgive (.matchesAny branches) n) = .ok b ∧
      (b = true ↔ ∃ c ∈ branches, Yes (ctx.matchesSome (ctx.probes true [c]) n)) := by
  by_cases hn : ctx.place n = .elsewhere
  · refine ⟨false, by rw [holdsSimple_elsewhere hn]; rfl, iff_of_false Bool.false_ne_true ?_⟩
    rintro ⟨c, hc, hyes⟩
    have hlast : (c.map (ctx.compoundProbe true)).last.holds n = pure false :=
      holds_elsewhere hn true (hne c hc _ c.last_mem_compounds)
    rw [probes_eq, matchesSome, List.map_singleton, anyM_singleton, matchesChain, hlast,
      pure_bind] at hyes
    cases hyes
  · rw [holdsSimple, onBoth_eq hn]
    exact fresh_matchesSomeForgiving hw hb n

/-- A branch that fails is faulty, and without it the answer is the same. -/
theorem fresh_matchesAny_of_error {before after : List (Chain Compound)} {c : Chain Compound}
    (forgive : Bool) {n : ν}
    (hb : Each (Simple.All (Simple.Numbered meaning)) (before ++ c :: after))
    (hne : ∀ c' ∈ before ++ c :: after, ∀ k ∈ c'.compounds, k ≠ []) {e : QueryError}
    (he : fresh (ctx.matchesSome (ctx.probes true [c]) n) = .error e) :
    e.fault = .badSelector ∧
      fresh (ctx.holdsSimple forgive (.matchesAny (before ++ c :: after)) n) =
        fresh (ctx.holdsSimple forgive (.matchesAny (before ++ after)) n) := by
  have hc : c ∈ before ++ c :: after := by simp
  have hothers : ∀ c' ∈ before ++ after, c' ∈ before ++ c :: after := fun c' hc' =>
    (List.mem_append.mp hc').elim (List.mem_append_left _) fun hc' =>
      List.mem_append_right _ (List.mem_cons_of_mem c hc')
  refine ⟨fault_of_mayFail hw ((steady_matchesSome_singleton hb hc n).error he), ?_⟩
  obtain ⟨b, hall, hiff⟩ := fresh_matchesAny_forgiving hw forgive n hb hne
  obtain ⟨b', hrest, hiff'⟩ := fresh_matchesAny_forgiving hw forgive n
    (fun c' hc' => hb c' (hothers c' hc')) fun c' hc' => hne c' (hothers c' hc')
  rw [hall, hrest]
  refine congrArg Except.ok (Bool.eq_iff_iff.mpr (hiff.trans (Iff.trans ?_ hiff'.symm)))
  constructor
  · rintro ⟨c', hc', hyes⟩
    have hne' : c' ≠ c := by
      rintro rfl
      exact nomatch he.symm.trans hyes
    exact ⟨c', by simpa [hne'] using hc', hyes⟩
  · exact fun ⟨c', hc', hyes⟩ => ⟨c', hothers c' hc', hyes⟩

end Context

namespace Session

variable {tree : View ν} {text : String} {node : ν} {s : Session ν}

/-- Without warnings `:is()` comes to an answer at every node, whatever was remembered before,
and it is yes exactly if some branch that is in order for itself matches. A branch that
fails is faulty, and the answer is what it would be without the branch. -/
theorem matchesAny_total (h : start tree text node false = .ok s) {list : SelectorList}
    (hl : s.list.Requests .forgiving list) :
    ∃ branches, list.resolve .forgiving = .ok branches ∧
      (∀ calls, ((list.load list.depth .forgiving).run.run (s.askAll calls).2.lists).1 =
        .ok branches) ∧
      ∀ n forgive memo, s.Counted memo → ∃ b memo', s.Counted memo' ∧
        (s.context.holdsSimple forgive (.matchesAny branches) n).run.run memo = (.ok b, memo') ∧
        (b = true ↔ ∃ within ∈ list.selectors, ∃ leaves c,
          fresh (within.branch .forgiving) = .ok leaves ∧
          (leaves.mapM fun k => k.mapM Leaf.resolve) = .ok c ∧
          Yes (s.context.matchesSome (s.context.probes true [c]) n)) ∧
        ∀ before c after, branches = before ++ c :: after →
          ∀ e, fresh (s.context.matchesSome (s.context.probes true [c]) n) = .error e →
            e.fault = .badSelector ∧
              fresh (s.context.holdsSimple forgive (.matchesAny (before ++ after)) n) = .ok b := by
  obtain ⟨hc, hlist, -⟩ := start_ok h
  obtain ⟨-, -, hw⟩ := Context.of_ok hc
  have hd := SelectorList.distinct_of_ofText hlist
  obtain ⟨meaning, hm⟩ := hd.exists_means
  obtain ⟨known, hk⟩ := hd.exists_knows
  obtain ⟨branches, hr, hbranches⟩ := hl.exists_forgiving hd
  have hnumbered := hl.each_numbered hd hm hr
  have hne : ∀ c ∈ branches, ∀ k ∈ c.compounds, k ≠ [] := fun c hc k hk =>
    (hl.resolve_inv hd hr c hc k hk).1
  refine ⟨branches, hr, fun calls => ?_, fun n forgive memo hmemo => ?_⟩
  · rw [(hl.steady_load hk list.depth).outcome (askAll_of_start h hk hm calls).2.1]
    exact hr
  · obtain ⟨b, hb, hiff⟩ := Context.fresh_matchesAny_forgiving hw forgive n hnumbered hne
    obtain ⟨memo', hmemo', hrun⟩ := run_holdsSimple h (hl.yields_matchesAny hr) forgive n hmemo
    refine ⟨b, memo', hmemo', by rw [hrun, hb], ?_, ?_⟩
    · rw [hiff]
      constructor
      · rintro ⟨c, hc, hyes⟩
        obtain ⟨within, hw, leaves, hl, hlc⟩ := (hbranches c).mp hc
        exact ⟨within, hw, leaves, c, hl, hlc, hyes⟩
      · rintro ⟨within, hw, leaves, c, hl, hlc, hyes⟩
        exact ⟨c, (hbranches c).mpr ⟨within, hw, leaves, hl, hlc⟩, hyes⟩
    · rintro before c after rfl e he
      obtain ⟨hfault, hsame⟩ := Context.fresh_matchesAny_of_error hw forgive hnumbered hne he
      exact ⟨hfault, hsame ▸ hb⟩

/-- No box declares a prefix, so the first branch fails at all of them. -/
theorem matchesAny_total_boxes : ∃ s list branches memo',
    start boxes.view ":is(:not(foo|p), .x)" root false = .ok s ∧
    s.list.Requests .forgiving list ∧ list.resolve .forgiving = .ok branches ∧
    (s.context.holdsSimple false (.matchesAny branches) ⟨2⟩).run.run [] = (.ok true, memo') ∧
    s.Counted memo' ∧ ∃ within ∈ list.selectors, ∃ leaves c,
      fresh (within.branch .forgiving) = .ok leaves ∧
      (leaves.mapM fun k => k.mapM Leaf.resolve) = .ok c ∧
      Yes (s.context.matchesSome (s.context.probes true [c]) ⟨2⟩) := by
  have heval : (start boxes.view ":is(:not(foo|p), .x)" root false).toOption.map (fun s =>
      (s.list, s.counts, (fresh (s.context.holdsSimple false (.matchesAny
        [⟨none, [], [.matchesNone [⟨none, [], [.type ⟨some (.named "foo"), "p"⟩]⟩]]⟩,
          ⟨none, [], [.className "x"]⟩]) ⟨2⟩)).toOption)) =
      some (.mk ⟨0⟩ [.mk [.pseudoClass "is" (some (.selectors (.mk ⟨1⟩
        [.mk [.pseudoClass "not" (some (.selectors (.mk ⟨2⟩
            [.mk [.type ⟨some (.named "foo"), "p"⟩]])))],
          .mk [.className "x"]])))]], [], some true) := by cbv
  obtain ⟨s, hs, hrun⟩ := exists_of_toOption_map heval
  obtain ⟨hlist, hrun⟩ := Prod.mk.inj hrun
  obtain ⟨hnone, htrue⟩ := Prod.mk.inj hrun
  have hl : s.list.Requests .forgiving (.mk ⟨1⟩
      [.mk [.pseudoClass "not" (some (.selectors (.mk ⟨2⟩
          [.mk [.type ⟨some (.named "foo"), "p"⟩]])))],
        .mk [.className "x"]]) := by
    rw [hlist]
    exact .found .outermost (List.mem_singleton_self _) (List.mem_singleton_self _) rfl rfl
  have hmemo : s.Counted [] := hnone ▸ .asked []
  obtain ⟨branches, hr, -, hall⟩ := matchesAny_total hs hl
  obtain ⟨b, memo', hmemo', hrun, hiff, -⟩ := hall ⟨2⟩ false [] hmemo
  obtain rfl : [⟨none, [], [.matchesNone [⟨none, [], [.type ⟨some (.named "foo"), "p"⟩]⟩]]⟩,
      ⟨none, [], [.className "x"]⟩] = branches := Except.ok.inj (Eq.trans (by cbv) hr)
  obtain rfl : true = b :=
    Except.ok.inj ((ok_of_toOption htrue).symm.trans (congrArg Prod.fst hrun))
  exact ⟨s, _, _, memo', hs, hl, hr, hrun, hmemo', hiff.mp rfl⟩

end Session

end Query

end DomQuery
