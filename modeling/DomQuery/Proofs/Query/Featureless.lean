import DomQuery.Proofs.Document.Answers
import DomQuery.Proofs.Query.AlikeSearch
import DomQuery.Proofs.Query.Lockstep

/-!
# The shadow root as a node without features

Inside a shadow tree, selectors are also asked of the shadow root. Whatever looks at
an element does not hold there, so of a compound that does not mention the host only
`:is()`, `:where()` and `:not()` have something to say, and at the top of the tree
their nesting settles what: `Simple.featureless` computes it without a tree. Without
`:not()` a compound never holds at the shadow root. With it one may: `:not(.x)` does.

* `Context.holdsSimple_of_no_not`, `Context.holdsSimple_shadowRoot`: what a simple
  selector comes to at the shadow root.
* `Context.shadowRoot_answers`: the same of a compound, and that no combinator leads
  to the shadow root where it does not hold there.
-/

namespace DomQuery.Selector

namespace Simple

theorem All.and {p q : Simple → Prop} {s : Simple} (hp : s.All p) (hq : s.All q) :
    s.All fun s => p s ∧ q s := by
  induction hp with
  | intro self _ ih =>
    exact .intro ⟨self, hq.self⟩ fun c hc k hk s' hs => ih c hc k hk s' hs (hq.nested c hc k hk s' hs)

mutual

/-- Whether a simple selector holds of a node that has no features and no relatives,
when it does not ask for the host. -/
def featureless : Simple → Bool
  | .matchesAny branches => anyFeatureless branches
  | .matchesNone branches => !anyFeatureless branches
  | _ => false

def anyFeatureless : List (Chain (List Simple)) → Bool
  | [] => false
  | c :: rest => chainFeatureless c || anyFeatureless rest

/-- A chain needs a relative for every combinator. -/
def chainFeatureless : Chain (List Simple) → Bool
  | ⟨_, links, last⟩ => allFeatureless last && links.isEmpty

def allFeatureless : List Simple → Bool
  | [] => true
  | s :: rest => s.featureless && allFeatureless rest

end

theorem allFeatureless_eq (k : Compound) : allFeatureless k = k.all featureless := by
  induction k with
  | nil => rfl
  | cons s rest ih => rw [allFeatureless, ih, List.all_cons]

theorem anyFeatureless_eq (branches : List (Chain Compound)) :
    anyFeatureless branches = branches.any fun c => c.last.all featureless && c.links.isEmpty := by
  induction branches with
  | nil => rfl
  | cons c rest ih => rw [anyFeatureless, ih, List.any_cons, chainFeatureless, allFeatureless_eq]

/-- `:host` and `:host-context` -/
def isHost : Simple → Bool
  | .host _ | .hostContext _ => true
  | _ => false

/-- `:not()` -/
def isNot : Simple → Bool
  | .matchesNone _ => true
  | _ => false

/-- The chains in the argument have something to ask of their last node, as all that
were read do. -/
def IsFilled (s : Simple) : Prop :=
  ∀ c ∈ s.branches, c.last ≠ []

end Simple

end DomQuery.Selector

namespace DomQuery.Query

open DomQuery.Document DomQuery.Selector DomQuery.Tree

variable {ν : Type} [DecidableEq ν]

omit [DecidableEq ν] in
/-- Filtering adds nothing. -/
theorem mem_of_filterM {p : ν → Eval ν Bool} {xs l : List ν} {memo memo' : Memo ν}
    (h : (xs.filterM p).run.run memo = (.ok l, memo')) : ∀ n ∈ l, n ∈ xs := by
  induction xs generalizing l memo memo' with
  | nil =>
    obtain rfl : [] = l := Except.ok.inj (congrArg Prod.fst h)
    exact fun _ hn => hn
  | cons x xs ih =>
    rw [filterM_cons, run_bind] at h
    split at h
    · rename_i b memo₁ _
      rw [← bind_pure_comp, run_bind] at h
      split at h
      · rename_i rest memo₂ hrest
        obtain rfl : (if b then x :: rest else rest) = l :=
          Except.ok.inj (congrArg Prod.fst h)
        intro n hn
        cases b with
        | true =>
          rcases List.mem_cons.mp hn with rfl | hn
          · exact List.mem_cons_self
          · exact List.mem_cons_of_mem _ (ih hrest n hn)
        | false => exact List.mem_cons_of_mem _ (ih hrest n hn)
      · cases congrArg Prod.fst h
    · cases congrArg Prod.fst h

namespace Context

variable {ctx : Context ν} {n host : ν}

/-- No combinator leads to a node where the compound does not hold. -/
theorem notMem_of_step {probe : Probe ν} (hn : probe.holds n = pure false) {heading : Heading}
    {c : Combinator} {m : ν} {memo memo' : Memo ν} {l : List ν}
    (h : (ctx.step heading c probe m).run.run memo = (.ok l, memo')) : n ∉ l := by
  have hleft : ∀ y ∈ ctx.related heading c probe.lookup m, (y != n) = false →
      probe.holds y = pure false := fun y _ hy => by
    obtain rfl : y = n := by simpa using hy
    exact hn
  rw [step, ← filterM_filter hleft] at h
  exact fun hmem => by simpa using (List.mem_filter.mp (mem_of_filterM h n hmem)).2

/-! ### At the top of a tree -/

section Top

variable (htop : ctx.tree.parent n = none)

include htop

/-- No combinator leads back from a node at the top. -/
theorem step_backward_top (c : Combinator) (probe : Probe ν) :
    ctx.step .backward c probe n = pure [] := by
  have hrelated : ctx.related .backward c probe.lookup n = [] := by
    cases c with
    | descendant => rw [related, Links.ancestors_of_parent_none htop, List.takeWhile_nil]
    | child => rw [related, htop]; rfl
    | nextSibling => rw [related, adjacent, htop]
    | subsequentSibling => rw [related, siblings, htop]
  rw [step, hrelated]
  rfl

theorem matchesChain_top {c : Chain (Probe ν)} {b : Bool} (h : c.last.holds n = pure b) :
    ctx.matchesChain c n = pure (b && c.links.isEmpty) := by
  rw [matchesChain, h, pure_bind]
  cases b with
  | false => rfl
  | true =>
    obtain ⟨leading, links, last⟩ := c
    rcases List.eq_nil_or_concat links with rfl | ⟨links, link, rfl⟩
    · rfl
    · rw [if_pos rfl, List.concat_eq_append, List.reverse_append, List.reverse_singleton,
        List.singleton_append, leadsBack, step_backward_top htop, pure_bind]
      cases links <;> rfl

end Top

/-! ### At the shadow root -/

section ShadowRoot

variable (hplace : ctx.place n = .shadowRoot host)

include hplace

omit [DecidableEq ν] in
theorem onElements_shadowRoot (element : ν → Eval ν Bool) :
    ctx.onElements element n = pure false := by
  rw [onElements, byPlace, hplace]

omit [DecidableEq ν] in
theorem onBoth_shadowRoot (test : ν → Eval ν Bool) : ctx.onBoth test n = test n := by
  rw [onBoth, byPlace, hplace]

/-- Without `:not()` it does not take the top of the tree: no chain comes further than
to its last compound. -/
theorem holdsSimple_of_no_not (s : Simple)
    (hs : s.All fun s => s.isHost = false ∧ s.isNot = false ∧ s.IsFilled) (forgive : Bool) :
    ctx.holdsSimple forgive s n = pure false := by
  induction s using Simple.induct generalizing forgive with
  | h s ih =>
    cases s with
    | host compounds => cases hs.self.1
    | hostContext compounds => cases hs.self.1
    | matchesNone branches => cases hs.self.2.1
    | never => rw [holdsSimple]
    | matchesAny branches =>
      have hchain : ∀ c ∈ branches,
          forgiving (ctx.matchesChain (c.map (ctx.compoundProbe true)) n) = pure false := by
        intro c hc
        obtain ⟨s, rest, hlast⟩ := List.exists_cons_of_ne_nil (hs.self.2.2 c hc)
        have hmem : s ∈ c.last := hlast ▸ List.mem_cons_self
        have hfalse := ih c hc c.last c.last_mem_compounds s hmem
          (hs.nested c hc c.last c.last_mem_compounds s hmem) true
        have hholds : (c.map (ctx.compoundProbe true)).last.holds n = pure false := by
          change (ctx.compoundProbe true c.last).holds n = pure false
          rw [holds_compoundProbe, hlast, List.allM_cons, hfalse, pure_bind]
          rfl
        rw [matchesChain, hholds]
        rfl
      rw [holdsSimple, onBoth_shadowRoot hplace, matchesSomeForgiving, probes_eq, anyM_map,
        anyM_congr hchain, List.anyM_pure]
      exact congrArg pure (List.any_eq_false.mpr fun _ _ => Bool.false_ne_true)
    | _ =>
      rw [holdsSimple, onElements_shadowRoot hplace]

/-- A simple selector that does not mention the host has the answer at the shadow root
that it has without features, whatever the tree is like. -/
theorem holdsSimple_shadowRoot (htop : ctx.tree.parent n = none) (s : Simple)
    (hs : s.All fun s => s.isHost = false) (forgive : Bool) :
    ctx.holdsSimple forgive s n = pure s.featureless := by
  induction s using Simple.induct generalizing forgive with
  | h s ih =>
    have hchain (forgive : Bool) : ∀ c ∈ s.branches,
        ctx.matchesChain (c.map (ctx.compoundProbe forgive)) n =
          pure (c.last.all Simple.featureless && c.links.isEmpty) := by
      intro c hc
      have hholds : (c.map (ctx.compoundProbe forgive)).last.holds n =
          pure (c.last.all Simple.featureless) := by
        change (ctx.compoundProbe forgive c.last).holds n = _
        rw [holds_compoundProbe, allM_congr fun s hs' =>
          ih c hc c.last c.last_mem_compounds s hs' (hs.nested c hc _ c.last_mem_compounds s hs')
            forgive, List.allM_pure]
      rw [matchesChain_top htop hholds]
      simp [Chain.map]
    cases s with
    | host compounds => cases hs.self
    | hostContext compounds => cases hs.self
    | never => rw [holdsSimple]; rfl
    | matchesAny branches =>
      have hforgiving : ∀ c ∈ branches,
          forgiving (ctx.matchesChain (c.map (ctx.compoundProbe true)) n) =
            pure (c.last.all Simple.featureless && c.links.isEmpty) := fun c hc => by
        rw [hchain true c hc]
        rfl
      rw [holdsSimple, onBoth_shadowRoot hplace, matchesSomeForgiving, probes_eq, anyM_map,
        anyM_congr hforgiving, List.anyM_pure, Simple.featureless, Simple.anyFeatureless_eq]
    | matchesNone branches =>
      have hstrict : ∀ c ∈ branches, _ = _ := hchain false
      rw [holdsSimple, onBoth_shadowRoot hplace, matchesSome, probes_eq, anyM_map,
        anyM_congr hstrict, List.anyM_pure, pure_bind, Simple.featureless,
        Simple.anyFeatureless_eq]
    | _ =>
      rw [holdsSimple, onElements_shadowRoot hplace]
      rfl

/-- What a compound that does not mention the host comes to at the shadow root: at the
top of its tree, to what its nesting says, and anywhere without `:not()`, to nothing.
Where it comes to nothing, no combinator leads to the shadow root. -/
theorem shadowRoot_answers {k : Compound} (hhost : ∀ s ∈ k, s.All fun s => s.isHost = false)
    (forgive : Bool) :
    (ctx.tree.parent n = none →
      (ctx.compoundProbe forgive k).holds n = pure (k.all Simple.featureless)) ∧
    (k ≠ [] → (∀ s ∈ k, s.All fun s => s.isNot = false ∧ s.IsFilled) →
      (ctx.compoundProbe forgive k).holds n = pure false) ∧
    ((ctx.compoundProbe forgive k).holds n = pure false →
      ∀ heading c m memo l memo',
        (ctx.step heading c (ctx.compoundProbe forgive k) m).run.run memo = (.ok l, memo') →
        n ∉ l) := by
  refine ⟨fun htop => ?_, fun hk hnot => ?_, fun hfalse _ _ _ _ _ _ h => notMem_of_step hfalse h⟩
  · rw [holds_compoundProbe, allM_congr fun s hs =>
      holdsSimple_shadowRoot hplace htop s (hhost s hs) forgive, List.allM_pure]
  · obtain ⟨s, rest, rfl⟩ := List.exists_cons_of_ne_nil hk
    have hs : s ∈ s :: rest := List.mem_cons_self
    rw [holds_compoundProbe, List.allM_cons,
      holdsSimple_of_no_not hplace s ((hhost s hs).and (hnot s hs)) forgive, pure_bind]
    rfl

end ShadowRoot

omit [DecidableEq ν] in
/-- Whoever matches inside a shadow tree takes its root for the shadow root. -/
theorem place_root {tree : View ν} {node : ν} {warn : Bool}
    (hc : Context.of tree node warn = .ok ctx) (hs : ctx.shadow = true) :
    ∃ host, ctx.place ctx.root = .shadowRoot host := by
  unfold Context.of at hc
  split at hc <;> cases hc
  · cases hs
  · rename_i hkind
    obtain ⟨host, hhost⟩ := Option.isSome_iff_exists.mp hs
    exact ⟨host, by simp [place, hkind, hhost]⟩
  · obtain ⟨hkind, hsome⟩ := Bool.and_eq_true_iff.mp hs
    obtain ⟨host, hhost⟩ := Option.isSome_iff_exists.mp hsome
    exact ⟨host, by simp [place, eq_of_beq hkind, hhost]⟩

end Context

/-! ### A box with a shadow tree -/

/-- A box whose shadow root has a paragraph. -/
def hosted : Document :=
  (Document.empty .html).run
    [.createElement "div", .attachShadow ⟨1⟩ .open, .createElement "p", .append ⟨2⟩ ⟨3⟩]

/-- `:not(.x)` -/
def otherThanX : Compound :=
  [.matchesNone [⟨none, [], [.className "x"]⟩]]

/-- `:is(.x, p)` -/
def eitherXOrP : Compound :=
  [.matchesAny [⟨none, [], [.className "x"]⟩, ⟨none, [], [.type ⟨none, "p"⟩]⟩]]

theorem hosted_shadow : ∃ ctx, Context.of hosted.view ⟨3⟩ false = .ok ctx ∧ ctx.root = ⟨2⟩ ∧
    ctx.shadow = true := by
  have heval : (Context.of hosted.view ⟨3⟩ false).toOption.map (fun ctx => (ctx.root, ctx.shadow)) =
      some (⟨2⟩, true) := by cbv
  obtain ⟨ctx, hctx, h⟩ := exists_of_toOption_map heval
  exact ⟨ctx, hctx, (Prod.mk.inj h).1, (Prod.mk.inj h).2⟩

theorem otherThanX_all : ∀ s ∈ otherThanX, s.All fun s => s.isHost = false := by
  have hx : (Simple.className "x").All fun s => s.isHost = false := .leaf rfl rfl
  refine List.forall_mem_singleton.mpr (.intro rfl ?_)
  simpa [Simple.branches, Chain.compounds] using hx

theorem eitherXOrP_all : ∀ s ∈ eitherXOrP,
    s.All fun s => s.isHost = false ∧ s.isNot = false ∧ s.IsFilled := by
  have hleaf (s : Simple) (h : s.branches = []) (h' : s.isHost = false ∧ s.isNot = false) :
      s.All fun s => s.isHost = false ∧ s.isNot = false ∧ s.IsFilled :=
    .leaf h ⟨h'.1, h'.2, by simp [Simple.IsFilled, h]⟩
  refine List.forall_mem_singleton.mpr (.intro ⟨rfl, rfl, ?_⟩ ?_)
  · simp [Simple.IsFilled, Simple.branches]
  · simpa [Simple.branches, Chain.compounds] using
      ⟨hleaf (.className "x") rfl ⟨rfl, rfl⟩, hleaf (.type ⟨none, "p"⟩) rfl ⟨rfl, rfl⟩⟩

theorem shadowRoot_answers_hosted : ∃ ctx host, Context.of hosted.view ⟨3⟩ false = .ok ctx ∧
    ctx.place ⟨2⟩ = .shadowRoot host ∧ ctx.tree.parent ⟨2⟩ = none ∧
    (∀ s ∈ otherThanX, s.All fun s => s.isHost = false) ∧
    (∀ s ∈ eitherXOrP, s.All fun s => s.isHost = false) ∧
    (ctx.compoundProbe false otherThanX).holds ⟨2⟩ = pure true ∧
    (ctx.compoundProbe false eitherXOrP).holds ⟨2⟩ = pure false := by
  obtain ⟨ctx, hctx, hroot, hshadow⟩ := hosted_shadow
  obtain ⟨host, hplace⟩ := Context.place_root hctx hshadow
  rw [hroot] at hplace
  obtain ⟨htree, -, -⟩ := Context.of_ok hctx
  have htop : ctx.tree.parent ⟨2⟩ = none := by
    rw [htree]
    decide +kernel
  have hother := otherThanX_all
  have heither : ∀ s ∈ eitherXOrP, s.All fun s => s.isHost = false :=
    fun s hs => (eitherXOrP_all s hs).mono fun _ h => h.1
  refine ⟨ctx, host, hctx, hplace, htop, hother, heither, ?_, ?_⟩
  · exact (Context.shadowRoot_answers hplace hother false).1 htop
  · exact (Context.shadowRoot_answers hplace heither false).2.1 (List.cons_ne_nil _ _)
      fun s hs => (eitherXOrP_all s hs).mono fun _ h => h.2

/-- So a shadow root answers to more than what mentions the host, and a child of it is
found through such a compound. -/
theorem shadowRoot_answers_to_not : (¬ ∀ (d : Document), d.Reachable →
      ∀ node warn ctx, Context.of d.view node warn = .ok ctx →
      ∀ n host, ctx.place n = .shadowRoot host →
      ∀ (k : Compound) forgive, (∀ s ∈ k, s.All fun s => s.isHost = false) →
        fresh ((ctx.compoundProbe forgive k).holds n) ≠ .ok true) ∧
    outcome hosted.view ":not(.x) > p" ⟨2⟩ false .all = .ok (.nodes [⟨3⟩]) := by
  refine ⟨fun hall => ?_, ok_of_toOption (by cbv)⟩
  have heval : (Context.of hosted.view ⟨3⟩ false).toOption.map (fun ctx =>
      (fresh ((ctx.compoundProbe false otherThanX).holds ⟨2⟩)).toOption) =
      some (some true) := by cbv
  obtain ⟨ctx, hctx, hroot, hshadow⟩ := hosted_shadow
  obtain ⟨ctx', hctx', hrun⟩ := exists_of_toOption_map heval
  obtain rfl := Except.ok.inj (hctx.symm.trans hctx')
  obtain ⟨host, hplace⟩ := Context.place_root hctx hshadow
  rw [hroot] at hplace
  exact hall hosted ((Reachable.empty .html).run _) ⟨3⟩ false ctx hctx ⟨2⟩ host hplace otherThanX
    false otherThanX_all (ok_of_toOption hrun)

end DomQuery.Query
