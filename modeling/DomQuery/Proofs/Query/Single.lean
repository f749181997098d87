import DomQuery.Proofs.Document.Answers

/-!
# Asking for one simple selector

Whether an element matches a text that spells a single simple selector is what the
test for that comes to at the element. So where the test just has an answer, a new
matcher gives that answer (`SpellsSimple.answers`). Tests for the state of a control always
do (`says_controlState`).
-/

namespace DomQuery.Query

open DomQuery.Document DomQuery.Selector DomQuery.Tree

/-- The text is a simple selector and nothing else. -/
def SpellsSimple (text : String) (s : Simple) : Prop :=
  (SelectorList.ofText text >>= fun list => list.resolve .strict) = .ok [⟨none, [], [s]⟩]

/-- The simple selector that the branches are, if they are just one. -/
def single? : List (Chain Compound) → Option Simple
  | [⟨none, [], [s]⟩] => some s
  | _ => none

/-- The simple selector that a text is, if it is nothing else. -/
def simpleOf? (text : String) : Option Simple :=
  (SelectorList.ofText text >>= fun list => list.resolve .strict).toOption.bind single?

/-- The keyword of a simple selector that is one. -/
def keyword? : Simple → Option Keyword
  | .keyword k => some k
  | _ => none

theorem single?_eq_some {branches : List (Chain Compound)} {s : Simple}
    (h : single? branches = some s) : branches = [⟨none, [], [s]⟩] := by
  unfold single? at h
  split at h
  · rw [Option.some.inj h]
  · cases h

theorem spells_of_simpleOf? {text : String} {s : Simple} (h : simpleOf? text = some s) :
    SpellsSimple text s := by
  obtain ⟨branches, hbranches, hsingle⟩ := Option.bind_eq_some_iff.mp h
  rw [SpellsSimple, ok_of_toOption hbranches, single?_eq_some hsingle]

theorem keyword?_eq_some {s : Simple} {k : Keyword} (h : keyword? s = some k) :
    s = .keyword k := by
  unfold keyword? at h
  split at h
  · rw [Option.some.inj h]
  · cases h

/-- Keywords for the states of controls, as they are written. -/
def controlStates : List (String × Keyword) :=
  [(":default", .default), (":disabled", .disabled), (":enabled", .enabled),
    (":in-range", .inRange), (":invalid", .invalid), (":out-of-range", .outOfRange),
    (":valid", .valid)]

theorem spells_controlState {text : String} {k : Keyword} (h : (text, k) ∈ controlStates) :
    SpellsSimple text (.keyword k) := by
  have hall : ∀ state ∈ controlStates, (simpleOf? state.1).bind keyword? = some state.2 := by
    decide +kernel
  obtain ⟨s, hs, hk⟩ := Option.bind_eq_some_iff.mp (hall _ h)
  exact keyword?_eq_some hk ▸ spells_of_simpleOf? hs

variable {ν : Type} [DecidableEq ν]

/-- Asked whether `n` matches the text, a new matcher answers with `b`. -/
inductive Says (tree : View ν) (text : String) (n : ν) (warn b : Bool) : Prop where
  | intro (m : Matcher ν) (new_eq : Matcher.new tree text n warn = .ok m)
    (isMatch_eq : fresh m.isMatch = .ok b)

variable {tree : View ν} {text : String} {n : ν} {warn b : Bool}

/-- There is one answer. -/
theorem Says.unique {b' : Bool} (h : Says tree text n warn b) (h' : Says tree text n warn b') :
    b = b' := by
  obtain ⟨m, hm, hb⟩ := h
  obtain ⟨m', hm', hb'⟩ := h'
  obtain rfl := Except.ok.inj (hm.symm.trans hm')
  exact Except.ok.inj (hb.symm.trans hb')

theorem says_iff : Says tree text n warn b ↔ ((Matcher.new tree text n warn).toOption.bind
    fun m => (fresh m.isMatch).toOption) = some b := by
  rw [Option.bind_eq_some_iff]
  constructor
  · rintro ⟨m, hm, hb⟩
    exact ⟨m, by rw [hm]; rfl, by rw [hb]; rfl⟩
  · rintro ⟨m, hm, hb⟩
    exact ⟨m, ok_of_toOption hm, ok_of_toOption hb⟩

instance : Decidable (Says tree text n warn b) :=
  decidable_of_iff _ says_iff.symm

section Lists

variable {m : Type → Type} [Monad m] [LawfulMonad m] {α : Type} {p : α → m Bool} {q : α → Bool}

/-- Tests that just answer. -/
theorem filterM_pure {xs : List α} (h : ∀ x ∈ xs, p x = pure (q x)) :
    xs.filterM p = pure (xs.filter q) := by
  induction xs with
  | nil => simp [List.filterM, List.filterAuxM]
  | cons x xs ih =>
    obtain ⟨hx, hxs⟩ := List.forall_mem_cons.mp h
    rw [filterM_cons, hx, ih hxs, pure_bind, map_pure, List.filter_cons]

theorem anyM_pure {xs : List α} (h : ∀ x ∈ xs, p x = pure (q x)) :
    xs.anyM p = pure (xs.any q) := by
  induction xs with
  | nil => rfl
  | cons x xs ih =>
    obtain ⟨hx, hxs⟩ := List.forall_mem_cons.mp h
    rw [List.anyM, hx, ih hxs, pure_bind, List.any_cons]
    cases q x <;> rfl

end Lists

namespace Context

variable {ctx : Context ν} {s : Simple}

omit [DecidableEq ν] in
/-- An element is tested as such. -/
theorem onElements_of_isElement (hn : ctx.tree.isElement n = true) (test : ν → Eval ν Bool) :
    ctx.onElements test n = test n := by
  rw [onElements, byPlace, place, Links.isElement_iff.mp hn]

omit [DecidableEq ν] in
theorem onBoth_of_isElement (hn : ctx.tree.isElement n = true) (test : ν → Eval ν Bool) :
    ctx.onBoth test n = test n := by
  rw [onBoth, byPlace, place, Links.isElement_iff.mp hn]

theorem holdsSimple_keyword (hn : ctx.tree.isElement n = true) (forgive : Bool) (k : Keyword) :
    ctx.holdsSimple forgive (.keyword k) n = ctx.holdsKeyword k n := by
  rw [holdsSimple, onElements_of_isElement hn]

omit [DecidableEq ν] in
/-- An element can be asked. -/
theorem exists_of (hn : tree.isElement n = true) (warn : Bool) :
    ∃ ctx, of tree n warn = .ok ctx := by
  rw [of, Links.isElement_iff.mp hn]
  exact ⟨_, rfl⟩

/-! ### In an argument -/

section Argument

variable {forgive : Bool} (hn : ctx.tree.isElement n = true)
include hn

/-- `:not()` of what has an answer has the opposite one. -/
theorem holdsSimple_matchesNone (hs : ctx.holdsSimple false s n = pure b) :
    ctx.holdsSimple forgive (.matchesNone [⟨none, [], [s]⟩]) n = pure !b := by
  rw [holdsSimple, onBoth_of_isElement hn]
  cases b <;>
    simp [probes, chainProbe, linkProbes, compoundTests, allHold, matchesSome, matchesChain,
      leadsBack, hs, List.anyM, List.allM]

/-- `:has()` of what has an answer at every element below looks for one that has it. -/
theorem holdsSimple_has {p : ν → Bool} (hlookup : lookup? [s] = none)
    (hs : ∀ m ∈ ctx.tree.walk n, ctx.holdsSimple forgive s m = pure (p m)) :
    ctx.holdsSimple forgive (.has [⟨none, [], [s]⟩]) n = pure ((ctx.tree.walk n).any p) := by
  have hcompound : ∀ m ∈ ctx.tree.walk n,
      allHold [ctx.holdsSimple forgive s] m = pure (p m) := fun m hm => by
    cases hp : p m <;> simp [allHold, List.allM, hs m hm, hp]
  have hstep : ctx.step .forward .descendant ⟨none, allHold [ctx.holdsSimple forgive s]⟩ n =
      pure ((ctx.tree.walk n).filter p) := filterM_pure hcompound
  rw [holdsSimple, onElements_of_isElement hn]
  simp only [probes, chainProbe, linkProbes, compoundTests, hasSome, relativeSteps, forwardSteps,
    Chain.first, Chain.combinators, hlookup, List.map_nil, List.zip_nil_left, Option.getD_none,
    List.anyM, reaches, hstep, pure_bind]
  rw [anyM_pure fun _ _ => rfl, List.any_filter]
  simp only [Bool.and_true]
  cases (ctx.tree.walk n).any p <;> rfl

end Argument

/-! ### At the context node -/

/-- The entry for a single test at the context node. -/
theorem plan_single (hn : ctx.tree.isElement ctx.node = true)
    (hb : ctx.holdsSimple false s ctx.node = pure b) :
    ctx.plan .itself [⟨none, [], [s]⟩] =
      pure [⟨ctx.chainProbe false ⟨none, [], [s]⟩, .backward, ctx.node,
        .tested (if b then [ctx.node] else [])⟩] := by
  cases b <;>
    simp [plan, enter, gather, Entry.isPending, hn, hb, entryHeading, distinct, chainProbe,
      linkProbes, compoundTests, allHold, List.filterM, List.filterAuxM, List.allM]

theorem find_single (hn : ctx.tree.isElement ctx.node = true)
    (hb : ctx.holdsSimple false s ctx.node = pure b) :
    ctx.find .itself [⟨none, [], [s]⟩] = pure (if b then [ctx.node] else []) := by
  rw [find, plan_single hn hb]
  cases b <;>
    simp [collectM, findFrom, findBackward, entryNodes, endsAt, isEligible, Target.isBelow,
      Entry.accepts, chainProbe, linkProbes, leadsBack, List.filterM, List.filterAuxM, answer,
      distinct]

end Context

theorem Matcher.isMatch_single {m : Matcher ν} {s : Simple}
    (hbranches : m.branches = [⟨none, [], [s]⟩])
    (hn : m.context.tree.isElement m.context.node = true)
    (hb : m.context.holdsSimple false s m.context.node = pure b) : m.isMatch = pure b := by
  have hfind : m.find .itself = pure (if b then [m.context.node] else []) := by
    rw [find, hbranches, Context.find_single hn hb]
    rfl
  rw [isMatch, requireElement, Links.isElement_iff.mp hn, hfind]
  cases b <;> simp

/-- The answer is that of the test at the element. -/
theorem SpellsSimple.answers {s : Simple} (h : SpellsSimple text s) (hn : tree.isElement n = true)
    (hb : ∀ ctx, Context.of tree n warn = .ok ctx → ctx.holdsSimple false s n = pure b) :
    Says tree text n warn b := by
  obtain ⟨list, htext, hbranches⟩ := bind_eq_ok.mp h
  obtain ⟨ctx, hctx⟩ := Context.exists_of hn warn
  obtain ⟨htree, hnode, -⟩ := Context.of_ok hctx
  have hmatch : Matcher.isMatch ⟨ctx, text, [⟨none, [], [s]⟩]⟩ = pure b := by
    refine Matcher.isMatch_single rfl ?_ ?_
    · rw [htree, hnode]
      exact hn
    · rw [hnode]
      exact hb ctx hctx
  refine ⟨⟨ctx, text, [⟨none, [], [s]⟩]⟩, ?_, by rw [hmatch, fresh_pure]⟩
  rw [Matcher.new_eq]
  exact bind_eq_ok.mpr ⟨ctx, hctx, bind_eq_ok.mpr ⟨list, mapError_eq_ok.mpr htext,
    bind_eq_ok.mpr ⟨_, mapError_eq_ok.mpr hbranches, rfl⟩⟩⟩

/-- For the state of a control, that is whether the control is in it. -/
theorem says_controlState {k : Keyword} (h : (text, k) ∈ controlStates)
    (hn : tree.isElement n = true)
    (hb : ∀ ctx, Context.of tree n warn = .ok ctx → ctx.holdsKeyword k n = pure b) :
    Says tree text n warn b := by
  refine (spells_controlState h).answers hn fun ctx hctx => ?_
  obtain ⟨htree, -, -⟩ := Context.of_ok hctx
  rw [Context.holdsSimple_keyword (htree ▸ hn), hb ctx hctx]

end DomQuery.Query
