import DomQuery.Proofs.Query.Lockstep
import DomQuery.Proofs.Query.Relation

/-!
# Testing nodes without an index

What an index leaves out fails the first test of the compound that is looked up,
at once and for good. So a test does the same with the indices and without
them: it fails alike, it remembers alike and it gives the same answer.

* `lockstep_step`: a combinator leads to the same nodes.
* `holdsSimple_unindexed` and `untouched`: the tests of simple selectors and of
  compounds.
-/

namespace DomQuery

variable {ν : Type}

/-- The same tree, that keeps no indices. -/
def Tree.View.unindexed (v : Tree.View ν) : Tree.View ν where
  __ := v
  elementsById _ _ := none
  elementsByClass _ _ := none
  elementsByName _ _ := none

namespace Query

open DomQuery.Selector DomQuery.Tree Matcher

variable [DecidableEq ν]

theorem IsSound.unindexed {v : View ν} (h : IsSound v) : IsSound v.unindexed where
  wellFormed := h.wellFormed
  compare_eq_lt := h.compare_eq_lt
  compare_eq_eq := h.compare_eq_eq
  elementsById := nofun
  elementsByClass := nofun
  elementsByName := nofun

namespace Context

/-- The same surroundings in a tree that keeps no indices. -/
def unindexed (ctx : Context ν) : Context ν :=
  { ctx with tree := ctx.tree.unindexed }

variable {ctx : Context ν}

theorem Grounded.unindexed (hctx : ctx.Grounded) : ctx.unindexed.Grounded :=
  ⟨hctx.sound.unindexed, hctx.root_eq⟩

/-! ### Keywords -/

section Keywords

variable (hctx : ctx.Grounded)
include hctx

theorem elementById_unindexed (id : String) :
    ctx.unindexed.elementById id = ctx.elementById id := by
  have hdocument : ctx.unindexed.document = ctx.document := rfl
  unfold elementById
  rw [hdocument]
  cases ctx.document with
  | none => rfl
  | some document =>
    change (ctx.tree.walk document).find? (fun n => ctx.tree.id? n == some id) = _
    simp only
    split
    · rename_i found hf
      have hlists := hctx.sound.elementsById hf
      rw [← hctx.wellFormed.filter_walk_of_lists hlists fun n _ _ => beq_iff_eq, List.head?_filter]
    · rfl

theorem formOwner_unindexed : ctx.unindexed.formOwner = ctx.formOwner := by
  funext n
  unfold formOwner
  simp only [elementById_unindexed hctx]
  rfl

theorem isGroupUnchecked_unindexed : ctx.unindexed.isGroupUnchecked = ctx.isGroupUnchecked := by
  funext n
  unfold isGroupUnchecked radioGroup
  simp only [formOwner_unindexed hctx]
  rfl

theorem isDefault_unindexed : ctx.unindexed.isDefault = ctx.isDefault := by
  funext n
  unfold isDefault
  simp only [formOwner_unindexed hctx]
  rfl

theorem isIndeterminate_unindexed : ctx.unindexed.isIndeterminate = ctx.isIndeterminate := by
  funext n
  unfold isIndeterminate
  simp only [isGroupUnchecked_unindexed hctx]
  rfl

theorem validity?_unindexed : ctx.unindexed.validity? = ctx.validity? := by
  funext n
  unfold validity? controlValidity? violatesConstraints isValueMissing
  simp only [isGroupUnchecked_unindexed hctx]
  rfl

theorem target_unindexed : ctx.unindexed.target = ctx.target := by
  unfold target
  simp only [elementById_unindexed hctx]
  rfl

theorem holdsKeyword_unindexed (k : Keyword) (n : ν) :
    ctx.unindexed.holdsKeyword k n = ctx.holdsKeyword k n := by
  cases k
  case default => simp only [holdsKeyword, isDefault_unindexed hctx]
  case indeterminate => simp only [holdsKeyword, isIndeterminate_unindexed hctx]
  case valid => simp only [holdsKeyword, validity?_unindexed hctx]
  case invalid => simp only [holdsKeyword, validity?_unindexed hctx]
  case target => simp only [holdsKeyword, target_unindexed hctx]
  case targetWithin =>
    simp only [holdsKeyword, target_unindexed hctx]
    rfl
  all_goals rfl

end Keywords

/-! ### Steps -/

section Steps

/-- What does not fit the lookup fails the first test of the compound. -/
theorem holdsSimple_of_not_fits {s : Simple} {rest : Compound} {l : Lookup} {n : ν}
    (hl : lookup? (s :: rest) = some l)
    (h : ¬ (ctx.tree.isElement n = true ∧ l.Fits ctx.tree.toLinks n)) (forgive : Bool) :
    ctx.holdsSimple forgive s n = pure false := by
  have honly : ∀ element : ν → Eval ν Bool,
      (¬ l.Fits ctx.tree.toLinks n → element n = pure false) →
      ctx.onElements element n = pure false := by
    intro element he
    unfold onElements byPlace
    rcases place_cases ctx n with ⟨hp, hk⟩ | ⟨host, hp, -, -⟩ | hp
    · simp only [hp]
      exact he fun hf => h ⟨Links.isElement_iff.mpr hk, hf⟩
    · simp only [hp]
    · simp only [hp]
  cases s
  case id name =>
    obtain rfl : .id name = l := by simpa [lookup?] using hl
    refine honly _ fun h => ?_
    have hid : (ctx.tree.id? n == some name) = false := beq_false_of_ne h
    rw [hid]
  case className name =>
    obtain rfl : .className name = l := by simpa [lookup?] using hl
    refine honly _ fun h => ?_
    have hclass : ctx.tree.hasClass n name = false := by simpa [Lookup.Fits] using h
    rw [hclass]
  case type t =>
    obtain ⟨qualifier, name⟩ := t
    simp only [lookup?, Option.ite_none_right_eq_some, Option.some.injEq] at hl
    obtain ⟨hq, rfl⟩ := hl
    obtain rfl : qualifier = none := by simp_all
    refine honly _ fun h => ?_
    rw [Lookup.Fits] at h
    unfold holdsType
    obtain ⟨b, hb⟩ : ∃ b, selectsType? ctx.tree.toLinks ⟨none, name⟩ n = .ok b := ⟨_, rfl⟩
    rw [hb] at h ⊢
    cases b
    · rfl
    · exact absurd rfl h
  all_goals cases hl

theorem holds_of_not_fits {k : Compound} {l : Lookup} {n : ν} (hl : lookup? k = some l)
    (h : ¬ (ctx.tree.isElement n = true ∧ l.Fits ctx.tree.toLinks n)) (forgive : Bool) :
    (ctx.compoundProbe forgive k).holds n = pure false := by
  obtain ⟨s, rest, rfl, -⟩ := lookup?_cons ctx hl
  rw [holds_compoundProbe, List.allM, holdsSimple_of_not_fits hl h, pure_bind]

variable {k : Compound} {forgive : Bool}

section Lists

variable {n : ν} (ht : ctx.tree.WellFormed)
variable (hlists : ∀ {l found}, ctx.indexedBelow n l = some found →
  ctx.tree.Lists n (l.Fits ctx.tree.toLinks) found)
include ht hlists

/-- Whether descendants are looked up or walked over, the same ones pass, and
nothing else is done. -/
theorem filterM_descendants :
    (ctx.descendants (lookup? k) n).filterM (ctx.compoundProbe forgive k).holds =
      (ctx.tree.walk n).filterM (ctx.compoundProbe forgive k).holds := by
  unfold descendants
  rcases hl : lookup? k with _ | l
  · rfl
  rcases hi : ctx.indexedBelow n l with _ | found
  · simp only [Option.bind_some, hi, Option.getD_none]
  simp only [Option.bind_some, hi, Option.getD_some]
  have hfound := hlists hi
  rw [← ht.filter_walk_of_lists hfound (q := fun m => decide (m ∈ found))
    fun m he hb => by simp [hfound.2, he, hb]]
  refine filterM_filter fun m hm hnot => holds_of_not_fits hl ?_ forgive
  rintro ⟨he, hf⟩
  have hb := (ht.mem_walk.mp hm).2
  exact of_decide_eq_false hnot ((hfound.2 m).mpr ⟨he, hb, hf⟩)

/-- So a step does what it would do without an index. -/
theorem step_eq_of_lists (heading : Heading) (c : Combinator) :
    ctx.step heading c (ctx.compoundProbe forgive k) n =
      (ctx.related heading c none n).filterM (ctx.compoundProbe forgive k).holds := by
  cases heading <;> cases c <;> first
    | exact filterM_descendants ht hlists
    | rfl

end Lists

variable (hctx : ctx.Grounded)
include hctx

theorem step_eq (heading : Heading) (c : Combinator) {n : ν} (hn : ctx.InReach n) :
    ctx.step heading c (ctx.compoundProbe forgive k) n =
      (ctx.related heading c none n).filterM (ctx.compoundProbe forgive k).holds :=
  step_eq_of_lists hctx.wellFormed (hctx.lists_indexedBelow hn) heading c

/-- Combinators lead to nodes that can be tested again. -/
theorem inReach_of_related {heading : Heading} {c : Combinator} {n m : ν} (hn : ctx.InReach n)
    (hm : m ∈ ctx.related heading c none n) : ctx.InReach m := by
  refine hn.imp_right fun hw => hctx.within_root_of_sameTree ?_ hw
  cases heading with
  | forward =>
    -- every node satisfies the empty compound
    have hall : ctx.Satisfies [] m := rfl
    exact ((hctx.mem_related_forward hw hall).mp hm).1.sameTree hctx.isForest
  | backward => exact ((hctx.mem_related_backward.mp hm).1.sameTree hctx.isForest).symm

omit hctx in
theorem indexedBelow_unindexed (scope : ν) (l : Lookup) :
    ctx.unindexed.indexedBelow scope l = none := by
  cases l with
  | id name =>
    rw [indexedBelow]
    split <;> rfl
  | className name => rfl
  | localName name => rfl

omit hctx in
theorem related_unindexed (heading : Heading) (c : Combinator) (l : Option Lookup) (n : ν) :
    ctx.unindexed.related heading c l n = ctx.related heading c none n := by
  cases heading <;> cases c
  case forward.descendant =>
    change ((l.bind (ctx.unindexed.indexedBelow n)).getD (ctx.tree.walk n)) = _
    cases l with
    | none => rfl
    | some l => rw [Option.bind_some, indexedBelow_unindexed]; rfl
  all_goals rfl

end Steps

/-! ### Chains -/

section Chains

/-- The compound is tested alike with and without the indices. -/
def Untouched (ctx : Context ν) (forgive : Bool) (k : Compound) : Prop :=
  ∀ n, ctx.InReach n →
    (ctx.unindexed.compoundProbe forgive k).holds n = (ctx.compoundProbe forgive k).holds n

variable (hctx : ctx.Grounded) {forgive : Bool}
include hctx

theorem lockstep_step {k : Compound} (hk : ctx.Untouched forgive k) (heading : Heading)
    (c : Combinator) {n : ν} (hn : ctx.InReach n) :
    Lockstep (fun ys zs => ys = zs ∧ ∀ m ∈ ys, ctx.InReach m)
      (ctx.unindexed.step heading c (ctx.unindexed.compoundProbe forgive k) n)
      (ctx.step heading c (ctx.compoundProbe forgive k) n) := by
  have hin : ∀ m ∈ ctx.related heading c none n, ctx.InReach m := fun m hm =>
    inReach_of_related hctx hn hm
  rw [step_eq hctx heading c hn, step, related_unindexed]
  exact lockstep_filterM (fun m hm => hk m (hin m hm)) hin

theorem leadsBack_unindexed {links : List (Link Compound)}
    (hk : ∀ link ∈ links, ctx.Untouched forgive link.compound) {n : ν} (hn : ctx.InReach n) :
    ctx.unindexed.leadsBack
        (links.map fun link => ⟨ctx.unindexed.compoundProbe forgive link.compound, link.combinator⟩)
        n =
      ctx.leadsBack
        (links.map fun link => ⟨ctx.compoundProbe forgive link.compound, link.combinator⟩) n := by
  induction links generalizing n with
  | nil => rw [List.map_nil, List.map_nil, leadsBack, leadsBack]
  | cons link links ih =>
    obtain ⟨hlink, hlinks⟩ := List.forall_mem_cons.mp hk
    rw [List.map_cons, List.map_cons, leadsBack, leadsBack]
    dsimp only
    refine ((lockstep_step hctx hlink _ _ hn).bind ?_).eq
    rintro ys _ ⟨rfl, hys⟩
    exact .of_eq (anyM_congr fun m hm => ih hlinks (hys m hm))

theorem reaches_unindexed {steps : List (Combinator × Compound)}
    (hk : ∀ s ∈ steps, ctx.Untouched forgive s.2) {n : ν} (hn : ctx.InReach n) :
    ctx.unindexed.reaches (steps.map fun s => (s.1, ctx.unindexed.compoundProbe forgive s.2)) n =
      ctx.reaches (steps.map fun s => (s.1, ctx.compoundProbe forgive s.2)) n := by
  induction steps generalizing n with
  | nil => rw [List.map_nil, List.map_nil, reaches, reaches]
  | cons s steps ih =>
    obtain ⟨hs, hsteps⟩ := List.forall_mem_cons.mp hk
    rw [List.map_cons, List.map_cons, reaches, reaches]
    refine ((lockstep_step hctx hs _ _ hn).bind ?_).eq
    rintro ys _ ⟨rfl, hys⟩
    exact .of_eq (anyM_congr fun m hm => ih hsteps (hys m hm))

theorem matchesChain_unindexed {c : Chain Compound}
    (hk : ∀ k ∈ c.compounds, ctx.Untouched forgive k) {n : ν} (hn : ctx.InReach n) :
    ctx.unindexed.matchesChain (c.map (ctx.unindexed.compoundProbe forgive)) n =
      ctx.matchesChain (c.map (ctx.compoundProbe forgive)) n := by
  have hlinks : ∀ link ∈ c.links.reverse, ctx.Untouched forgive link.compound := fun link hl =>
    hk _ (c.compound_mem_compounds (List.mem_reverse.mp hl))
  have hback := leadsBack_unindexed hctx hlinks hn
  rw [List.map_reverse, List.map_reverse] at hback
  unfold matchesChain
  simp only [Chain.map, hk _ c.last_mem_compounds n hn, hback]

variable {branches : List (Chain Compound)}
variable (hk : ∀ c ∈ branches, ∀ k ∈ c.compounds, ctx.Untouched forgive k)
include hk

theorem matchesSome_unindexed {n : ν} (hn : ctx.InReach n) :
    ctx.unindexed.matchesSome (ctx.unindexed.probes forgive branches) n =
      ctx.matchesSome (ctx.probes forgive branches) n := by
  rw [probes_eq, probes_eq, matchesSome, matchesSome, anyM_map, anyM_map]
  exact anyM_congr fun c hc => matchesChain_unindexed hctx (hk c hc) hn

theorem matchesSomeForgiving_unindexed {n : ν} (hn : ctx.InReach n) :
    ctx.unindexed.matchesSomeForgiving (ctx.unindexed.probes forgive branches) n =
      ctx.matchesSomeForgiving (ctx.probes forgive branches) n := by
  rw [probes_eq, probes_eq, matchesSomeForgiving, matchesSomeForgiving, anyM_map, anyM_map]
  refine anyM_congr fun c hc => ?_
  rw [matchesChain_unindexed hctx (hk c hc) hn]

theorem hasSome_unindexed {n : ν} (hn : ctx.InReach n) :
    ctx.unindexed.hasSome (ctx.unindexed.probes forgive branches) n =
      ctx.hasSome (ctx.probes forgive branches) n := by
  rw [probes_eq, probes_eq, hasSome, hasSome, anyM_map, anyM_map]
  refine anyM_congr fun c hc => ?_
  rw [relativeSteps_map, relativeSteps_map]
  exact reaches_unindexed hctx (fun s hs => hk c hc _ (mem_relativeSteps hs)) hn

omit hctx in
theorem holdsSome_unindexed {n : ν} (hn : ctx.InReach n) :
    holdsSome (ctx.unindexed.probes forgive branches) n =
      holdsSome (ctx.probes forgive branches) n := by
  rw [probes_eq, probes_eq, holdsSome, holdsSome, anyM_map, anyM_map]
  exact anyM_congr fun c hc => hk c hc _ c.last_mem_compounds n hn

end Chains

/-! ### Simple selectors -/

section Simples

omit [DecidableEq ν] in
/-- Only from within a shadow tree the host is tested. -/
theorem byPlace_unindexed {element element' : ν → Eval ν Bool}
    {shadowRoot shadowRoot' : ν → ν → Eval ν Bool} {n : ν} (he : element n = element' n)
    (hs : ctx.shadow = true → ∀ host, shadowRoot host n = shadowRoot' host n) :
    ctx.unindexed.byPlace element shadowRoot n = ctx.byPlace element' shadowRoot' n := by
  have hplace : ctx.unindexed.place n = ctx.place n := rfl
  unfold byPlace
  rw [hplace]
  rcases place_cases ctx n with ⟨hp, -⟩ | ⟨host, hp, -, hshadow⟩ | hp
  · simp only [hp, he]
  · simp only [hp, hs hshadow host]
  · simp only [hp]

variable (hctx : ctx.Grounded)
include hctx

/-- Siblings are counted alike. -/
theorem isNth_unindexed (form : NthForm) (id : ListId) {passes passes' : ν → Eval ν Bool}
    (h : ∀ m, ctx.InReach m → passes m = passes' m) {n : ν} (hn : ctx.InReach n) :
    ctx.unindexed.isNth form (some (id, passes)) n = ctx.isNth form (some (id, passes')) n := by
  have hsiblings : ∀ p, ctx.tree.parent n = some p → ∀ m ∈ ctx.tree.elementChildren p,
      passes m = passes' m := by
    intro p hp m hm
    refine h m (hn.imp_right (hctx.within_root_of_sameTree ?_))
    have hm := hctx.isForest.mem_children.mp (List.mem_filter.mp hm).1
    exact (hctx.isForest.topmost_of_parent hp).trans (hctx.isForest.topmost_of_parent hm).symm
  unfold isNth
  have hparent : ctx.unindexed.tree.parent n = ctx.tree.parent n := rfl
  simp only [hparent]
  cases hp : ctx.tree.parent n with
  | none => simp only [h n hn]
  | some p =>
    simp only [Option.map_some, selectChildren]
    change (remembered _ (do
      let counted ← (ctx.tree.elementChildren p).filterM passes
      return selectAmong ctx.tree.toLinks form counted) >>= _) = _
    rw [filterM_congr (hsiblings p hp)]

/-- A simple selector is tested alike with and without the indices. -/
theorem holdsSimple_unindexed (s : Simple) (forgive : Bool) {n : ν} (hn : ctx.InReach n) :
    ctx.unindexed.holdsSimple forgive s n = ctx.holdsSimple forgive s n := by
  induction s using Simple.induct generalizing forgive n with
  | h s ih =>
    have hk : ∀ forgive, ∀ c ∈ s.branches, ∀ k ∈ c.compounds, ctx.Untouched forgive k := by
      intro forgive c hc k hk n hn
      rw [holds_compoundProbe, holds_compoundProbe]
      exact allM_congr fun s' hs' => ih c hc k hk s' hs' forgive hn
    cases s with
    | matchesAny branches =>
      rw [holdsSimple, holdsSimple]
      have htest : ctx.unindexed.matchesSomeForgiving (ctx.unindexed.probes true branches) n =
          ctx.matchesSomeForgiving (ctx.probes true branches) n :=
        matchesSomeForgiving_unindexed hctx (hk true) hn
      exact byPlace_unindexed htest fun _ _ => htest
    | matchesNone branches =>
      rw [holdsSimple, holdsSimple]
      have hsome : ctx.unindexed.matchesSome (ctx.unindexed.probes false branches) n =
          ctx.matchesSome (ctx.probes false branches) n :=
        matchesSome_unindexed hctx (hk false) hn
      have htest : (do return !(← ctx.unindexed.matchesSome (ctx.unindexed.probes false branches) n)) =
          (do return !(← ctx.matchesSome (ctx.probes false branches) n) : Eval ν Bool) := by
        rw [hsome]
      exact byPlace_unindexed htest fun _ _ => htest
    | has branches =>
      rw [holdsSimple, holdsSimple]
      exact byPlace_unindexed (hasSome_unindexed hctx (hk forgive) hn) fun _ _ => rfl
    | nth form of =>
      rcases of with _ | ⟨id, branches⟩
      · rfl
      · rw [holdsSimple, holdsSimple, siblingFilter, siblingFilter, numberedTest, numberedTest]
        refine byPlace_unindexed (isNth_unindexed hctx form id (fun m hm => ?_) hn) fun _ _ => rfl
        exact matchesSome_unindexed hctx (hk false) hm
    | host compounds =>
      rcases compounds with _ | branches
      · rfl
      · rw [holdsSimple, holdsSimple, probes?, probes?]
        refine byPlace_unindexed rfl fun hs host => ?_
        exact holdsSome_unindexed (hk forgive) (.inl hs)
    | hostContext compounds =>
      rw [holdsSimple, holdsSimple]
      refine byPlace_unindexed rfl fun hs host => ?_
      exact anyM_congr fun m _ => holdsSome_unindexed (hk forgive) (.inl hs)
    | keyword k =>
      rw [holdsSimple, holdsSimple]
      exact byPlace_unindexed (holdsKeyword_unindexed hctx k n) fun _ _ => rfl
    | _ => rfl

/-- A compound is tested alike with and without the indices. -/
theorem untouched (forgive : Bool) (k : Compound) : ctx.Untouched forgive k := by
  intro n hn
  rw [holds_compoundProbe, holds_compoundProbe]
  exact allM_congr fun s _ => holdsSimple_unindexed hctx s forgive hn

end Simples

end Context

end Query

end DomQuery
