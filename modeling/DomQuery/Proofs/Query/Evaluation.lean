import DomQuery.Proofs.Query.Steady
import DomQuery.Proofs.Selector.Resolved

/-!
# Testing nodes

Whether a node satisfies a selector does not depend on what was tested before.
The argument follows the nesting of selectors, from the chains in an argument
to the selector around it; what is remembered of a child-indexed pseudo-class
goes back to the number of its list.

* `steady_holdsSimple`: the test of a simple selector is steady.
* `holdsSimple_withNode`: it is the same for all context nodes that share their
  surroundings, unless `:scope` occurs.
* `candidate_of_yes`: only elements and the shadow root satisfy anything.
-/

namespace DomQuery.Query

open DomQuery.Selector DomQuery.Text DomQuery.Tree Matcher

variable {ν : Type} [DecidableEq ν]

/-! ### Prefixes -/

section Prefixes

omit [DecidableEq ν]

/-- The prefix that `q` is taken for at a node. -/
def prefixAt (t : Links ν) (n : ν) (q : String) : String :=
  if t.isHtmlElement n then lower q else q

/-- The error tells of a prefix that is not declared at a node, where it is written
as `q`. -/
def Undeclared (t : Links ν) (q : String) (e : QueryError) : Prop :=
  ∃ n, e = .undefinedPrefix (prefixAt t n q) ∧ t.lookupNamespace n (prefixAt t n q) = none

/-- A type selector fails at its prefix only. -/
theorem selectsType?_error {t : Links ν} {s : TypeSelector} {n : ν} {e : QueryError}
    (h : selectsType? t s n = .error e) : ∃ q, s.qualifier = some (.named q) ∧ Undeclared t q e := by
  obtain ⟨qualifier, name⟩ := s
  unfold selectsType? at h
  split at h
  rcases qualifier with _ | _ | _ | q
  case some.named =>
    dsimp only at h
    split at h
    · rename_i hnone
      exact ⟨q, rfl, n, (Except.error.inj h).symm, hnone⟩
    · cases h
  all_goals cases h

end Prefixes

/-! ### Chains of probes -/

section Chains

variable {counts : MemoKey ν → Except QueryError (List ν)} {E : QueryError → Prop}
variable (ctx : Context ν)

/-- The test of a compound is steady wherever it is made. -/
def Probe.Steady (counts : MemoKey ν → Except QueryError (List ν)) (E : QueryError → Prop)
    (probe : Probe ν) : Prop :=
  ∀ n, DomQuery.Steady counts E (probe.holds n)

namespace Context

variable {ctx}

theorem steady_step {probe : Probe ν} (h : probe.Steady counts E) (heading : Heading)
    (c : Combinator) (n : ν) : Steady counts E (ctx.step heading c probe n) :=
  .filterM fun m _ => h m

theorem steady_leadsBack {links : List (Link (Probe ν))}
    (h : ∀ link ∈ links, link.compound.Steady counts E) (n : ν) :
    Steady counts E (ctx.leadsBack links n) := by
  induction links generalizing n with
  | nil => exact .pure true
  | cons link links ih =>
    refine (steady_step (h link (by simp)) _ _ n).bind fun found _ => .anyM fun m _ => ?_
    exact ih (fun link hl => h link (by simp [hl])) m

theorem steady_reach {steps : List (Combinator × Probe ν)}
    (h : ∀ s ∈ steps, s.2.Steady counts E) (nodes : List ν) :
    Steady counts E (ctx.reach steps nodes) := by
  induction steps generalizing nodes with
  | nil => exact .pure nodes
  | cons s steps ih =>
    refine (Steady.collectM fun m _ => steady_step (h s (by simp)) _ _ m).bind fun found _ => ?_
    exact ih (fun s hs => h s (by simp [hs])) _

theorem steady_reaches {steps : List (Combinator × Probe ν)}
    (h : ∀ s ∈ steps, s.2.Steady counts E) (n : ν) : Steady counts E (ctx.reaches steps n) := by
  induction steps generalizing n with
  | nil => exact .pure true
  | cons s steps ih =>
    refine (steady_step (h s (by simp)) _ _ n).bind fun found _ => .anyM fun m _ => ?_
    exact ih (fun s hs => h s (by simp [hs])) m

theorem mem_forwardSteps {κ : Type} {c : Chain κ} {s : Combinator × κ}
    (h : s ∈ forwardSteps c) : s.2 ∈ c.compounds :=
  List.mem_of_mem_tail (List.of_mem_zip h).2

theorem mem_relativeSteps {κ : Type} {c : Chain κ} {s : Combinator × κ}
    (h : s ∈ relativeSteps c) : s.2 ∈ c.compounds := by
  rcases List.mem_cons.mp h with rfl | h
  · exact c.first_mem_compounds
  · exact mem_forwardSteps h

omit [DecidableEq ν] in
theorem forwardSteps_map {κ : Type} (f : κ → Probe ν) (c : Chain κ) :
    forwardSteps (c.map f) = (forwardSteps c).map fun s => (s.1, f s.2) := by
  have hk : (c.map f).compounds = c.compounds.map f := by
    simp [Chain.compounds, Chain.map]
  have hc : (c.map f).combinators = c.combinators := by
    simp [Chain.combinators, Chain.map]
  rw [forwardSteps, forwardSteps, hk, hc, ← List.map_tail, List.zip_map_right]
  rfl

omit [DecidableEq ν] in
theorem relativeSteps_map {κ : Type} (f : κ → Probe ν) (c : Chain κ) :
    relativeSteps (c.map f) = (relativeSteps c).map fun s => (s.1, f s.2) := by
  rw [relativeSteps, relativeSteps, forwardSteps_map, Chain.map_first, List.map_cons]
  rfl

theorem steady_matchesChain {c : Chain (Probe ν)} (h : ∀ k ∈ c.compounds, k.Steady counts E)
    (n : ν) : Steady counts E (ctx.matchesChain c n) := by
  refine (h c.last c.last_mem_compounds n).bind fun b _ => ?_
  cases b with
  | true =>
    exact steady_leadsBack (fun link hl => h _ (c.compound_mem_compounds (by simpa using hl))) n
  | false => exact .pure false

theorem steady_matchesSome {branches : List (Chain (Probe ν))}
    (h : ∀ c ∈ branches, ∀ k ∈ c.compounds, k.Steady counts E) (n : ν) :
    Steady counts E (ctx.matchesSome branches n) :=
  .anyM fun c hc => steady_matchesChain (h c hc) n

theorem steady_hasSome {branches : List (Chain (Probe ν))}
    (h : ∀ c ∈ branches, ∀ k ∈ c.compounds, k.Steady counts E) (n : ν) :
    Steady counts E (ctx.hasSome branches n) :=
  .anyM fun c hc => steady_reaches (fun _ hs => h c hc _ (mem_relativeSteps hs)) n

omit [DecidableEq ν] in
theorem steady_forgiving {test : Eval ν Bool} (h : Steady counts E test) :
    Steady counts E (forgiving test) := by
  refine h.tryCatch fun e he => ?_
  split
  · exact .pure false
  · exact .throw he

theorem steady_matchesSomeForgiving {branches : List (Chain (Probe ν))}
    (h : ∀ c ∈ branches, ∀ k ∈ c.compounds, k.Steady counts E) (n : ν) :
    Steady counts E (ctx.matchesSomeForgiving branches n) :=
  .anyM fun c hc => steady_forgiving (steady_matchesChain (h c hc) n)

omit [DecidableEq ν] in
theorem steady_holdsSome {branches : List (Chain (Probe ν))}
    (h : ∀ c ∈ branches, ∀ k ∈ c.compounds, k.Steady counts E) (n : ν) :
    Steady counts E (holdsSome branches n) :=
  .anyM fun c hc => h c hc c.last c.last_mem_compounds n

omit [DecidableEq ν] in
theorem steady_byPlace {element : ν → Eval ν Bool} {shadowRoot : ν → ν → Eval ν Bool}
    (he : ∀ n, Steady counts E (element n)) (hs : ∀ h n, Steady counts E (shadowRoot h n)) (n : ν) :
    Steady counts E (ctx.byPlace element shadowRoot n) := by
  unfold byPlace
  split
  · exact he n
  · exact hs _ n
  · exact .pure false

omit [DecidableEq ν] in
theorem steady_onElements {element : ν → Eval ν Bool} (h : ∀ n, Steady counts E (element n))
    (n : ν) : Steady counts E (ctx.onElements element n) :=
  steady_byPlace h (fun _ _ => .pure false) n

omit [DecidableEq ν] in
theorem steady_onHosts {host : ν → Eval ν Bool} (h : ∀ n, Steady counts E (host n)) (n : ν) :
    Steady counts E (ctx.onHosts host n) :=
  steady_byPlace (fun _ => .pure false) (fun host _ => h host) n

omit [DecidableEq ν] in
theorem steady_onBoth {test : ν → Eval ν Bool} (h : ∀ n, Steady counts E (test n)) (n : ν) :
    Steady counts E (ctx.onBoth test n) :=
  steady_byPlace h (fun _ n => h n) n

omit [DecidableEq ν] in
theorem steady_selectChildren {form : NthForm} {filter : Option (ν → Eval ν Bool)} (parent : ν)
    (h : ∀ passes ∈ filter, ∀ n, Steady counts E (passes n)) :
    Steady counts E (ctx.selectChildren form filter parent) := by
  unfold selectChildren
  split
  · rename_i passes
    exact (Steady.filterM fun m _ => h passes rfl m).bind fun _ _ => .pure _
  · exact (Steady.pure _).bind fun _ _ => .pure _

theorem steady_isNth {form : NthForm} {of : Option (ListId × (ν → Eval ν Bool))}
    (h : ∀ passes ∈ of.map Prod.snd, ∀ n, Steady counts E (passes n))
    (hc : ∀ parent, counts ⟨form, of.map Prod.fst, parent⟩ =
      fresh (ctx.selectChildren form (of.map Prod.snd) parent)) (n : ν) :
    Steady counts E (ctx.isNth form of n) := by
  unfold isNth
  split
  · split
    · exact (h _ (by simp) n).bind fun _ _ => .pure _
    · exact (Steady.pure true).bind fun _ _ => .pure _
  · exact (Steady.remembered (steady_selectChildren _ h) (hc _)).bind fun _ _ => .pure _

end Context

end Chains

/-! ### Compounds as probes -/

section Probes

variable (ctx : Context ν)

namespace Context

/-- The probe of a compound. -/
def compoundProbe (forgive : Bool) (compound : Compound) : Probe ν :=
  ⟨lookup? compound, allHold (compound.map (ctx.holdsSimple forgive))⟩

variable {ctx}

theorem holds_compoundProbe (forgive : Bool) (k : Compound) (n : ν) :
    (ctx.compoundProbe forgive k).holds n = k.allM fun s => ctx.holdsSimple forgive s n :=
  allM_map _ _ _

theorem compoundTests_eq (forgive : Bool) (compound : Compound) :
    ctx.compoundTests forgive compound = compound.map (ctx.holdsSimple forgive) := by
  induction compound with
  | nil => rw [compoundTests, List.map_nil]
  | cons s rest ih => rw [compoundTests, List.map_cons, ih]

theorem linkProbes_eq (forgive : Bool) (links : List (Link Compound)) :
    ctx.linkProbes forgive links =
      links.map fun link => ⟨ctx.compoundProbe forgive link.compound, link.combinator⟩ := by
  induction links with
  | nil => rw [linkProbes, List.map_nil]
  | cons link rest ih =>
    obtain ⟨compound, combinator⟩ := link
    rw [linkProbes, List.map_cons, ih, linkProbe, compoundTests_eq]
    rfl

theorem chainProbe_eq (forgive : Bool) (c : Chain Compound) :
    ctx.chainProbe forgive c = c.map (ctx.compoundProbe forgive) := by
  obtain ⟨leading, links, last⟩ := c
  rw [chainProbe, linkProbes_eq, compoundTests_eq]
  rfl

theorem probes_eq (forgive : Bool) (branches : List (Chain Compound)) :
    ctx.probes forgive branches = branches.map fun c => c.map (ctx.compoundProbe forgive) := by
  induction branches with
  | nil => rw [probes, List.map_nil]
  | cons c rest ih => rw [probes, List.map_cons, ih, chainProbe_eq]

/-- What each simple selector in the chains has, the compounds of their probes
have. -/
theorem forall_probes {P : Probe ν → Prop} {forgive : Bool} {branches : List (Chain Compound)}
    (h : ∀ c ∈ branches, ∀ k ∈ c.compounds, P (ctx.compoundProbe forgive k)) :
    ∀ c ∈ ctx.probes forgive branches, ∀ probe ∈ c.compounds, P probe := by
  rw [probes_eq]
  intro _ hmem probe hp
  obtain ⟨c, hc, rfl⟩ := List.mem_map.mp hmem
  obtain ⟨k, hk, rfl⟩ := Chain.mem_compounds_map.mp hp
  exact h c hc k hk

end Context

end Probes

/-! ### Steadiness -/

section Steady

variable (ctx : Context ν)

namespace Context

/-- The ways in which a test may fail: a prefix is not declared, or the matcher
was asked to warn and came across what is not evaluated. -/
def MayFail (e : QueryError) : Prop :=
  (∃ p, e = .undefinedPrefix p) ∨ ctx.warn = true ∧ e.fault = .unsupported

/-- The children that a child-indexed pseudo-class selects, when `meaning` gives
the chains of a list by its number. -/
def counts (meaning : ListId → List (Chain Compound)) (key : MemoKey ν) :
    Except QueryError (List ν) :=
  fresh (ctx.selectChildren key.form
    (key.of.map fun id => ctx.matchesSome (ctx.probes false (meaning id))) key.parent)

variable {ctx} {meaning : ListId → List (Chain Compound)}

theorem steady_compoundProbe {forgive : Bool} {compound : Compound}
    {counts : MemoKey ν → Except QueryError (List ν)} {E : QueryError → Prop}
    (h : ∀ s ∈ compound, ∀ n, Steady counts E (ctx.holdsSimple forgive s n)) :
    (ctx.compoundProbe forgive compound).Steady counts E :=
  fun n => .allM fun test ht => by
    obtain ⟨s, hs, rfl⟩ := List.mem_map.mp ht
    exact h s hs n

omit [DecidableEq ν] in
theorem steady_complain {e : QueryError} (h : e.fault = .unsupported)
    {counts : MemoKey ν → Except QueryError (List ν)} :
    Steady counts ctx.MayFail (ctx.complain e) := by
  unfold complain
  split
  · rename_i hw
    exact .throw (.inr ⟨hw, h⟩)
  · exact .pure false

omit [DecidableEq ν] in
theorem steady_holdsType {counts : MemoKey ν → Except QueryError (List ν)} (forgive : Bool)
    (s : TypeSelector) (n : ν) :
    Steady counts ctx.MayFail (ctx.holdsType forgive s n) := by
  unfold holdsType
  split
  · exact .pure _
  · rename_i e he
    split
    · exact .pure false
    · obtain ⟨q, -, n, rfl, -⟩ := selectsType?_error he
      exact .throw (.inl ⟨_, rfl⟩)

theorem steady_holdsKeyword (k : Keyword) (n : ν) :
    Steady (ctx.counts meaning) ctx.MayFail (ctx.holdsKeyword k n) := by
  have hnth : ∀ form, Steady (ctx.counts meaning) ctx.MayFail (ctx.isNth form none n) :=
    fun form => steady_isNth (by simp) (fun _ => rfl) n
  have honly : ∀ ofType, Steady (ctx.counts meaning) ctx.MayFail (ctx.isOnly ofType n) := by
    intro ofType
    refine (hnth _).bind fun b _ => ?_
    cases b with
    | true => exact hnth _
    | false => exact .pure false
  cases k
  case onlyChild => exact honly false
  case onlyOfType => exact honly true
  all_goals exact .pure _

section Filter

variable {form : NthForm} {of : Option (ListId × List (Chain Compound))}

/-- What is remembered under the number of the list that filters siblings are the
children that are selected with it. -/
theorem counts_siblingFilter (hself : (Simple.nth form of).Numbered meaning) (parent : ν) :
    ctx.counts meaning ⟨form, (ctx.siblingFilter of).map Prod.fst, parent⟩ =
      fresh (ctx.selectChildren form ((ctx.siblingFilter of).map Prod.snd) parent) := by
  rcases of with _ | ⟨id, branches⟩
  · rfl
  · rw [← hself form id branches rfl]
    rfl

theorem steady_siblingFilter {counts : MemoKey ν → Except QueryError (List ν)}
    {E : QueryError → Prop}
    (h : ∀ c ∈ ctx.probes false (Simple.nth form of).branches, ∀ probe ∈ c.compounds,
      probe.Steady counts E) :
    ∀ passes ∈ (ctx.siblingFilter of).map Prod.snd, ∀ n, Steady counts E (passes n) := by
  rcases of with _ | ⟨id, branches⟩
  · simp [siblingFilter]
  · intro passes hp n
    obtain rfl : ctx.matchesSome (ctx.probes false branches) = passes := by
      simpa [siblingFilter, numberedTest] using hp
    exact steady_matchesSome h n

end Filter

/-- The test of a simple selector is steady. -/
theorem steady_holdsSimple (s : Simple) (hs : s.All (Simple.Numbered meaning)) (forgive : Bool)
    (n : ν) : Steady (ctx.counts meaning) ctx.MayFail (ctx.holdsSimple forgive s n) := by
  induction s using Simple.induct generalizing forgive n with
  | h s ih =>
    have hprobes : ∀ forgive, ∀ c ∈ ctx.probes forgive s.branches, ∀ probe ∈ c.compounds,
        probe.Steady (ctx.counts meaning) ctx.MayFail := fun forgive =>
      forall_probes fun c hc k hk => steady_compoundProbe fun s' hs' n =>
        ih c hc k hk s' hs' (hs.nested c hc k hk s' hs') forgive n
    cases s with
    | pseudoElement name => exact steady_onElements (fun _ => steady_complain rfl) n
    | id name => exact steady_onElements (fun _ => .pure _) n
    | className name => exact steady_onElements (fun _ => .pure _) n
    | type s => exact steady_onElements (steady_holdsType forgive s) n
    | attr test => exact steady_onElements (fun _ => .pure _) n
    | matchesAny branches => exact steady_onBoth (steady_matchesSomeForgiving (hprobes true)) n
    | matchesNone branches =>
      refine steady_onBoth (fun n => ?_) n
      exact (steady_matchesSome (hprobes false) n).bind fun _ _ => .pure _
    | has branches => exact steady_onElements (steady_hasSome (hprobes forgive)) n
    | nth form of =>
      exact steady_onElements (steady_isNth (steady_siblingFilter (hprobes false))
        (counts_siblingFilter hs.self)) n
    | lang ranges => exact steady_onElements (fun _ => .pure _) n
    | dir direction => exact steady_onElements (fun _ => .pure _) n
    | host compounds =>
      rcases compounds with _ | branches
      · exact steady_onHosts (fun _ => .pure _) n
      · exact steady_onHosts (steady_holdsSome (hprobes forgive)) n
    | hostContext compounds =>
      exact steady_onHosts (fun _ => .anyM fun m _ => steady_holdsSome (hprobes forgive) m) n
    | keyword k => exact steady_onElements (steady_holdsKeyword k) n
    | never => exact .pure false
    | unsupported name => exact steady_onElements (fun _ => steady_complain rfl) n

theorem steady_probes {branches : List (Chain Compound)}
    (h : Each (Simple.All (Simple.Numbered meaning)) branches) (forgive : Bool) :
    ∀ c ∈ ctx.probes forgive branches, ∀ probe ∈ c.compounds,
      probe.Steady (ctx.counts meaning) ctx.MayFail :=
  forall_probes fun c hc k hk => steady_compoundProbe fun s hs n =>
    steady_holdsSimple s (h c hc k hk s hs) forgive n

/-- So is the test for a position, when it is not part of a selector. -/
theorem steady_nth {form : NthForm} {of : Option (ListId × List (Chain Compound))}
    (hs : (Simple.nth form of).All (Simple.Numbered meaning)) (n : ν) :
    Steady (ctx.counts meaning) ctx.MayFail (ctx.isNth form (ctx.siblingFilter of) n) :=
  steady_isNth (steady_siblingFilter (steady_probes hs.nested false))
    (counts_siblingFilter hs.self) n

end Context

end Steady

/-! ### The context node -/

section Node

variable (ctx : Context ν)

namespace Context

/-- The same surroundings around another node. -/
def withNode (node : ν) : Context ν :=
  { ctx with node }

variable {ctx} {node : ν}

theorem leadsBack_withNode (links : List (Link (Probe ν))) :
    (ctx.withNode node).leadsBack links = ctx.leadsBack links := by
  induction links with
  | nil => rfl
  | cons link links ih =>
    funext n
    rw [leadsBack, leadsBack, ih]
    rfl

theorem reaches_withNode (steps : List (Combinator × Probe ν)) :
    (ctx.withNode node).reaches steps = ctx.reaches steps := by
  induction steps with
  | nil => rfl
  | cons s steps ih =>
    funext n
    rw [reaches, reaches, ih]
    rfl

theorem matchesChain_withNode (c : Chain (Probe ν)) :
    (ctx.withNode node).matchesChain c = ctx.matchesChain c := by
  funext n
  rw [matchesChain, matchesChain, leadsBack_withNode]

theorem matchesSome_withNode (branches : List (Chain (Probe ν))) :
    (ctx.withNode node).matchesSome branches = ctx.matchesSome branches := by
  funext n
  simp only [matchesSome, matchesChain_withNode]

theorem matchesSomeForgiving_withNode (branches : List (Chain (Probe ν))) :
    (ctx.withNode node).matchesSomeForgiving branches = ctx.matchesSomeForgiving branches := by
  funext n
  simp only [matchesSomeForgiving, matchesChain_withNode]

theorem hasSome_withNode (branches : List (Chain (Probe ν))) :
    (ctx.withNode node).hasSome branches = ctx.hasSome branches := by
  funext n
  simp only [hasSome, reaches_withNode]

theorem holdsKeyword_withNode {k : Keyword} (hk : k ≠ .scope) :
    (ctx.withNode node).holdsKeyword k = ctx.holdsKeyword k := by
  cases k
  case scope => exact absurd rfl hk
  all_goals rfl

/-- Only `:scope` asks for the context node. -/
theorem holdsSimple_withNode (s : Simple) (hs : s.All (· ≠ .keyword .scope)) (forgive : Bool) :
    (ctx.withNode node).holdsSimple forgive s = ctx.holdsSimple forgive s := by
  induction s using Simple.induct generalizing forgive with
  | h s ih =>
    have hprobes : ∀ branches, s.branches = branches → ∀ forgive,
        (ctx.withNode node).probes forgive branches = ctx.probes forgive branches := by
      rintro _ rfl forgive
      rw [probes_eq, probes_eq]
      refine List.map_congr_left fun c hc => Chain.map_congr fun k hk => ?_
      unfold compoundProbe
      rw [List.map_congr_left fun s' hs' => ih c hc k hk s' hs' (hs.nested c hc k hk s' hs') forgive]
    cases s with
    | matchesAny branches =>
      rw [holdsSimple, holdsSimple, hprobes branches rfl, matchesSomeForgiving_withNode]
      rfl
    | matchesNone branches =>
      rw [holdsSimple, holdsSimple, hprobes branches rfl, matchesSome_withNode]
      rfl
    | has branches =>
      rw [holdsSimple, holdsSimple, hprobes branches rfl, hasSome_withNode]
      rfl
    | nth form of =>
      rcases of with _ | ⟨id, branches⟩
      · rfl
      · rw [holdsSimple, holdsSimple, siblingFilter, siblingFilter, numberedTest, numberedTest,
          hprobes branches rfl, matchesSome_withNode]
        rfl
    | host compounds =>
      rcases compounds with _ | branches
      · rfl
      · rw [holdsSimple, holdsSimple, probes?, probes?, hprobes branches rfl]
        rfl
    | hostContext compounds =>
      rw [holdsSimple, holdsSimple, hprobes compounds rfl]
      rfl
    | keyword k =>
      have hk : k ≠ .scope := fun h => hs.self (h ▸ rfl)
      rw [holdsSimple, holdsSimple, holdsKeyword_withNode hk]
      rfl
    | _ => rfl

end Context

end Node

/-! ### Who can satisfy a compound -/

section Place

variable {ctx : Context ν} {n : ν}

namespace Context

omit [DecidableEq ν] in
theorem place_cases (ctx : Context ν) (n : ν) :
    (ctx.place n = .element ∧ ctx.tree.kind n = .element) ∨
      (∃ host, ctx.place n = .shadowRoot host ∧ ctx.tree.kind n = .fragment ∧ ctx.shadow = true) ∨
      ctx.place n = .elsewhere := by
  unfold place
  cases ctx.tree.kind n
  case element => exact .inl ⟨rfl, rfl⟩
  case fragment =>
    cases hs : ctx.shadow
    · exact .inr (.inr (by simp))
    · cases hh : ctx.tree.shadowHost n with
      | none => exact .inr (.inr (by simp))
      | some host => exact .inr (.inl ⟨host, by simp⟩)
  all_goals exact .inr (.inr rfl)

omit [DecidableEq ν] in
theorem candidate_of_yes_byPlace {element : ν → Eval ν Bool} {shadowRoot : ν → ν → Eval ν Bool}
    (h : Yes (ctx.byPlace element shadowRoot n)) : ctx.isAncestorCandidate n = true := by
  unfold byPlace at h
  unfold isAncestorCandidate
  rcases place_cases ctx n with ⟨hp, hk⟩ | ⟨host, hp, hk, hs⟩ | hp
  · rw [hk]
  · rw [hk]
    exact hs
  · simp [hp, Yes] at h

omit [DecidableEq ν] in
theorem yes_onElements {element : ν → Eval ν Bool} :
    Yes (ctx.onElements element n) ↔ ctx.tree.kind n = .element ∧ Yes (element n) := by
  unfold onElements byPlace
  rcases place_cases ctx n with ⟨hp, hk⟩ | ⟨host, hp, hk, -⟩ | hp
  · simp [hp, hk]
  · simp [hp, hk, Yes]
  · have hk : ctx.tree.kind n ≠ .element := by
      intro hk
      simp [place, hk] at hp
    simp [hp, hk, Yes]

theorem candidate_of_yes_simple {forgive : Bool} {s : Simple}
    (h : Yes (ctx.holdsSimple forgive s n)) : ctx.isAncestorCandidate n = true := by
  cases s with
  | host compounds => rcases compounds with _ | _ <;> exact candidate_of_yes_byPlace h
  | never => simp [holdsSimple, Yes] at h
  | _ => exact candidate_of_yes_byPlace h

/-- A node that is neither an element nor a shadow root satisfies nothing, without any
test being made. -/
theorem holdsSimple_elsewhere (hn : ctx.place n = .elsewhere) (forgive : Bool) (s : Simple) :
    ctx.holdsSimple forgive s n = pure false := by
  have hby : ∀ element shadowRoot, ctx.byPlace element shadowRoot n = pure false := fun _ _ => by
    rw [byPlace, hn]
  cases s with
  | host compounds => rcases compounds with _ | _ <;> rw [holdsSimple] <;> exact hby _ _
  | never => rw [holdsSimple]
  | _ =>
    rw [holdsSimple]
    exact hby _ _

omit [DecidableEq ν] in
theorem yes_of_cons {tests : List (ν → Eval ν Bool)} {test : ν → Eval ν Bool}
    (h : Yes (allHold (test :: tests) n)) : Yes (test n) := by
  rw [Yes, allHold, List.allM, fresh, run_bind] at h
  rw [Yes, fresh]
  rcases hr : (test n).run.run [] with ⟨e | b, memo⟩ <;> rw [hr] at h
  · cases h
  · cases b with
    | true => rfl
    | false => cases h

/-- Only elements, and the shadow root matched within, satisfy a compound. -/
theorem candidate_of_yes {forgive : Bool} {k : Compound} (hk : k ≠ [])
    (h : Yes ((ctx.compoundProbe forgive k).holds n)) : ctx.isAncestorCandidate n = true := by
  obtain ⟨s, rest, rfl⟩ := List.exists_cons_of_ne_nil hk
  exact candidate_of_yes_simple (yes_of_cons h)

end Context

end Place

end DomQuery.Query
