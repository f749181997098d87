import DomQuery.Proofs.Query.AlikeSearch
import DomQuery.Proofs.Renamed
import DomQuery.Proofs.Selector.Denoted

/-!
# The numbers of lists do not show

What is counted is remembered under the number of the list that filters it. A search
for chains with other numbers is the same search with other keys, so it finds the
same nodes.

* `Context.find_renumber`: the search with other numbers.
* `outcome_congr`: texts whose chains differ in their numbers alone have the same
  outcomes.
-/

namespace DomQuery.Query

open DomQuery.Selector DomQuery.Tree

variable {ν α : Type}

/-- Keys with other numbers. -/
def byNumber (g : Equiv.Perm ListId) : Equiv.Perm (MemoKey ν) where
  toFun key := { key with of := key.of.map g }
  invFun key := { key with of := key.of.map g.symm }
  left_inv key := by simp
  right_inv key := by simp

/-- The probe with other numbers. -/
def Probe.renumber (g : Equiv.Perm ListId) (p : Probe ν) : Probe ν :=
  ⟨p.lookup, fun n => renamed (byNumber g) (p.holds n)⟩

variable {g : Equiv.Perm ListId}

theorem renamed_collectM {β : Type} (f : α → Eval ν (List β)) (xs : List α) :
    renamed (byNumber g) (collectM f xs) = collectM (fun x => renamed (byNumber g) (f x)) xs := by
  induction xs with
  | nil => exact renamed_pure []
  | cons x xs ih => simp only [collectM, renamed_bind, renamed_pure, ih]

theorem lookup?_renumber (k : Compound) : lookup? (k.renumber g) = lookup? k := by
  rcases k with _ | ⟨s, rest⟩
  · rfl
  · cases s <;> rfl

namespace Context

variable [DecidableEq ν] {ctx : Context ν}

/-! ### Chains -/

theorem step_renumber (heading : Heading) (c : Combinator) (p : Probe ν) :
    ctx.step heading c (p.renumber g) = fun n => renamed (byNumber g) (ctx.step heading c p n) :=
  funext fun _ => (renamed_filterM _).symm

theorem leadsBack_renumber (links : List (Link (Probe ν))) :
    ctx.leadsBack (links.map fun link => ⟨link.compound.renumber g, link.combinator⟩) =
      fun n => renamed (byNumber g) (ctx.leadsBack links n) := by
  induction links with
  | nil => exact funext fun n => (renamed_pure true).symm
  | cons link links ih =>
    funext n
    simp only [List.map_cons, leadsBack, renamed_bind, step_renumber, renamed_anyM, ih]

theorem reaches_renumber (steps : List (Combinator × Probe ν)) :
    ctx.reaches (steps.map fun s => (s.1, s.2.renumber g)) =
      fun n => renamed (byNumber g) (ctx.reaches steps n) := by
  induction steps with
  | nil => exact funext fun n => (renamed_pure true).symm
  | cons s steps ih =>
    funext n
    simp only [List.map_cons, reaches, renamed_bind, step_renumber, renamed_anyM, ih]

theorem reach_renumber (steps : List (Combinator × Probe ν)) :
    ctx.reach (steps.map fun s => (s.1, s.2.renumber g)) =
      fun nodes => renamed (byNumber g) (ctx.reach steps nodes) := by
  induction steps with
  | nil => exact funext fun nodes => (renamed_pure nodes).symm
  | cons s steps ih =>
    funext nodes
    simp only [List.map_cons, reach, renamed_bind, renamed_collectM, step_renumber, ih]

theorem reachFrom_renumber (c : Chain (Probe ν)) :
    ctx.reachFrom (c.map (Probe.renumber g)) = fun n => renamed (byNumber g) (ctx.reachFrom c n) := by
  funext n
  rw [reachFrom, forwardSteps_map, reach_renumber, reachFrom]

theorem matchesChain_renumber (c : Chain (Probe ν)) :
    ctx.matchesChain (c.map (Probe.renumber g)) = fun n => renamed (byNumber g) (ctx.matchesChain c n) := by
  have hback : ctx.leadsBack (c.map (Probe.renumber g)).links.reverse =
      fun n => renamed (byNumber g) (ctx.leadsBack c.links.reverse n) := by
    rw [← leadsBack_renumber, List.map_reverse]
    rfl
  funext n
  simp only [matchesChain, renamed_bind, renamed_ite, renamed_pure, hback]
  rfl

section Branches

variable (branches : List (Chain (Probe ν)))

theorem matchesSome_renumber : ctx.matchesSome (branches.map (Chain.map (Probe.renumber g))) =
    fun n => renamed (byNumber g) (ctx.matchesSome branches n) := by
  funext n
  simp only [matchesSome, anyM_map, renamed_anyM, matchesChain_renumber]

theorem hasSome_renumber : ctx.hasSome (branches.map (Chain.map (Probe.renumber g))) =
    fun n => renamed (byNumber g) (ctx.hasSome branches n) := by
  funext n
  simp only [hasSome, anyM_map, renamed_anyM, relativeSteps_map, reaches_renumber]

theorem matchesSomeForgiving_renumber :
    ctx.matchesSomeForgiving (branches.map (Chain.map (Probe.renumber g))) =
      fun n => renamed (byNumber g) (ctx.matchesSomeForgiving branches n) := by
  funext n
  simp only [matchesSomeForgiving, forgiving, anyM_map, renamed_anyM, matchesChain_renumber,
    renamed_tryCatch, renamed_ite, renamed_pure, renamed_throw]

omit [DecidableEq ν] in
theorem holdsSome_renumber : holdsSome (branches.map (Chain.map (Probe.renumber g))) =
    fun n => renamed (byNumber g) (holdsSome branches n) := by
  funext n
  simp only [holdsSome, anyM_map, renamed_anyM]
  rfl

end Branches

/-! ### Simple selectors -/

section Places

omit [DecidableEq ν]

theorem byPlace_renumber (element : ν → Eval ν Bool) (shadowRoot : ν → ν → Eval ν Bool) :
    (fun n => renamed (byNumber g) (ctx.byPlace element shadowRoot n)) =
      ctx.byPlace (fun n => renamed (byNumber g) (element n))
        fun host n => renamed (byNumber g) (shadowRoot host n) := by
  funext n
  unfold byPlace
  split
  · rfl
  · rfl
  · exact renamed_pure false

theorem onElements_renumber (element : ν → Eval ν Bool) :
    (fun n => renamed (byNumber g) (ctx.onElements element n)) =
      ctx.onElements fun n => renamed (byNumber g) (element n) := by
  simp only [onElements, byPlace_renumber, renamed_pure]

theorem onHosts_renumber (host : ν → Eval ν Bool) :
    (fun n => renamed (byNumber g) (ctx.onHosts host n)) =
      ctx.onHosts fun n => renamed (byNumber g) (host n) := by
  simp only [onHosts, byPlace_renumber, renamed_pure]

theorem onBoth_renumber (test : ν → Eval ν Bool) :
    (fun n => renamed (byNumber g) (ctx.onBoth test n)) = ctx.onBoth fun n => renamed (byNumber g) (test n) :=
  byPlace_renumber _ _

theorem complain_renumber (e : QueryError) : renamed (byNumber g) (ctx.complain e) = ctx.complain e := by
  simp only [complain, renamed_ite, renamed_throw, renamed_pure]

theorem holdsType_renumber (forgive : Bool) (s : TypeSelector) (n : ν) :
    renamed (byNumber g) (ctx.holdsType forgive s n) = ctx.holdsType forgive s n := by
  unfold holdsType
  split
  · exact renamed_pure _
  · simp only [renamed_ite, renamed_throw, renamed_pure]

theorem selectChildren_renumber (form : NthForm) (filter : Option (ν → Eval ν Bool)) (parent : ν) :
    ctx.selectChildren form (filter.map fun passes n => renamed (byNumber g) (passes n)) parent =
      renamed (byNumber g) (ctx.selectChildren form filter parent) := by
  cases filter with
  | none => simp only [selectChildren, Option.map_none, renamed_bind, renamed_pure]
  | some passes =>
    simp only [selectChildren, Option.map_some, renamed_bind, renamed_pure, renamed_filterM]

end Places

theorem isNth_renumber (form : NthForm) (of : Option (ListId × (ν → Eval ν Bool))) :
    ctx.isNth form (of.map fun numbered => (g numbered.1, fun n => renamed (byNumber g) (numbered.2 n))) =
      fun n => renamed (byNumber g) (ctx.isNth form of n) := by
  funext n
  unfold isNth
  cases ctx.tree.parent n with
  | none => cases of <;> simp only [Option.map_none, Option.map_some, renamed_bind, renamed_pure]
  | some parent =>
    have hselect : ctx.selectChildren form
        ((of.map Prod.snd).map fun passes n => renamed (byNumber g) (passes n)) parent =
          renamed (byNumber g) (ctx.selectChildren form (of.map Prod.snd) parent) :=
      selectChildren_renumber form _ parent
    simp only [renamed_bind, renamed_pure, renamed_remembered, ← hselect]
    cases of <;> rfl

theorem holdsKeyword_renumber (k : Keyword) (n : ν) :
    renamed (byNumber g) (ctx.holdsKeyword k n) = ctx.holdsKeyword k n := by
  have hnth : ∀ form, renamed (byNumber g) (ctx.isNth form none n) = ctx.isNth form none n :=
    fun form => (congrFun (isNth_renumber form none) n).symm
  have honly : ∀ ofType, renamed (byNumber g) (ctx.isOnly ofType n) = ctx.isOnly ofType n := fun ofType => by
    simp only [isOnly, renamed_bind, renamed_ite, renamed_pure, hnth]
  cases k
  case onlyChild => exact honly false
  case onlyOfType => exact honly true
  all_goals exact renamed_pure _

/-- A simple selector with other numbers is tested with other keys. -/
def TestsRenumbered (ctx : Context ν) (g : Equiv.Perm ListId) (forgive : Bool) (s : Simple) : Prop :=
  ctx.holdsSimple forgive (s.renumber g) = fun n => renamed (byNumber g) (ctx.holdsSimple forgive s n)

theorem compoundProbe_renumber_of {forgive : Bool} {k : Compound}
    (h : ∀ s ∈ k, ctx.TestsRenumbered g forgive s) :
    ctx.compoundProbe forgive (k.renumber g) = (ctx.compoundProbe forgive k).renumber g := by
  rw [compoundProbe, compoundProbe, Probe.renumber, lookup?_renumber]
  congr 1
  funext n
  simp only [allHold, renamed_allM]
  rw [Compound.renumber, allM_map, allM_map, allM_map]
  induction k with
  | nil => rfl
  | cons s rest ih =>
    obtain ⟨hs, hrest⟩ := List.forall_mem_cons.mp h
    rw [List.allM, List.allM, ih hrest, congrFun hs n]

theorem probes_renumber {forgive : Bool} {branches : List (Chain Compound)}
    (h : Each (ctx.TestsRenumbered g forgive) branches) :
    ctx.probes forgive (renumberBranches g branches) =
      (ctx.probes forgive branches).map (Chain.map (Probe.renumber g)) := by
  rw [probes_eq, probes_eq, renumberBranches, List.map_map, List.map_map]
  refine List.map_congr_left fun c hc => ?_
  rw [Function.comp_apply, Function.comp_apply, Chain.map_map, Chain.map_map]
  exact Chain.map_congr fun k hk => compoundProbe_renumber_of (h c hc k hk)

theorem testsRenumbered (forgive : Bool) (s : Simple) : ctx.TestsRenumbered g forgive s := by
  induction s using Simple.induct generalizing forgive with
  | h s ih =>
    have hprobes : ∀ branches, s.branches = branches → ∀ forgive,
        ctx.probes forgive (renumberBranches g branches) =
          (ctx.probes forgive branches).map (Chain.map (Probe.renumber g)) := by
      rintro _ rfl forgive
      exact probes_renumber fun c hc k hk s' hs' => ih c hc k hk s' hs' forgive
    unfold TestsRenumbered
    cases s with
    | matchesAny branches =>
      simp only [Simple.renumber, Simple.renumberChains_eq, holdsSimple, onBoth_renumber,
        hprobes branches rfl, matchesSomeForgiving_renumber]
    | matchesNone branches =>
      simp only [Simple.renumber, Simple.renumberChains_eq, holdsSimple, onBoth_renumber,
        hprobes branches rfl, matchesSome_renumber, renamed_bind, renamed_pure]
    | has branches =>
      simp only [Simple.renumber, Simple.renumberChains_eq, holdsSimple, onElements_renumber,
        hprobes branches rfl, hasSome_renumber]
    | nth form of =>
      rcases of with _ | ⟨number, branches⟩
      · simp only [Simple.renumber, Simple.renumberFilter, holdsSimple, siblingFilter,
          onElements_renumber, ← isNth_renumber, Option.map_none]
      · simp only [Simple.renumber_nth, holdsSimple, siblingFilter, numberedTest,
          onElements_renumber, hprobes branches rfl, matchesSome_renumber, ← isNth_renumber,
          Option.map_some]
    | host compounds =>
      rcases compounds with _ | branches
      · simp only [Simple.renumber, Simple.renumberChains?, holdsSimple, probes?, onHosts_renumber,
          renamed_pure]
      · simp only [Simple.renumber, Simple.renumberChains?, Simple.renumberChains_eq, holdsSimple,
          probes?, onHosts_renumber, hprobes branches rfl, holdsSome_renumber]
    | hostContext branches =>
      simp only [Simple.renumber, Simple.renumberChains_eq, holdsSimple, onHosts_renumber,
        renamed_anyM, hprobes branches rfl, holdsSome_renumber]
    | type t => simp only [Simple.renumber, holdsSimple, onElements_renumber, holdsType_renumber]
    | keyword k => simp only [Simple.renumber, holdsSimple, onElements_renumber, holdsKeyword_renumber]
    | never => simp only [Simple.renumber, holdsSimple, renamed_pure]
    | pseudoElement name | unsupported name =>
      simp only [Simple.renumber, holdsSimple, onElements_renumber, complain_renumber]
    | _ => simp only [Simple.renumber, holdsSimple, onElements_renumber, renamed_pure]

theorem compoundProbe_renumber (forgive : Bool) (k : Compound) :
    ctx.compoundProbe forgive (k.renumber g) = (ctx.compoundProbe forgive k).renumber g :=
  compoundProbe_renumber_of fun s _ => testsRenumbered forgive s

theorem chain_renumber (c : Chain Compound) :
    (c.map (Compound.renumber g)).map (ctx.compoundProbe false) =
      (c.map (ctx.compoundProbe false)).map (Probe.renumber g) := by
  rw [Chain.map_map, Chain.map_map]
  exact Chain.map_congr fun k _ => compoundProbe_renumber false k

end Context

/-! ### Plans -/

/-- The entry with other numbers. -/
def Entry.renumber (g : Equiv.Perm ListId) (e : Entry ν) : Entry ν :=
  { e with chain := e.chain.map (Probe.renumber g) }

theorem Entry.probe_renumber (e : Entry ν) : (e.renumber g).probe = e.probe.renumber g := by
  obtain ⟨chain, heading, scope, candidates⟩ := e
  cases heading with
  | backward => rfl
  | forward => exact Chain.map_first _ _

theorem Entry.accepts_renumber (e : Entry ν) :
    (e.renumber g).accepts = fun n => renamed (byNumber g) (e.accepts n) := by
  funext n
  unfold Entry.accepts
  rw [show (e.renumber g).candidates = e.candidates from rfl, Entry.probe_renumber]
  split
  · exact (renamed_pure true).symm
  · rfl

/-- Where a chain is entered does not depend on numbers. -/
theorem entryHeading_renumber (target : Target) (c : Chain Compound) :
    entryHeading target (c.map (Compound.renumber g)) = entryHeading target c := by
  have hselective : ∀ k : Compound, isSelective (k.renumber g) = isSelective k := by
    rintro (_ | ⟨s, rest⟩)
    · rfl
    · cases s <;> rfl
  have hdirection : ∀ k : Compound, asksDirection (k.renumber g) = asksDirection k := by
    intro k
    rw [asksDirection, Compound.renumber, List.any_map]
    congr 1
    funext s
    cases s <;> rfl
  have hcompounds : (c.map (Compound.renumber g)).compounds.any asksDirection =
      c.compounds.any asksDirection := by
    rw [show (c.map (Compound.renumber g)).compounds = c.compounds.map (Compound.renumber g) by
      simp [Chain.compounds, Chain.map], List.any_map]
    exact congrArg (c.compounds.any) (funext hdirection)
  have hcombinators : (c.map (Compound.renumber g)).combinators = c.combinators := by
    simp [Chain.combinators, Chain.map]
  have hlast : (c.map (Compound.renumber g)).last = c.last.renumber g := rfl
  unfold entryHeading
  rw [hcompounds, hcombinators, Chain.map_first, hlast, hselective, hselective]
  obtain ⟨leading, _ | ⟨link, _ | ⟨link', links⟩⟩, last⟩ := c <;> rfl

namespace Context

variable [DecidableEq ν] {ctx : Context ν}

theorem indexed?_renumber (scope : ν) (k : Compound) :
    ctx.indexed? scope (k.renumber g) = renamed (byNumber g) (ctx.indexed? scope k) := by
  have hlookup : ∀ k : Compound,
      (pure ((lookup? (k.renumber g)).bind (ctx.indexedBelow scope)) : Eval ν (Option (List ν))) =
        renamed (byNumber g) (pure ((lookup? k).bind (ctx.indexedBelow scope))) := fun k => by
    rw [lookup?_renumber, renamed_pure]
  rcases k with _ | ⟨s, rest⟩
  · exact hlookup []
  cases s
  case pseudoElement name =>
    simp only [indexed?, Compound.renumber, List.map_cons, Simple.renumber, renamed_bind, discard,
      renamed_pure, Functor.discard]
    congr 1
    exact (congrArg (Functor.map _) (complain_renumber _)).symm.trans (renamed_map _ _).symm
  case id name => exact (renamed_pure _).symm
  all_goals exact hlookup _

theorem candidatesBelow_renumber (heading : Heading) (scope : ν) (k : Compound) (p : Probe ν) :
    ctx.candidatesBelow heading scope (k.renumber g) (p.renumber g) =
      renamed (byNumber g) (ctx.candidatesBelow heading scope k p) := by
  have hlength : (k.renumber g).length = k.length := List.length_map _
  unfold candidatesBelow
  simp only [indexed?_renumber, renamed_bind, hlength]
  congr 1
  funext found
  rcases found with _ | nodes
  · exact (renamed_pure _).symm
  · simp only [renamed_bind, renamed_ite, renamed_pure]
    rfl

theorem enter_renumber (target : Target) (c : Chain Compound) :
    ctx.enter target (c.map (Compound.renumber g)) =
      renamed (byNumber g) (Entry.renumber g <$> ctx.enter target c) := by
  have hbelow : target.isBelow = true → ctx.enter target (c.map (Compound.renumber g)) =
      renamed (byNumber g) (Entry.renumber g <$> ctx.enter target c) := by
    intro ht
    have hk : entryCompound (entryHeading target c) (c.map (Compound.renumber g)) =
        (entryCompound (entryHeading target c) c).renumber g := by
      cases entryHeading target c with
      | backward => rfl
      | forward => exact Chain.map_first _ _
    rw [enter_eq ht, enter_eq ht]
    dsimp only
    rw [entryHeading_renumber, hk, chain_renumber, compoundProbe_renumber, candidatesBelow_renumber,
      Functor.map_map, renamed_map]
    rfl
  cases target with
  | itself =>
    simp only [enter, chainProbe_eq, chain_renumber, entryHeading_renumber, renamed_bind,
      renamed_filterM, renamed_ite, renamed_pure, map_bind, map_pure]
    rfl
  | nearest =>
    simp only [enter, chainProbe_eq, chain_renumber, entryHeading_renumber, renamed_bind,
      renamed_filterM, renamed_pure, map_bind, map_pure]
    rfl
  | first | all => exact hbelow rfl

omit [DecidableEq ν] in
theorem sweep_renumber (probes : List (Probe ν)) (nodes : List ν) :
    sweep (probes.map (Probe.renumber g)) nodes = renamed (byNumber g) (sweep probes nodes) := by
  induction nodes with
  | nil =>
    rw [sweep, sweep, renamed_pure, List.map_map]
    rfl
  | cons n rest ih =>
    simp only [sweep, renamed_bind, renamed_pure, renamed_mapM, ih, List.mapM_map]
    rfl

omit [DecidableEq ν] in
theorem settle_renumber (waits : Entry ν → Bool) (h : ∀ e, waits (e.renumber g) = waits e)
    (entries : List (Entry ν)) (found : List (List ν)) :
    settle waits (entries.map (Entry.renumber g)) found =
      (settle waits entries found).map (Entry.renumber g) := by
  induction entries generalizing found with
  | nil => rfl
  | cons e rest ih =>
    rw [List.map_cons, settle, settle, h e, ih, ih]
    split
    · rfl
    · rfl

theorem gatherIn_renumber (target : Target) (scope : ν) (entries : List (Entry ν)) :
    ctx.gatherIn target scope (entries.map (Entry.renumber g)) =
      renamed (byNumber g) (List.map (Entry.renumber g) <$> ctx.gatherIn target scope entries) := by
  have hprobes : (((entries.map (Entry.renumber g)).filter fun e =>
      e.isPending target && e.scope == scope).map Entry.probe) =
        ((entries.filter fun e => e.isPending target && e.scope == scope).map Entry.probe).map
          (Probe.renumber g) := by
    rw [List.filter_map, List.map_map, List.map_map]
    exact List.map_congr_left fun e _ => e.probe_renumber
  have hsettle := settle_renumber (g := g)
    (fun e : Entry ν => e.isPending target && e.scope == scope) (fun _ => rfl) entries
  unfold gatherIn
  simp only [hprobes, sweep_renumber, hsettle, map_bind, map_pure, renamed_bind, renamed_pure]

theorem gather_renumber (target : Target) (entries : List (Entry ν)) :
    ctx.gather target (entries.map (Entry.renumber g)) =
      renamed (byNumber g) (List.map (Entry.renumber g) <$> ctx.gather target entries) := by
  have hscopes : (((entries.map (Entry.renumber g)).filter (Entry.isPending target)).map Entry.scope) =
      ((entries.filter (Entry.isPending target)).map Entry.scope) := by
    rw [List.filter_map, List.map_map]
    rfl
  have hgather : ∀ (scopes : List ν) (entries : List (Entry ν)),
      scopes.foldlM (fun entries scope => ctx.gatherIn target scope entries)
          (entries.map (Entry.renumber g)) =
        renamed (byNumber g) (List.map (Entry.renumber g) <$>
          scopes.foldlM (fun entries scope => ctx.gatherIn target scope entries) entries) := by
    intro scopes
    induction scopes with
    | nil => intro entries; simp only [List.foldlM_nil, map_pure, renamed_pure]
    | cons scope scopes ih =>
      intro entries
      simp only [List.foldlM_cons, gatherIn_renumber, renamed_map, map_bind, renamed_bind,
        bind_map_left, ih]
  unfold gather
  rw [hscopes]
  exact hgather _ entries

theorem plan_renumber (target : Target) (branches : List (Chain Compound)) :
    ctx.plan target (renumberBranches g branches) =
      renamed (byNumber g) (List.map (Entry.renumber g) <$> ctx.plan target branches) := by
  have henter : (renumberBranches g branches).mapM (ctx.enter target) =
      renamed (byNumber g) (List.map (Entry.renumber g) <$> branches.mapM (ctx.enter target)) := by
    rw [renumberBranches, List.mapM_map]
    rw [renamed_map, renamed_mapM]
    induction branches with
    | nil => simp
    | cons c rest ih =>
      simp only [List.mapM_cons, ih, Function.comp_apply, enter_renumber, renamed_map, bind_map_left,
        map_bind, map_pure, List.map_cons]
  unfold plan
  rw [henter]
  simp only [renamed_map, renamed_bind, bind_map_left, gather_renumber, map_bind]

/-! ### Searches -/

section Entry

variable (e : Entry ν)

theorem entryNodes_renumber : ctx.entryNodes (e.renumber g) = ctx.entryNodes e :=
  rfl

theorem endsAt_renumber (target : Target) :
    ctx.endsAt target (e.renumber g) = fun n => renamed (byNumber g) (ctx.endsAt target e n) := by
  have hback : ctx.leadsBack (e.renumber g).chain.links.reverse =
      fun n => renamed (byNumber g) (ctx.leadsBack e.chain.links.reverse n) := by
    rw [← leadsBack_renumber, List.map_reverse]
    rfl
  funext n
  simp only [endsAt, Entry.accepts_renumber, hback, renamed_bind, renamed_ite, renamed_pure]

theorem findBackward_renumber (target : Target) :
    ctx.findBackward target (e.renumber g) = renamed (byNumber g) (ctx.findBackward target e) := by
  unfold findBackward
  rw [entryNodes_renumber, endsAt_renumber]
  split
  · simp only [renamed_bind, renamed_pure, renamed_findM?]
  · rw [renamed_filterM]

theorem followFrom_renumber (target : Target) :
    ctx.followFrom target (e.renumber g) =
      fun n => renamed (byNumber g) (ctx.followFrom target e n) := by
  have hreach : ctx.reachFrom (e.renumber g).chain =
      fun n => renamed (byNumber g) (ctx.reachFrom e.chain n) := reachFrom_renumber e.chain
  funext n
  simp only [followFrom, Entry.accepts_renumber, hreach, renamed_bind, renamed_ite, renamed_pure]

theorem firstForward_renumber (nodes : List ν) (best : Option ν) :
    ctx.firstForward (e.renumber g) nodes best =
      renamed (byNumber g) (ctx.firstForward e nodes best) := by
  induction nodes generalizing best with
  | nil => exact (renamed_pure best).symm
  | cons n rest ih =>
    simp only [firstForward, followFrom_renumber, renamed_bind, renamed_ite, renamed_pure, ih]

theorem findForward_renumber (target : Target) :
    ctx.findForward target (e.renumber g) = renamed (byNumber g) (ctx.findForward target e) := by
  unfold findForward
  rw [entryNodes_renumber]
  split
  · simp only [renamed_bind, renamed_pure, firstForward_renumber]
  · rw [renamed_collectM, followFrom_renumber]

theorem findFrom_renumber (target : Target) :
    ctx.findFrom target (e.renumber g) = renamed (byNumber g) (ctx.findFrom target e) := by
  unfold findFrom
  rw [show (e.renumber g).heading = e.heading from rfl]
  split
  · exact findBackward_renumber e target
  · exact findForward_renumber e target

end Entry

/-- A search for chains with other numbers is the same search with other keys. -/
theorem find_renumber (target : Target) (branches : List (Chain Compound)) :
    ctx.find target (renumberBranches g branches) =
      renamed (byNumber g) (ctx.find target branches) := by
  have hcollect : ∀ entries : List (Entry ν),
      collectM (ctx.findFrom target) (entries.map (Entry.renumber g)) =
        renamed (byNumber g) (collectM (ctx.findFrom target) entries) := by
    intro entries
    rw [renamed_collectM]
    induction entries with
    | nil => rfl
    | cons e rest ih => simp only [List.map_cons, collectM, findFrom_renumber, ih]
  unfold find
  simp only [plan_renumber, renamed_map, renamed_bind, renamed_pure, bind_map_left, hcollect]

end Context

/-! ### Questions -/

variable [DecidableEq ν]

namespace Matcher

/-- Questions are answered alike, whatever the numbers are. -/
theorem fresh_ask_renumber (context : Context ν) (text text' : String)
    (branches : List (Chain Compound)) (call : Call) :
    fresh (ask ⟨context, text', renumberBranches g branches⟩ call) =
      fresh (ask ⟨context, text, branches⟩ call) := by
  refine fresh_ask_congr ⟨context, text, branches⟩ ⟨context, text', _⟩ rfl ?_ ?_
  · cases call <;> rfl
  · rw [fresh_find, fresh_find, Context.find_renumber, fresh_renamed]

end Matcher

/-- Texts whose chains differ in their numbers alone have the same outcomes. -/
theorem outcome_congr {text text' : String}
    (h : ∃ g : Equiv.Perm ListId, chainsOf text' = renumberBranches g <$> chainsOf text)
    (tree : View ν) (node : ν) (warn : Bool) (call : Call) :
    outcome tree text' node warn call = outcome tree text node warn call := by
  obtain ⟨g, hg⟩ := h
  rw [outcome_eq, outcome_eq, hg]
  rcases Context.of tree node warn with e | context
  · rfl
  rcases chainsOf text with e | branches
  · rfl
  · exact Matcher.fresh_ask_renumber context text text' branches call

end DomQuery.Query
