import DomQuery.Proofs.Query.Chain

/-!
# Where a search begins

However a plan finds the nodes where a chain can be entered, in an index or on a
walk, and whether it has tested them or not: they come in document order, they
are of the tree, and no node is missing that satisfies the compound there and
can be of use.

* `Serves` says so of an entry, and `Grounded.serves_plan` of all entries of a
  plan.
-/

namespace DomQuery.Query

open DomQuery.Selector DomQuery.Tree Matcher

variable {ν : Type} [DecidableEq ν]

namespace Context

section Entries

variable (ctx : Context ν)

/-- The compound at the end where a chain is entered. -/
def entryCompound (heading : Heading) (c : Chain Compound) : Compound :=
  match heading with
  | .backward => c.last
  | .forward => c.first

/-- The subtree in which a chain is entered. -/
def entryScope (heading : Heading) : ν :=
  match heading with
  | .backward => ctx.node
  | .forward => ctx.root

/-- The nodes that a search cannot do without: backward, only what is below the
context node can be a result. -/
def MayEnter (heading : Heading) (n : ν) : Prop :=
  match heading with
  | .backward => ctx.tree.Below ctx.node n
  | .forward => ctx.tree.Within ctx.root n

/-- The nodes are enough to enter a chain at the compound. -/
structure Covers (heading : Heading) (k : Compound) (nodes : List ν) : Prop where
  pairwise : nodes.Pairwise ctx.tree.Before
  within : ∀ n ∈ nodes, ctx.tree.Within ctx.root n
  complete : ∀ n, ctx.Satisfies k n → ctx.MayEnter heading n → n ∈ nodes

/-- What is known of the candidates is right. -/
structure Trusted (heading : Heading) (k : Compound) (candidates : Candidates ν) : Prop where
  tested : ∀ nodes, candidates = .tested nodes →
    ctx.Covers heading k nodes ∧ ∀ n ∈ nodes, ctx.Satisfies k n
  untested : ∀ nodes, candidates = .untested nodes → ctx.Covers heading k nodes

/-- The entry is one for the chain. -/
structure Serves (target : Target) (c : Chain Compound) (e : Entry ν) : Prop where
  chain_eq : e.chain = c.map (ctx.compoundProbe false)
  heading_eq : e.heading = entryHeading target c
  scope_eq : e.scope = ctx.entryScope e.heading
  trusted : ctx.Trusted e.heading (entryCompound e.heading c) e.candidates

variable {ctx}

theorem probe_eq_of_chain {c : Chain Compound} {e : Entry ν}
    (h : e.chain = c.map (ctx.compoundProbe false)) :
    e.probe = ctx.compoundProbe false (entryCompound e.heading c) := by
  unfold Entry.probe entryCompound
  rw [h]
  cases e.heading
  · exact Chain.map_first _ c
  · rfl

theorem trusted_unknown {heading : Heading} {k : Compound} : ctx.Trusted heading k .unknown :=
  ⟨nofun, nofun⟩

theorem trusted_of_covers {heading : Heading} {k : Compound} {nodes : List ν}
    (hc : ctx.Covers heading k nodes) (ht : k.length = 1 → ∀ n ∈ nodes, ctx.Satisfies k n) :
    ctx.Trusted heading k (if k.length == 1 then .tested nodes else .untested nodes) := by
  split
  · rename_i hk
    refine ⟨?_, nofun⟩
    rintro _ ⟨⟩
    exact ⟨hc, ht (by simpa using hk)⟩
  · refine ⟨nofun, ?_⟩
    rintro _ ⟨⟩
    exact hc

theorem entryCompound_mem (heading : Heading) (c : Chain Compound) :
    entryCompound heading c ∈ c.compounds := by
  cases heading
  · exact c.first_mem_compounds
  · exact c.last_mem_compounds

end Entries

section Grounded

variable {ctx : Context ν} (hctx : ctx.Grounded)
include hctx

theorem Grounded.within_root_node : ctx.tree.Within ctx.root ctx.node :=
  hctx.within_root.mpr rfl

theorem Grounded.within_entryScope (heading : Heading) :
    ctx.tree.Within ctx.root (ctx.entryScope heading) := by
  cases heading
  · exact .refl _
  · exact hctx.within_root_node

omit [DecidableEq ν] hctx in
theorem within_entryScope_of_mayEnter {heading : Heading} {n : ν}
    (h : ctx.MayEnter heading n) : ctx.tree.Within (ctx.entryScope heading) n := by
  cases heading
  · exact h
  · exact Links.Below.within h

theorem Grounded.mem_scope_walk {scope n : ν} (he : ctx.tree.isElement n = true ∨ n = scope) :
    n ∈ scope :: ctx.tree.walk scope ↔ ctx.tree.Within scope n := by
  rw [List.mem_cons, hctx.wellFormed.mem_walk, Links.within_iff]
  constructor
  · rintro (rfl | ⟨-, hb⟩)
    · exact .inl rfl
    · exact .inr hb
  · rintro (rfl | hb)
    · exact .inl rfl
    · refine he.elim (fun he => .inr ⟨he, hb⟩) .inl

theorem Grounded.pairwise_scope_walk (scope : ν) :
    (scope :: ctx.tree.walk scope).Pairwise ctx.tree.Before := by
  refine List.pairwise_cons.mpr ⟨fun n hn => ?_, hctx.wellFormed.pairwise_walk scope⟩
  exact hctx.isForest.before_of_below (hctx.wellFormed.mem_walk.mp hn).2

/-- A walk of the whole scope misses nothing. -/
theorem Grounded.covers_walk (heading : Heading) {k : Compound} (hk : k ≠ []) {nodes : List ν}
    (hsub : nodes.Sublist (ctx.entryScope heading :: ctx.tree.walk (ctx.entryScope heading)))
    (hmem : ∀ n ∈ ctx.entryScope heading :: ctx.tree.walk (ctx.entryScope heading),
      ctx.Satisfies k n → n ∈ nodes) : ctx.Covers heading k nodes where
  pairwise := (hctx.pairwise_scope_walk _).sublist hsub
  within n hn := by
    refine (hctx.within_entryScope heading).trans ?_
    rcases List.mem_cons.mp (hsub.subset hn) with rfl | hn
    · exact .refl _
    · exact (hctx.wellFormed.mem_walk.mp hn).2.within
  complete n hs hm := by
    have hw := within_entryScope_of_mayEnter hm
    refine hmem n ((hctx.mem_scope_walk ?_).mpr hw) hs
    -- below the scope, only elements are candidates
    refine (Links.within_iff.mp hw).elim .inr fun hb => .inl ?_
    obtain ⟨p, hp, -⟩ := Links.below_iff_parent.mp hb
    exact (hctx.candidate_iff hp).mp (candidate_of_yes hk hs)

/-! ### Candidates from an index -/

/-- The nodes from an index, with the root in front if it passes. -/
def rootAnd (ctx : Context ν) (atRoot : Bool) (found : List ν) : List ν :=
  if atRoot then ctx.root :: found else found

/-- An index that covers the scope, with the root in front if that satisfies the
compound too. -/
theorem Grounded.covers_index {heading : Heading} {k : Compound} {l : Lookup} {top : ν}
    {found : List ν} {atRoot : Bool} (hl : lookup? k = some l)
    (hfound : ctx.tree.Lists top (l.Fits ctx.tree.toLinks) found)
    (htop : ctx.tree.Within ctx.root top) (hscope : ctx.tree.Within top (ctx.entryScope heading))
    (hroot : heading = .forward → ctx.Satisfies k ctx.root → atRoot = true) :
    ctx.Covers heading k (ctx.rootAnd atRoot found) := by
  unfold rootAnd
  have hwithin : ∀ n ∈ found, ctx.tree.Below ctx.root n := fun n hn =>
    htop.trans_below ((hfound.2 n).mp hn).2.1
  have hmem : ∀ n, n ∈ (if atRoot then ctx.root :: found else found) ↔
      atRoot = true ∧ n = ctx.root ∨ n ∈ found := by
    intro n
    cases atRoot <;> simp
  refine ⟨?_, fun n hn => ?_, fun n hs hm => (hmem n).mpr ?_⟩
  · cases atRoot with
    | false => exact hfound.1
    | true =>
      refine List.pairwise_cons.mpr ⟨fun n hn => ?_, hfound.1⟩
      exact hctx.isForest.before_of_below (hwithin n hn)
  · rcases (hmem n).mp hn with ⟨-, rfl⟩ | hn
    · exact .refl _
    · exact (hwithin n hn).within
  · obtain ⟨he, hf⟩ := fits_of_satisfies hl hs
    cases heading with
    | backward => exact .inr ((hfound.2 n).mpr ⟨he, hscope.trans_below hm, hf⟩)
    | forward =>
      obtain rfl : top = ctx.root := hctx.isForest.within_antisymm hscope htop
      rcases Links.within_iff.mp hm with rfl | hb
      · exact .inl ⟨hroot rfl hs, rfl⟩
      · exact .inr ((hfound.2 n).mpr ⟨he, hb, hf⟩)

/-- Where an index was asked, it covers the scope; nothing is asked of it when
nothing can satisfy the compound. -/
theorem Grounded.indexed?_ok (counts : MemoKey ν → Except QueryError (List ν))
    {heading : Heading} {k : Compound} {found : List ν}
    (h : fresh (ctx.indexed? (ctx.entryScope heading) k) = .ok (some found)) :
    (∃ name rest, k = .pseudoElement name :: rest ∧ found = []) ∨
      ∃ l top, lookup? k = some l ∧ ctx.tree.Lists top (l.Fits ctx.tree.toLinks) found ∧
        ctx.tree.Within ctx.root top ∧ ctx.tree.Within top (ctx.entryScope heading) := by
  unfold indexed? at h
  split at h
  · rename_i name rest
    have hc : Steady counts ctx.MayFail (discard (ctx.complain (.unsupportedElement name))) :=
      .map _ (steady_complain rfl)
    obtain ⟨-, -, h⟩ := hc.bind_ok (fun _ _ => .pure _) h
    exact .inl ⟨name, rest, rfl, by simpa using h.symm⟩
  · rename_i name rest
    refine .inr ⟨.id name, ctx.root, rfl, ?_, .refl _, hctx.within_entryScope heading⟩
    split at h
    · exact hctx.sound.elementsById (by simpa using h)
    · simp at h
  · have h : (lookup? k).bind (ctx.indexedBelow (ctx.entryScope heading)) = some found := by
      simpa using h
    obtain ⟨l, hl, hi⟩ := Option.bind_eq_some_iff.mp h
    refine .inr ⟨l, ctx.entryScope heading, hl, ?_, hctx.within_entryScope heading, .refl _⟩
    exact hctx.lists_indexedBelow (.inr (hctx.within_entryScope heading)) hi

omit hctx in
theorem not_satisfies_pseudoElement {name : String} {rest : Compound} {n : ν} :
    ¬ ctx.Satisfies (.pseudoElement name :: rest) n := by
  intro h
  have h := (yes_onElements.mp (yes_of_cons h)).2
  unfold complain at h
  split at h <;> simp [Yes] at h

omit hctx in
theorem steady_indexed? {counts : MemoKey ν → Except QueryError (List ν)} (scope : ν)
    (k : Compound) : Steady counts ctx.MayFail (ctx.indexed? scope k) := by
  unfold indexed?
  split
  · exact (Steady.map _ (steady_complain rfl)).bind fun _ _ => .pure _
  · exact .pure _
  · exact .pure _

omit hctx in
theorem steady_candidatesBelow {counts : MemoKey ν → Except QueryError (List ν)}
    {heading : Heading} {scope : ν} {k : Compound} {probe : Probe ν}
    (h : probe.Steady counts ctx.MayFail) :
    Steady counts ctx.MayFail (ctx.candidatesBelow heading scope k probe) := by
  refine (steady_indexed? scope k).bind fun found _ => ?_
  rcases found with _ | found
  · exact .pure _
  · simp only
    split
    · exact (h _).bind fun _ _ => .pure _
    · exact (Steady.pure false).bind fun _ _ => .pure _

omit hctx in
/-- There are candidates where an index was asked, and the root is tested only
where a chain is followed forward from an element. -/
theorem candidatesBelow_ok {counts : MemoKey ν → Except QueryError (List ν)} {heading : Heading}
    {scope : ν} {k : Compound} {probe : Probe ν} {candidates : Candidates ν}
    (hs : probe.Steady counts ctx.MayFail)
    (h : fresh (ctx.candidatesBelow heading scope k probe) = .ok candidates) :
    fresh (ctx.indexed? scope k) = .ok none ∧ candidates = .unknown ∨
      ∃ found atRoot, fresh (ctx.indexed? scope k) = .ok (some found) ∧
        candidates = (if k.length == 1 then .tested (ctx.rootAnd atRoot found)
          else .untested (ctx.rootAnd atRoot found)) ∧
        (if heading = .forward ∧ ctx.tree.isElement ctx.root = true
          then fresh (probe.holds ctx.root) = .ok atRoot else atRoot = false) := by
  have hindex : Steady counts ctx.MayFail (ctx.indexed? scope k) := steady_indexed? _ k
  obtain ⟨found, hfound, h⟩ := hindex.bind_ok (fun found _ => by
    rcases found with _ | found
    · exact .pure _
    · simp only
      split
      · exact (hs _).bind fun _ _ => .pure _
      · exact (Steady.pure false).bind fun _ _ => .pure _) h
  rcases found with _ | found
  · exact .inl ⟨hfound, by simpa using h.symm⟩
  · refine .inr ⟨found, ?_⟩
    simp only at h
    split at h
    · rename_i hc
      obtain ⟨b, hb, h⟩ := (hs _).bind_ok (fun _ _ => .pure _) h
      refine ⟨b, hfound, by simpa [rootAnd] using h.symm, ?_⟩
      rw [if_pos (by simpa using hc)]
      exact hb
    · rename_i hc
      have hfalse : Steady counts ctx.MayFail (pure false : Eval ν Bool) := .pure false
      obtain ⟨b, hb, h⟩ := hfalse.bind_ok (fun _ _ => .pure _) h
      obtain rfl : false = b := by simpa using hb
      refine ⟨false, hfound, by simpa [rootAnd] using h.symm, ?_⟩
      rw [if_neg (by simpa using hc)]

theorem Grounded.trusted_candidatesBelow {counts : MemoKey ν → Except QueryError (List ν)}
    {heading : Heading} {k : Compound} {candidates : Candidates ν}
    (hs : (ctx.compoundProbe false k).Steady counts ctx.MayFail)
    (h : fresh (ctx.candidatesBelow heading (ctx.entryScope heading) k (ctx.compoundProbe false k)) =
      .ok candidates) : ctx.Trusted heading k candidates := by
  rcases candidatesBelow_ok hs h with ⟨-, rfl⟩ | ⟨found, atRoot, hfound, rfl, hroot⟩
  · exact trusted_unknown
  have hsat : atRoot = true → ctx.Satisfies k ctx.root := by
    rintro rfl
    split at hroot
    · exact hroot
    · cases hroot
  have hall : heading = .forward → ctx.tree.isElement ctx.root = true →
      ctx.Satisfies k ctx.root → atRoot = true := by
    intro hf he hr
    rw [if_pos ⟨hf, he⟩] at hroot
    exact Except.ok.inj (hroot.symm.trans hr)
  rcases hctx.indexed?_ok counts hfound with
    ⟨name, rest, rfl, rfl⟩ | ⟨l, top, hl, hlists, htop, hscope⟩
  · obtain rfl : atRoot = false := by
      cases atRoot
      · rfl
      · exact absurd (hsat rfl) not_satisfies_pseudoElement
    exact trusted_of_covers ⟨.nil, by simp [rootAnd],
      fun n hn _ => absurd hn not_satisfies_pseudoElement⟩ (by simp [rootAnd])
  · refine trusted_of_covers (hctx.covers_index hl hlists htop hscope fun hh hr =>
      hall hh (fits_of_satisfies hl hr).1 hr) fun hk n hn => ?_
    have hfits : n ∈ found → ctx.Satisfies k n := fun hn => by
      obtain ⟨he, -, hf⟩ := (hlists.2 n).mp hn
      exact satisfies_of_fits hl hk he hf
    cases atRoot with
    | false => exact hfits hn
    | true =>
      rcases List.mem_cons.mp hn with rfl | hn
      · exact hsat rfl
      · exact hfits hn

/-! ### Entering a chain -/

omit hctx in
/-- Below the context node, a chain is entered at one of its ends. -/
theorem enter_eq {target : Target} (ht : target.isBelow = true) (c : Chain Compound) :
    ctx.enter target c =
      let heading := entryHeading target c
      let k := entryCompound heading c
      (⟨c.map (ctx.compoundProbe false), heading, ctx.entryScope heading, ·⟩) <$>
        ctx.candidatesBelow heading (ctx.entryScope heading) k (ctx.compoundProbe false k) := by
  have hbelow : ∀ heading, (match heading with
        | .backward => do
          let candidates ← ctx.candidatesBelow heading ctx.node c.last
            (ctx.compoundProbe false c.last)
          return ⟨c.map (ctx.compoundProbe false), heading, ctx.node, candidates⟩
        | .forward => do
          let candidates ← ctx.candidatesBelow heading ctx.root c.first
            (ctx.compoundProbe false c.first)
          return ⟨c.map (ctx.compoundProbe false), heading, ctx.root, candidates⟩ :
        Eval ν (Entry ν)) =
      (⟨c.map (ctx.compoundProbe false), heading, ctx.entryScope heading, ·⟩) <$>
        ctx.candidatesBelow heading (ctx.entryScope heading) (entryCompound heading c)
          (ctx.compoundProbe false (entryCompound heading c)) := by
    intro heading
    rw [map_eq_pure_bind]
    cases heading <;> rfl
  unfold enter
  simp only [chainProbe_eq, Chain.map_first]
  cases target with
  | itself | nearest => cases ht
  | first | all => exact hbelow _

variable (ctx) in
omit [DecidableEq ν] hctx in
/-- A test of elements only. -/
theorem steady_testElement {counts : MemoKey ν → Except QueryError (List ν)}
    {E : QueryError → Prop} {p : Probe ν} (h : p.Steady counts E) (n : ν) :
    Steady counts E (if ctx.tree.isElement n then p.holds n else pure false) := by
  split
  · exact h n
  · exact .pure false

omit hctx in
theorem steady_enter {counts : MemoKey ν → Except QueryError (List ν)} {target : Target}
    {c : Chain Compound}
    (hs : ∀ k ∈ c.compounds, (ctx.compoundProbe false k).Steady counts ctx.MayFail) :
    Steady counts ctx.MayFail (ctx.enter target c) := by
  have hlast : (ctx.chainProbe false c).last.Steady counts ctx.MayFail := by
    rw [chainProbe_eq]
    exact hs _ c.last_mem_compounds
  cases target with
  | itself => exact (Steady.filterM fun n _ => steady_testElement ctx hlast n).bind fun _ _ => .pure _
  | nearest => exact (Steady.filterM fun n _ => hlast n).bind fun _ _ => .pure _
  | first | all =>
    rw [enter_eq rfl]
    exact (steady_candidatesBelow (hs _ (entryCompound_mem _ c))).map _

omit hctx in
/-- The entry for a chain tells where it begins and what is known there. -/
theorem enter_ok_of_isBelow {counts : MemoKey ν → Except QueryError (List ν)} {target : Target}
    (ht : target.isBelow = true) {c : Chain Compound} {e : Entry ν}
    (hs : ∀ k ∈ c.compounds, (ctx.compoundProbe false k).Steady counts ctx.MayFail)
    (h : fresh (ctx.enter target c) = .ok e) :
    e.chain = c.map (ctx.compoundProbe false) ∧ e.heading = entryHeading target c ∧
      e.scope = ctx.entryScope e.heading ∧
      fresh (ctx.candidatesBelow e.heading (ctx.entryScope e.heading) (entryCompound e.heading c)
        (ctx.compoundProbe false (entryCompound e.heading c))) = .ok e.candidates := by
  rw [enter_eq ht] at h
  obtain ⟨candidates, hc, rfl⟩ :=
    (steady_candidatesBelow (hs _ (entryCompound_mem _ c))).map_ok h
  exact ⟨rfl, rfl, rfl, hc⟩

theorem Grounded.serves_enter {counts : MemoKey ν → Except QueryError (List ν)} {target : Target}
    (ht : target.isBelow = true) {c : Chain Compound} {e : Entry ν}
    (hs : ∀ k ∈ c.compounds, (ctx.compoundProbe false k).Steady counts ctx.MayFail)
    (h : fresh (ctx.enter target c) = .ok e) : ctx.Serves target c e := by
  obtain ⟨hchain, hheading, hscope, hc⟩ := enter_ok_of_isBelow ht hs h
  exact ⟨hchain, hheading, hscope, hctx.trusted_candidatesBelow (hs _ (entryCompound_mem _ c)) hc⟩

end Grounded

/-! ### Walks that entries share -/

section Walks

variable {ctx : Context ν} {counts : MemoKey ν → Except QueryError (List ν)}
variable {E : QueryError → Prop}

/-- The probe has an answer for all of the nodes, and those that pass are found. -/
structure Passes (nodes : List ν) (probe : Probe ν) (found : List ν) : Prop where
  sublist : found.Sublist nodes
  mem_iff : ∀ n, n ∈ found ↔ n ∈ nodes ∧ Yes (probe.holds n)
  answers : ∀ n ∈ nodes, Answers (probe.holds n)

omit [DecidableEq ν] in
theorem steady_sweep {probes : List (Probe ν)} (h : ∀ p ∈ probes, p.Steady counts E)
    (nodes : List ν) : Steady counts E (sweep probes nodes) := by
  induction nodes with
  | nil => exact .pure _
  | cons n rest ih =>
    exact (Steady.mapM fun p hp => h p hp n).bind fun _ _ => ih.bind fun _ _ => .pure _

omit [DecidableEq ν] in
theorem passes_zipWith {probes : List (Probe ν)} {n : ν} {rest : List ν} {hits : List Bool}
    {found : List (List ν)} (hhits : List.Forall₂ (fun p b => fresh (p.holds n) = .ok b) probes hits)
    (hfound : List.Forall₂ (Passes rest) probes found) :
    List.Forall₂ (Passes (n :: rest)) probes
      (List.zipWith (fun hit nodes => if hit then n :: nodes else nodes) hits found) := by
  induction hhits generalizing found with
  | nil =>
    cases hfound
    exact .nil
  | cons hb hhits ih =>
    obtain _ | ⟨⟨hsub, hmem, hans⟩, hfound⟩ := hfound
    refine .cons ?_ (ih hfound)
    rename_i b _ _ _ _
    have hans := List.forall_mem_cons.mpr ⟨⟨b, hb⟩, hans⟩
    cases b with
    | true =>
      refine ⟨hsub.cons_cons n, fun m => ?_, hans⟩
      simp only [if_true, List.mem_cons, hmem]
      constructor
      · rintro (rfl | ⟨hm, hy⟩)
        · exact ⟨.inl rfl, hb⟩
        · exact ⟨.inr hm, hy⟩
      · rintro ⟨rfl | hm, hy⟩
        · exact .inl rfl
        · exact .inr ⟨hm, hy⟩
    | false =>
      refine ⟨hsub.cons n, fun m => ?_, hans⟩
      simp only [Bool.false_eq_true, if_false, List.mem_cons, hmem]
      constructor
      · exact fun ⟨hm, hy⟩ => ⟨.inr hm, hy⟩
      · rintro ⟨rfl | hm, hy⟩
        · exact absurd (hb.symm.trans hy) (by simp)
        · exact ⟨hm, hy⟩

omit [DecidableEq ν] in
theorem sweep_ok {probes : List (Probe ν)} (h : ∀ p ∈ probes, p.Steady counts E)
    {nodes : List ν} {found : List (List ν)} (hr : fresh (sweep probes nodes) = .ok found) :
    List.Forall₂ (Passes nodes) probes found := by
  induction nodes generalizing found with
  | nil =>
    obtain rfl : (probes.map fun _ => []) = found := by simpa [sweep] using hr
    rw [List.forall₂_map_right_iff, List.forall₂_same]
    exact fun p _ => ⟨.slnil, by simp, by simp⟩
  | cons n rest ih =>
    rw [sweep] at hr
    have hhits : ∀ p ∈ probes, Steady counts E (p.holds n) := fun p hp => h p hp n
    obtain ⟨hits, hh, hr⟩ := (Steady.mapM hhits).bind_ok
      (fun _ _ => (steady_sweep h rest).bind fun _ _ => .pure _) hr
    obtain ⟨found', hf, hr⟩ := (steady_sweep h rest).bind_ok (fun _ _ => .pure _) hr
    obtain rfl : _ = found := by simpa using hr
    exact passes_zipWith (mapM_ok hhits hh) (ih hf)

/-- The entry is as before, or it waited for a walk and got what that found. -/
def Settled (ctx : Context ν) (e e' : Entry ν) : Prop :=
  e' = e ∨ e.candidates = .unknown ∧ ∃ found, e' = { e with candidates := .tested found } ∧
    Passes (e.scope :: ctx.tree.walk e.scope) e.probe found

theorem Settled.trans {e e' e'' : Entry ν} (h : ctx.Settled e e') (h' : ctx.Settled e' e'') :
    ctx.Settled e e'' := by
  rcases h with rfl | ⟨hu, found, rfl, hp⟩
  · exact h'
  · rcases h' with rfl | ⟨hu', -⟩
    · exact .inr ⟨hu, found, rfl, hp⟩
    · cases hu'

theorem Settled.probe_eq {e e' : Entry ν} (h : ctx.Settled e e') : e'.probe = e.probe := by
  rcases h with rfl | ⟨-, found, rfl, -⟩ <;> rfl

theorem Settled.chain_eq {e e' : Entry ν} (h : ctx.Settled e e') : e'.chain = e.chain := by
  rcases h with rfl | ⟨-, found, rfl, -⟩ <;> rfl

theorem Settled.heading_eq {e e' : Entry ν} (h : ctx.Settled e e') : e'.heading = e.heading := by
  rcases h with rfl | ⟨-, found, rfl, -⟩ <;> rfl

omit [DecidableEq ν] in
theorem candidates_of_isPending {target : Target} {e : Entry ν}
    (h : e.isPending target = true) : e.candidates = .unknown := by
  unfold Entry.isPending at h
  split at h
  · assumption
  · cases h

/-- An entry that still waits got nothing. -/
theorem Settled.eq_of_isPending {target : Target} {e e' : Entry ν} (h : ctx.Settled e e')
    (hp : e'.isPending target = true) : e' = e := by
  rcases h with rfl | ⟨-, found, rfl, -⟩
  · rfl
  · cases candidates_of_isPending hp

theorem settle_ok {waits : Entry ν → Bool} {entries : List (Entry ν)} {found : List (List ν)}
    (hw : ∀ e, waits e = true → e.candidates = .unknown)
    (hf : List.Forall₂ (fun e found => Passes (e.scope :: ctx.tree.walk e.scope) e.probe found)
      (entries.filter waits) found) :
    List.Forall₂ (fun e e' => ctx.Settled e e' ∧ ¬ waits e' = true) entries
      (settle waits entries found) := by
  induction entries generalizing found with
  | nil => exact .nil
  | cons e rest ih =>
    rw [settle]
    split
    · rename_i he
      rw [List.filter_cons_of_pos he] at hf
      obtain _ | ⟨hp, hf⟩ := hf
      refine .cons ⟨.inr ⟨hw e he, _, rfl, hp⟩, fun he' => ?_⟩ (ih hf)
      cases hw _ he'
    · rename_i he
      rw [List.filter_cons_of_neg he] at hf
      exact .cons ⟨.inl rfl, he⟩ (ih hf)

/-- The probes of all entries are steady. -/
def AllSteady (counts : MemoKey ν → Except QueryError (List ν)) (E : QueryError → Prop)
    (entries : List (Entry ν)) : Prop :=
  ∀ e ∈ entries, e.probe.Steady counts E

omit [DecidableEq ν] in
theorem AllSteady.of_forall₂ {R : Entry ν → Entry ν → Prop} {entries entries' : List (Entry ν)}
    (h : AllSteady counts E entries) (hR : List.Forall₂ R entries entries')
    (hp : ∀ e e', R e e' → e'.probe = e.probe) : AllSteady counts E entries' := by
  induction hR with
  | nil => exact h
  | cons hr _ ih =>
    obtain ⟨he, hrest⟩ := List.forall_mem_cons.mp h
    exact List.forall_mem_cons.mpr ⟨hp _ _ hr ▸ he, ih hrest⟩

theorem gatherIn_ok {target : Target} {scope : ν} {entries : List (Entry ν)}
    (h : AllSteady counts E entries) :
    Steady counts E (ctx.gatherIn target scope entries) ∧
      ∀ entries', fresh (ctx.gatherIn target scope entries) = .ok entries' →
        List.Forall₂ (fun e e' => ctx.Settled e e' ∧
          (e'.isPending target = true → e'.scope ≠ scope)) entries entries' := by
  unfold gatherIn
  set waits : Entry ν → Bool := fun e => e.isPending target && e.scope == scope
  have hprobes : ∀ p ∈ (entries.filter waits).map Entry.probe, p.Steady counts E := by
    intro _ hp
    obtain ⟨e, he, rfl⟩ := List.mem_map.mp hp
    exact h e (List.mem_filter.mp he).1
  refine ⟨(steady_sweep hprobes _).bind fun _ _ => .pure _, fun entries' hr => ?_⟩
  obtain ⟨found, hf, hr⟩ := (steady_sweep hprobes _).bind_ok (fun _ _ => .pure _) hr
  obtain rfl : settle waits entries found = entries' := by simpa using hr
  refine (settle_ok (fun e he => ?_) ?_).imp fun e e' ⟨hs, hw⟩ => ⟨hs, fun hp hscope => hw ?_⟩
  · exact candidates_of_isPending (Bool.and_eq_true _ _ ▸ he).1
  · have hscope : ∀ e ∈ entries.filter waits, e.scope = scope := fun e he => by
      exact eq_of_beq (Bool.and_eq_true _ _ ▸ (List.mem_filter.mp he).2).2
    have hf := List.forall₂_map_left_iff.mp (sweep_ok hprobes hf)
    refine ((List.forall₂_and_left _ _).mpr ⟨hscope, hf⟩).imp ?_
    rintro e found ⟨rfl, hp⟩
    exact hp
  · simp [waits, hp, hscope]

theorem forall₂_comp {α β γ : Type} {R : α → β → Prop} {S : β → γ → Prop} {xs : List α}
    {ys : List β} {zs : List γ} (h : List.Forall₂ R xs ys) (h' : List.Forall₂ S ys zs) :
    List.Forall₂ (fun x z => ∃ y, R x y ∧ S y z) xs zs := by
  induction h generalizing zs with
  | nil =>
    cases h'
    exact .nil
  | cons hr _ ih =>
    obtain _ | ⟨hs, h'⟩ := h'
    exact .cons ⟨_, hr, hs⟩ (ih h')

/-- Once all of the scopes were walked, no entry waits for a walk of one of them. -/
theorem gatherAll_ok {target : Target} {entries : List (Entry ν)} (h : AllSteady counts E entries)
    (scopes : List ν) :
    Steady counts E (scopes.foldlM (fun entries scope => ctx.gatherIn target scope entries) entries) ∧
      ∀ entries', fresh (scopes.foldlM (fun entries scope => ctx.gatherIn target scope entries)
          entries) = .ok entries' →
        List.Forall₂ (fun e e' => ctx.Settled e e' ∧
          (e'.isPending target = true → e'.scope ∉ scopes)) entries entries' := by
  induction scopes generalizing entries with
  | nil =>
    refine ⟨.pure entries, fun entries' hr => ?_⟩
    obtain rfl : entries = entries' := by simpa using hr
    exact List.forall₂_same.mpr fun _ _ => ⟨.inl rfl, by simp⟩
  | cons scope rest ih =>
    have hrest : ∀ entries', fresh (ctx.gatherIn target scope entries) = .ok entries' →
        AllSteady counts E entries' := fun entries' hr =>
      h.of_forall₂ ((gatherIn_ok h).2 entries' hr) fun _ _ hs => hs.1.probe_eq
    simp only [List.foldlM_cons]
    refine ⟨(gatherIn_ok h).1.bind fun _ hr => (ih (hrest _ hr)).1, fun entries'' hr => ?_⟩
    obtain ⟨entries', hf, hr⟩ := (gatherIn_ok h).1.bind_ok
      (fun _ hr => (ih (hrest _ hr)).1) hr
    refine (forall₂_comp ((gatherIn_ok h).2 entries' hf) ((ih (hrest _ hf)).2 entries'' hr)).imp ?_
    rintro e e'' ⟨e', ⟨hs, hscope⟩, hs', hscopes⟩
    refine ⟨hs.trans hs', fun hp hmem => ?_⟩
    obtain rfl := hs'.eq_of_isPending hp
    exact (List.mem_cons.mp hmem).elim (hscope hp) (hscopes hp)

/-- In the end, no entry waits any more. -/
theorem gather_ok {target : Target} {entries : List (Entry ν)} (h : AllSteady counts E entries) :
    Steady counts E (ctx.gather target entries) ∧
      ∀ entries', fresh (ctx.gather target entries) = .ok entries' →
        List.Forall₂ (fun e e' => ctx.Settled e e' ∧ ¬ e'.isPending target = true)
          entries entries' := by
  obtain ⟨hsteady, hok⟩ := gatherAll_ok h
    (distinct ((entries.filter (Entry.isPending target)).map Entry.scope))
  refine ⟨hsteady, fun entries' hr => ?_⟩
  have hall := (List.forall₂_and_left _ _).mpr ⟨fun e he => he, hok entries' hr⟩
  refine hall.imp fun e e' ⟨he, hs, hscope⟩ => ⟨hs, fun hp => hscope hp ?_⟩
  obtain rfl := hs.eq_of_isPending hp
  exact mem_distinct.mpr (List.mem_map.mpr ⟨e', List.mem_filter.mpr ⟨he, hp⟩, rfl⟩)

end Walks

/-! ### Plans -/

section Plans

variable {ctx : Context ν} {counts : MemoKey ν → Except QueryError (List ν)} {target : Target}
variable {branches : List (Chain Compound)}

/-- All compounds of the chains can be tested. -/
def Testable (ctx : Context ν) (counts : MemoKey ν → Except QueryError (List ν))
    (branches : List (Chain Compound)) : Prop :=
  ∀ c ∈ branches, ∀ k ∈ c.compounds, k ≠ [] ∧
    (ctx.compoundProbe false k).Steady counts ctx.MayFail

theorem Testable.steady (h : ctx.Testable counts branches) {c : Chain Compound}
    (hc : c ∈ branches) : ∀ k ∈ c.compounds, (ctx.compoundProbe false k).Steady counts ctx.MayFail :=
  fun k hk => (h c hc k hk).2

theorem Testable.ne_nil (h : ctx.Testable counts branches) {c : Chain Compound}
    (hc : c ∈ branches) : ∀ k ∈ c.compounds, k ≠ [] :=
  fun k hk => (h c hc k hk).1

theorem Serves.settled (hctx : ctx.Grounded) {c : Chain Compound} {e e' : Entry ν}
    (h : ctx.Serves target c e) (hs : ctx.Settled e e') (hne : ∀ k ∈ c.compounds, k ≠ []) :
    ctx.Serves target c e' := by
  rcases hs with rfl | ⟨-, found, rfl, hsub, hmem, -⟩
  · exact h
  · rw [h.scope_eq] at hsub hmem
    rw [probe_eq_of_chain h.chain_eq] at hmem
    refine ⟨h.chain_eq, h.heading_eq, h.scope_eq, ?_, nofun⟩
    rintro _ ⟨⟩
    refine ⟨hctx.covers_walk _ (hne _ (entryCompound_mem _ c)) hsub fun n hn hk => ?_, ?_⟩
    · exact (hmem n).mpr ⟨hn, hk⟩
    · exact fun n hn => ((hmem n).mp hn).2

/-- An entry is made for its chain, whatever is looked for. -/
theorem enter_ok {c : Chain Compound} {e : Entry ν}
    (hs : ∀ k ∈ c.compounds, (ctx.compoundProbe false k).Steady counts ctx.MayFail)
    (h : fresh (ctx.enter target c) = .ok e) :
    e.chain = c.map (ctx.compoundProbe false) ∧ e.heading = entryHeading target c := by
  have hlast := hs _ c.last_mem_compounds
  cases target with
  | itself =>
    have htest := steady_testElement ctx hlast
    simp only [enter, chainProbe_eq] at h
    obtain ⟨nodes, -, h⟩ := (Steady.filterM fun n _ => htest n).bind_ok (fun _ _ => .pure _) h
    obtain rfl : _ = e := by simpa using h
    exact ⟨rfl, rfl⟩
  | nearest =>
    simp only [enter, chainProbe_eq] at h
    obtain ⟨nodes, -, h⟩ := (Steady.filterM fun n _ => hlast n).bind_ok (fun _ _ => .pure _) h
    obtain rfl : _ = e := by simpa using h
    exact ⟨rfl, rfl⟩
  | first | all =>
    obtain ⟨hchain, hheading, -⟩ := enter_ok_of_isBelow rfl hs h
    exact ⟨hchain, hheading⟩

theorem steady_probe_of_enter {c : Chain Compound} {e : Entry ν}
    (hs : ∀ k ∈ c.compounds, (ctx.compoundProbe false k).Steady counts ctx.MayFail)
    (h : fresh (ctx.enter target c) = .ok e) : e.probe.Steady counts ctx.MayFail := by
  rw [probe_eq_of_chain (enter_ok hs h).1]
  exact hs _ (entryCompound_mem _ c)

theorem Testable.steady_enter (h : ctx.Testable counts branches) :
    ∀ c ∈ branches, Steady counts ctx.MayFail (ctx.enter target c) :=
  fun _ hc => Context.steady_enter (h.steady hc)

/-- The entries are those of the chains, one by one. -/
theorem Testable.entered (h : ctx.Testable counts branches) {entries : List (Entry ν)}
    (hr : fresh (branches.mapM (ctx.enter target)) = .ok entries) :
    List.Forall₂ (fun c e => fresh (ctx.enter target c) = .ok e) branches entries :=
  mapM_ok h.steady_enter hr

theorem Testable.allSteady (h : ctx.Testable counts branches) {entries : List (Entry ν)}
    (hr : fresh (branches.mapM (ctx.enter target)) = .ok entries) :
    AllSteady counts ctx.MayFail entries := by
  intro e he
  obtain ⟨c, hc, hce⟩ := forall₂_exists_left (h.entered hr) e he
  exact steady_probe_of_enter (h.steady hc) hce

/-- Each chain is entered, and then waits for a walk if it has to. -/
theorem plan_ok (h : ctx.Testable counts branches) :
    Steady counts ctx.MayFail (ctx.plan target branches) ∧
      ∀ entries, fresh (ctx.plan target branches) = .ok entries →
        List.Forall₂ (fun c e => ∃ e', fresh (ctx.enter target c) = .ok e' ∧ ctx.Settled e' e ∧
          ¬ e.isPending target = true) branches entries := by
  have henter : Steady counts ctx.MayFail (branches.mapM (ctx.enter target)) :=
    .mapM h.steady_enter
  refine ⟨henter.bind fun _ hr => (gather_ok (h.allSteady hr)).1, ?_⟩
  intro entries' hr
  obtain ⟨entries, he, hr⟩ := henter.bind_ok (fun _ hr => (gather_ok (h.allSteady hr)).1) hr
  exact forall₂_comp (h.entered he) ((gather_ok (h.allSteady he)).2 entries' hr)

/-- Every chain has an entry in the plan that serves it. -/
theorem Grounded.serves_plan (hctx : ctx.Grounded)
    (ht : target.isBelow = true) (h : ctx.Testable counts branches) {entries : List (Entry ν)}
    (hr : fresh (ctx.plan target branches) = .ok entries) :
    List.Forall₂ (ctx.Serves target) branches entries := by
  refine ((List.forall₂_and_left _ _).mpr ⟨fun c hc => hc, (plan_ok h).2 entries hr⟩).imp ?_
  rintro c e ⟨hc, e', he, hs, -⟩
  exact (hctx.serves_enter ht (h.steady hc) he).settled hctx hs (h.ne_nil hc)

end Plans

end Context

end DomQuery.Query
