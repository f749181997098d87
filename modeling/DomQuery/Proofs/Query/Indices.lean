import DomQuery.Proofs.Query.Matcher
import DomQuery.Proofs.Query.Shortcut

/-!
# Answers without indices

A matcher on a tree with indices and one on the same tree without them give the
same answers. Only the second one may fail where the first does not: it tests
nodes that an index leaves out. A plan fails only where a test does that its walks
or its indices ask for, and a search without indices asks for all of these tests;
so with the indices there is a plan as well.

* `Context.gather_error`: walks fail only where a test does.
* `Context.Grounded.plan_answers`: if the search without indices answers, there is a
  plan.
* `Context.Grounded.find_of_unindexed`: and the search with them gives the same answer.
* `isMatch_unindexed` and `closest_unindexed`: nothing is different for what is
  not below the context node.
* `fresh_find_cases`: below it, the searches agree unless the one without
  indices is cut short.
-/

namespace DomQuery.Query

open DomQuery.Selector DomQuery.Tree Matcher

variable {ν : Type} [DecidableEq ν]

namespace Context

/-! ### Walks that succeed -/

section Walks

variable {ctx : Context ν} {counts : MemoKey ν → Except QueryError (List ν)}
variable {E : QueryError → Prop}

omit [DecidableEq ν] in
/-- A walk fails where a test does. -/
theorem sweep_error {probes : List (Probe ν)} {nodes : List ν}
    (h : ∀ p ∈ probes, p.Steady counts E) {e : QueryError}
    (hr : fresh (sweep probes nodes) = .error e) :
    ∃ p ∈ probes, ∃ n ∈ nodes, fresh (p.holds n) = .error e := by
  induction nodes with
  | nil => cases hr
  | cons n rest ih =>
    have hhits : ∀ p ∈ probes, Steady counts E (p.holds n) := fun p hp => h p hp n
    rw [sweep] at hr
    rcases (Steady.mapM hhits).bind_error
      (fun _ _ => (steady_sweep h rest).bind fun _ _ => .pure _) hr with hr | ⟨hits, -, hr⟩
    · obtain ⟨p, hp, he⟩ := mapM_error hhits hr
      exact ⟨p, hp, n, by simp, he⟩
    · rcases (steady_sweep h rest).bind_error (fun _ _ => .pure _) hr with hr | ⟨_, -, hr⟩
      · obtain ⟨p, hp, m, hm, he⟩ := ih hr
        exact ⟨p, hp, m, List.mem_cons_of_mem n hm, he⟩
      · cases hr

theorem gatherIn_error {target : Target} {scope : ν} {entries : List (Entry ν)}
    (h : AllSteady counts E entries) {e : QueryError}
    (hr : fresh (ctx.gatherIn target scope entries) = .error e) :
    ∃ entry ∈ entries, entry.isPending target = true ∧
      ∃ n ∈ ctx.scopeNodes entry, fresh (entry.probe.holds n) = .error e := by
  have hprobes : ∀ p ∈ (entries.filter fun e => e.isPending target && e.scope == scope).map
      Entry.probe, p.Steady counts E := by
    intro _ hp
    obtain ⟨entry, hentry, rfl⟩ := List.mem_map.mp hp
    exact h entry (List.mem_filter.mp hentry).1
  unfold gatherIn at hr
  rcases (steady_sweep hprobes _).bind_error (fun _ _ => .pure _) hr with hr | ⟨_, -, hr⟩
  · obtain ⟨p, hp, n, hn, he⟩ := sweep_error hprobes hr
    obtain ⟨entry, hentry, rfl⟩ := List.mem_map.mp hp
    obtain ⟨hmem, hw⟩ := List.mem_filter.mp hentry
    obtain ⟨hpending, hscope⟩ := Bool.and_eq_true_iff.mp hw
    obtain rfl := eq_of_beq hscope
    exact ⟨entry, hmem, hpending, n, hn, he⟩
  · cases hr

/-- Walks fail only where a test of an entry does that waited for one. -/
theorem gather_error {target : Target} {entries : List (Entry ν)}
    (h : AllSteady counts E entries) {e : QueryError}
    (hr : fresh (ctx.gather target entries) = .error e) :
    ∃ entry ∈ entries, entry.isPending target = true ∧
      ∃ n ∈ ctx.scopeNodes entry, fresh (entry.probe.holds n) = .error e := by
  unfold gather at hr
  simp only at hr
  generalize distinct ((entries.filter (Entry.isPending target)).map Entry.scope) = scopes at hr
  induction scopes generalizing entries with
  | nil => cases hr
  | cons scope rest ih =>
    have hsettled : ∀ entries', fresh (ctx.gatherIn target scope entries) = .ok entries' →
        AllSteady counts E entries' := fun entries' hr =>
      h.of_forall₂ ((gatherIn_ok h).2 entries' hr) fun _ _ hs => hs.1.probe_eq
    rw [List.foldlM_cons] at hr
    rcases (gatherIn_ok h).1.bind_error (fun _ hr => (gatherAll_ok (hsettled _ hr) rest).1) hr with
      hr | ⟨entries', hok, hr⟩
    · exact gatherIn_error h hr
    · obtain ⟨entry, hentry, hpending, hn⟩ := ih (hsettled _ hok) hr
      obtain ⟨entry', hentry', hs, -⟩ := forall₂_exists_left ((gatherIn_ok h).2 entries' hok) _ hentry
      obtain rfl := hs.eq_of_isPending hpending
      exact ⟨entry, hentry', hpending, hn⟩

/-- A walk for the entry comes to its end. -/
def CanSettle (ctx : Context ν) (target : Target) (e : Entry ν) : Prop :=
  e.isPending target = true → ∀ n ∈ ctx.scopeNodes e, Answers (e.probe.holds n)

theorem gather_answers {target : Target} {entries : List (Entry ν)}
    (h : AllSteady counts E entries) (ha : ∀ e ∈ entries, ctx.CanSettle target e) :
    Answers (ctx.gather target entries) := by
  rcases hr : fresh (ctx.gather target entries) with e | entries'
  · obtain ⟨entry, hentry, hpending, n, hn, he⟩ := gather_error h hr
    obtain ⟨b, hb⟩ := ha entry hentry hpending n hn
    cases hb.symm.trans he
  · exact ⟨entries', hr⟩

end Walks

/-! ### What the search without indices tells -/

section Transfer

variable {ctx : Context ν}
variable {counts counts' : MemoKey ν → Except QueryError (List ν)} {target : Target}
variable {branches : List (Chain Compound)} {c : Chain Compound}

/-- Only pseudo-elements are not looked up. -/
theorem indexed?_cases (ctx : Context ν) (scope : ν) (k : Compound) :
    (∃ name rest, k = .pseudoElement name :: rest ∧
        ctx.unindexed.indexed? scope k = ctx.indexed? scope k) ∨
      (∃ found, ctx.indexed? scope k = pure found) ∧ ctx.unindexed.indexed? scope k = pure none := by
  unfold indexed?
  split
  · exact .inl ⟨_, _, rfl, rfl⟩
  · refine .inr ⟨⟨_, rfl⟩, ?_⟩
    split <;> rfl
  · refine .inr ⟨⟨_, rfl⟩, ?_⟩
    rcases lookup? k with _ | l
    · rfl
    · rw [Option.bind_some, indexedBelow_unindexed]

theorem candidatesBelow_answers {heading : Heading} {scope : ν} {k : Compound} {probe : Probe ν}
    (hs : probe.Steady counts ctx.MayFail) (hi : Answers (ctx.indexed? scope k))
    (hr : heading = .forward → ∀ found, fresh (ctx.indexed? scope k) = .ok (some found) →
      Answers (probe.holds ctx.root)) :
    Answers (ctx.candidatesBelow heading scope k probe) := by
  have hindex : Steady counts ctx.MayFail (ctx.indexed? scope k) := steady_indexed? _ k
  unfold candidatesBelow
  refine hindex.answers_bind (fun found _ => ?_) hi fun found hfound => ?_
  · rcases found with _ | found
    · exact .pure _
    · simp only
      split
      · exact (hs _).bind fun _ _ => .pure _
      · exact (Steady.pure false).bind fun _ _ => .pure _
  · rcases found with _ | found
    · exact answers_pure _
    · simp only
      split
      · rename_i hc
        have hf : heading = .forward := eq_of_beq (Bool.and_eq_true_iff.mp hc).1
        exact (hs _).answers_bind (fun _ _ => .pure _) (hr hf found hfound) fun _ _ =>
          answers_pure _
      · exact answers_pure _

/-- The first node is always entered. -/
theorem answers_of_firstForward {e : Entry ν} {n : ν} {rest : List ν} {r : Option ν}
    (hchain : e.chain = c.map (ctx.compoundProbe false))
    (hs : ∀ k ∈ c.compounds, (ctx.compoundProbe false k).Steady counts ctx.MayFail)
    (h : fresh (ctx.firstForward e (n :: rest) none) = .ok r) : Answers (e.accepts n) := by
  rw [firstForward, if_pos (by rfl)] at h
  obtain ⟨reached, hf, -⟩ := (steady_followFrom hchain hs n).bind_ok
    (fun _ _ => steady_firstForward hchain hs _ _) h
  unfold followFrom at hf
  obtain ⟨b, hb, -⟩ := (steady_accepts hchain hs n).bind_ok
    (fun b _ => steady_ite_reachFrom hchain hs n b) hf
  exact ⟨b, hb⟩

/-- A search that knows nothing of the candidates tests the scope, and all of it
where it waits for a walk. -/
theorem Testable.answers_blank (h : ctx.Testable counts branches) (hc : c ∈ branches)
    (henter : ctx.enter target c = pure (ctx.blank target c)) {l : List ν}
    (hl : fresh (ctx.find target branches) = .ok l) :
    ctx.CanSettle target (ctx.blank target c) ∧
      Answers ((ctx.blank target c).probe.holds (ctx.blank target c).scope) := by
  obtain ⟨entries, lists, hp, hlists, -⟩ := h.find_ok hl
  obtain ⟨found, -, e, ⟨e', he', hs, hpending⟩, hf⟩ :=
    forall₂_exists_left (forall₂_comp ((plan_ok h).2 entries hp) hlists).flip c hc
  obtain rfl : ctx.blank target c = e' := by simpa [henter] using he'
  rcases hs with rfl | ⟨-, _, -, hpass⟩
  · refine ⟨fun hp => absurd hp hpending, ?_⟩
    obtain ⟨rfl, hforward⟩ : target = .first ∧ entryHeading target c = .forward := by
      simpa [Entry.isPending, blank] using hpending
    have hheading : (ctx.blank .first c).heading = .forward := hforward
    rw [findFrom, hheading] at hf
    obtain ⟨r, hr, -⟩ := (steady_firstForward rfl (h.steady hc) _ _).bind_ok
      (fun _ _ => .pure _) hf
    exact answers_of_firstForward rfl (h.steady hc) hr
  · exact ⟨fun _ => hpass.answers, hpass.answers _ List.mem_cons_self⟩

theorem indexed?_pseudoElement_ne (counts : MemoKey ν → Except QueryError (List ν)) {scope : ν}
    {name : String} {rest : Compound} :
    fresh (ctx.indexed? scope (.pseudoElement name :: rest)) ≠ .ok none := by
  intro h
  have hc : Steady counts ctx.MayFail (discard (ctx.complain (.unsupportedElement name))) :=
    .map _ (steady_complain rfl)
  obtain ⟨-, -, h⟩ := hc.bind_ok (fun _ _ => .pure _) h
  simp at h

/-- An entry waits for a walk where no index was asked. -/
theorem enter_ok_of_isPending (ht : target.isBelow = true) {e : Entry ν}
    (hs : ∀ k ∈ c.compounds, (ctx.compoundProbe false k).Steady counts ctx.MayFail)
    (h : fresh (ctx.enter target c) = .ok e) (hp : e.isPending target = true) :
    fresh (ctx.indexed? (ctx.entryScope (entryHeading target c))
        (entryCompound (entryHeading target c) c)) = .ok none ∧
      e = ctx.blank target c := by
  obtain ⟨hchain, hheading, hscope, hbelow⟩ := enter_ok_of_isBelow ht hs h
  have hunknown := candidates_of_isPending hp
  rcases candidatesBelow_ok (hs _ (entryCompound_mem _ c)) hbelow with
    ⟨hi, -⟩ | ⟨found, atRoot, -, hcandidates, -⟩
  · refine ⟨hheading ▸ hi, ?_⟩
    rw [blank, ← hheading, ← hchain, ← hscope, ← hunknown]
  · rw [hunknown] at hcandidates
    split at hcandidates <;> cases hcandidates

variable (hctx : ctx.Grounded) (ht : target.isBelow = true)
variable (h : ctx.Testable counts branches) (h' : ctx.unindexed.Testable counts' branches)
variable {l : List ν} (hl : fresh (ctx.unindexed.find target branches) = .ok l)

include hctx ht h' hl

/-- Where no candidates are known, the two searches ask for the same tests. -/
theorem Grounded.canSettle_blank (hc : c ∈ branches)
    (hi : ctx.unindexed.indexed? (ctx.entryScope (entryHeading target c))
      (entryCompound (entryHeading target c) c) = pure none) :
    ctx.CanSettle target (ctx.blank target c) ∧
      Answers ((ctx.blank target c).probe.holds (ctx.blank target c).scope) := by
  have henter : ctx.unindexed.enter target c = pure (ctx.unindexed.blank target c) := by
    rw [enter_eq ht]
    unfold candidatesBelow
    change _ <$> (ctx.unindexed.indexed? (ctx.entryScope _) _ >>= _) = _
    rw [hi]
    rfl
  obtain ⟨hsettle, hscope⟩ := h'.answers_blank hc henter hl
  have hholds : ∀ n ∈ ctx.scopeNodes (ctx.blank target c),
      (ctx.unindexed.blank target c).probe.holds n = (ctx.blank target c).probe.holds n := by
    intro n hn
    rw [probe_eq_of_chain rfl, probe_eq_of_chain rfl]
    exact untouched hctx false _ n (inReach_of_mem_entryNodes hctx hn)
  have hpending : (ctx.unindexed.blank target c).isPending target =
      (ctx.blank target c).isPending target := by
    simp only [Entry.isPending, blank]
  have hnodes : ctx.unindexed.scopeNodes (ctx.unindexed.blank target c) =
      ctx.scopeNodes (ctx.blank target c) := by
    simp only [scopeNodes, blank]
    rfl
  have hscopes : (ctx.unindexed.blank target c).scope = (ctx.blank target c).scope := by
    simp only [blank]
    rfl
  refine ⟨fun hp n hn => ?_, ?_⟩
  · rw [← hholds n hn]
    exact hsettle (hpending ▸ hp) n (hnodes ▸ hn)
  · rw [← hholds _ List.mem_cons_self, ← hscopes]
    exact hscope

include h in
theorem Grounded.enter_answers (hc : c ∈ branches) : Answers (ctx.enter target c) := by
  have hs := h.steady hc _ (entryCompound_mem (entryHeading target c) c)
  rw [enter_eq ht]
  refine (steady_candidatesBelow hs).answers_map (candidatesBelow_answers hs ?_ ?_)
  · rcases indexed?_cases ctx (ctx.entryScope (entryHeading target c))
      (entryCompound (entryHeading target c) c) with ⟨name, rest, -, heq⟩ | ⟨⟨found, heq⟩, -⟩
    · obtain ⟨entries, -, hp, -⟩ := h'.find_ok hl
      obtain ⟨e, -, e', he', -⟩ := forall₂_exists_left ((plan_ok h').2 entries hp).flip c hc
      obtain ⟨-, hheading, -, hbelow⟩ := enter_ok_of_isBelow ht (h'.steady hc) he'
      rw [hheading] at hbelow
      rw [← heq]
      rcases candidatesBelow_ok (h'.steady hc _ (entryCompound_mem _ c)) hbelow with
        ⟨hi, -⟩ | ⟨found, -, hi, -⟩
      · exact ⟨_, hi⟩
      · exact ⟨_, hi⟩
    · rw [heq]
      exact answers_pure found
  · intro hf found hfound
    rcases indexed?_cases ctx (ctx.entryScope (entryHeading target c))
      (entryCompound (entryHeading target c) c) with ⟨name, rest, hk, -⟩ | ⟨-, hi⟩
    · rw [hk] at hfound ⊢
      rw [holds_pseudoElement hfound]
      exact answers_pure false
    · have hscope := (hctx.canSettle_blank ht h' hl hc hi).2
      rw [probe_eq_of_chain rfl] at hscope
      simp only [blank, hf, entryScope] at hscope
      rwa [hf]

include h in
/-- If the search without indices answers, there is a plan. -/
theorem Grounded.plan_answers : Answers (ctx.plan target branches) := by
  unfold plan
  refine (Steady.mapM h.steady_enter).answers_bind (fun _ hr => (gather_ok (h.allSteady hr)).1)
    (Steady.mapM_answers h.steady_enter fun c hc => hctx.enter_answers ht h h' hl hc)
    fun entries hr => ?_
  refine gather_answers (h.allSteady hr) fun e he hp => ?_
  obtain ⟨c, hc, hce⟩ := forall₂_exists_left (h.entered hr) e he
  obtain ⟨hi, rfl⟩ := enter_ok_of_isPending ht (h.steady hc) hce hp
  refine (hctx.canSettle_blank ht h' hl hc ?_).1 hp
  rcases indexed?_cases ctx (ctx.entryScope (entryHeading target c))
    (entryCompound (entryHeading target c) c) with ⟨name, rest, hk, -⟩ | ⟨-, hi'⟩
  · rw [hk] at hi
    exact absurd hi (indexed?_pseudoElement_ne counts)
  · exact hi'

include h in
/-- When the search without indices answers, the one with them gives the same
answer. -/
theorem Grounded.find_of_unindexed : fresh (ctx.find target branches) = .ok l := by
  obtain ⟨entries, hp⟩ := hctx.plan_answers ht h h' hl
  obtain ⟨entries', -, hp', -⟩ := h'.find_ok hl
  rw [hctx.fresh_find ht h hp, ← scratch_unindexed hctx, ← hctx.unindexed.fresh_find ht h' hp', hl]

end Transfer

end Context

/-! ### Matchers -/

omit [DecidableEq ν] in
theorem Context.of_unindexed (tree : View ν) (node : ν) (warn : Bool) :
    of tree.unindexed node warn = (of tree node warn).map Context.unindexed := by
  have hkind : tree.unindexed.kind node = tree.kind node := rfl
  unfold of
  rw [hkind]
  cases tree.kind node <;> rfl

namespace Matcher

/-- The same matcher on a tree that keeps no indices. -/
def unindexed (m : Matcher ν) : Matcher ν :=
  { m with context := m.context.unindexed }

omit [DecidableEq ν] in
theorem new_unindexed (tree : View ν) (text : String) (node : ν) (warn : Bool) :
    new tree.unindexed text node warn = (new tree text node warn).map unindexed := by
  rw [new_eq, new_eq, Context.of_unindexed]
  rcases Context.of tree node warn with _ | ctx
  · rfl
  rcases SelectorList.ofText text with _ | list
  · rfl
  dsimp only [bind, Except.bind, Except.map, Except.mapError]
  rcases list.resolve .strict with _ | branches <;> rfl

/-- The search fails, and it does so at a node: a prefix is not declared or,
with warnings, something is not evaluated. -/
def IsCutShort (m : Matcher ν) (target : Target) : Prop :=
  ∃ e, fresh (m.context.find target m.branches) = .error e ∧ m.context.MayFail e

variable {tree : View ν} (hv : IsSound tree) {text : String} {node : ν} {warn : Bool}
variable {m : Matcher ν} (hm : new tree text node warn = .ok m)

include hv hm

theorem find_unindexed {target : Target} (ht : target.isBelow = false) :
    m.unindexed.find target = m.find target := by
  obtain ⟨hc, -⟩ := new_ok hm
  unfold find
  rw [← Context.find_unindexed (Context.grounded_of hv hc) ht]
  rfl

theorem isMatch_unindexed : m.unindexed.isMatch = m.isMatch := by
  unfold isMatch
  rw [find_unindexed hv hm rfl]
  rfl

theorem closest_unindexed : m.unindexed.closest = m.closest := by
  unfold closest
  rw [find_unindexed hv hm rfl]
  rfl

/-- The searches agree, unless the one without indices is cut short. -/
theorem fresh_find_cases {target : Target} (ht : target.isBelow = true) :
    fresh (m.unindexed.find target) = fresh (m.find target) ∨ m.unindexed.IsCutShort target := by
  have hm' : new tree.unindexed text node warn = .ok m.unindexed := by
    rw [new_unindexed, hm]
    rfl
  obtain ⟨counts, h⟩ := exists_testable hm
  obtain ⟨counts', h'⟩ := exists_testable hm'
  obtain ⟨hc, -⟩ := new_ok hm
  rcases hl : fresh (m.unindexed.context.find target m.unindexed.branches) with e | l
  · exact .inr ⟨e, hl, h'.steady_find.error hl⟩
  · have hfind := (Context.grounded_of hv hc).find_of_unindexed ht h h' hl
    rw [fresh_find, fresh_find, hl, hfind]
    exact .inl rfl

theorem first_unindexed :
    fresh m.unindexed.first = fresh m.first ∨ m.unindexed.IsCutShort .first := by
  have hfind : fresh (m.unindexed.find .first) = fresh (m.find .first) ∨
      m.unindexed.IsCutShort .first := fresh_find_cases hv hm rfl
  refine hfind.imp_left fun h => ?_
  unfold first
  rw [fresh_bind_pure, fresh_bind_pure, h]

theorem all_unindexed : fresh m.unindexed.all = fresh m.all ∨ m.unindexed.IsCutShort .all :=
  fresh_find_cases hv hm rfl

end Matcher

end DomQuery.Query
