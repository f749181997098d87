import DomQuery.Proofs.Document.Answers
import DomQuery.Proofs.Query.AlikeSearch

/-!
# Stopping early

The search for the first result tests fewer nodes than the one for all results,
as long as it enters the chains at the same ends. Then it comes to an end where
the other one does. Where it enters a chain at the other end, it tests other
nodes, and it may come to a prefix that is not declared there.

* `find_first_error`: the search for the first result fails only at a test of a
  chain that it enters elsewhere, if all results can be found.
* `Matcher.first_of_all`: so it fails at a prefix written in such a branch.
-/

namespace DomQuery.Query

open DomQuery.Selector DomQuery.Tree Matcher

variable {ν : Type} [DecidableEq ν]

/-! ### Where lists of tests fail -/

section Lists

variable {counts : MemoKey ν → Except QueryError (List ν)} {E : QueryError → Prop}
variable {α β : Type} {xs : List α} {e : QueryError}

omit [DecidableEq ν] in
theorem answers_of_ne_error {x : Eval ν α} (h : ∀ e, fresh x ≠ .error e) : Answers x := by
  rcases hr : fresh x with e | a
  · exact absurd hr (h e)
  · exact ⟨a, hr⟩

omit [DecidableEq ν] in
theorem ne_error_of_answers {x : Eval ν α} (h : Answers x) : fresh x ≠ .error e := by
  obtain ⟨a, ha⟩ := h
  rw [ha]
  exact nofun

omit [DecidableEq ν] in
theorem findM?_error {p : α → Eval ν Bool} (h : ∀ x ∈ xs, Steady counts E (p x))
    (hr : fresh (xs.findM? p) = .error e) : ∃ x ∈ xs, fresh (p x) = .error e := by
  induction xs with
  | nil => cases hr
  | cons x xs ih =>
    obtain ⟨hx, hxs⟩ := List.forall_mem_cons.mp h
    rw [List.findM?] at hr
    rcases hx.bind_error (fun b _ => by
      cases b with
      | true => exact .pure (some x)
      | false => exact .findM? hxs) hr with hr | ⟨b, -, hr⟩
    · exact ⟨x, by simp, hr⟩
    · cases b with
      | true => cases hr
      | false =>
        obtain ⟨y, hy, hr⟩ := ih hxs hr
        exact ⟨y, List.mem_cons_of_mem x hy, hr⟩

omit [DecidableEq ν] in
theorem collectM_error {f : α → Eval ν (List β)} (h : ∀ x ∈ xs, Steady counts E (f x))
    (hr : fresh (collectM f xs) = .error e) : ∃ x ∈ xs, fresh (f x) = .error e := by
  induction xs with
  | nil => cases hr
  | cons x xs ih =>
    obtain ⟨hx, hxs⟩ := List.forall_mem_cons.mp h
    rw [collectM] at hr
    rcases hx.bind_error (fun ys _ => (Steady.collectM hxs).bind fun zs _ => .pure (ys ++ zs)) hr
      with hr | ⟨ys, -, hr⟩
    · exact ⟨x, by simp, hr⟩
    · rcases (Steady.collectM hxs).bind_error (fun zs _ => .pure (ys ++ zs)) hr with
        hr | ⟨_, -, hr⟩
      · obtain ⟨y, hy, hr⟩ := ih hxs hr
        exact ⟨y, List.mem_cons_of_mem x hy, hr⟩
      · cases hr

omit [DecidableEq ν] in
theorem answers_of_collectM {f : α → Eval ν (List β)} (h : ∀ x ∈ xs, Steady counts E (f x))
    (ha : Answers (collectM f xs)) : ∀ x ∈ xs, Answers (f x) := by
  obtain ⟨ys, hys⟩ := ha
  obtain ⟨lists, hlists, -⟩ := collectM_ok h hys
  intro x hx
  obtain ⟨l, -, hl⟩ := forall₂_exists_left hlists.flip x hx
  exact ⟨l, hl⟩

end Lists

namespace Context

variable {ctx : Context ν} {counts : MemoKey ν → Except QueryError (List ν)}
variable {branches : List (Chain Compound)} {c : Chain Compound} {e : QueryError}

/-! ### Tests that fail -/

/-- A test of one of the compounds fails with the error. -/
def Raises (ctx : Context ν) (c : Chain Compound) (e : QueryError) : Prop :=
  ∃ k ∈ c.compounds, ∃ n, fresh ((ctx.compoundProbe false k).holds n) = .error e

theorem steady_raises
    (hs : ∀ k ∈ c.compounds, (ctx.compoundProbe false k).Steady counts ctx.MayFail) :
    ∀ k ∈ c.compounds, (ctx.compoundProbe false k).Steady counts (ctx.Raises c) :=
  fun k hk n => (hs k hk n).of_error fun _ he => ⟨k, hk, n, he⟩

/-- Without warnings, what fails in a compound is a type selector with a prefix. -/
theorem Raises.undeclared (hw : ctx.warn = false) (h : ctx.Raises c e) :
    ∃ q, c.Writes q ∧ Undeclared ctx.tree.toLinks q e := by
  let meets (e : QueryError) : Prop := ∃ q, c.Writes q ∧ Undeclared ctx.tree.toLinks q e
  obtain ⟨k, hk, n, he⟩ := h
  have halike : Pairing.Alike ⟨fun _ => False, meets, fun _ => True, ctx, ctx⟩ := by
    refine Pairing.alike_of_warn fun e _ => ?_
    change Parallel _ _ Eq (ctx.complain e) (ctx.complain e)
    rw [complain, hw]
    exact .pure rfl
  have hadmits : ∀ s ∈ k, s.All
      (Pairing.Admits ⟨fun _ => False, meets, fun _ => True, ctx, ctx⟩) := by
    refine fun s hs => .of_nests fun t ht => ?_
    rintro ⟨qualifier, name⟩ rfl n - e he
    obtain ⟨q, hqualifier, hq⟩ := selectsType?_error he
    obtain rfl : qualifier = some (.named q) := hqualifier
    exact ⟨q, ⟨k, hk, s, hs, name, ht⟩, hq⟩
  rw [holds_compoundProbe] at he
  have hparallel : Parallel (fun _ => False) meets Eq (k.allM fun s => ctx.holdsSimple false s n)
      (k.allM fun s => ctx.holdsSimple false s n) := by
    refine .allM (P := fun s => s ∈ k) (.of_subset fun s hs => hs) fun s hs => ?_
    exact halike.holdsSimple (fun _ he => he.elim) s (hadmits s hs) false trivial
  rcases hparallel.fresh_cases with ⟨b, _, hb, -⟩ | ⟨e', he', -, hmeets⟩ | ⟨_, -, hfalse⟩
  · cases hb.symm.trans he
  · obtain rfl := Except.error.inj (he'.symm.trans he)
    exact hmeets
  · exact hfalse.elim

theorem indexed?_answers (hw : ctx.warn = false) (scope : ν) (k : Compound) :
    Answers (ctx.indexed? scope k) := by
  unfold indexed?
  split
  · rw [complain, hw]
    exact ⟨_, rfl⟩
  · exact answers_pure _
  · exact answers_pure _

/-- Entering a chain fails where the test of the root does. -/
theorem enter_error {target : Target} (ht : target.isBelow = true) (hw : ctx.warn = false)
    (hs : ∀ k ∈ c.compounds, (ctx.compoundProbe false k).Steady counts ctx.MayFail)
    (h : fresh (ctx.enter target c) = .error e) : ctx.Raises c e := by
  have hk := entryCompound_mem (entryHeading target c) c
  have hprobe := steady_raises hs _ hk
  rw [enter_eq ht] at h
  have h := (steady_candidatesBelow (hs _ hk)).map_error h
  have hindex : Steady counts (ctx.Raises c)
      (ctx.indexed? (ctx.entryScope (entryHeading target c)) (entryCompound (entryHeading target c) c)) :=
    (steady_indexed? _ _).of_error fun _ he => absurd he (ne_error_of_answers (indexed?_answers hw _ _))
  refine (hindex.bind fun found _ => ?_).error h
  rcases found with _ | found
  · exact .pure _
  · simp only
    split
    · exact (hprobe _).bind fun _ _ => .pure _
    · exact (Steady.pure false).bind fun _ _ => .pure _

/-! ### The same end -/

section Same

variable {entry all first : Entry ν}

/-- Where an entry for the first result has not been tested, an entry for all
results has been. -/
theorem Settled.cases_first (hall : ctx.Settled entry all)
    (hpending : ¬ all.isPending .all = true) (hfirst : ctx.Settled entry first) :
    first = all ∨
      ∃ found, all = { entry with candidates := .tested found } ∧
        Passes (entry.scope :: ctx.tree.walk entry.scope) entry.probe found ∧
        (first = entry ∧ entry.candidates = .unknown ∨
          ∃ found', first = { entry with candidates := .tested found' } ∧ found' ⊆ found) := by
  rcases hall with rfl | ⟨hu, found, rfl, hp⟩
  · rcases hfirst with rfl | ⟨hu, -⟩
    · exact .inl rfl
    · simp [Entry.isPending, hu] at hpending
  · refine .inr ⟨found, rfl, hp, ?_⟩
    rcases hfirst with rfl | ⟨-, found', rfl, hp'⟩
    · exact .inl ⟨rfl, hu⟩
    · exact .inr ⟨found', rfl, fun n hn => (hp.mem_iff n).mpr ((hp'.mem_iff n).mp hn)⟩

variable (hchain : entry.chain = c.map (ctx.compoundProbe false))
variable (hs : ∀ k ∈ c.compounds, (ctx.compoundProbe false k).Steady counts ctx.MayFail)
include hchain hs

/-- Following a chain from a node comes to an end if the test there does and the
way on from a node that passes. -/
theorem followFrom_answers {target : Target} {n : ν} (ha : Answers (entry.accepts n))
    (hr : Yes (entry.accepts n) → Answers (ctx.reachFrom entry.chain n)) :
    Answers (ctx.followFrom target entry n) := by
  have hreach := steady_reachFrom hchain hs n
  unfold followFrom
  refine (steady_accepts hchain hs n).answers_bind (fun b _ => ?_) ha fun b hb => ?_
  · split
    · exact hreach.bind fun _ _ => .pure _
    · exact .pure []
  · split
    · rename_i hyes
      obtain rfl : b = true := hyes
      exact hreach.answers_bind (fun _ _ => .pure _) (hr hb) fun _ _ => answers_pure _
    · exact answers_pure []

theorem reachFrom_answers {target : Target} {n : ν} (hyes : Yes (entry.accepts n))
    (h : Answers (ctx.followFrom target entry n)) : Answers (ctx.reachFrom entry.chain n) := by
  have hreach := steady_reachFrom hchain hs n
  obtain ⟨l, hl⟩ := h
  unfold followFrom at hl
  obtain ⟨b, hb, hl⟩ := (steady_accepts hchain hs n).bind_ok (fun b _ => by
    split
    · exact hreach.bind fun _ _ => .pure _
    · exact .pure []) hl
  obtain rfl : b = true := Except.ok.inj (hb.symm.trans hyes)
  obtain ⟨reached, hreached, -⟩ := hreach.bind_ok (fun _ _ => .pure _) hl
  exact ⟨reached, hreached⟩

/-- The search for the first result of a chain fails where it follows the chain. -/
theorem firstForward_error {nodes : List ν} {best : Option ν}
    (h : fresh (ctx.firstForward entry nodes best) = .error e) :
    ∃ n ∈ nodes, fresh (ctx.followFrom .first entry n) = .error e := by
  induction nodes generalizing best with
  | nil => cases h
  | cons n rest ih =>
    rw [firstForward] at h
    split at h
    · rcases (steady_followFrom hchain hs n).bind_error
        (fun _ _ => steady_firstForward hchain hs rest _) h with h | ⟨_, -, h⟩
      · exact ⟨n, by simp, h⟩
      · obtain ⟨m, hm, h⟩ := ih h
        exact ⟨m, List.mem_cons_of_mem n hm, h⟩
    · cases h

/-- Backward, the same nodes are tested or fewer, and in the same way. -/
theorem findBackward_first_answers (hall : ctx.Settled entry all)
    (hpending : ¬ all.isPending .all = true) (hfirst : ctx.Settled entry first)
    (hnever : ¬ first.isPending .first = true) (hb : entry.heading = .backward)
    (h : Answers (ctx.findBackward .all all)) : Answers (ctx.findBackward .first first) := by
  have hallChain := hall.chain_eq.trans hchain
  have hfirstChain := hfirst.chain_eq.trans hchain
  have hends := answers_of_filterM (fun n _ => steady_endsAt hallChain hs n) h
  have hsteady : ∀ n ∈ ctx.entryNodes first, Steady counts ctx.MayFail (ctx.endsAt .first first n) :=
    fun n _ => steady_endsAt hfirstChain hs n
  refine answers_of_ne_error fun e he => ?_
  unfold findBackward at he
  rw [← map_eq_pure_bind] at he
  obtain ⟨n, hn, he⟩ := findM?_error hsteady ((Steady.findM? hsteady).map_error he)
  rcases hall.cases_first hpending hfirst with
    rfl | ⟨found, rfl, -, ⟨rfl, hu⟩ | ⟨found', rfl, hsub⟩⟩
  · exact ne_error_of_answers (hends n hn) he
  · simp [Entry.isPending, hu, hb] at hnever
  · exact ne_error_of_answers (hends n (hsub hn)) he

/-- Forward, a node that was not tested is left out where it does not pass, and
followed where it does. -/
theorem findForward_first_answers (hall : ctx.Settled entry all)
    (hpending : ¬ all.isPending .all = true) (hfirst : ctx.Settled entry first)
    (h : Answers (ctx.findForward .all all)) : Answers (ctx.findForward .first first) := by
  have hallChain := hall.chain_eq.trans hchain
  have hfirstChain := hfirst.chain_eq.trans hchain
  have hfollow := answers_of_collectM (fun n _ => steady_followFrom hallChain hs n) h
  refine answers_of_ne_error fun e he => ?_
  unfold findForward at he
  rw [← map_eq_pure_bind] at he
  obtain ⟨n, hn, he⟩ := firstForward_error hfirstChain hs
    ((steady_firstForward hfirstChain hs _ _).map_error he)
  rcases hall.cases_first hpending hfirst with
    rfl | ⟨found, rfl, hp, ⟨rfl, hu⟩ | ⟨found', rfl, hsub⟩⟩
  · exact ne_error_of_answers (hfollow n hn) he
  · have hn : n ∈ first.scope :: ctx.tree.walk first.scope := by
      rwa [entryNodes, hu] at hn
    have haccepts : first.accepts n = first.probe.holds n := by rw [Entry.accepts, hu]
    refine ne_error_of_answers (followFrom_answers hchain hs ?_ fun hyes => ?_) he
    · rw [haccepts]
      exact hp.answers n hn
    · rw [haccepts] at hyes
      exact reachFrom_answers hallChain hs rfl (hfollow n ((hp.mem_iff n).mpr ⟨hn, hyes⟩))
  · exact ne_error_of_answers (hfollow n (hsub hn)) he

/-- From the same end, the search for the first result of a chain comes to an end
where the one for all of them does. -/
theorem findFrom_first_answers (hall : ctx.Settled entry all)
    (hpending : ¬ all.isPending .all = true) (hfirst : ctx.Settled entry first)
    (hnever : ¬ first.isPending .first = true) (h : Answers (ctx.findFrom .all all)) :
    Answers (ctx.findFrom .first first) := by
  unfold findFrom at h ⊢
  rw [hall.heading_eq] at h
  rw [hfirst.heading_eq]
  cases hb : entry.heading with
  | backward =>
    rw [hb] at h
    exact findBackward_first_answers hchain hs hall hpending hfirst hnever hb h
  | forward =>
    rw [hb] at h
    exact findForward_first_answers hchain hs hall hpending hfirst h

end Same

/-! ### All chains -/

/-- Below the context node, a chain is entered in the same way for the same end. -/
theorem enter_first_eq (h : entryHeading .first c = entryHeading .all c) :
    ctx.enter .first c = ctx.enter .all c := by
  rw [enter_eq rfl, enter_eq rfl, h]

/-- Where all results are found, each chain has an entry from which they are. -/
theorem Testable.exists_settled (h : ctx.Testable counts branches) {l : List ν}
    (hall : fresh (ctx.find .all branches) = .ok l) (hc : c ∈ branches) :
    ∃ entry all, fresh (ctx.enter .all c) = .ok entry ∧ ctx.Settled entry all ∧
      ¬ all.isPending .all = true ∧ Answers (ctx.findFrom .all all) := by
  obtain ⟨alls, lists, hplan, hlists, -⟩ := h.find_ok hall
  obtain ⟨found, -, all, ⟨entry, hentry, hs, hpending⟩, hfind⟩ :=
    forall₂_exists_left (forall₂_comp ((plan_ok h).2 alls hplan) hlists).flip c hc
  exact ⟨entry, all, hentry, hs, hpending, found, hfind⟩

/-- If all results can be found, the plan for the first one fails only at a test of a
chain that is entered at the other end. -/
theorem Testable.plan_first_error (h : ctx.Testable counts branches) (hw : ctx.warn = false)
    {l : List ν} (hall : fresh (ctx.find .all branches) = .ok l)
    (he : fresh (ctx.plan .first branches) = .error e) :
    ∃ c ∈ branches, entryHeading .first c ≠ entryHeading .all c ∧ ctx.Raises c e := by
  unfold plan at he
  rcases (Steady.mapM h.steady_enter).bind_error (fun _ hr => (gather_ok (h.allSteady hr)).1) he with
    he | ⟨entries, hr, he⟩
  · -- a chain is not entered
    obtain ⟨c, hc, he⟩ := mapM_error h.steady_enter he
    refine ⟨c, hc, fun hsame => ?_, enter_error rfl hw (h.steady hc) he⟩
    obtain ⟨entry, -, hentry, -⟩ := h.exists_settled hall hc
    rw [enter_first_eq hsame, hentry] at he
    cases he
  · -- a walk fails that an entry waits for
    obtain ⟨entry, hmem, hpending, n, hn, he⟩ := gather_error (h.allSteady hr) he
    obtain ⟨c, hc, hce⟩ := forall₂_exists_left (h.entered hr) entry hmem
    have hprobe := probe_eq_of_chain (enter_ok (h.steady hc) hce).1
    refine ⟨c, hc, fun hsame => ?_, _, entryCompound_mem _ c, n, hprobe ▸ he⟩
    obtain ⟨entry', all, hentry', hs, hnever, -⟩ := h.exists_settled hall hc
    rw [← enter_first_eq hsame, hce] at hentry'
    obtain rfl : entry = entry' := Except.ok.inj hentry'
    have hu := candidates_of_isPending hpending
    rcases hs with rfl | ⟨-, found, rfl, hpass⟩
    · simp [Entry.isPending, hu] at hnever
    · exact ne_error_of_answers (hpass.answers n hn) he

/-- If all results can be found, what is planned for the first one fails only at a test
of a chain that is entered at the other end. -/
theorem Testable.findFrom_first_error (h : ctx.Testable counts branches) {l : List ν}
    (hall : fresh (ctx.find .all branches) = .ok l) {firsts : List (Entry ν)} {first : Entry ν}
    (hp : fresh (ctx.plan .first branches) = .ok firsts) (hmem : first ∈ firsts)
    (he : fresh (ctx.findFrom .first first) = .error e) :
    ∃ c ∈ branches, entryHeading .first c ≠ entryHeading .all c ∧ ctx.Raises c e := by
  obtain ⟨c, hc, entry, hentry, hs, hnever⟩ :=
    forall₂_exists_left ((plan_ok h).2 firsts hp) first hmem
  have hchain := (enter_ok (h.steady hc) hentry).1
  refine ⟨c, hc, fun hsame => ?_, ?_⟩
  · obtain ⟨entry', all, hentry', hs', hpending, hfind⟩ := h.exists_settled hall hc
    rw [← enter_first_eq hsame, hentry] at hentry'
    obtain rfl : entry = entry' := Except.ok.inj hentry'
    exact ne_error_of_answers
      (findFrom_first_answers hchain (h.steady hc) hs' hpending hs hnever hfind) he
  · exact (Context.steady_findFrom (hs.chain_eq.trans hchain) (steady_raises (h.steady hc))).error he

/-- If all results can be found, the search for the first one fails only at a test
of a chain that it enters at the other end. -/
theorem Testable.find_first_error (h : ctx.Testable counts branches) (hw : ctx.warn = false)
    {l : List ν} (hall : fresh (ctx.find .all branches) = .ok l)
    (he : fresh (ctx.find .first branches) = .error e) :
    ∃ c ∈ branches, entryHeading .first c ≠ entryHeading .all c ∧ ctx.Raises c e := by
  unfold find at he
  rcases (plan_ok h).1.bind_error (fun _ hp =>
    (Steady.collectM (h.steady_findFrom hp)).bind fun _ _ => .pure _) he with he | ⟨firsts, hp, he⟩
  · exact h.plan_first_error hw hall he
  rcases (Steady.collectM (h.steady_findFrom hp)).bind_error (fun _ _ => .pure _) he with
    he | ⟨_, -, he⟩
  · obtain ⟨first, hmem, he⟩ := collectM_error (h.steady_findFrom hp) he
    exact h.findFrom_first_error hall hp hmem he
  · cases he

end Context

/-! ### Matchers -/

namespace Matcher

variable {tree : View ν} {text : String} {node : ν} {m : Matcher ν}

/-- If all results can be found, the first one can be found as well, or the search
for it comes to a prefix that is not declared: one that is written in a branch which
the two searches enter at different ends. -/
theorem first_of_all (hm : new tree text node false = .ok m) {l : List ν}
    (hl : fresh m.all = .ok l) :
    (∃ r, fresh m.first = .ok r) ∨
      ∃ c ∈ m.branches, entryHeading .first c ≠ entryHeading .all c ∧
        ∃ q e, c.Writes q ∧ Undeclared tree.toLinks q e ∧ fresh m.first = .error e := by
  obtain ⟨counts, ht⟩ := exists_testable hm
  obtain ⟨htree, -, hw⟩ := Context.of_ok (new_ok hm).1
  have hall := fresh_find_ok (not_swallows hm _) hl
  rcases hr : fresh (m.context.find .first m.branches) with e | found
  · obtain ⟨c, hc, hheading, hraises⟩ := ht.find_first_error hw hall hr
    obtain ⟨q, hwrites, hq⟩ := hraises.undeclared hw
    rw [htree] at hq
    refine .inr ⟨c, hc, hheading, q, e, hwrites, hq, ?_⟩
    have hfind : fresh (m.find .first) = .error e := by
      have hfault : ¬ e.fault = .unsupported := fun hf => not_swallows hm .first ⟨e, hr, hf⟩
      rw [fresh_find, hr]
      simp [hfault]
    unfold first
    rw [fresh_bind_pure, hfind]
    rfl
  · refine .inl ⟨found.head?, ?_⟩
    unfold first
    rw [fresh_bind_pure, fresh_find, hr]
    rfl

open Document in
/-- No box has the class that the search for all results begins with, and the other
search begins at the prefix. -/
theorem answers_boxes : ∃ m, new boxes.view ".a foo|p" root false = .ok m ∧
    m.branches = [⟨none, [⟨[.className "a"], .descendant⟩], [.type ⟨some (.named "foo"), "p"⟩]⟩] ∧
    fresh m.all = .ok [] ∧ (fresh m.first).toOption = none := by
  have heval : (new boxes.view ".a foo|p" root false).toOption.map
      (fun m => (m.branches, (fresh m.all).toOption, (fresh m.first).toOption)) =
        some ([⟨none, [⟨[.className "a"], .descendant⟩], [.type ⟨some (.named "foo"), "p"⟩]⟩],
          some [], none) := by cbv
  obtain ⟨m, hm, hrun⟩ := exists_of_toOption_map heval
  obtain ⟨hbranches, hrun⟩ := Prod.mk.inj hrun
  obtain ⟨hall, hfirst⟩ := Prod.mk.inj hrun
  exact ⟨m, hm, hbranches, ok_of_toOption hall, hfirst⟩

open Document in
theorem first_of_all_boxes : ∃ m, new boxes.view ".a foo|p" root false = .ok m ∧
    fresh m.all = .ok [] ∧ ((∃ r, fresh m.first = .ok r) ∨
      ∃ c ∈ m.branches, entryHeading .first c ≠ entryHeading .all c ∧
        ∃ q e, c.Writes q ∧ Undeclared boxes.view.toLinks q e ∧ fresh m.first = .error e) := by
  obtain ⟨m, hm, -, hall, -⟩ := answers_boxes
  exact ⟨m, hm, hall, first_of_all hm hall⟩

open Document in
/-- The search for the first result may fail where the one for all results does not. -/
theorem first_fails_alone : ¬ ∀ (tree : View NodeId) text node m l,
    new tree text node false = .ok m → fresh m.all = .ok l → ∃ r, fresh m.first = .ok r := by
  intro h
  obtain ⟨m, hm, -, hall, hfirst⟩ := answers_boxes
  obtain ⟨r, hr⟩ := h _ _ _ m [] hm hall
  rw [hr] at hfirst
  cases hfirst

end Matcher

end DomQuery.Query
