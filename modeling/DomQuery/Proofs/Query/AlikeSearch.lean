import DomQuery.Proofs.Query.Alike
import DomQuery.Proofs.Query.Matcher

/-!
# Searches that look alike

In contexts that look alike, searches are planned alike and go the same way, so
they find the same nodes.

* `Alike.plan`: chains are entered at the same end, with the same candidates.
* `Alike.find`: the nodes that are found, in the order in which they are.
* `Matcher.fresh_ask`: a question is answered from what is found for it.
-/

namespace DomQuery.Query

open DomQuery.Selector DomQuery.Tree

variable {ν : Type}

/-- The nodes that are known to come into question. -/
def Candidates.nodes : Candidates ν → List ν
  | .tested nodes | .untested nodes => nodes
  | .unknown => []

variable [DecidableEq ν] {p : Pairing ν}

namespace Pairing

/-- The same is known of the candidates. -/
def SameCandidates (p : Pairing ν) (candidates candidates' : Candidates ν) : Prop :=
  candidates' = candidates ∧ ∀ n ∈ candidates.nodes, p.inside n

/-- The same chain is entered at the same end, with the same candidates. -/
structure SameEntry (p : Pairing ν) (e e' : Entry ν) : Prop where
  chain : ∃ c : Chain Compound, (∀ k ∈ c.compounds, p.TestsAlike false false k) ∧
    e.chain = c.map (p.left.compoundProbe false) ∧ e'.chain = c.map (p.right.compoundProbe false)
  heading_eq : e'.heading = e.heading
  scope_eq : e'.scope = e.scope
  inside_scope : p.inside e.scope
  candidates : p.SameCandidates e.candidates e'.candidates

namespace SameEntry

variable {e e' : Entry ν} (he : p.SameEntry e e')
include he

theorem probe {n : ν} (hn : p.inside n) : p.Runs Eq (e.probe.holds n) (e'.probe.holds n) := by
  obtain ⟨c, hk, hc, hc'⟩ := he.chain
  rw [Context.probe_eq_of_chain hc, Context.probe_eq_of_chain hc', he.heading_eq]
  exact hk _ (Context.entryCompound_mem _ c) n hn

theorem isPending_eq (target : Target) : e'.isPending target = e.isPending target := by
  rw [Entry.isPending, Entry.isPending, he.candidates.1, he.heading_eq]

theorem accepts {n : ν} (hn : p.inside n) : p.Runs Eq (e.accepts n) (e'.accepts n) := by
  unfold Entry.accepts
  rw [he.candidates.1]
  split
  · exact .pure rfl
  · exact he.probe hn

end SameEntry

namespace Alike

variable (h : p.Alike)
include h

/-! ### Candidates -/

theorem indexed? (k : Compound) {scope : ν} (hscope : p.inside scope) :
    p.Runs p.SameIndex (p.left.indexed? scope k) (p.right.indexed? scope k) := by
  unfold Context.indexed?
  split
  · exact ((h.complain _ rfl).map (S := Eq) fun _ _ _ => rfl).bind_eq fun _ => .pure (.some .nil)
  · exact .pure (h.indexedById _)
  · refine .pure ?_
    cases lookup? k with
    | none => exact .none
    | some l => exact h.indexedBelow scope l hscope

theorem candidatesBelow {k : Compound} (hk : p.TestsAlike false false k) (heading : Heading)
    {scope : ν} (hscope : p.inside scope) :
    p.Runs p.SameCandidates
      (p.left.candidatesBelow heading scope k (p.left.compoundProbe false k))
      (p.right.candidatesBelow heading scope k (p.right.compoundProbe false k)) := by
  unfold Context.candidatesBelow
  refine (h.indexed? k hscope).bind fun found found' hfound => ?_
  rcases hfound with hfound | _
  · rename_i nodes nodes'
    have hreturn : ∀ atRoot : Bool, p.Runs p.SameCandidates
        (pure (if k.length == 1 then .tested (if atRoot then p.left.root :: nodes else nodes)
          else .untested (if atRoot then p.left.root :: nodes else nodes)) : Eval ν (Candidates ν))
        (pure (if k.length == 1 then .tested (if atRoot then p.left.root :: nodes' else nodes')
          else .untested (if atRoot then p.left.root :: nodes' else nodes'))) := by
      intro atRoot
      obtain ⟨heq, hmem⟩ : p.Same (if atRoot then p.left.root :: nodes else nodes)
          (if atRoot then p.left.root :: nodes' else nodes') := by
        cases atRoot
        · exact hfound
        · exact hfound.cons h.inside_root
      refine .pure ⟨by rw [heq], fun n hn => ?_⟩
      split at hn <;> exact hmem n hn
    dsimp only
    rw [h.root_eq, h.isElement_eq _ h.inside_root]
    split
    · exact (hk _ h.inside_root).bind_eq hreturn
    · exact (Parallel.pure (R := Eq) rfl).bind_eq hreturn
  · exact .pure ⟨rfl, by simp [Candidates.nodes]⟩

theorem enter {c : Chain Compound} (hk : ∀ k ∈ c.compounds, p.TestsAlike false false k)
    (target : Target) :
    p.Runs p.SameEntry (p.left.enter target c) (p.right.enter target c) := by
  have hlast := hk _ c.last_mem_compounds
  have htested : ∀ nodes nodes', p.Same nodes nodes' → p.Runs p.SameEntry
      (pure ⟨c.map (p.left.compoundProbe false), entryHeading target c, p.left.node,
        .tested nodes⟩ : Eval ν (Entry ν))
      (pure ⟨c.map (p.right.compoundProbe false), entryHeading target c, p.right.node,
        .tested nodes'⟩) := fun nodes nodes' hnodes =>
    .pure ⟨⟨c, hk, rfl, rfl⟩, rfl, h.node_eq, h.inside_node, by rw [hnodes.eq], hnodes.mem⟩
  have hbelow : target.isBelow = true →
      p.Runs p.SameEntry (p.left.enter target c) (p.right.enter target c) := by
    intro ht
    rw [Context.enter_eq ht, Context.enter_eq ht]
    obtain ⟨hscope, hinside⟩ :
        p.right.entryScope (entryHeading target c) = p.left.entryScope (entryHeading target c) ∧
          p.inside (p.left.entryScope (entryHeading target c)) := by
      cases entryHeading target c
      · exact ⟨h.root_eq, h.inside_root⟩
      · exact ⟨h.node_eq, h.inside_node⟩
    dsimp only
    rw [hscope]
    refine (h.candidatesBelow (hk _ (Context.entryCompound_mem _ c)) _ hinside).map
      fun candidates candidates' hcandidates => ?_
    exact ⟨⟨c, hk, rfl, rfl⟩, rfl, rfl, hinside, hcandidates⟩
  cases target with
  | itself =>
    simp only [Context.enter, Context.chainProbe_eq]
    have hnode : p.Same [p.left.node] [p.right.node] := by
      rw [h.node_eq]
      exact Shared.nil.cons h.inside_node
    refine (Parallel.filterM hnode fun n hn => ?_).bind htested
    rw [h.isElement_eq n hn]
    split
    · exact hlast n hn
    · exact .pure rfl
  | nearest =>
    simp only [Context.enter, Context.chainProbe_eq]
    refine (Parallel.filterM ?_ hlast).bind htested
    rw [h.node_eq]
    exact h.elementLine _ h.inside_node
  | first | all => exact hbelow rfl

/-! ### Walks that entries share -/

omit h [DecidableEq ν] in
theorem sweep {probes probes' : List (Probe ν)} (hprobes : List.Forall₂
      (fun q q' => ∀ n, p.inside n → p.Runs Eq (q.holds n) (q'.holds n)) probes probes')
    {nodes nodes' : List ν} (hnodes : p.Same nodes nodes') :
    p.Runs (Shared fun found => ∀ n ∈ found, p.inside n) (Context.sweep probes nodes)
      (Context.sweep probes' nodes') := by
  obtain ⟨rfl, hnodes⟩ := hnodes
  induction nodes' with
  | nil =>
    refine .pure ⟨?_, by simp⟩
    rw [List.map_const', List.map_const', hprobes.length_eq]
  | cons n rest ih =>
    obtain ⟨hn, hrest⟩ := List.forall_mem_cons.mp hnodes
    rw [Context.sweep, Context.sweep]
    refine (Parallel.mapM (S := Eq) hprobes fun q q' hq => hq n hn).bind fun hits hits' hhits => ?_
    obtain rfl : hits = hits' := by rwa [List.forall₂_eq_eq_eq] at hhits
    refine (ih hrest).bind fun found found' hfound => .pure ?_
    obtain ⟨rfl, hmem⟩ := hfound
    refine ⟨rfl, fun nodes hz => ?_⟩
    obtain ⟨i, hi, rfl⟩ := List.mem_iff_getElem.mp hz
    rw [List.getElem_zipWith]
    have hall := hmem _ (List.getElem_mem (by simp at hi; omega : i < found'.length))
    split
    · exact List.forall_mem_cons.mpr ⟨hn, hall⟩
    · exact hall

omit h in
/-- What a walk found goes to the same entries. -/
theorem settle {waits : Entry ν → Bool} (hwaits : ∀ e e', p.SameEntry e e' → waits e' = waits e)
    {entries entries' : List (Entry ν)} (he : List.Forall₂ p.SameEntry entries entries')
    {found : List (List ν)} (hfound : ∀ nodes ∈ found, ∀ n ∈ nodes, p.inside n) :
    List.Forall₂ p.SameEntry (Context.settle waits entries found)
      (Context.settle waits entries' found) := by
  induction he generalizing found with
  | nil => exact .nil
  | @cons e e' rest rest' he _ ih =>
    rw [Context.settle, Context.settle, hwaits e e' he]
    split
    · refine .cons ?_ (ih fun nodes hn => hfound nodes (List.mem_of_mem_tail hn))
      refine ⟨he.chain, he.heading_eq, he.scope_eq, he.inside_scope, rfl, ?_⟩
      cases found with
      | nil => simp [Candidates.nodes]
      | cons nodes found => exact hfound nodes List.mem_cons_self
    · exact .cons he (ih hfound)

omit h in
theorem filter_entries {waits : Entry ν → Bool}
    (hwaits : ∀ e e', p.SameEntry e e' → waits e' = waits e) {entries entries' : List (Entry ν)}
    (he : List.Forall₂ p.SameEntry entries entries') :
    List.Forall₂ p.SameEntry (entries.filter waits) (entries'.filter waits) := by
  induction he with
  | nil => exact .nil
  | @cons e e' _ _ he _ ih =>
    rw [List.filter_cons, List.filter_cons, hwaits e e' he]
    split
    · exact .cons he ih
    · exact ih

theorem gatherIn (target : Target) {scope : ν} (hscope : p.inside scope)
    {entries entries' : List (Entry ν)} (he : List.Forall₂ p.SameEntry entries entries') :
    p.Runs (List.Forall₂ p.SameEntry) (p.left.gatherIn target scope entries)
      (p.right.gatherIn target scope entries') := by
  have hwaits : ∀ e e' : Entry ν, p.SameEntry e e' →
      (e'.isPending target && e'.scope == scope) = (e.isPending target && e.scope == scope) :=
    fun e e' he => by rw [he.isPending_eq, he.scope_eq]
  unfold Context.gatherIn
  refine (sweep ?_ ((h.walk scope hscope).cons hscope)).bind fun found found' hfound => .pure ?_
  · rw [List.forall₂_map_left_iff, List.forall₂_map_right_iff]
    exact (filter_entries hwaits he).imp fun e e' he n => he.probe
  · rw [hfound.eq]
    exact settle hwaits he hfound.mem

theorem gather (target : Target) {entries entries' : List (Entry ν)}
    (he : List.Forall₂ p.SameEntry entries entries') :
    p.Runs (List.Forall₂ p.SameEntry) (p.left.gather target entries)
      (p.right.gather target entries') := by
  have hscopes : ∀ {entries entries' : List (Entry ν)}, List.Forall₂ p.SameEntry entries entries' →
      p.Same (entries.map Entry.scope) (entries'.map Entry.scope) := by
    intro entries entries' he
    induction he with
    | nil => exact .nil
    | cons he _ ih =>
      rw [List.map_cons, List.map_cons, he.scope_eq]
      exact ih.cons he.inside_scope
  obtain ⟨heq, hmem⟩ := hscopes (filter_entries (fun e e' he => he.isPending_eq target) he)
  unfold Context.gather
  dsimp only
  rw [heq]
  refine .foldlM (P := p.inside) (.of_subset fun scope hs => hmem scope (mem_distinct.mp hs))
    (fun entries entries' he scope hscope => h.gatherIn target hscope he) he

/-! ### Plans and searches -/

variable {branches : List (Chain Compound)}
variable (hk : ∀ c ∈ branches, ∀ k ∈ c.compounds, p.TestsAlike false false k)

include hk in
theorem plan (target : Target) :
    p.Runs (List.Forall₂ p.SameEntry) (p.left.plan target branches)
      (p.right.plan target branches) := by
  have hbranches : List.Forall₂
      (fun c c' => c' = c ∧ ∀ k ∈ c.compounds, p.TestsAlike false false k) branches branches :=
    List.forall₂_same.mpr fun c hc => ⟨rfl, hk c hc⟩
  refine (Parallel.mapM hbranches ?_).bind fun entries entries' he => h.gather target he
  rintro c _ ⟨rfl, hc⟩
  exact h.enter hc target

omit h in
theorem distinct {nodes nodes' : List ν} (hnodes : p.Same nodes nodes') :
    p.Same (distinct nodes) (distinct nodes') := by
  rw [hnodes.eq]
  exact .of_subset fun n hn => hnodes.mem n (mem_distinct.mp hn)

theorem reach {steps : List (Combinator × Compound)}
    (hs : ∀ s ∈ steps, p.TestsAlike false false s.2) {nodes nodes' : List ν}
    (hnodes : p.Same nodes nodes') :
    p.Runs p.Same
      (p.left.reach (steps.map fun s => (s.1, p.left.compoundProbe false s.2)) nodes)
      (p.right.reach (steps.map fun s => (s.1, p.right.compoundProbe false s.2)) nodes') := by
  induction steps generalizing nodes nodes' with
  | nil => exact .pure hnodes
  | cons s steps ih =>
    obtain ⟨hs, hsteps⟩ := List.forall_mem_cons.mp hs
    rw [List.map_cons, List.map_cons, Context.reach, Context.reach]
    refine (Parallel.collectM_shared hnodes fun m hm => h.step hs .forward s.1 hm).bind ?_
    exact fun found found' hfound => ih hsteps (distinct hfound)

section Entry

variable {e e' : Entry ν} (he : p.SameEntry e e')
include he

theorem entryNodes : p.Same (p.left.entryNodes e) (p.right.entryNodes e') := by
  obtain ⟨heq, hmem⟩ := he.candidates
  unfold Context.entryNodes
  rw [heq, he.scope_eq]
  cases hc : e.candidates with
  | tested nodes | untested nodes =>
    rw [hc] at hmem
    exact ⟨rfl, hmem⟩
  | unknown => exact (h.walk _ he.inside_scope).cons he.inside_scope

omit he in
theorem isEligible_eq (target : Target) {n : ν} (hn : p.inside n) :
    p.right.isEligible target n = p.left.isEligible target n := by
  rw [Context.isEligible, Context.isEligible, h.inScope_eq n hn]

theorem endsAt (target : Target) {n : ν} (hn : p.inside n) :
    p.Runs Eq (p.left.endsAt target e n) (p.right.endsAt target e' n) := by
  obtain ⟨c, hk, hc, hc'⟩ := he.chain
  have hlinks : ∀ link ∈ c.links.reverse, p.TestsAlike false false link.compound :=
    fun link hl => hk _ (c.compound_mem_compounds (List.mem_reverse.mp hl))
  have hback := h.leadsBack hlinks hn
  rw [List.map_reverse, List.map_reverse] at hback
  unfold Context.endsAt
  rw [h.isEligible_eq target hn, hc, hc']
  split
  · exact .pure rfl
  · refine (he.accepts hn).bind_eq fun b => ?_
    split
    · exact .pure rfl
    · exact hback

theorem reachFrom {n : ν} (hn : p.inside n) :
    p.Runs p.Same (p.left.reachFrom e.chain n) (p.right.reachFrom e'.chain n) := by
  obtain ⟨c, hk, hc, hc'⟩ := he.chain
  rw [Context.reachFrom, Context.reachFrom, hc, hc', Context.forwardSteps_map,
    Context.forwardSteps_map]
  exact h.reach (fun s hs => hk _ (Context.mem_forwardSteps hs)) (Shared.nil.cons hn)

theorem followFrom (target : Target) {n : ν} (hn : p.inside n) :
    p.Runs p.Same (p.left.followFrom target e n) (p.right.followFrom target e' n) := by
  unfold Context.followFrom
  refine (he.accepts hn).bind_eq fun b => ?_
  split
  · refine (h.reachFrom he hn).bind fun found found' hfound => .pure ?_
    exact hfound.filter fun m hm => h.isEligible_eq target hm
  · exact .pure .nil

theorem findBackward (target : Target) :
    p.Runs p.Same (p.left.findBackward target e) (p.right.findBackward target e') := by
  have hnodes := h.entryNodes he
  have hends : ∀ n, p.inside n →
      p.Runs Eq (p.left.endsAt target e n) (p.right.endsAt target e' n) :=
    fun n hn => h.endsAt he target hn
  unfold Context.findBackward
  split
  · refine (Parallel.findM? hnodes hends).bind fun r s hr => .pure ?_
    rw [hr.1]
    exact .of_subset fun n hn => hr.2 n (Option.mem_toList.mp hn)
  · exact .filterM hnodes hends

omit he in
theorem improves_eq {best : Option ν} (hbest : ∀ n ∈ best, p.inside n) {n : ν} (hn : p.inside n) :
    p.right.improves best n = p.left.improves best n := by
  cases best with
  | none => rfl
  | some b => exact congrArg (· == Ordering.lt) (h.compare_eq n b hn (hbest b rfl))

omit he in
theorem earlier_eq {best : Option ν} (hbest : ∀ n ∈ best, p.inside n) {n : ν} (hn : p.inside n) :
    p.right.earlier best n = p.left.earlier best n ∧
      ∀ m ∈ p.left.earlier best n, p.inside m := by
  unfold Context.earlier
  rw [h.improves_eq hbest hn]
  refine ⟨rfl, ?_⟩
  split
  · rintro m ⟨⟩
    exact hn
  · exact hbest

omit he in
/-- The earliest of some nodes is the same. -/
theorem foldl_earlier {nodes : List ν} (hnodes : ∀ n ∈ nodes, p.inside n) {best : Option ν}
    (hbest : ∀ n ∈ best, p.inside n) :
    nodes.foldl p.right.earlier best = nodes.foldl p.left.earlier best ∧
      ∀ m ∈ nodes.foldl p.left.earlier best, p.inside m := by
  induction nodes generalizing best with
  | nil => exact ⟨rfl, hbest⟩
  | cons n nodes ih =>
    obtain ⟨hn, hnodes⟩ := List.forall_mem_cons.mp hnodes
    obtain ⟨heq, hearlier⟩ := h.earlier_eq hbest hn
    rw [List.foldl_cons, List.foldl_cons, heq]
    exact ih hnodes hearlier

theorem firstForward {nodes : List ν} (hnodes : ∀ n ∈ nodes, p.inside n) {best : Option ν}
    (hbest : ∀ n ∈ best, p.inside n) :
    p.Runs (fun r s => s = r ∧ ∀ n ∈ r, p.inside n) (p.left.firstForward e nodes best)
      (p.right.firstForward e' nodes best) := by
  induction nodes generalizing best with
  | nil => exact .pure ⟨rfl, hbest⟩
  | cons n nodes ih =>
    obtain ⟨hn, hnodes⟩ := List.forall_mem_cons.mp hnodes
    rw [Context.firstForward, Context.firstForward, h.improves_eq hbest hn]
    split
    · refine (h.followFrom he .first hn).bind fun found found' hfound => ?_
      obtain ⟨heq, hbest'⟩ := h.foldl_earlier hfound.mem hbest
      rw [hfound.eq, heq]
      exact ih hnodes hbest'
    · exact .pure ⟨rfl, hbest⟩

theorem findForward (target : Target) :
    p.Runs p.Same (p.left.findForward target e) (p.right.findForward target e') := by
  have hnodes := h.entryNodes he
  unfold Context.findForward
  split
  · rw [hnodes.eq]
    refine (h.firstForward he hnodes.mem (by simp)).bind fun r s hr => .pure ?_
    rw [hr.1]
    exact .of_subset fun n hn => hr.2 n (Option.mem_toList.mp hn)
  · exact .collectM_shared hnodes fun n hn => h.followFrom he _ hn

theorem findFrom (target : Target) :
    p.Runs p.Same (p.left.findFrom target e) (p.right.findFrom target e') := by
  unfold Context.findFrom
  rw [he.heading_eq]
  split
  · exact h.findBackward he target
  · exact h.findForward he target

end Entry

theorem answer_eq (target : Target) {nodes nodes' : List ν} (hnodes : p.Same nodes nodes') :
    p.right.answer target nodes' = p.left.answer target nodes := by
  obtain ⟨rfl, hmem⟩ := hnodes
  cases target with
  | itself => rw [Context.answer, Context.answer, h.node_eq]
  | nearest => rw [Context.answer, Context.answer, h.node_eq, h.ancestors_eq _ h.inside_node]
  | first => rw [Context.answer, Context.answer, (h.foldl_earlier hmem (by simp)).1]
  | all =>
    have hsort := List.map_mergeSort (f := id) (l := nodes')
      (r := fun a b => (p.left.tree.compare a b).isLE)
      (s := fun a b => (p.right.tree.compare a b).isLE) fun a ha b hb => by
        rw [id, id, h.compare_eq a b (hmem a ha) (hmem b hb)]
    rw [List.map_id, List.map_id] at hsort
    exact hsort.symm

include hk in
/-- The same nodes are found, in parallel. -/
theorem find_of_testsAlike (target : Target) :
    p.Runs Eq (p.left.find target branches) (p.right.find target branches) := by
  unfold Context.find
  refine (h.plan hk target).bind fun entries entries' he => ?_
  refine (Parallel.collectM he fun e e' he => h.findFrom he target).bind fun found found' hfound => ?_
  exact .pure (h.answer_eq target (distinct hfound)).symm

/-- Searches run in parallel, if nothing that is forgiven is an excuse. -/
theorem find (hexcuse : ∀ e, p.excuse e → e.fault ≠ .badSelector)
    (hb : Each (Simple.All p.Admits) branches) (target : Target) :
    p.Runs Eq (p.left.find target branches) (p.right.find target branches) := by
  refine h.find_of_testsAlike (fun c hc k hk n hn => ?_) target
  rw [Context.holds_compoundProbe, Context.holds_compoundProbe]
  refine .allM (.of_subset fun s hs => hs) fun s hs => ?_
  exact h.holdsSimple hexcuse s (hb c hc k hk s hs) false hn

end Alike

end Pairing

/-! ### Questions -/

/-- What is searched for to answer a question. -/
def Call.target : Call → Target
  | .isMatch => .itself
  | .closest => .nearest
  | .first => .first
  | .all => .all

/-- The answer to a question of `node`, for what was found. -/
def Call.read (node : ν) : Call → List ν → Answer ν
  | .isMatch, found => .truth (found.contains node)
  | .closest, found | .first, found => .node found.head?
  | .all, found => .nodes found

namespace Matcher

/-- Why a question cannot be asked of the context node. -/
def refusal? (m : Matcher ν) : Call → Option QueryError
  | .isMatch =>
    if m.context.tree.isElement m.context.node then none
    else some (.elementRequired "matches" (m.context.tree.kind m.context.node))
  | .closest =>
    if m.context.tree.isElement m.context.node then none
    else some (.elementRequired "closest" (m.context.tree.kind m.context.node))
  | .first | .all => none

omit [DecidableEq ν] in
theorem requireElement_eq (m : Matcher ν) (operation : String) :
    m.requireElement operation =
      if m.context.tree.isElement m.context.node then pure ()
      else throw (.elementRequired operation (m.context.tree.kind m.context.node)) := by
  unfold requireElement Links.isElement
  cases m.context.tree.kind m.context.node <;> rfl

/-- A question that makes sense is answered from what is found for it. -/
theorem fresh_ask (m : Matcher ν) (call : Call) :
    fresh (m.ask call) =
      match m.refusal? call with
      | some e => .error e
      | none => call.read m.context.node <$> fresh (m.find call.target) := by
  have hmap : ∀ {α : Type} (x : Eval ν α) (f : α → Answer ν), fresh (f <$> x) = f <$> fresh x :=
    fun x f => by rw [map_eq_pure_bind, fresh_bind_pure]
  cases call with
  | isMatch | closest =>
    rw [ask, hmap, refusal?]
    first | unfold isMatch | unfold closest
    rw [requireElement_eq]
    split
    · rw [pure_bind, fresh_bind_pure, Functor.map_map]
      rfl
    · rfl
  | first =>
    rw [ask, hmap, first, fresh_bind_pure, Functor.map_map]
    rfl
  | all => exact hmap _ _

/-- The answer depends on what is found, and on whether the question makes sense. -/
theorem fresh_ask_congr (m m' : Matcher ν) {call : Call}
    (hnode : m'.context.node = m.context.node) (hrefusal : m'.refusal? call = m.refusal? call)
    (hfind : fresh (m'.find call.target) = fresh (m.find call.target)) :
    fresh (m'.ask call) = fresh (m.ask call) := by
  rw [fresh_ask, fresh_ask, hrefusal, hnode, hfind]

end Matcher

/-- The outcome of a question, when nothing was asked before. -/
def outcome (tree : View ν) (text : String) (node : ν) (warn : Bool) (call : Call) :
    Except QueryError (Answer ν) := do
  let m ← Matcher.new tree text node warn
  fresh (m.ask call)

/-- The chains that a text spells. -/
def chainsOf (text : String) : Except QueryError (List (Chain Compound)) := do
  let list ← (SelectorList.ofText text).mapError .selector
  (list.resolve .strict).mapError .selector

/-- What the tree has to do with an outcome is all in the context of the node. -/
theorem outcome_eq (tree : View ν) (text : String) (node : ν) (warn : Bool) (call : Call) :
    outcome tree text node warn call = (do
      let context ← Context.of tree node warn
      let branches ← chainsOf text
      fresh (Matcher.ask ⟨context, text, branches⟩ call)) := by
  simp only [outcome, chainsOf, Matcher.new_eq, bind_assoc, pure_bind]

end DomQuery.Query
