import DomQuery.Proofs.Query.Search
import DomQuery.Proofs.Query.Session

/-!
# The answers of a matcher

A matcher searches in the surroundings of its context node, and those are the
same for all nodes of a tree. So the answers to its questions fit together:

* `mem_all_iff_isMatch`: all results come in document order, and they are the
  elements below the context node that match.
* `first_eq_head?_all`: the first result is the first one of all results.
-/

namespace DomQuery.Query

open DomQuery.Selector DomQuery.Tree

variable {ν : Type}

/-- All nodes of a tree belong to the same document, and a document belongs to
itself. -/
structure HasOwners (v : View ν) : Prop where
  ownerDocument_eq : ∀ {a b}, v.SameTree a b → v.ownerDocument a = v.ownerDocument b
  ownerDocument_self : ∀ {d}, v.kind d = .document → v.ownerDocument d = some d

/-! ### Contexts -/

namespace Context

variable {tree : View ν} {node : ν} {warn : Bool} {ctx : Context ν}

theorem of_ok (h : of tree node warn = .ok ctx) :
    ctx.tree = tree ∧ ctx.node = node ∧ ctx.warn = warn := by
  unfold of at h
  split at h <;> first
    | cases h
      exact ⟨rfl, rfl, rfl⟩
    | cases h

/-- A document or a fragment is the top of its tree. -/
theorem topmost_of_kind (ht : tree.WellFormed)
    (h : tree.kind node = .document ∨ tree.kind node = .fragment) : tree.topmost node = node := by
  refine Links.topmost_of_parent_none ?_
  by_contra hp
  obtain ⟨p, hp⟩ := Option.ne_none_iff_exists'.mp hp
  have := ht.kind_of_child hp
  simp_all

/-- What is known of the surroundings is known from the tree around the node. -/
theorem of_eq (ht : tree.WellFormed) (h : of tree node warn = .ok ctx) :
    ctx = ⟨tree, node, tree.topmost node, ctx.document,
      tree.kind (tree.topmost node) == .fragment && (tree.shadowHost (tree.topmost node)).isSome,
      warn⟩ := by
  unfold of at h
  split at h
  · rename_i hk
    obtain rfl : _ = ctx := by simpa using h
    rw [topmost_of_kind ht (.inl hk), hk]
    rfl
  · rename_i hk
    obtain rfl : _ = ctx := by simpa using h
    rw [topmost_of_kind ht (.inr hk), hk]
    rfl
  · obtain rfl : _ = ctx := by simpa using h
    rfl
  · cases h

theorem document_of (ho : HasOwners tree) (h : of tree node warn = .ok ctx) :
    ctx.document = tree.ownerDocument node := by
  unfold of at h
  split at h
  · rename_i hk
    obtain rfl : _ = ctx := by simpa using h
    exact (ho.ownerDocument_self hk).symm
  · obtain rfl : _ = ctx := by simpa using h
    rfl
  · obtain rfl : _ = ctx := by simpa using h
    rfl
  · cases h

/-- Within a tree, contexts differ in their nodes only. -/
theorem of_withNode (ht : tree.WellFormed) (ho : HasOwners tree) {n : ν} {ctx' : Context ν}
    (h : of tree node warn = .ok ctx) (h' : of tree n warn = .ok ctx')
    (hn : tree.SameTree node n) : ctx' = ctx.withNode n := by
  rw [of_eq ht h, of_eq ht h', document_of ho h, document_of ho h', ho.ownerDocument_eq hn]
  rw [Links.SameTree] at hn
  rw [hn]
  rfl

variable [DecidableEq ν]

theorem grounded_of (hv : IsSound tree) (h : of tree node warn = .ok ctx) : ctx.Grounded := by
  rw [of_eq hv.wellFormed h]
  exact ⟨hv, rfl⟩

theorem compoundProbe_withNode {k : Compound} {n : ν}
    (h : ∀ s ∈ k, s.All (· ≠ .keyword .scope)) (forgive : Bool) :
    (ctx.withNode n).compoundProbe forgive k = ctx.compoundProbe forgive k := by
  unfold compoundProbe
  rw [List.map_congr_left fun s hs => holdsSimple_withNode s (h s hs) forgive]

theorem leads_withNode {steps : List (Combinator × Compound)} {n x y : ν}
    (h : ∀ step ∈ steps, ∀ s ∈ step.2, s.All (· ≠ .keyword .scope)) :
    (ctx.withNode n).Leads steps x y ↔ ctx.Leads steps x y := by
  induction steps generalizing x with
  | nil => rfl
  | cons step steps ih =>
    obtain ⟨hstep, hsteps⟩ := List.forall_mem_cons.mp h
    simp only [Leads, Satisfies, compoundProbe_withNode hstep, ih hsteps]
    rfl

/-- What a chain matches does not depend on the context node, unless the chain
asks for it. -/
theorem matches_withNode {c : Chain Compound} {n y : ν}
    (h : ∀ k ∈ c.compounds, ∀ s ∈ k, s.All (· ≠ .keyword .scope)) :
    (ctx.withNode n).Matches c y ↔ ctx.Matches c y := by
  simp only [Matches, Satisfies, compoundProbe_withNode (h _ c.first_mem_compounds),
    leads_withNode fun step hs => h _ (mem_forwardSteps hs)]

theorem isElement_of_finds (hctx : ctx.Grounded) {c : Chain Compound} {y : ν}
    (hne : ∀ k ∈ c.compounds, k ≠ []) (h : ctx.Finds c y) : ctx.tree.isElement y = true := by
  obtain ⟨p, hp, -⟩ := Links.below_iff_parent.mp h.1
  exact (hctx.candidate_iff hp).mp
    (candidate_of_yes (hne _ c.last_mem_compounds) (satisfies_last_of_matches h.2))

end Context

/-! ### Matchers -/

namespace Matcher

theorem new_ok {tree : View ν} {text : String} {node : ν} {warn : Bool} {m : Matcher ν}
    (h : new tree text node warn = .ok m) :
    Context.of tree node warn = .ok m.context ∧ ∃ list, SelectorList.ofText text = .ok list ∧
      list.resolve .strict = .ok m.branches := by
  rw [new_eq] at h
  obtain ⟨ctx, hc, h⟩ := bind_eq_ok.mp h
  obtain ⟨list, hl, h⟩ := bind_eq_ok.mp h
  obtain ⟨branches, hb, h⟩ := bind_eq_ok.mp h
  obtain rfl := pure_eq_ok.mp h
  exact ⟨hc, list, mapError_eq_ok.mp hl, mapError_eq_ok.mp hb⟩

theorem branches_of_new {tree : View ν} {text : String} {a b : ν} {warn : Bool}
    {m m' : Matcher ν} (h : new tree text a warn = .ok m) (h' : new tree text b warn = .ok m') :
    m'.branches = m.branches := by
  obtain ⟨-, list, hl, hb⟩ := new_ok h
  obtain ⟨-, list', hl', hb'⟩ := new_ok h'
  obtain rfl : list = list' := by simpa [hl] using hl'
  simpa [hb] using hb'.symm

variable [DecidableEq ν]

/-- Some search fails on a construct that is not evaluated, which the query
takes for finding nothing. -/
def Swallows (m : Matcher ν) (target : Target) : Prop :=
  ∃ e, fresh (m.context.find target m.branches) = .error e ∧ e.fault = .unsupported

theorem fresh_find (m : Matcher ν) (target : Target) :
    fresh (m.find target) = match fresh (m.context.find target m.branches) with
      | .ok l => .ok l
      | .error e => if e.fault == .unsupported then .ok [] else .error e := by
  unfold find fresh
  rw [run_tryCatch]
  rcases (m.context.find target m.branches).run.run [] with ⟨e | l, memo⟩
  · simp only
    split <;> rfl
  · rfl

theorem fresh_find_ok {m : Matcher ν} {target : Target} {l : List ν} (hs : ¬ m.Swallows target)
    (h : fresh (m.find target) = .ok l) : fresh (m.context.find target m.branches) = .ok l := by
  rw [fresh_find] at h
  split at h
  · rename_i l' hl
    rw [hl, ← h]
  · rename_i e he
    have hf : ¬ e.fault = .unsupported := fun hf => hs ⟨e, he, hf⟩
    simp [hf] at h

/-- `:scope` does not occur in the selector, not even in an argument. -/
def IgnoresScope (m : Matcher ν) : Prop :=
  Each (Simple.All (· ≠ .keyword .scope)) m.branches

section New

variable {tree : View ν} {text : String} {node : ν} {warn : Bool} {m : Matcher ν}

/-- A list that filters siblings is known by its number, so what is counted with
it can be remembered under that. -/
theorem testable_of_means {list : SelectorList} (hl : SelectorList.ofText text = .ok list)
    (hb : list.resolve .strict = .ok m.branches) {meaning : ListId → List (Chain Compound)}
    (hmeaning : list.Means meaning) :
    m.context.Testable (m.context.counts meaning) m.branches := by
  have hnum := each_numbered (SelectorList.distinct_of_ofText hl) hmeaning hb
  refine fun c hc k hk => ⟨SelectorList.resolve_ne_nil hl hb c hc k hk, ?_⟩
  exact Context.steady_compoundProbe fun s hs =>
    Context.steady_holdsSimple s (hnum c hc k hk s hs) false

theorem exists_testable (hm : new tree text node warn = .ok m) :
    ∃ counts, m.context.Testable counts m.branches := by
  obtain ⟨-, list, hl, hb⟩ := new_ok hm
  obtain ⟨meaning, hmeaning⟩ := (SelectorList.distinct_of_ofText hl).exists_means
  exact ⟨_, testable_of_means hl hb hmeaning⟩

/-- Without warnings, nothing fails for being recognized and not evaluated. -/
theorem not_swallows (hm : new tree text node false = .ok m) (target : Target) :
    ¬ m.Swallows target := by
  rintro ⟨e, he, hf⟩
  obtain ⟨counts, ht⟩ := exists_testable hm
  obtain ⟨hc, -⟩ := new_ok hm
  obtain ⟨-, -, hw⟩ := Context.of_ok hc
  rcases ht.steady_find.error he with ⟨p, rfl⟩ | ⟨hw', -⟩
  · cases hf
  · simp [hw] at hw'

end New

omit [DecidableEq ν] in
/-- A question that is answered from what is found. -/
theorem fresh_bind_pure {α β : Type} (x : Eval ν α) (f : α → β) :
    fresh (do return f (← x)) = f <$> fresh x := by
  unfold fresh
  rw [run_bind]
  rcases x.run.run ([] : Memo ν) with ⟨e | a, memo⟩ <;> rfl

omit [DecidableEq ν] in
theorem fresh_map_ok {α β : Type} {x : Eval ν α} {f : α → β} {b : β}
    (h : fresh (do return f (← x)) = .ok b) : ∃ a, fresh x = .ok a ∧ f a = b := by
  rw [fresh_bind_pure] at h
  rcases hx : fresh x with e | a <;> rw [hx] at h
  · cases h
  · exact ⟨a, rfl, Except.ok.inj h⟩

theorem isMatch_ok {m : Matcher ν} {b : Bool} (h : fresh m.isMatch = .ok b) :
    m.context.tree.isElement m.context.node = true ∧
      ∃ l, fresh (m.find .itself) = .ok l ∧ l.contains m.context.node = b := by
  unfold isMatch requireElement at h
  cases hk : m.context.tree.kind m.context.node
  case element => exact ⟨Links.isElement_iff.mpr hk, fresh_map_ok (by simpa [hk] using h)⟩
  all_goals simp [hk] at h

theorem first_ok {m : Matcher ν} {r : Option ν} (h : fresh m.first = .ok r) :
    ∃ l, fresh (m.find .first) = .ok l ∧ l.head? = r :=
  fresh_map_ok h

/-! ### Answers that fit together -/

section Answers

variable {tree : View ν} (hv : IsSound tree) {text : String} {node : ν} {warn : Bool}
variable {m : Matcher ν}

include hv

theorem all_ok (hm : new tree text node warn = .ok m) (hs : ¬ m.Swallows .all) {l : List ν}
    (hl : fresh m.all = .ok l) :
    l.Pairwise tree.Before ∧ ∀ n, n ∈ l ↔ m.context.FindsSome m.branches n := by
  obtain ⟨counts, ht⟩ := exists_testable hm
  obtain ⟨hc, -⟩ := new_ok hm
  obtain ⟨htree, -, -⟩ := Context.of_ok hc
  have := (Context.grounded_of hv hc).find_all ht (fresh_find_ok hs hl)
  rwa [htree] at this

theorem isMatch_iff (hm : new tree text node false = .ok m) {b : Bool}
    (hb : fresh m.isMatch = .ok b) :
    b = true ↔ ∃ c ∈ m.branches, m.context.Matches c node := by
  obtain ⟨counts, ht⟩ := exists_testable hm
  obtain ⟨hc, -⟩ := new_ok hm
  obtain ⟨-, hn, -⟩ := Context.of_ok hc
  obtain ⟨he, l, hl, rfl⟩ := isMatch_ok hb
  have hfind := fresh_find_ok (not_swallows hm _) hl
  rw [List.contains_iff_mem, (Context.grounded_of hv hc).find_itself ht hfind, hn]
  rw [hn] at he
  simp [he]

/-- All results come in document order and without the context node, and they
are the elements below it that the selector matches. -/
theorem mem_all_iff_isMatch (ho : HasOwners tree) (hm : new tree text node false = .ok m)
    (hs : m.IgnoresScope) {l : List ν} (hl : fresh m.all = .ok l) :
    l.Pairwise tree.Before ∧ l.Nodup ∧ node ∉ l ∧ (∀ n ∈ l, tree.isElement n = true) ∧
      ∀ n m' b, new tree text n false = .ok m' → fresh m'.isMatch = .ok b →
        (n ∈ l ↔ b = true ∧ tree.Below node n) := by
  have hf := hv.wellFormed.toIsForest
  obtain ⟨counts, ht⟩ := exists_testable hm
  obtain ⟨hc, -⟩ := new_ok hm
  obtain ⟨htree, hnode, -⟩ := Context.of_ok hc
  obtain ⟨hp, hmem⟩ := all_ok hv hm (not_swallows hm _) hl
  have hbelow : ∀ n ∈ l, tree.Below node n := fun n hn => by
    obtain ⟨c, -, hb, -⟩ := (hmem n).mp hn
    rwa [htree, hnode] at hb
  refine ⟨hp, hf.nodup_of_pairwise hp, fun hn => hf.acyclic _ (hbelow _ hn), fun n hn => ?_,
    fun n m' b hm' hb => ?_⟩
  · obtain ⟨c, hcb, hfinds⟩ := (hmem n).mp hn
    rw [← htree]
    exact Context.isElement_of_finds (Context.grounded_of hv hc) (ht.ne_nil hcb) hfinds
  · rw [isMatch_iff hv hm' hb, branches_of_new hm hm']
    obtain ⟨hc', -⟩ := new_ok hm'
    constructor
    · intro hn
      refine ⟨?_, hbelow n hn⟩
      obtain ⟨c, hcb, -, hmatch⟩ := (hmem n).mp hn
      rw [Context.of_withNode hv.wellFormed ho hc hc' (hf.sameTree_of_within (hbelow n hn).within)]
      exact ⟨c, hcb, (Context.matches_withNode (hs c hcb)).mpr hmatch⟩
    · rintro ⟨⟨c, hcb, hmatch⟩, hb⟩
      rw [Context.of_withNode hv.wellFormed ho hc hc' (hf.sameTree_of_within hb.within)] at hmatch
      refine (hmem n).mpr ⟨c, hcb, ?_, (Context.matches_withNode (hs c hcb)).mp hmatch⟩
      rwa [htree, hnode]

/-- The first result is the first one of all results, if neither search is cut
short by what is not evaluated. -/
theorem first_eq_head?_all (hm : new tree text node warn = .ok m) {l : List ν} {r : Option ν}
    (hl : fresh m.all = .ok l) (hr : fresh m.first = .ok r) (hall : ¬ m.Swallows .all)
    (hfirst : ¬ m.Swallows .first) : r = l.head? := by
  obtain ⟨counts, ht⟩ := exists_testable hm
  obtain ⟨hc, -⟩ := new_ok hm
  obtain ⟨htree, -, -⟩ := Context.of_ok hc
  have hctx := Context.grounded_of hv hc
  obtain ⟨found, hf, rfl⟩ := first_ok hr
  obtain ⟨r, rfl, he⟩ := hctx.find_first ht (fresh_find_ok hfirst hf)
  obtain ⟨hp, hmem⟩ := all_ok hv hm hall hl
  cases l with
  | nil =>
    cases r with
    | none => rfl
    | some x => simpa using (hmem x).mpr he.1
  | cons y rest =>
    have hy := (hmem y).mp List.mem_cons_self
    cases r with
    | none => exact absurd hy (he y)
    | some x =>
      -- each of the two comes first
      rcases he.2 y hy with rfl | hxy
      · rfl
      · rcases List.mem_cons.mp ((hmem x).mpr he.1) with rfl | hx
        · rfl
        · rw [htree] at hxy
          exact absurd hxy (hv.wellFormed.before_asymm ((List.pairwise_cons.mp hp).1 x hx))

end Answers

end Matcher

end DomQuery.Query
