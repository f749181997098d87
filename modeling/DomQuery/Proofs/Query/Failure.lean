import DomQuery.Proofs.Document.Answers
import DomQuery.Proofs.Query.AlikeSearch
import DomQuery.Proofs.Selector.Validated

/-!
# What a query may fail at

A selector is looked at as a whole when a session begins. Later on nothing can be
wrong with it but a prefix, since it depends on the tree where a prefix is
declared. HTML elements look for the prefix in lower case, and that is how a
failure names it there.

* `Context.find_error`: a search fails at a prefix, or at what is not evaluated.
* `Session.error_of_ask`: what a question fails at, whatever was asked before.
-/

namespace DomQuery.Query

open DomQuery.Selector DomQuery.Tree

variable {ν : Type} [DecidableEq ν]

/-- A search fails at a prefix that was written, or at what is not evaluated. -/
theorem Context.find_error {ctx : Context ν} {top : SelectorList} {branches : List (Chain Compound)}
    (hb : Each (Simple.All top.Yields) branches) {target : Target} {e : QueryError}
    (h : fresh (ctx.find target branches) = .error e) :
    e.fault = .unsupported ∨ ∃ q ∈ top.typePrefixes, Undeclared ctx.tree.toLinks q e := by
  let meets (e : QueryError) : Prop :=
    e.fault = .unsupported ∨ ∃ q ∈ top.typePrefixes, Undeclared ctx.tree.toLinks q e
  -- the search is compared with itself, for the errors that both sides meet
  have hcomplain : ∀ e : QueryError, e.fault = .unsupported →
      Parallel (fun _ => False) meets Eq (ctx.complain e) (ctx.complain e) := by
    intro e he
    unfold complain
    split
    · exact .throw (.inl he)
    · exact .pure rfl
  have halike : Pairing.Alike ⟨fun _ => False, meets, fun _ => True, ctx, ctx⟩ :=
    Pairing.alike_of_warn hcomplain
  have hadmits : Each (Simple.All
      (Pairing.Admits ⟨fun _ => False, meets, fun _ => True, ctx, ctx⟩)) branches := by
    refine fun c hc k hk s hs => (hb c hc k hk s hs).mono ?_
    rintro _ hyields ⟨qualifier, name⟩ rfl n - e he
    obtain ⟨q, hqualifier, hq⟩ := selectsType?_error he
    obtain rfl : qualifier = some (.named q) := hqualifier
    exact .inr ⟨q, hyields.mem_typePrefixes, hq⟩
  rcases (halike.find (fun _ he => he.elim) hadmits target).fresh_cases with
    ⟨l, _, hl, -⟩ | ⟨e', he, -, hmeets⟩ | ⟨_, -, hfalse⟩
  · cases hl.symm.trans h
  · obtain rfl := Except.error.inj (he.symm.trans h)
    exact hmeets
  · exact hfalse.elim

/-- Why a question cannot be asked of a node. -/
def Call.refuses (tree : View ν) (node : ν) (call : Call) (e : QueryError) : Prop :=
  ∃ operation, (call, operation) ∈ [(isMatch, "matches"), (closest, "closest")] ∧
    tree.kind node ≠ .element ∧ e = .elementRequired operation (tree.kind node)

omit [DecidableEq ν] in
theorem Matcher.refuses_of_refusal? {m : Matcher ν} {call : Call} {e : QueryError}
    (h : m.refusal? call = some e) : call.refuses m.context.tree m.context.node e := by
  have hkind : ∀ {operation}, (if m.context.tree.isElement m.context.node then none
      else some (.elementRequired operation (m.context.tree.kind m.context.node))) = some e →
      m.context.tree.kind m.context.node ≠ .element ∧
        e = .elementRequired operation (m.context.tree.kind m.context.node) := by
    intro operation h
    split at h
    · cases h
    · rename_i hn
      exact ⟨by simpa [Links.isElement] using hn, (Option.some.inj h).symm⟩
  cases call with
  | isMatch => exact ⟨"matches", by simp, hkind h⟩
  | closest => exact ⟨"closest", by simp, hkind h⟩
  | first | all => cases h

theorem Matcher.ask_error {m : Matcher ν} {top : SelectorList}
    (hb : Each (Simple.All top.Yields) m.branches) {call : Call} {e : QueryError}
    (h : fresh (m.ask call) = .error e) :
    call.refuses m.context.tree m.context.node e ∨
      ∃ q ∈ top.typePrefixes, Undeclared m.context.tree.toLinks q e := by
  rw [fresh_ask, fresh_find] at h
  cases hr : m.refusal? call with
  | some e' =>
    rw [hr] at h
    obtain rfl := Except.error.inj h
    exact .inl (refuses_of_refusal? hr)
  | none =>
    rw [hr] at h
    rcases hf : fresh (m.context.find call.target m.branches) with e' | l
    · -- what is not evaluated is taken for nothing
      rw [hf] at h
      by_cases hunsupported : e'.fault = .unsupported
      · simp [hunsupported] at h
      · obtain rfl : e' = e := by simpa [hunsupported] using h
        exact .inr ((Context.find_error hb hf).resolve_left hunsupported)
    · rw [hf] at h
      cases h

namespace Session

variable {tree : View ν} {text : String} {node : ν} {warn : Bool} {s : Session ν}

omit [DecidableEq ν] in
/-- The chains of a selector exist from the beginning of a session. -/
theorem resolve_ok_of_start (h : start tree text node warn = .ok s) :
    ∃ branches, s.list.resolve .strict = .ok branches := by
  obtain ⟨-, hl, -, -, branches, hr⟩ := start_ok h
  refine SelectorList.Requests.outermost.resolve_ok (SelectorList.distinct_of_ofText hl) ⟨branches, ?_⟩
  unfold fresh
  rw [hr]

/-- In a session no question fails but the two that ask for an element, where
there is none, and those that come to a prefix of the selector at a node where it is
not declared. -/
theorem error_of_ask (h : start tree text node warn = .ok s) (calls : List Call) {call : Call}
    {e : QueryError} (he : ((s.askAll calls).2.ask call).1 = .error e) :
    (call.refuses tree node e ∨ ∃ q ∈ s.list.typePrefixes, Undeclared tree.toLinks q e) ∧
      e.fault ≠ .unsupported ∧ (s.list.typePrefixes = [] → e.fault ≠ .badSelector) := by
  obtain ⟨branches, hb⟩ := resolve_ok_of_start h
  obtain ⟨hc, hl, -⟩ := start_ok h
  obtain ⟨htree, hnode, -⟩ := Context.of_ok hc
  have hd := SelectorList.distinct_of_ofText hl
  have hcases : call.refuses tree node e ∨
      ∃ q ∈ s.list.typePrefixes, Undeclared tree.toLinks q e := by
    rw [← htree, ← hnode]
    refine Matcher.ask_error (m := ⟨s.context, s.selector, branches⟩)
      (SelectorList.each_yields hd hb) ?_
    rw [ask_of_start h, answer, hb] at he
    exact he
  refine ⟨hcases, ?_⟩
  rcases hcases with ⟨operation, -, -, rfl⟩ | ⟨q, hq, n, rfl, -⟩
  · exact ⟨by simp [QueryError.fault], fun _ => by simp [QueryError.fault]⟩
  · exact ⟨by simp [QueryError.fault], fun hnone => by simp [hnone] at hq⟩

/-- The prefix at which a question fails. -/
def undeclared? (s : Session ν) (call : Call) : Option String :=
  match (s.ask call).1 with
  | .error (.undefinedPrefix q) => some q
  | _ => none

theorem exists_of_undeclared? {call : Call} {q : String} (h : s.undeclared? call = some q) :
    ((s.askAll []).2.ask call).1 = .error (.undefinedPrefix q) := by
  unfold undeclared? at h
  split at h
  · rename_i he
    rw [← Option.some.inj h]
    exact he
  · cases h

open Document in
/-- No box declares a prefix. -/
theorem undeclared?_boxes : ∃ s, start boxes.view "FOO|p" root false = .ok s ∧
    s.list.typePrefixes = ["FOO"] ∧ s.undeclared? .all = some "foo" := by
  have heval : (start boxes.view "FOO|p" root false).toOption.map
      (fun s => (s.list.typePrefixes, s.undeclared? .all)) = some (["FOO"], some "foo") := by cbv
  obtain ⟨s, hs, hrun⟩ := exists_of_toOption_map heval
  obtain ⟨hprefixes, hundeclared⟩ := Prod.mk.inj hrun
  exact ⟨s, hs, hprefixes, hundeclared⟩

open Document in
theorem error_of_ask_boxes : ∃ s, start boxes.view "FOO|p" root false = .ok s ∧
    ((s.askAll []).2.ask .all).1 = .error (.undefinedPrefix "foo") ∧
    s.list.typePrefixes = ["FOO"] ∧
    (Call.refuses boxes.view root .all (.undefinedPrefix "foo") ∨
      ∃ q ∈ s.list.typePrefixes, Undeclared boxes.view.toLinks q (.undefinedPrefix "foo")) := by
  obtain ⟨s, hs, hprefixes, hundeclared⟩ := undeclared?_boxes
  have he := exists_of_undeclared? hundeclared
  exact ⟨s, hs, he, hprefixes, (error_of_ask hs [] he).1⟩

/-- The message need not name a prefix as it was written. -/
theorem message_not_as_written : ¬ ∀ (tree : View Document.NodeId) text node warn s,
    start tree text node warn = .ok s → ∀ calls call e,
      ((s.askAll calls).2.ask call).1 = .error e → e.fault = .badContext ∨
        ∃ q ∈ s.list.typePrefixes, e.message = "Undefined namespace prefix " ++ q := by
  intro hall
  obtain ⟨s, hs, hprefixes, hundeclared⟩ := undeclared?_boxes
  rcases hall _ _ _ _ s hs _ _ _ (exists_of_undeclared? hundeclared) with hfault | ⟨q, hq, hmessage⟩
  · cases hfault
  · obtain rfl : q = "FOO" := by simpa [hprefixes] using hq
    exact absurd hmessage (by decide)

end Session

end DomQuery.Query
