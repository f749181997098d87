import DomQuery.Proofs.Query.Matcher

/-!
# Asking again

A session remembers two things from one question to the next: the branches of
lists, and the children that child-indexed pseudo-classes select. Both are
remembered under less than what they were computed from, in the middle of
questions that may fail later on. All the same, nothing is remembered but what
would be computed anyway, so no question is answered in another way for what was
asked before it.

* `Session.ask_eq`: one question is answered as if nothing was remembered, and it
  adds nothing wrong to what is.
* `Session.askAll_eq`: so are any number of questions.
* `Session.askAll_transparent`: a session answers every question as a new matcher
  does, and why that is so.
* `Session.run_holdsSimple` and `Session.run_isNth`: nor does what is remembered show in
  the middle of a question.
-/

namespace DomQuery.Query

open DomQuery.Selector DomQuery.Tree

variable {ν : Type} [DecidableEq ν]

namespace Matcher

variable {m : Matcher ν} {counts : MemoKey ν → Except QueryError (List ν)}

theorem steady_find (h : m.context.Testable counts m.branches) (target : Target) :
    Steady counts (fun _ => True) (m.find target) := by
  refine (h.steady_find.mono fun _ _ => trivial).tryCatch fun e _ => ?_
  split
  · exact .pure []
  · exact .throw trivial

omit [DecidableEq ν] in
theorem steady_requireElement (operation : String) :
    Steady counts (fun _ => True) (m.requireElement operation) := by
  unfold requireElement
  split
  · exact .pure ()
  · exact .throw trivial

/-- The answer to a question does not depend on what was counted before. -/
theorem steady_ask (h : m.context.Testable counts m.branches) (call : Call) :
    Steady counts (fun _ => True) (m.ask call) := by
  have hfind := steady_find h
  cases call with
  | isMatch =>
    refine .map _ ((steady_requireElement _).bind fun _ _ => ?_)
    exact (hfind .itself).bind fun _ _ => .pure _
  | closest =>
    refine .map _ ((steady_requireElement _).bind fun _ _ => ?_)
    exact (hfind .nearest).bind fun _ _ => .pure _
  | first => exact .map _ ((hfind .first).bind fun _ _ => .pure _)
  | all => exact .map _ (hfind .all)

end Matcher

namespace Session

variable {tree : View ν} {text : String} {node : ν} {warn : Bool} {s : Session ν}

/-- The answer to a question for which nothing is remembered. -/
def answer (s : Session ν) (call : Call) : Except QueryError (Answer ν) := do
  let branches ← (s.list.resolve .strict).mapError .selector
  fresh (Matcher.ask ⟨s.context, s.selector, branches⟩ call)

variable {known : ListId → Except SelectorError (List (Chain (List Leaf)))}
variable {meaning : ListId → List (Chain Compound)}

/-- A question is answered as if nothing was remembered, whether that fails or
not, and what is remembered afterwards is still what would be computed. -/
theorem ask_eq (hl : SelectorList.ofText text = .ok s.list) (hk : s.list.Knows known)
    (hm : s.list.Means meaning) (hlists : Recalls known s.lists)
    (hcounts : Recalls (s.context.counts meaning) s.counts) (call : Call) :
    ∃ lists counts, Recalls known lists ∧ Recalls (s.context.counts meaning) counts ∧
      s.ask call = (s.answer call, { s with lists, counts }) := by
  obtain ⟨lists, hlists, hmatcher⟩ := matcher_eq hk hlists
  unfold ask answer
  rw [hmatcher]
  cases hr : s.list.resolve .strict with
  | error e => exact ⟨lists, s.counts, hlists, hcounts, rfl⟩
  | ok branches =>
    have hask := Matcher.steady_ask
      (Matcher.testable_of_means (m := ⟨s.context, s.selector, branches⟩) hl hr hm) call
    refine ⟨lists, _, hlists, hask.sound hcounts, ?_⟩
    simp only [Except.mapError, bind, Except.bind, ← hask.outcome hcounts]
    rfl

/-- Nothing that is remembered along the way shows in the answers. -/
theorem askAll_eq (hl : SelectorList.ofText text = .ok s.list) (hk : s.list.Knows known)
    (hm : s.list.Means meaning) (hlists : Recalls known s.lists)
    (hcounts : Recalls (s.context.counts meaning) s.counts) (calls : List Call) :
    ∃ lists counts, Recalls known lists ∧ Recalls (s.context.counts meaning) counts ∧
      s.askAll calls = (calls.map s.answer, { s with lists, counts }) := by
  induction calls generalizing s with
  | nil => exact ⟨s.lists, s.counts, hlists, hcounts, rfl⟩
  | cons call calls ih =>
    obtain ⟨lists, counts, hlists, hcounts, hask⟩ := ask_eq hl hk hm hlists hcounts call
    -- only what is remembered has changed, and that is no part of an answer
    obtain ⟨lists', counts', hlists', hcounts', hrest⟩ :=
      ih (s := { s with lists, counts }) hl hk hm hlists hcounts
    refine ⟨lists', counts', hlists', hcounts', ?_⟩
    rw [askAll, hask]
    simp only [hrest]
    rfl

section Start

variable (h : start tree text node warn = .ok s)
include h

/-- A new session answers as a new matcher does. -/
theorem answer_of_start (call : Call) :
    s.answer call = Matcher.new tree text node warn >>= fun m => fresh (m.ask call) := by
  obtain ⟨hc, hl, rfl, -⟩ := start_ok h
  rw [Matcher.new_eq, hc, hl, answer]
  simp only [Except.mapError, bind, Except.bind]
  rcases s.list.resolve .strict with e | branches
  · rfl
  · rfl

theorem askAll_of_start (hk : s.list.Knows known) (hm : s.list.Means meaning) (calls : List Call) :
    (s.askAll calls).1 = calls.map s.answer ∧ Recalls known (s.askAll calls).2.lists ∧
      Recalls (s.context.counts meaning) (s.askAll calls).2.counts := by
  obtain ⟨-, hl, -, hnone, -⟩ := start_ok h
  have hcounts : Recalls (s.context.counts meaning) s.counts := by
    rw [hnone]
    exact recalls_nil _
  obtain ⟨lists, counts, hlists, hcounts, hall⟩ :=
    askAll_eq hl hk hm (recalls_of_start h hk) hcounts calls
  rw [hall]
  exact ⟨rfl, hlists, hcounts⟩

/-- Whatever was asked before, a question has its answer. -/
theorem ask_of_start (calls : List Call) (call : Call) :
    ((s.askAll calls).2.ask call).1 = s.answer call := by
  obtain ⟨-, hl, -, hnone, -⟩ := start_ok h
  have hd := SelectorList.distinct_of_ofText hl
  obtain ⟨known, hk⟩ := hd.exists_knows
  obtain ⟨meaning, hm⟩ := hd.exists_means
  have hcounts : Recalls (s.context.counts meaning) s.counts := by
    rw [hnone]
    exact recalls_nil _
  obtain ⟨lists, counts, hlists, hcounts, hall⟩ :=
    askAll_eq hl hk hm (recalls_of_start h hk) hcounts calls
  rw [hall]
  -- only what is remembered has changed since the beginning
  obtain ⟨_, _, -, -, hask⟩ := ask_eq (s := { s with lists, counts }) hl hk hm hlists hcounts call
  rw [hask]
  rfl

end Start

/-- Every question is answered as by a new matcher, whatever was asked before. For
no two lists of a selector have the same number, and each of them is looked up for
one reason only; so what is remembered of lists are the branches that they have,
and what is remembered of children are those that would be selected again. -/
theorem askAll_transparent {list : SelectorList} (hl : SelectorList.ofText text = .ok list) :
    list.Distinct ∧
    (∀ mode mode' inner inner', list.Requests mode inner → list.Requests mode' inner' →
      inner.id = inner'.id → mode = mode' ∧ inner = inner') ∧
    (∃ known, list.Knows known) ∧ (∃ meaning, list.Means meaning) ∧
    ∀ (tree : View ν) node warn s, start tree text node warn = .ok s → ∀ calls,
      (s.askAll calls).1 =
        calls.map (fun call => Matcher.new tree text node warn >>= fun m => fresh (m.ask call)) ∧
      (∀ known, list.Knows known → Recalls known (s.askAll calls).2.lists) ∧
      ∀ meaning, list.Means meaning →
        Recalls (s.context.counts meaning) (s.askAll calls).2.counts := by
  have hd := SelectorList.distinct_of_ofText hl
  refine ⟨hd, fun _ _ _ _ h h' => h.unique hd h', hd.exists_knows, hd.exists_means, ?_⟩
  intro tree node warn s hs calls
  obtain ⟨-, hls, -⟩ := start_ok hs
  obtain rfl : s.list = list := Except.ok.inj (hls.symm.trans hl)
  obtain ⟨known, hk⟩ := hd.exists_knows
  obtain ⟨meaning, hm⟩ := hd.exists_means
  refine ⟨?_, fun known hk => ?_, fun meaning hm => ?_⟩
  · rw [(askAll_of_start hs hk hm calls).1]
    exact List.map_congr_left fun call _ => answer_of_start hs call
  · exact (askAll_of_start hs hk hm calls).2.1
  · exact (askAll_of_start hs hk hm calls).2.2

/-! ### In the middle of a question -/

/-- What may be remembered of children while questions are answered: what some of them
left behind, and what more tests for the selector have added, whether these came to an
answer or not. -/
inductive Counted (s : Session ν) : Memo ν → Prop
  | asked (calls : List Call) : Counted s (s.askAll calls).2.counts
  | tested {memo : Memo ν} (h : Counted s memo) {x : Simple} (hx : s.list.Yields x)
      (forgive : Bool) (n : ν) : Counted s ((s.context.holdsSimple forgive x n).run.run memo).2
  | indexed {memo : Memo ν} (h : Counted s memo) {of : Option (ListId × List (Chain Compound))}
      (hof : s.list.Filters of) (form : NthForm) (n : ν) :
      Counted s ((s.context.isNth form (s.context.siblingFilter of) n).run.run memo).2

section Counted

variable (h : start tree text node warn = .ok s) {memo : Memo ν}
include h

/-- All of it are children that would be selected again. -/
theorem Counted.recalls (hm : s.list.Means meaning) (hmemo : s.Counted memo) :
    Recalls (s.context.counts meaning) memo := by
  obtain ⟨-, hl, -⟩ := start_ok h
  have hd := SelectorList.distinct_of_ofText hl
  induction hmemo with
  | asked calls =>
    obtain ⟨known, hk⟩ := hd.exists_knows
    exact (askAll_of_start h hk hm calls).2.2
  | tested _ hx forgive n ih =>
    have hnumbered := (hx.all hd).mono fun _ hy => hy.numbered hm
    exact (Context.steady_holdsSimple _ hnumbered forgive n).sound ih
  | indexed _ hof form n ih => exact (Context.steady_nth (hof.numbered hd hm form) n).sound ih

/-- A test in the middle of a question comes to what it comes to on its own. -/
theorem run_holdsSimple {x : Simple} (hx : s.list.Yields x) (forgive : Bool) (n : ν)
    (hmemo : s.Counted memo) : ∃ memo', s.Counted memo' ∧
      (s.context.holdsSimple forgive x n).run.run memo =
        (fresh (s.context.holdsSimple forgive x n), memo') := by
  obtain ⟨-, hl, -⟩ := start_ok h
  have hd := SelectorList.distinct_of_ofText hl
  obtain ⟨meaning, hm⟩ := hd.exists_means
  have hnumbered := (hx.all hd).mono fun _ hy => hy.numbered hm
  have hsteady : Steady (s.context.counts meaning) s.context.MayFail
      (s.context.holdsSimple forgive x n) := Context.steady_holdsSimple x hnumbered forgive n
  exact ⟨_, hmemo.tested hx forgive n, Prod.ext (hsteady.outcome (hmemo.recalls h hm)) rfl⟩

theorem run_isNth {of : Option (ListId × List (Chain Compound))} (hof : s.list.Filters of)
    (form : NthForm) (n : ν) (hmemo : s.Counted memo) : ∃ memo', s.Counted memo' ∧
      (s.context.isNth form (s.context.siblingFilter of) n).run.run memo =
        (fresh (s.context.isNth form (s.context.siblingFilter of) n), memo') := by
  obtain ⟨-, hl, -⟩ := start_ok h
  have hd := SelectorList.distinct_of_ofText hl
  obtain ⟨meaning, hm⟩ := hd.exists_means
  have hsteady : Steady (s.context.counts meaning) s.context.MayFail
      (s.context.isNth form (s.context.siblingFilter of) n) :=
    Context.steady_nth (hof.numbered hd hm form) n
  exact ⟨_, hmemo.indexed hof form n, Prod.ext (hsteady.outcome (hmemo.recalls h hm)) rfl⟩

end Counted

end Session

end DomQuery.Query
