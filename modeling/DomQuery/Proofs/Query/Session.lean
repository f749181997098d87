import DomQuery.Proofs.Selector.Resolved
import DomQuery.Query.Matcher

/-!
# Sessions look lists up

When a session begins, the lists of its selector are looked up for the first
time. Later they are looked up for every question, and always found as they were
then.

* `Session.matcher_eq`: what a session looks up are the chains of its list.
* `Matcher.new_eq`: a new matcher holds the chains of the list that is read.
-/

namespace DomQuery.Query

open DomQuery.Selector DomQuery.Tree

variable {ν : Type} {tree : View ν} {text : String} {node : ν} {warn : Bool}

namespace Session

variable {s : Session ν}

theorem start_ok (h : start tree text node warn = .ok s) :
    Context.of tree node warn = .ok s.context ∧ SelectorList.ofText text = .ok s.list ∧
      s.selector = text ∧ s.counts = [] ∧
      ∃ branches, (s.list.branches .strict).run.run [] = (.ok branches, s.lists) := by
  unfold start at h
  obtain ⟨context, hc, h⟩ := bind_eq_ok.mp h
  obtain ⟨list, hl, h⟩ := bind_eq_ok.mp h
  rcases hr : (list.branches .strict).run.run [] with ⟨e | branches, lists⟩
  · simp [hr, Except.mapError, bind, Except.bind] at h
  · obtain rfl : _ = s := by
      simpa [hr, Except.mapError, bind, Except.bind, pure, Except.pure] using h
    exact ⟨hc, mapError_eq_ok.mp hl, rfl, rfl, branches, hr⟩

variable {known : ListId → Except SelectorError (List (Chain (List Leaf)))}

/-- What is known of the lists after the session began. -/
theorem recalls_of_start (h : start tree text node warn = .ok s) (hk : s.list.Knows known) :
    Recalls known s.lists := by
  obtain ⟨-, -, -, -, branches, hr⟩ := start_ok h
  have hs := (SelectorList.Requests.outermost.steady_branches hk).sound (recalls_nil known)
  rwa [hr] at hs

/-- What a session looks up are the chains of its list, and nothing else is
remembered afterwards. -/
theorem matcher_eq (hk : s.list.Knows known) (hr : Recalls known s.lists) :
    ∃ lists, Recalls known lists ∧ s.matcher =
      (((s.list.resolve .strict).mapError .selector).map fun branches =>
        ⟨s.context, s.selector, branches⟩, { s with lists }) := by
  have hload := SelectorList.Requests.outermost.steady_load hk s.list.depth
  refine ⟨_, hload.sound hr, ?_⟩
  rw [SelectorList.resolve, ← hload.outcome hr]
  rfl

end Session

/-- A matcher holds the chains of the list that is read. -/
theorem Matcher.new_eq (tree : View ν) (text : String) (node : ν) (warn : Bool) :
    new tree text node warn = do
      let context ← Context.of tree node warn
      let list ← (SelectorList.ofText text).mapError .selector
      let branches ← (list.resolve .strict).mapError .selector
      return ⟨context, text, branches⟩ := by
  unfold new Session.start
  rcases Context.of tree node warn with e | context
  · rfl
  rcases hl : SelectorList.ofText text with e | list
  · rfl
  have hd := SelectorList.distinct_of_ofText hl
  obtain ⟨known, hk⟩ := hd.exists_knows
  have hbranches := SelectorList.Requests.outermost.steady_branches hk
  have ho := hbranches.outcome (recalls_nil known)
  have hs := hbranches.sound (recalls_nil known)
  simp only [Except.mapError, bind, Except.bind]
  rcases hr : (list.branches .strict).run.run [] with ⟨e | branches, lists⟩
  · rw [hr] at ho
    rw [SelectorList.Requests.outermost.resolve_eq hd, ← ho]
    rfl
  · rw [hr] at hs
    obtain ⟨lists', -, hm⟩ := Session.matcher_eq (s := ⟨context, text, list, lists, []⟩) hk hs
    simp only [pure, Except.pure, hm]
    rcases list.resolve .strict with e | chains
    · rfl
    · rfl

end DomQuery.Query
