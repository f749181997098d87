import DomQuery.Proofs.Document.Answers
import DomQuery.Proofs.Query.Renumbered
import DomQuery.Proofs.Selector.Dropped

/-!
# Queries without faulty branches

What a selector with a faulty branch in `:is()` or `:where()` finds, it finds without
that branch too, wherever the list stands. Leaving the branch out changes the numbers
of the lists after it, and those do not show. What does show is a `:has()` in the
branch: inside of the argument of another `:has()`, it keeps that one from matching,
faulty or not.

* `outcome_of_drops`: a question is answered alike without a faulty branch.
* `drops_shows_in_has`: not so for a branch that is the only one with `:has()` in the
  argument of a `:has()`.
-/

namespace DomQuery.Query

open DomQuery.Selector DomQuery.Tree

variable {ν : Type} [DecidableEq ν]

/-- Where the lists that two texts spell come to the same chains but for the numbers,
questions have the same outcomes. -/
theorem outcome_of_resolve {text text' : String} {list list' : SelectorList}
    {branches : List (Chain Compound)} (htext : SelectorList.ofText text = .ok list)
    (htext' : SelectorList.ofText text' = .ok list') (hr : list.resolve .strict = .ok branches)
    {g : Equiv.Perm ListId}
    (h : (list'.resolve .strict).toOption = (list.resolve .strict).toOption.map (renumberBranches g))
    (tree : View ν) (node : ν) (warn : Bool) (call : Call) :
    outcome tree text' node warn call = outcome tree text node warn call := by
  refine outcome_congr ⟨g, ?_⟩ tree node warn call
  have hr' : list'.resolve .strict = .ok (renumberBranches g branches) := by
    rw [hr] at h
    exact Document.ok_of_toOption h
  rw [chainsOf, chainsOf, htext, htext']
  change (list'.resolve .strict).mapError QueryError.selector =
    renumberBranches g <$> (list.resolve .strict).mapError QueryError.selector
  rw [hr, hr']
  rfl

/-- A faulty branch of a forgiving list makes no difference to any question, unless
it brings a `:has()` into the argument of another one. -/
theorem outcome_of_drops {μ : Type} {tree₀ : View μ} {text text' : String} {node₀ : μ} {warn₀ : Bool}
    {m : Matcher μ} {list dropped list' : SelectorList}
    (hm : Matcher.new tree₀ text node₀ warn₀ = .ok m) (htext : SelectorList.ofText text = .ok list)
    (hdrops : list.Drops SelectorList.SameHas dropped)
    (htext' : SelectorList.ofText text' = .ok list') (hsame : list'.unnumbered = dropped.unnumbered)
    (tree : View ν) (node : ν) (warn : Bool) (call : Call) :
    outcome tree text' node warn call = outcome tree text node warn call := by
  obtain ⟨-, _, hlist, hr⟩ := Matcher.new_ok hm
  obtain rfl := Except.ok.inj (htext.symm.trans hlist)
  have hd := SelectorList.distinct_of_ofText htext
  have hd' := hdrops.distinct hd
  obtain ⟨g, rfl⟩ :=
    SelectorList.exists_renumber hd' (SelectorList.distinct_of_ofText htext') hsame.symm
  refine outcome_of_resolve htext htext' hr (g := g) ?_ tree node warn call
  rw [(hd'.replaces_renumber g.injective).resolve_eq .strict nofun, hdrops.toOption_resolve hd]

section Boxes

open Document

/-- The list of one component. -/
def alone (id : ListId) : Slot :=
  ⟨id, [], [], [], []⟩

/-- The selector of one pseudo-class with nothing but `:is()` in its argument. -/
def isWithin (name : String) (branches : List Selector.Complex) : SelectorList :=
  (alone ⟨0⟩).list (.pseudoClass name (some (.selectors
    ((alone ⟨1⟩).list (.pseudoClass "is" (some (.selectors (.mk ⟨2⟩ branches))))))))

theorem drops_isWithin (keeps : SelectorList → SelectorList → Prop) (name : String)
    (before after : List Selector.Complex) (branch : Selector.Complex)
    (hfault : (fresh (branch.branch .forgiving)).toOption.isNone = true)
    (hhas : name = "has" → ∀ list list', keeps list list') :
    (isWithin name (before ++ branch :: after)).Drops keeps (isWithin name (before ++ after)) := by
  obtain ⟨e, he⟩ : ∃ e, fresh (branch.branch .forgiving) = .error e := by
    rcases hb : fresh (branch.branch .forgiving) with e | chain
    · exact ⟨e, rfl⟩
    · rw [hb] at hfault
      cases hfault
  refine ⟨alone ⟨0⟩, _, _, rfl, rfl, ?_⟩
  refine @Component.Drops.inside _ _ _ _ (alone ⟨1⟩) rfl (.here (.inl rfl) he) ?_
  intro argument h
  exact hhas (Component.pseudoClass.inj h).1 _ _

theorem outcome_of_drops_boxes :
    (∃ m, Matcher.new boxes.view ":not(:is(:bogus, .x))" root false = .ok m) ∧
    SelectorList.ofText ":not(:is(:bogus, .x))" =
      .ok (isWithin "not" ([] ++ .mk [.pseudoClass "bogus" none] :: [.mk [.className "x"]])) ∧
    SelectorList.ofText ":not(:is(.x))" = .ok (isWithin "not" ([] ++ [.mk [.className "x"]])) ∧
    outcome boxes.view ":not(:is(.x))" root false .all =
      outcome boxes.view ":not(:is(:bogus, .x))" root false .all := by
  have heval : (Matcher.new boxes.view ":not(:is(:bogus, .x))" root false).toOption.map
      (fun m => m.branches.length) = some 1 := by decide +kernel
  obtain ⟨m, hm, -⟩ := exists_of_toOption_map heval
  have htext : SelectorList.ofText ":not(:is(:bogus, .x))" =
      .ok (isWithin "not" ([] ++ .mk [.pseudoClass "bogus" none] :: [.mk [.className "x"]])) := by cbv
  have htext' : SelectorList.ofText ":not(:is(.x))" =
      .ok (isWithin "not" ([] ++ [.mk [.className "x"]])) := by cbv
  have hdrops := drops_isWithin SelectorList.SameHas "not" [] [.mk [.className "x"]]
    (.mk [.pseudoClass "bogus" none]) (by decide +kernel) fun h => absurd h (by decide)
  exact ⟨⟨m, hm⟩, htext, htext', outcome_of_drops hm htext hdrops htext' rfl boxes.view root false .all⟩

/-- A faulty branch shows, if only in it there is a `:has()` in the argument of a
`:has()`. -/
theorem drops_shows_in_has :
    (∃ m, Matcher.new boxes.view ":has(:is(.x, :bogus:has(b)))" root false = .ok m) ∧
    ∃ list list', SelectorList.ofText ":has(:is(.x, :bogus:has(b)))" = .ok list ∧
      SelectorList.ofText ":has(:is(.x))" = .ok list' ∧ list.Drops (fun _ _ => True) list' ∧
      outcome boxes.view ":has(:is(.x, :bogus:has(b)))" root false .all = .ok (.nodes []) ∧
      outcome boxes.view ":has(:is(.x))" root false .all = .ok (.nodes [⟨1⟩]) := by
  have heval : (Matcher.new boxes.view ":has(:is(.x, :bogus:has(b)))" root false).toOption.map
      (fun m => m.branches.length) = some 1 := by decide +kernel
  obtain ⟨m, hm, -⟩ := exists_of_toOption_map heval
  have hdrops := drops_isWithin (fun _ _ => True) "has" [.mk [.className "x"]] []
    (.mk [.pseudoClass "bogus" none,
      .pseudoClass "has" (some (.selectors (.mk ⟨3⟩ [.mk [.type ⟨none, "b"⟩]])))])
    (by decide +kernel) fun _ _ _ => trivial
  exact ⟨⟨m, hm⟩, _, _, by cbv, by cbv, hdrops, ok_of_toOption (by decide +kernel),
    ok_of_toOption (by decide +kernel)⟩

end Boxes

end DomQuery.Query
