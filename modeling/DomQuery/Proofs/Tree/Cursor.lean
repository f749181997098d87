import DomQuery.Proofs.Document.Answers

/-!
# Walks without a bound

Walks are followed with fuel. Here the loops of a cursor are runs of their own, without any
bound: a run is a derivation, so that there is one means that the loop ends. In a
well-formed tree there is one from every root, and it visits just what the walk with fuel
lists, so the fuel is never used up.

* `Seeks`, `Climbs`, `Moves`, `Visits`: runs of the four loops, the last made of the others.
* `WellFormed.seeks`, `WellFormed.climbs`, `WellFormed.moves`: each loop ends, with what is
  found with fuel.
* `WellFormed.visits_walk`: a walk ends, and comes to every element below its root once, in
  document order, and to nothing else.
-/

namespace DomQuery.Tree

section Seek

variable {ν : Type}

/-- From `start` on, steps lead to `found`, the first node that satisfies `p`, or to an end. -/
inductive Seeks (step : ν → Option ν) (p : ν → Bool) : Option ν → Option ν → Prop
  | nothing : Seeks step p none none
  | found {n : ν} (h : p n = true) : Seeks step p (some n) (some n)
  | pass {n : ν} {found : Option ν} (h : p n = false) (rest : Seeks step p (step n) found) :
      Seeks step p (some n) found

theorem Seeks.unique {step : ν → Option ν} {p : ν → Bool} {start found found' : Option ν}
    (h : Seeks step p start found) (h' : Seeks step p start found') : found = found' := by
  induction h with
  | nothing => cases h'; rfl
  | found hn =>
    cases h' with
    | found => rfl
    | pass hn' => exact absurd (hn.symm.trans hn') nofun
  | pass hn _ ih =>
    cases h' with
    | found hn' => exact absurd (hn'.symm.trans hn) nofun
    | pass _ rest => exact ih rest

end Seek

namespace Links

variable {ν : Type} (t : Links ν)

/-- A look for the next element among the siblings from `start` on comes to `found`. -/
abbrev SeeksElement (start found : Option ν) : Prop :=
  Seeks t.nextSibling t.isElement start found

/-- The way up from `n`, to a later sibling of a node on it or to `root`, comes to `found`. -/
inductive Climbs (root : ν) : ν → Option ν → Prop
  | root : Climbs root root none
  | sibling {n s : ν} (hn : n ≠ root) (h : t.SeeksElement (t.nextSibling n) (some s)) :
      Climbs root n (some s)
  | parent {n p : ν} {found : Option ν} (hn : n ≠ root)
      (h : t.SeeksElement (t.nextSibling n) none) (hp : t.parent n = some p)
      (rest : Climbs root p found) : Climbs root n found
  | top {n : ν} (hn : n ≠ root) (h : t.SeeksElement (t.nextSibling n) none)
      (hp : t.parent n = none) : Climbs root n none

/-- A cursor at `n` moves on to `found`, down if it can and else up. -/
inductive Moves (root : ν) : ν → Option ν → Prop
  | down {n c : ν} (h : t.SeeksElement (t.firstChild n) (some c)) : Moves root n (some c)
  | up {n : ν} {found : Option ν} (h : t.SeeksElement (t.firstChild n) none)
      (rest : t.Climbs root n found) : Moves root n found

/-- A cursor that starts at `n` comes to these nodes, and then finds no other. -/
inductive Visits (root : ν) : ν → List ν → Prop
  | done {n : ν} (h : t.Moves root n none) : Visits root n []
  | move {n m : ν} {nodes : List ν} (h : t.Moves root n (some m)) (rest : Visits root m nodes) :
      Visits root n (m :: nodes)

variable {t} {root n : ν}

theorem Climbs.unique {found found' : Option ν} (h : t.Climbs root n found)
    (h' : t.Climbs root n found') : found = found' := by
  induction h with
  | root =>
    cases h' with
    | root => rfl
    | sibling hn | parent hn | top hn => exact absurd rfl hn
  | sibling hn hs =>
    cases h' with
    | root => exact absurd rfl hn
    | sibling _ hs' => exact hs.unique hs'
    | parent _ hs' | top _ hs' => exact absurd (hs.unique hs') nofun
  | parent hn hs hp _ ih =>
    cases h' with
    | root => exact absurd rfl hn
    | sibling _ hs' => exact absurd (hs.unique hs') nofun
    | parent _ _ hp' rest =>
      obtain rfl := Option.some.inj (hp.symm.trans hp')
      exact ih rest
    | top _ _ hp' => exact absurd (hp.symm.trans hp') nofun
  | top hn hs hp =>
    cases h' with
    | root => rfl
    | sibling _ hs' => exact absurd (hs.unique hs') nofun
    | parent _ _ hp' => exact absurd (hp.symm.trans hp') nofun
    | top => rfl

theorem Moves.unique {found found' : Option ν} (h : t.Moves root n found)
    (h' : t.Moves root n found') : found = found' := by
  cases h with
  | down hc =>
    cases h' with
    | down hc' => exact hc.unique hc'
    | up hc' => exact absurd (hc.unique hc') nofun
  | up hc rest =>
    cases h' with
    | down hc' => exact absurd (hc.unique hc') nofun
    | up _ rest' => exact rest.unique rest'

/-- A cursor has no choice. -/
theorem Visits.unique {nodes nodes' : List ν} (h : t.Visits root n nodes)
    (h' : t.Visits root n nodes') : nodes = nodes' := by
  induction h generalizing nodes' with
  | done hm =>
    cases h' with
    | done => rfl
    | move hm' => exact absurd (hm.unique hm') nofun
  | move hm _ ih =>
    cases h' with
    | done hm' => exact absurd (hm.unique hm') nofun
    | move hm' rest =>
      obtain rfl := Option.some.inj (hm.unique hm')
      rw [ih rest]

namespace WellFormed

variable (ht : t.WellFormed)

include ht

/-- The siblings that are looked at become fewer. -/
theorem seeks {p : ν} {before after : List ν} (h : t.children p = before ++ after) :
    t.SeeksElement after.head? (after.find? t.isElement) := by
  induction after generalizing before with
  | nil => exact .nothing
  | cons m after ih =>
    rw [List.head?_cons, List.find?_cons]
    cases hm : t.isElement m with
    | true => exact .found hm
    | false =>
      have hrest : t.children p = (before ++ [m]) ++ after := by simpa using h
      refine .pass hm ?_
      rw [ht.nextSibling_eq h]
      exact ih hrest

theorem seeks_firstElementChild (n : ν) :
    t.SeeksElement (t.firstChild n) (t.firstElementChild n) := by
  rw [ht.firstElementChild_eq, ← head?_children]
  exact ht.seeks (List.nil_append _).symm

theorem seeks_nextElementSibling {p : ν} (hp : t.parent n = some p) :
    t.SeeksElement (t.nextSibling n) (t.nextElementSibling n) := by
  obtain ⟨before, after, hs⟩ := ht.children_of_parent hp
  have hrest : t.children p = (before ++ [n]) ++ after := by simpa using hs
  rw [ht.nextElementSibling_eq hs, ht.nextSibling_eq hs]
  exact ht.seeks hrest

variable [DecidableEq ν]

/-- The way up becomes shorter. It ends at `root`, so no other top of a tree is reached. -/
theorem climbs : ∀ {k : Nat} {n : ν}, t.Within root n → (t.ancestors n).length < k →
    t.Climbs root n (t.climb root k n)
  | 0, _, _, hk => absurd hk (Nat.not_lt_zero _)
  | k + 1, n, hw, hk => by
    rw [climb]
    split
    · rename_i hn
      subst hn
      exact .root
    · rename_i hn
      obtain ⟨p, hp, hwp⟩ := below_iff_parent.mp ((within_iff.mp hw).resolve_left hn)
      have hs := ht.seeks_nextElementSibling hp
      cases hsibling : t.nextElementSibling n with
      | some s => exact .sibling hn (hsibling ▸ hs)
      | none =>
        rw [hsibling] at hs
        rw [ht.ancestors_of_parent hp, List.length_cons] at hk
        simp only [hp]
        exact .parent hn hs hp (climbs hwp (by omega))

theorem moves (hw : t.Within root n) : t.Moves root n (t.nextElement root n) := by
  have hc := ht.seeks_firstElementChild n
  rw [nextElement]
  cases hchild : t.firstElementChild n with
  | some c => exact .down (hchild ▸ hc)
  | none =>
    have hlength := t.length_ancestors_le n
    exact .up (hchild ▸ hc) (ht.climbs hw (by omega))

/-- A walk that leaves some of its fuel has come to its end. -/
theorem visits_follow : ∀ {k : Nat} {n : ν}, t.Within root n →
    (follow (t.nextElement root) k n).length < k →
    t.Visits root n (follow (t.nextElement root) k n)
  | 0, _, _, hk => absurd hk (Nat.not_lt_zero _)
  | k + 1, n, hw, hk => by
    have hm := ht.moves hw
    rw [follow] at hk ⊢
    cases hnext : t.nextElement root n with
    | none => exact .done (hnext ▸ hm)
    | some m =>
      have hbelow := ((ht.nextElement_spec hw).1 m hnext).2.1
      simp only [hnext, List.length_cons] at hk
      exact .move (hnext ▸ hm) (visits_follow hbelow.within (by omega))

/-- Nothing follows a root that has no element below it. -/
theorem nextElement_eq_none (h : t.walk root = []) : t.nextElement root root = none := by
  refine Option.eq_none_iff_forall_ne_some.mpr fun m hm => ?_
  obtain ⟨he, hb, -⟩ := (ht.nextElement_spec (.refl root)).1 m hm
  have hmem := ht.mem_walk.mpr ⟨he, hb⟩
  rw [h] at hmem
  exact List.not_mem_nil hmem

/-- The nodes of a walk and its root are nodes of the forest, and different. -/
theorem length_walk_lt (h : t.walk root ≠ []) : (t.walk root).length < t.size := by
  obtain ⟨n, hn⟩ := List.exists_mem_of_ne_nil _ h
  have hnodup : (root :: t.walk root).Nodup := List.nodup_cons.mpr
    ⟨fun hr => ht.acyclic root (ht.mem_walk.mp hr).2, ht.nodup_of_pairwise (ht.pairwise_walk root)⟩
  exact ht.length_le_size hnodup (List.forall_mem_cons.mpr
    ⟨.inl ⟨n, (ht.mem_walk.mp hn).2⟩, fun m hm => .inr ⟨root, (ht.mem_walk.mp hm).2⟩⟩)

/-- A cursor that starts at any root comes to an end, and there is one way for it to go. On
it are the elements below the root and nothing else, each once and in document order. -/
theorem visits_walk (root : ν) :
    t.Visits root root (t.walk root) ∧
    (∀ nodes, t.Visits root root nodes → nodes = t.walk root) ∧
    (t.walk root).Pairwise t.Before ∧ (t.walk root).Nodup ∧
    ∀ n, n ∈ t.walk root ↔ t.isElement n = true ∧ t.Below root n := by
  have hvisits : t.Visits root root (t.walk root) := by
    by_cases h : t.walk root = []
    · have hm := ht.moves (.refl root)
      rw [ht.nextElement_eq_none h] at hm
      rw [h]
      exact .done hm
    · exact ht.visits_follow (.refl root) (ht.length_walk_lt h)
  exact ⟨hvisits, fun nodes hnodes => hnodes.unique hvisits, ht.pairwise_walk root,
    ht.nodup_of_pairwise (ht.pairwise_walk root), fun n => ht.mem_walk⟩

end WellFormed

end Links

end DomQuery.Tree

namespace DomQuery.Document

open DomQuery.Tree

/-- An element and a sibling of it. Texts are the first and the last of its children, and the
elements below it are two children and a child of the first. -/
def outline : Document :=
  (Document.empty .html).run
    [.createElement "a", .append root ⟨1⟩, .createElement "e", .append root ⟨2⟩,
      .createText "t", .append ⟨1⟩ ⟨3⟩, .createElement "b", .append ⟨1⟩ ⟨4⟩,
      .createElement "c", .append ⟨4⟩ ⟨5⟩, .createText "u", .append ⟨4⟩ ⟨6⟩,
      .createElement "d", .append ⟨1⟩ ⟨7⟩, .createText "v", .append ⟨1⟩ ⟨8⟩]

theorem visits_walk_outline : outline.links.WellFormed ∧
    outline.links.Visits ⟨1⟩ ⟨1⟩ [⟨4⟩, ⟨5⟩, ⟨7⟩] ∧
    ∀ n, n ∈ [(⟨4⟩ : NodeId), ⟨5⟩, ⟨7⟩] ↔
      outline.links.isElement n = true ∧ outline.links.Below ⟨1⟩ n := by
  have hregular : outline.Regular := by decide +kernel
  have ht := hregular.wellFormed ((Reachable.empty .html).run _).coherent
  have hwalk : outline.links.walk ⟨1⟩ = [⟨4⟩, ⟨5⟩, ⟨7⟩] := by decide +kernel
  obtain ⟨hvisits, -, -, -, hmem⟩ := ht.visits_walk ⟨1⟩
  rw [hwalk] at hvisits hmem
  exact ⟨ht, hvisits, hmem⟩

end DomQuery.Document
