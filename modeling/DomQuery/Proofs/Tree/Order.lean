import DomQuery.Proofs.Tree.Forest

/-!
# Document order

A node comes before another (`Before`) when its way down from the top comes
first: the ways are compared like words, by the order of siblings. In a forest
that is what a reader of the document sees (`before_iff`): a node comes before
what lies below it, and all of a node's subtree comes before its later
siblings. Nodes of one tree are strictly and totally ordered (`before_trans`,
`not_before_self`, `before_total`).

`compareOrder` computes this order (`compareOrder_eq_lt`, `compareOrder_eq_eq`),
and leaves nodes of different trees to its first argument (`compareOrder_apart`).
-/

namespace DomQuery.Tree.Links

variable {ν : Type} (t : Links ν)

/-- `a` comes before `b` in document order. -/
def Before (a b : ν) : Prop :=
  List.Lex t.Precedes (t.path a) (t.path b)

/-- `b` comes after the subtree of `a`: their ways part at two siblings. -/
def After (a b : ν) : Prop :=
  ∃ x y, t.Precedes x y ∧ t.Within x a ∧ t.Within y b

/-- The nodes are of one tree. -/
def SameTree (a b : ν) : Prop :=
  t.topmost a = t.topmost b

/-- The nodes are the elements below `scope` that satisfy `p`, in document
order. -/
def Lists (scope : ν) (p : ν → Prop) (found : List ν) : Prop :=
  found.Pairwise t.Before ∧ ∀ n, n ∈ found ↔ t.isElement n = true ∧ t.Below scope n ∧ p n

variable {t}

theorem Lists.congr {scope : ν} {p q : ν → Prop} {found : List ν} (h : t.Lists scope p found)
    (hpq : ∀ n, p n ↔ q n) : t.Lists scope q found :=
  ⟨h.1, fun n => by rw [h.2, hpq]⟩

theorem topmost_of_parent_none {n : ν} (h : t.parent n = none) : t.topmost n = n := by
  rw [topmost, ancestors_of_parent_none h]; rfl

theorem path_ne_nil (n : ν) : t.path n ≠ [] := by
  rw [path, List.reverse_cons]; simp

theorem path_injective {a b : ν} (h : t.path a = t.path b) : a = b := by
  have := congrArg List.getLast? h
  simpa only [path, List.reverse_cons, List.getLast?_concat, Option.some.injEq] using this

theorem After.of_within {a a' b b' : ν} (h : t.After a b) (ha : t.Within a a')
    (hb : t.Within b b') : t.After a' b' := by
  obtain ⟨x, y, hp, hx, hy⟩ := h
  exact ⟨x, y, hp, hx.trans ha, hy.trans hb⟩

theorem Precedes.after {a b : ν} (h : t.Precedes a b) : t.After a b :=
  ⟨a, b, h, .refl a, .refl b⟩

theorem pairwise_of_splits {α : Type} (l : List α) :
    l.Pairwise fun a b => ∃ before between after, l = before ++ a :: (between ++ b :: after) := by
  refine List.pairwise_iff_forall_sublist.mpr fun {a b} h => ?_
  obtain ⟨r, r', hl, ha, hb⟩ := List.cons_sublist_iff.mp h
  obtain ⟨before, s, rfl⟩ := List.append_of_mem ha
  obtain ⟨s', after, rfl⟩ := List.append_of_mem (List.singleton_sublist.mp hb)
  exact ⟨before, s ++ s', after, by simp [hl]⟩

/-- Children come in the order of siblings. -/
theorem pairwise_children (p : ν) : (t.children p).Pairwise t.Precedes :=
  (pairwise_of_splits (t.children p)).imp fun h => ⟨p, h⟩

/-- What a search finds in a list in order comes before all else that it could find. -/
theorem find?_eq_some_iff_of_pairwise {α : Type} {r : α → α → Prop}
    (hr : ∀ {x y}, r x y → ¬ r y x) {l : List α} (h : l.Pairwise r) {p : α → Bool} {x : α} :
    l.find? p = some x ↔ (p x = true ∧ x ∈ l) ∧ ∀ y, p y = true ∧ y ∈ l → y = x ∨ r x y := by
  rw [List.find?_eq_some_iff_append]
  constructor
  · rintro ⟨hx, skipped, rest, rfl, hskipped⟩
    refine ⟨⟨hx, by simp⟩, fun y ⟨hy, hmem⟩ => ?_⟩
    rcases List.mem_append.mp hmem with hmem | hmem
    · simpa [hy] using hskipped y hmem
    · have hlater := (List.pairwise_cons.mp (List.pairwise_append.mp h).2.1).1
      exact (List.mem_cons.mp hmem).imp_right (hlater y)
  · rintro ⟨⟨hx, hmem⟩, hfirst⟩
    obtain ⟨skipped, rest, rfl⟩ := List.append_of_mem hmem
    refine ⟨hx, skipped, rest, rfl, fun y hy => ?_⟩
    have hyx : r y x := (List.pairwise_append.mp h).2.2 y hy x (by simp)
    by_contra hp
    rw [Bool.not_eq_true, Bool.not_eq_false'] at hp
    rcases hfirst y ⟨hp, by simp [hy]⟩ with rfl | hxy
    · exact hr hyx hyx
    · exact hr hxy hyx

theorem lex_append {α : Type} {r : α → α → Prop} {l l' : List α} (h : List.Lex r l l') :
    ∀ c : List α, List.Lex r (c ++ l) (c ++ l')
  | [] => h
  | _ :: c => .cons (lex_append h c)

/-- A word comes before another because it is a part of it, or because of the
letters at which they part. -/
theorem lex_cases {α : Type} {r : α → α → Prop} {l l' : List α} (h : List.Lex r l l') :
    (∃ y s, l' = l ++ y :: s) ∨
      ∃ c x y s s', l = c ++ x :: s ∧ l' = c ++ y :: s' ∧ r x y := by
  induction h with
  | nil => exact .inl ⟨_, _, rfl⟩
  | rel h => exact .inr ⟨[], _, _, _, _, rfl, rfl, h⟩
  | cons _ ih =>
    rcases ih with ⟨y, s, rfl⟩ | ⟨c, x, y, s, s', rfl, rfl, h⟩
    · exact .inl ⟨y, s, rfl⟩
    · exact .inr ⟨_ :: c, x, y, s, s', rfl, rfl, h⟩

theorem comparePaths_append [DecidableEq ν] (apart : ν → ν → Ordering) (l l' : List ν) :
    ∀ (c : List ν) (shared : Bool), t.comparePaths apart shared (c ++ l) (c ++ l') =
      t.comparePaths apart (shared || !c.isEmpty) l l'
  | [], shared => by simp
  | a :: c, shared => by
    simp only [List.cons_append, comparePaths, beq_self_eq_true, ite_true]
    rw [comparePaths_append apart l l' c true]
    simp

namespace IsForest

variable (ht : t.IsForest)

include ht

/-! ## The way down -/

theorem path_of_parent {p n : ν} (h : t.parent n = some p) : t.path n = t.path p ++ [n] := by
  rw [path, path, ht.ancestors_of_parent h, List.reverse_cons]

theorem mem_path {a n : ν} : a ∈ t.path n ↔ t.Within a n := by
  rw [path, List.mem_reverse, List.mem_cons, ht.mem_ancestors, within_iff, eq_comm]

theorem path_eq_append {a n : ν} (h : t.Within a n) : ∃ s, t.path n = t.path a ++ s := by
  induction h with
  | refl => exact ⟨[], (List.append_nil _).symm⟩
  | tail _ hp ih =>
    obtain ⟨s, hs⟩ := ih
    exact ⟨s ++ [_], by rw [ht.path_of_parent hp, hs, List.append_assoc]⟩

theorem path_of_below {a n : ν} (h : t.Below a n) : ∃ y s, t.path n = t.path a ++ y :: s := by
  obtain ⟨s, hs⟩ := ht.path_eq_append h.within
  cases s with
  | nil =>
    rw [List.append_nil] at hs
    exact absurd (path_injective hs ▸ h) (ht.acyclic _)
  | cons y s => exact ⟨y, s, hs⟩

/-- The ways to two nodes whose order siblings decide part at those. -/
theorem paths_of_after {a b : ν} (h : t.After a b) : ∃ p x y s s', t.path a = t.path p ++ x :: s ∧
    t.path b = t.path p ++ y :: s' ∧ t.Precedes x y := by
  obtain ⟨x, y, hxy, hx, hy⟩ := h
  obtain ⟨p, hpx, hpy⟩ := ht.parent_of_precedes hxy
  obtain ⟨s, hs⟩ := ht.path_eq_append hx
  obtain ⟨s', hs'⟩ := ht.path_eq_append hy
  rw [ht.path_of_parent hpx, List.append_assoc] at hs
  rw [ht.path_of_parent hpy, List.append_assoc] at hs'
  exact ⟨p, x, y, s, s', hs, hs', hxy⟩

/-! ## The order -/

theorem before_iff {a b : ν} : t.Before a b ↔ t.Below a b ∨ t.After a b := by
  constructor
  · intro h
    rcases lex_cases h with ⟨y, s, hs⟩ | ⟨c, x, y, s, s', ha, hb, hxy⟩
    · have hm : a ∈ t.path b := by
        rw [hs]; exact List.mem_append_left _ (ht.mem_path.mpr (.refl a))
      refine .inl ((within_iff.mp (ht.mem_path.mp hm)).resolve_left ?_)
      rintro rfl
      simp at hs
    · refine .inr ⟨x, y, hxy, ht.mem_path.mp ?_, ht.mem_path.mp ?_⟩
      · rw [ha]; exact List.mem_append_right _ List.mem_cons_self
      · rw [hb]; exact List.mem_append_right _ List.mem_cons_self
  · rintro (h | h)
    · obtain ⟨y, s, hs⟩ := ht.path_of_below h
      rw [Before, hs]
      simpa using lex_append (List.Lex.nil (r := t.Precedes) (a := y) (l := s)) (t.path a)
    · obtain ⟨p, x, y, s, s', ha, hb, hxy⟩ := ht.paths_of_after h
      rw [Before, ha, hb]
      exact lex_append (.rel hxy) _

theorem before_of_below {a b : ν} (h : t.Below a b) : t.Before a b :=
  ht.before_iff.mpr (.inl h)

theorem before_of_after {a b : ν} (h : t.After a b) : t.Before a b :=
  ht.before_iff.mpr (.inr h)

theorem before_trans {a b c : ν} (h : t.Before a b) (h' : t.Before b c) : t.Before a c :=
  List.lex_trans ht.precedes_trans h h'

theorem not_before_self (a : ν) : ¬ t.Before a a :=
  List.lex_irrefl ht.not_precedes_self _

theorem before_asymm {a b : ν} (h : t.Before a b) : ¬ t.Before b a := fun h' =>
  ht.not_before_self a (ht.before_trans h h')

theorem nodup_of_pairwise {l : List ν} (h : l.Pairwise t.Before) : l.Nodup := by
  refine List.Pairwise.imp (fun {a b} hb => ?_) h
  rintro rfl
  exact ht.not_before_self _ hb

/-- What comes after the subtree of a node is not in it, nor above it. -/
theorem not_within_of_after {a b : ν} (h : t.After a b) : ¬ t.Within a b ∧ ¬ t.Within b a := by
  obtain ⟨x, y, hxy, hx, hy⟩ := h
  obtain ⟨hxy', hyx⟩ := ht.not_within_of_precedes hxy
  refine ⟨fun hw => ?_, fun hw => ?_⟩
  · rcases (hx.trans hw).comparable hy with h | h
    · exact hxy' h
    · exact hyx h.within
  · rcases (hy.trans hw).comparable hx with h | h
    · exact hyx h
    · exact hxy' h.within

/-! ## One tree -/

theorem topmost_of_parent {p n : ν} (h : t.parent n = some p) : t.topmost n = t.topmost p := by
  rw [topmost, topmost, ht.ancestors_of_parent h, List.getLast?_cons]
  cases (t.ancestors p).getLast? <;> rfl

theorem sameTree_of_within {a n : ν} (h : t.Within a n) : t.SameTree a n := by
  induction h with
  | refl => rfl
  | tail _ hp ih => exact ih.trans (ht.topmost_of_parent hp).symm

theorem within_topmost (n : ν) : t.Within (t.topmost n) n := by
  induction n using ht.induction with
  | top n hp => rw [topmost_of_parent_none hp]; exact .refl n
  | child n p hp ih =>
    rw [ht.topmost_of_parent hp]
    exact ih.trans (below_of_parent hp).within

theorem parent_topmost (n : ν) : t.parent (t.topmost n) = none := by
  induction n using ht.induction with
  | top n hp => rw [topmost_of_parent_none hp]; exact hp
  | child n p hp ih => rw [ht.topmost_of_parent hp]; exact ih

theorem before_total {a b : ν} (h : t.SameTree a b) :
    a = b ∨ t.Before a b ∨ t.Before b a := by
  induction a using ht.induction with
  | top a hp =>
    rw [SameTree, topmost_of_parent_none hp] at h
    have hw := ht.within_topmost b
    rw [← h] at hw
    exact (within_iff.mp hw).imp Eq.symm fun hb => .inl (ht.before_of_below hb)
  | child a p hp ih =>
    have below {x : ν} (hb : t.Below x p) : t.Below x a := hb.trans (below_of_parent hp)
    rcases ih (by rw [SameTree, ← ht.topmost_of_parent hp]; exact h) with rfl | h | h
    · exact .inr (.inr (ht.before_of_below (below_of_parent hp)))
    · rcases ht.before_iff.mp h with h | h
      · -- `b` lies below a child of the parent of `a`: that child is `a` or its sibling
        obtain ⟨c, hc, hw⟩ := below_iff_child.mp h
        rcases ht.precedes_total hp hc with rfl | hs | hs
        · exact (within_iff.mp hw).imp Eq.symm fun hb => .inl (ht.before_of_below hb)
        · exact .inr (.inl (ht.before_of_after (hs.after.of_within (.refl a) hw)))
        · exact .inr (.inr (ht.before_of_after (hs.after.of_within hw (.refl a))))
      · exact .inr (.inl (ht.before_of_after
          (h.of_within (below_of_parent hp).within (.refl b))))
    · rcases ht.before_iff.mp h with h | h
      · exact .inr (.inr (ht.before_of_below (below h)))
      · exact .inr (.inr (ht.before_of_after
          (h.of_within (.refl b) (below_of_parent hp).within)))

/-- Some node of a list comes before all others, if the list is of one tree. -/
theorem exists_first_of_sameTree {l : List ν} (hne : l ≠ [])
    (hsame : ∀ x ∈ l, ∀ y ∈ l, t.SameTree x y) :
    ∃ x ∈ l, ∀ y ∈ l, y = x ∨ t.Before x y := by
  induction l with
  | nil => exact absurd rfl hne
  | cons a l ih =>
    rcases eq_or_ne l [] with rfl | hl
    · exact ⟨a, by simp, by simp⟩
    · obtain ⟨x, hx, hfirst⟩ := ih hl fun y hy z hz =>
        hsame y (List.mem_cons_of_mem a hy) z (List.mem_cons_of_mem a hz)
      have hx' : x ∈ a :: l := List.mem_cons_of_mem a hx
      rcases ht.before_total (hsame a (by simp) x hx') with rfl | hax | hxa
      · exact ⟨a, by simp, List.forall_mem_cons.mpr ⟨.inl rfl, hfirst⟩⟩
      · refine ⟨a, by simp, List.forall_mem_cons.mpr ⟨.inl rfl, fun y hy => .inr ?_⟩⟩
        rcases hfirst y hy with rfl | hxy
        · exact hax
        · exact ht.before_trans hax hxy
      · exact ⟨x, hx', List.forall_mem_cons.mpr ⟨.inr hxa, hfirst⟩⟩

/-- Sorting distinct nodes of one tree, with a comparison that is document order
there. -/
theorem pairwise_mergeSort {le : ν → ν → Bool} {P : ν → Prop}
    (hP : ∀ {a b}, P a → P b → t.SameTree a b)
    (hle : ∀ {a b}, P a → P b → (le a b = true ↔ a = b ∨ t.Before a b)) {nodes : List ν}
    (hn : nodes.Nodup) (hw : ∀ n ∈ nodes, P n) : (nodes.mergeSort le).Pairwise t.Before := by
  have hsorted : (nodes.mergeSort le).Pairwise fun a b => le a b = true := by
    have hmap : ((nodes.attachWith P hw).mergeSort fun a b => le a b).map Subtype.val =
        nodes.mergeSort le := by
      refine (List.map_mergeSort (s := le) ?_).trans ?_
      · exact fun _ _ _ _ => rfl
      · rw [List.attachWith_map_subtype_val]
    rw [← hmap, List.pairwise_map]
    refine List.pairwise_mergeSort (fun a b c hab hbc => ?_) (fun a b => ?_) _
    · rcases (hle a.2 b.2).mp hab with h | h
      · exact (hle a.2 c.2).mpr (h ▸ (hle b.2 c.2).mp hbc)
      · rcases (hle b.2 c.2).mp hbc with h' | h'
        · exact (hle a.2 c.2).mpr (.inr (h' ▸ h))
        · exact (hle a.2 c.2).mpr (.inr (ht.before_trans h h'))
    · rw [Bool.or_eq_true, hle a.2 b.2, hle b.2 a.2]
      rcases ht.before_total (hP a.2 b.2) with h | h | h
      · exact .inl (.inl h)
      · exact .inl (.inr h)
      · exact .inr (.inr h)
  have hnodup : (nodes.mergeSort le).Nodup := (List.mergeSort_perm nodes le).nodup_iff.mpr hn
  refine (hsorted.and hnodup).imp_of_mem fun ha hb h => ?_
  have hPa := hw _ (List.mem_mergeSort.mp ha)
  exact ((hle hPa (hw _ (List.mem_mergeSort.mp hb))).mp h.1).resolve_left h.2

/-! ## Comparison of ways -/

section Compare

variable [DecidableEq ν] (apart : ν → ν → Ordering) {a b : ν}

theorem compareOrder_of_before (h : t.Before a b) :
    t.compareOrder apart a b = .lt ∧ t.compareOrder apart b a = .gt := by
  have hne : a ≠ b := fun he => ht.not_before_self a (he ▸ h)
  rw [compareOrder, compareOrder, if_neg (by simpa using hne), if_neg (by simpa using hne.symm)]
  rcases ht.before_iff.mp h with h | h
  · obtain ⟨y, s, hs⟩ := ht.path_of_below h
    have hl := comparePaths_append (t := t) apart [] (y :: s) (t.path a) false
    have hr := comparePaths_append (t := t) apart (y :: s) [] (t.path a) false
    rw [List.append_nil, ← hs] at hl hr
    exact ⟨hl, hr⟩
  · obtain ⟨p, x, y, s, s', ha, hb, hxy⟩ := ht.paths_of_after h
    obtain ⟨q, hx, hy⟩ := ht.parent_of_precedes hxy
    have hne : x ≠ y := fun he => ht.not_precedes_self x (he ▸ hxy)
    have hyx : ¬ t.precedesSibling y x = true := fun h =>
      (ht.not_precedes_self x) (ht.precedes_trans hxy ((ht.precedesSibling_iff hy).mp h))
    have hc : (t.path p).isEmpty = false := by simpa using path_ne_nil p
    rw [ha, hb, comparePaths_append, comparePaths_append, hc]
    simp [comparePaths, hne, hne.symm, (ht.precedesSibling_iff hx).mpr hxy, hyx]

variable (h : t.SameTree a b)

include h

theorem compareOrder_eq_lt : t.compareOrder apart a b = .lt ↔ t.Before a b := by
  rcases ht.before_total h with rfl | hb | hb
  · simp [compareOrder, ht.not_before_self]
  · exact iff_of_true (ht.compareOrder_of_before apart hb).1 hb
  · rw [(ht.compareOrder_of_before apart hb).2]
    exact iff_of_false nofun (ht.before_asymm hb)

theorem compareOrder_eq_eq : t.compareOrder apart a b = .eq ↔ a = b := by
  rcases ht.before_total h with rfl | hb | hb
  · simp [compareOrder]
  · rw [(ht.compareOrder_of_before apart hb).1]
    exact iff_of_false nofun fun he => ht.not_before_self a (he ▸ hb)
  · rw [(ht.compareOrder_of_before apart hb).2]
    exact iff_of_false nofun fun he => ht.not_before_self a (he ▸ hb)

theorem isLE_compareOrder : (t.compareOrder apart a b).isLE = true ↔ a = b ∨ t.Before a b := by
  rw [← ht.compareOrder_eq_lt apart h, ← ht.compareOrder_eq_eq apart h]
  cases t.compareOrder apart a b <;> simp

end Compare

/-- The way to a node begins at the top of its tree. -/
theorem path_eq_topmost_cons (n : ν) : ∃ s, t.path n = t.topmost n :: s := by
  induction n using ht.induction with
  | top n hp =>
    exact ⟨[], by rw [topmost_of_parent_none hp, path, ancestors_of_parent_none hp]; rfl⟩
  | child n p hp ih =>
    obtain ⟨s, hs⟩ := ih
    exact ⟨s ++ [n], by rw [ht.path_of_parent hp, hs, ht.topmost_of_parent hp]; rfl⟩

theorem compareOrder_apart [DecidableEq ν] (apart : ν → ν → Ordering) {a b : ν}
    (h : ¬ t.SameTree a b) :
    t.compareOrder apart a b = apart (t.topmost a) (t.topmost b) := by
  have hne : a ≠ b := fun he => h (he ▸ rfl)
  obtain ⟨s, hs⟩ := ht.path_eq_topmost_cons a
  obtain ⟨s', hs'⟩ := ht.path_eq_topmost_cons b
  rw [compareOrder, if_neg (by simpa using hne), hs, hs', comparePaths,
    if_neg (by simpa [SameTree] using h), if_neg Bool.false_ne_true]

end IsForest

end DomQuery.Tree.Links
