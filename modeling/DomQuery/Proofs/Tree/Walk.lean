import DomQuery.Proofs.Tree.Order

/-!
# What a walk visits

`nextElement root n` is the element that follows `n` in document order below
`root` (`nextElement_spec`): it comes after `n`, and every other element below
`root` that comes after `n` comes after it too. Climbing is the part of it that
leaves the subtree of `n` (`climb_spec`), by induction on the way up to `root`.
So a walk lists the elements below its root (`mem_walk`), in document order
(`pairwise_walk`); that it does not end too early is because a list of nodes of
the forest, each once, is no longer than its fuel.
-/

namespace DomQuery.Tree.Links

variable {ν : Type} {t : Links ν}

theorem isElement_iff {n : ν} : t.isElement n = true ↔ t.kind n = .element := by
  rw [isElement, beq_iff_eq]

namespace WellFormed

variable (ht : t.WellFormed)

include ht

/-- The nodes between an element and a node above it are elements. -/
theorem isElement_of_within {p c e : ν} (hc : t.parent c = some p) (he : t.isElement e = true)
    (h : t.Within c e) : t.isElement c = true := by
  rcases within_iff.mp h with rfl | h
  · exact he
  · obtain ⟨x, hx, -⟩ := below_iff_child.mp h
    obtain ⟨hd, hf⟩ := ht.kind_of_child hc
    exact isElement_iff.mpr (((ht.kind_of_parent hx).resolve_left hd).resolve_left hf)

theorem not_below_of_children {p e : ν} (h : ∀ c ∈ t.children p, ¬ t.isElement c = true)
    (he : t.isElement e = true) : ¬ t.Below p e := fun hb => by
  obtain ⟨c, hc, hw⟩ := below_iff_child.mp hb
  exact h c (ht.mem_children.mpr hc) (ht.isElement_of_within hc he hw)

/-- `next` is the first of the elements below `root` that satisfy `P`, in
document order. -/
def IsFirst (t : Links ν) (root : ν) (P : ν → Prop) (next : Option ν) : Prop :=
  (∀ m ∈ next, t.isElement m = true ∧ t.Below root m ∧ P m) ∧
    ∀ e, t.isElement e = true → t.Below root e → P e → ∃ m ∈ next, e = m ∨ t.Before m e

omit ht in
theorem IsFirst.congr {root : ν} {P Q : ν → Prop} {next : Option ν}
    (h : IsFirst t root P next)
    (hPQ : ∀ e, t.isElement e = true → t.Below root e → (P e ↔ Q e)) :
    IsFirst t root Q next := by
  refine ⟨fun m hm => ?_, fun e he hb hq => h.2 e he hb ((hPQ e he hb).mpr hq)⟩
  obtain ⟨he, hb, hp⟩ := h.1 m hm
  exact ⟨he, hb, (hPQ m he hb).mp hp⟩

/-- The elements after the subtree of a child are in the subtrees of its later
siblings, or come after the subtree of its parent. -/
theorem after_iff {p n e : ν} {before after : List ν} (h : t.children p = before ++ n :: after)
    (he : t.isElement e = true) :
    t.After n e ↔ (∃ y ∈ after, t.isElement y = true ∧ t.Within y e) ∨ t.After p e := by
  have hp := ht.parent_of_children h
  constructor
  · rintro ⟨x, y, hxy, hx, hy⟩
    obtain ⟨q, -, hq⟩ := ht.parent_of_precedes hxy
    rcases within_iff.mp hx with rfl | hx
    · exact .inl ⟨y, (ht.precedes_iff_right h).mp hxy, ht.isElement_of_within hq he hy, hy⟩
    · obtain ⟨p', hp', hx⟩ := below_iff_parent.mp hx
      rw [hp] at hp'; cases hp'
      exact .inr ⟨x, y, hxy, hx, hy⟩
  · rintro (⟨y, hy, -, hw⟩ | ha)
    · exact ⟨n, y, (ht.precedes_iff_right h).mpr hy, .refl n, hw⟩
    · exact ha.of_within (below_of_parent hp).within (.refl e)

variable [DecidableEq ν]

theorem climb_spec {root : ν} : ∀ {k : Nat} {n : ν}, t.Within root n →
    (t.ancestors n).length < k → IsFirst t root (t.After n) (t.climb root k n)
  | 0, _, _, hk => absurd hk (Nat.not_lt_zero _)
  | k + 1, n, hw, hk => by
    rw [climb]
    split
    · rename_i hn
      subst hn
      exact ⟨nofun, fun e _ hb ha => absurd hb.within (ht.not_within_of_after ha).1⟩
    · rename_i hn
      obtain ⟨p, hp, hwp⟩ := below_iff_parent.mp ((within_iff.mp hw).resolve_left hn)
      obtain ⟨before, after, hs⟩ := ht.children_of_parent hp
      rw [ht.nextElementSibling_eq hs]
      split
      · rename_i s hfind
        obtain ⟨hes, l, l', rfl, hl⟩ := List.find?_eq_some_iff_append.mp hfind
        have hns : t.Precedes n s := (ht.precedes_iff_right hs).mpr (by simp)
        have hs' : t.children p = (before ++ n :: l) ++ s :: l' := by simpa using hs
        have hps := ht.parent_of_children hs'
        refine ⟨fun m hm => ?_, fun e he hb ha => ⟨s, rfl, ?_⟩⟩
        · cases hm
          exact ⟨hes, below_iff_parent.mpr ⟨p, hps, hwp⟩, hns.after⟩
        · rcases (ht.after_iff hs he).mp ha with ⟨y, hy, hey, hw⟩ | ha
          · -- no element stands between `n` and `s`
            have hy : y ∈ s :: l' := (List.mem_append.mp hy).resolve_left fun hm => by
              simpa [hey] using hl y hm
            rcases List.mem_cons.mp hy with rfl | hy
            · exact (within_iff.mp hw).imp_right ht.before_of_below
            · exact .inr (ht.before_of_after ⟨s, y, (ht.precedes_iff_right hs').mpr hy, .refl s, hw⟩)
          · exact .inr (ht.before_of_after
              (ha.of_within (below_of_parent hps).within (.refl e)))
      · rename_i hfind
        simp only [hp]
        rw [ht.ancestors_of_parent hp, List.length_cons] at hk
        refine (climb_spec hwp (by omega)).congr fun e he _ => ?_
        rw [ht.after_iff hs he]
        refine ⟨.inr, fun h => h.resolve_left ?_⟩
        rintro ⟨y, hy, hey, -⟩
        exact List.find?_eq_none.mp hfind y hy hey

theorem nextElement_spec {root n : ν} (hw : t.Within root n) :
    IsFirst t root (t.Before n) (t.nextElement root n) := by
  rw [nextElement, ht.firstElementChild_eq]
  split
  · rename_i c hfind
    obtain ⟨hec, l, l', hs, hl⟩ := List.find?_eq_some_iff_append.mp hfind
    have hc := ht.parent_of_children hs
    refine ⟨fun m hm => ?_, fun e he hb ha => ⟨c, rfl, ?_⟩⟩
    · cases hm
      exact ⟨hec, below_iff_parent.mpr ⟨n, hc, hw⟩, ht.before_of_below (below_of_parent hc)⟩
    · rcases ht.before_iff.mp ha with hne | ha
      · obtain ⟨y, hy, hw⟩ := below_iff_child.mp hne
        have hey := ht.isElement_of_within hy he hw
        have hy : y ∈ c :: l' := (List.mem_append.mp (hs ▸ ht.mem_children.mpr hy)).resolve_left
          fun hm => by simpa [hey] using hl y hm
        rcases List.mem_cons.mp hy with rfl | hy
        · exact (within_iff.mp hw).imp_right ht.before_of_below
        · exact .inr (ht.before_of_after ⟨c, y, (ht.precedes_iff_right hs).mpr hy, .refl c, hw⟩)
      · exact .inr (ht.before_of_after (ha.of_within (below_of_parent hc).within (.refl e)))
  · rename_i hfind
    refine (ht.climb_spec hw (by have := t.length_ancestors_le n; omega)).congr
      fun e he _ => ⟨ht.before_of_after, fun hb => (ht.before_iff.mp hb).resolve_left ?_⟩
    exact ht.not_below_of_children (List.find?_eq_none.mp hfind) he

/-- A walk from any node on visits elements only, in document order. Of those
that come later it leaves out none, unless it has used up its fuel. -/
theorem follow_nextElement {root : ν} : ∀ (k : Nat) {n : ν}, t.Within root n →
    (n :: follow (t.nextElement root) k n).Pairwise t.Before ∧
    (∀ m ∈ follow (t.nextElement root) k n, t.isElement m = true ∧ t.Below root m) ∧
    ∀ e, t.isElement e = true → t.Below root e → t.Before n e →
      e ∈ follow (t.nextElement root) k n ∨
        (follow (t.nextElement root) k n).length = k ∧
          ∀ m ∈ follow (t.nextElement root) k n, t.Before m e
  | 0, n, _ => by simp [follow]
  | k + 1, n, hw => by
    obtain ⟨hnext, hfirst⟩ := ht.nextElement_spec hw
    simp only [follow]
    split
    · rename_i m hm
      obtain ⟨hem, hbm, hnm⟩ := hnext m hm
      obtain ⟨hp, hall, hrest⟩ := follow_nextElement k hbm.within
      refine ⟨List.pairwise_cons.mpr ⟨fun x hx => ?_, hp⟩, fun x hx => ?_, fun e he hb hne => ?_⟩
      · rcases List.mem_cons.mp hx with rfl | hx
        · exact hnm
        · exact ht.before_trans hnm ((List.pairwise_cons.mp hp).1 x hx)
      · rcases List.mem_cons.mp hx with rfl | hx
        · exact ⟨hem, hbm⟩
        · exact hall x hx
      · obtain ⟨m', hm', hme⟩ := hfirst e he hb hne
        rw [hm, Option.mem_some_iff] at hm'
        subst hm'
        rcases hme with rfl | hme
        · exact .inl List.mem_cons_self
        · rcases hrest e he hb hme with h | ⟨hlen, h⟩
          · exact .inl (List.mem_cons_of_mem _ h)
          · exact .inr ⟨by rw [List.length_cons, hlen], List.forall_mem_cons.mpr ⟨hme, h⟩⟩
    · rename_i hm
      refine ⟨List.pairwise_singleton _ _, fun _ h => absurd h List.not_mem_nil,
        fun e he hb hne => ?_⟩
      obtain ⟨m', hm', -⟩ := hfirst e he hb hne
      rw [hm] at hm'; cases hm'

/-- The elements below `root` are listed in document order. -/
theorem pairwise_walk (root : ν) : (t.walk root).Pairwise t.Before :=
  (List.pairwise_cons.mp (ht.follow_nextElement t.size (.refl root)).1).2

theorem mem_walk {root n : ν} : n ∈ t.walk root ↔ t.isElement n = true ∧ t.Below root n := by
  obtain ⟨-, hall, hrest⟩ := ht.follow_nextElement t.size (.refl root)
  refine ⟨hall n, fun ⟨he, hb⟩ => (hrest n he hb (ht.before_of_below hb)).resolve_right ?_⟩
  rintro ⟨hlen, hbefore⟩
  -- the walk and `n` together would be more nodes than there are
  have hn : (n :: t.walk root).Nodup := List.nodup_cons.mpr
    ⟨fun h => ht.not_before_self n (hbefore n h), ht.nodup_of_pairwise (ht.pairwise_walk root)⟩
  have hsize := ht.length_le_size hn (List.forall_mem_cons.mpr
    ⟨.inr ⟨root, hb⟩, fun m hm => .inr ⟨root, (hall m hm).2⟩⟩)
  rw [List.length_cons, walk, hlen] at hsize
  omega

end WellFormed

/-- Two lists in document order with the same members are the same. -/
theorem IsForest.eq_of_pairwise_before (ht : t.IsForest) {l l' : List ν}
    (h : l.Pairwise t.Before) (h' : l'.Pairwise t.Before) (hm : ∀ n, n ∈ l ↔ n ∈ l') : l = l' := by
  exact ((List.perm_ext_iff_of_nodup (ht.nodup_of_pairwise h)
    (ht.nodup_of_pairwise h')).mpr hm).eq_of_pairwise
    (fun a b _ _ hab hba => absurd hba (ht.before_asymm hab)) h h'

/-- What is listed is found on a walk. -/
theorem WellFormed.filter_walk_of_lists [DecidableEq ν] (ht : t.WellFormed) {scope : ν} {p : ν → Prop}
    {found : List ν} (h : t.Lists scope p found) {q : ν → Bool}
    (hq : ∀ n, t.isElement n = true → t.Below scope n → (q n = true ↔ p n)) :
    (t.walk scope).filter q = found := by
  refine ht.eq_of_pairwise_before ((ht.pairwise_walk scope).filter q) h.1 fun n => ?_
  rw [List.mem_filter, ht.mem_walk, h.2, and_assoc]
  exact and_congr_right fun he => and_congr_right fun hb => hq n he hb

end DomQuery.Tree.Links
