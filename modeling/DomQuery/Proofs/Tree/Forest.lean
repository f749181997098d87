import Mathlib.Data.List.Induction
import Mathlib.Logic.Relation
import DomQuery.Tree.Walk

/-!
# Links that describe a forest

`Links` is any six functions. They describe an ordered forest (`IsForest`) when
the children that are found by going along siblings are those that name the
node as their parent, both kinds of sibling links follow that list, and no node
lies below itself. A forest is one of a document tree (`WellFormed`) when only
documents, fragments and elements have children, and documents and fragments
are found at the top only.

Links are followed with fuel. In a forest the fuel never runs out, so the lists
it bounds satisfy the equations one expects of them: `ancestors_of_parent`,
`follow_nextSibling`, `seek_nextSibling`, `seek_previousSibling`.
-/

namespace DomQuery.Tree

section Follow

variable {ν : Type} {step : ν → Option ν}

theorem length_follow_le (step : ν → Option ν) : ∀ (k : Nat) (n : ν), (follow step k n).length ≤ k
  | 0, _ => Nat.le_refl 0
  | k + 1, n => by
    simp only [follow]
    split
    · rename_i m _
      have := length_follow_le step k m
      simp only [List.length_cons]; omega
    · exact Nat.zero_le _

/-- Where the fuel was not used up, one more step gives nothing new. -/
theorem follow_succ_of_lt : ∀ {k : Nat} {n : ν}, (follow step k n).length < k →
    follow step (k + 1) n = follow step k n
  | 0, _, h => absurd h (Nat.not_lt_zero _)
  | k + 1, n, h => by
    rw [follow, follow]
    simp only [follow] at h
    split
    · rename_i m hm
      simp only [hm, List.length_cons] at h
      rw [follow_succ_of_lt (k := k) (n := m) (by omega)]
    · rfl

/-- Steps along a list lead through what is left of it. -/
theorem follow_eq_of_step {l : List ν}
    (hstep : ∀ before n after, l = before ++ n :: after → step n = after.head?)
    {before : List ν} {n : ν} {after : List ν} {k : Nat} (h : l = before ++ n :: after)
    (hk : after.length ≤ k) : follow step k n = after := by
  induction after generalizing before n k with
  | nil =>
    cases k with
    | zero => rfl
    | succ k => simp only [follow, hstep _ _ _ h, List.head?_nil]
  | cons m after ih =>
    obtain ⟨k, rfl⟩ : ∃ j, k = j + 1 := Nat.exists_eq_succ_of_ne_zero (by rintro rfl; simp at hk)
    have h' : l = (before ++ [n]) ++ m :: after := by simpa using h
    simp only [follow, hstep _ _ _ h, List.head?_cons]
    rw [ih h' (by simpa using hk)]

/-- Steps that never lead back lead to a new node each. -/
theorem nodup_follow (hback : ∀ n, ¬ Relation.TransGen (fun m n => step n = some m) n n) :
    ∀ (k : Nat) (n : ν),
      (∀ m ∈ follow step k n, Relation.TransGen (fun m n => step n = some m) m n) ∧
        (n :: follow step k n).Nodup
  | 0, n => by simp [follow]
  | k + 1, n => by
    simp only [follow]
    split
    · rename_i p hp
      obtain ⟨hb, hn⟩ := nodup_follow hback k p
      have hall : ∀ m ∈ p :: follow step k p,
          Relation.TransGen (fun m n => step n = some m) m n := fun m hm => by
        rcases List.mem_cons.mp hm with rfl | hm
        · exact .single hp
        · exact (hb m hm).tail hp
      exact ⟨hall, List.nodup_cons.mpr ⟨fun h => hback n (hall n h), hn⟩⟩
    · exact ⟨fun _ h => absurd h List.not_mem_nil, by simp⟩

end Follow

/-- A chain uses a pair that was added to a relation, or is one without it. -/
theorem transGen_of_insert {α : Type} {R R' : α → α → Prop} {p n : α}
    (hstep : ∀ {x y}, R' x y → R x y ∨ x = p ∧ y = n) {a b : α}
    (h : Relation.TransGen R' a b) :
    Relation.TransGen R a b ∨ Relation.ReflTransGen R a p ∧ Relation.ReflTransGen R n b := by
  induction h with
  | single hab =>
    rcases hstep hab with hab | ⟨rfl, rfl⟩
    · exact .inl (.single hab)
    · exact .inr ⟨.refl, .refl⟩
  | tail _ hbc ih =>
    rcases hstep hbc with hbc | ⟨rfl, rfl⟩
    · exact ih.imp (·.tail hbc) fun ⟨ha, hb⟩ => ⟨ha, hb.tail hbc⟩
    · rcases ih with hab | ⟨ha, -⟩
      · exact .inr ⟨hab.to_reflTransGen, .refl⟩
      · exact .inr ⟨ha, .refl⟩

namespace Links

variable {ν : Type} (t : Links ν)

/-- `n` lies strictly below `top`. -/
def Below (top n : ν) : Prop :=
  Relation.TransGen (fun p c => t.parent c = some p) top n

/-- `n` is `top` or lies below it. -/
def Within (top n : ν) : Prop :=
  Relation.ReflTransGen (fun p c => t.parent c = some p) top n

/-- `a` and `b` are siblings, and `a` comes first. -/
def Precedes (a b : ν) : Prop :=
  ∃ p before between after, t.children p = before ++ a :: (between ++ b :: after)

/-- The links describe an ordered forest with at most `size` nodes. -/
structure IsForest : Prop where
  finite : ∃ nodes : List ν, nodes.length ≤ t.size ∧
    ∀ n p, t.parent n = some p → n ∈ nodes ∧ p ∈ nodes
  acyclic : ∀ n, ¬ t.Below n n
  mem_children : ∀ {p n}, n ∈ t.children p ↔ t.parent n = some p
  nodup_children : ∀ p, (t.children p).Nodup
  lastChild_eq : ∀ p, t.lastChild p = (t.children p).getLast?
  nextSibling_eq : ∀ {p before n after}, t.children p = before ++ n :: after →
    t.nextSibling n = after.head?
  previousSibling_eq : ∀ {p before n after}, t.children p = before ++ n :: after →
    t.previousSibling n = before.getLast?

/-- The links describe trees of documents, fragments and loose elements. -/
structure WellFormed : Prop extends IsForest t where
  /-- Nodes of other kinds have no children. -/
  kind_of_parent : ∀ {n p}, t.parent n = some p →
    t.kind p = .document ∨ t.kind p = .fragment ∨ t.kind p = .element
  /-- Documents and fragments are at the top. -/
  kind_of_child : ∀ {n p}, t.parent n = some p → t.kind n ≠ .document ∧ t.kind n ≠ .fragment

variable {t}

/-! ## Below and within -/

theorem within_iff {a b : ν} : t.Within a b ↔ b = a ∨ t.Below a b :=
  Relation.reflTransGen_iff_eq_or_transGen

theorem Within.refl (a : ν) : t.Within a a :=
  Relation.ReflTransGen.refl

theorem Below.within {a b : ν} (h : t.Below a b) : t.Within a b :=
  Relation.TransGen.to_reflTransGen h

theorem Within.trans {a b c : ν} (h : t.Within a b) (h' : t.Within b c) : t.Within a c :=
  Relation.ReflTransGen.trans h h'

theorem Below.trans {a b c : ν} (h : t.Below a b) (h' : t.Below b c) : t.Below a c :=
  Relation.TransGen.trans h h'

theorem Within.trans_below {a b c : ν} (h : t.Within a b) (h' : t.Below b c) : t.Below a c :=
  Relation.TransGen.trans_right h h'

theorem below_of_parent {p n : ν} (h : t.parent n = some p) : t.Below p n :=
  Relation.TransGen.single h

/-- What lies below `a` has a parent, and that is `a` or lies below it. -/
theorem below_iff_parent {a n : ν} : t.Below a n ↔ ∃ p, t.parent n = some p ∧ t.Within a p := by
  rw [Below, Relation.TransGen.tail'_iff]
  exact ⟨fun ⟨p, hw, hp⟩ => ⟨p, hp, hw⟩, fun ⟨p, hp, hw⟩ => ⟨p, hw, hp⟩⟩

/-- What lies below `a` is one of its children or lies below one. -/
theorem below_iff_child {a n : ν} : t.Below a n ↔ ∃ c, t.parent c = some a ∧ t.Within c n :=
  Relation.TransGen.head'_iff

theorem not_below_of_parent_none {a n : ν} (h : t.parent n = none) : ¬ t.Below a n := fun hb => by
  obtain ⟨p, hp, -⟩ := below_iff_parent.mp hb
  rw [h] at hp; cases hp

/-- Of two nodes above a third, one is above the other. -/
theorem Within.comparable {a b n : ν} (ha : t.Within a n) (hb : t.Within b n) :
    t.Within a b ∨ t.Below b a := by
  induction hb with
  | refl => exact .inl ha
  | tail hm hn ih =>
    rcases within_iff.mp ha with rfl | h
    · exact .inr (Relation.TransGen.tail' hm hn)
    · obtain ⟨p, hp, hw⟩ := below_iff_parent.mp h
      rw [hn] at hp; cases hp
      exact ih hw

/-! ## Ancestors -/

theorem ancestors_of_parent_none {n : ν} (hp : t.parent n = none) : t.ancestors n = [] := by
  rw [ancestors]
  cases t.size with
  | zero => rfl
  | succ k => simp only [follow, hp]

theorem length_ancestors_le (n : ν) : (t.ancestors n).length ≤ t.size :=
  length_follow_le _ _ _

theorem head?_children (p : ν) : (t.children p).head? = t.firstChild p := by
  rw [children]
  split <;> rename_i h <;> rw [h] <;> rfl

namespace IsForest

variable (ht : t.IsForest)

include ht

/-- Two nodes are not below each other. -/
theorem not_below_of_within {a b : ν} (h : t.Within a b) : ¬ t.Below b a := fun hb =>
  ht.acyclic a (h.trans_below hb)

theorem within_antisymm {a b : ν} (h : t.Within a b) (h' : t.Within b a) : a = b :=
  (within_iff.mp h').resolve_right (ht.not_below_of_within h)

/-- The nodes on the way up are above `n`, and different. -/
theorem follow_parent (k : Nat) (n : ν) : (∀ m ∈ follow t.parent k n, t.Below m n) ∧
    (n :: follow t.parent k n).Nodup :=
  nodup_follow ht.acyclic k n

/-- Different nodes that are above or below others are no more than the bound. -/
theorem length_le_size {l : List ν} (hnodup : l.Nodup)
    (h : ∀ n ∈ l, (∃ m, t.Below n m) ∨ ∃ m, t.Below m n) : l.length ≤ t.size := by
  obtain ⟨nodes, hsize, hmem⟩ := ht.finite
  refine Nat.le_trans (hnodup.length_le_of_subset fun n hn => ?_) hsize
  rcases h n hn with ⟨m, hm⟩ | ⟨m, hm⟩
  · obtain ⟨c, hc, -⟩ := below_iff_child.mp hm
    exact (hmem _ _ hc).2
  · obtain ⟨p, hp, -⟩ := below_iff_parent.mp hm
    exact (hmem _ _ hp).1

/-- The way up is shorter than the bound on it. -/
theorem length_follow_parent {p n : ν} (hp : t.parent n = some p) (k : Nat) :
    (follow t.parent k n).length < t.size := by
  obtain ⟨hb, hn⟩ := ht.follow_parent k n
  exact ht.length_le_size hn (List.forall_mem_cons.mpr
    ⟨.inr ⟨p, below_of_parent hp⟩, fun m hm => .inl ⟨n, hb m hm⟩⟩)

theorem ancestors_of_parent {p n : ν} (hp : t.parent n = some p) :
    t.ancestors n = p :: t.ancestors p := by
  have hlt := ht.length_follow_parent hp t.size
  obtain ⟨k, hk⟩ : ∃ k, t.size = k + 1 := ⟨t.size - 1, by omega⟩
  rw [ancestors, ancestors, hk, follow]
  simp only [hp]
  rw [hk, follow] at hlt
  simp only [hp, List.length_cons] at hlt
  rw [follow_succ_of_lt (by omega)]

/-- To show something of all nodes, show it of those at the top, and of every
node whose parent it is true of. -/
theorem induction {motive : ν → Prop} (top : ∀ n, t.parent n = none → motive n)
    (child : ∀ n p, t.parent n = some p → motive p → motive n) (n : ν) : motive n := by
  generalize hk : (t.ancestors n).length = k
  induction k generalizing n with
  | zero =>
    cases hp : t.parent n with
    | none => exact top n hp
    | some p => rw [ht.ancestors_of_parent hp] at hk; cases hk
  | succ k ih =>
    cases hp : t.parent n with
    | none => exact top n hp
    | some p =>
      rw [ht.ancestors_of_parent hp] at hk
      exact child n p hp (ih p (Nat.succ.inj hk))

theorem mem_ancestors {a n : ν} : a ∈ t.ancestors n ↔ t.Below a n := by
  induction n using ht.induction with
  | top n hp =>
    rw [ancestors_of_parent_none hp]
    exact iff_of_false List.not_mem_nil (not_below_of_parent_none hp)
  | child n p hp ih =>
    rw [ht.ancestors_of_parent hp, List.mem_cons, ih, below_iff_parent (n := n)]
    constructor
    · exact fun h => ⟨p, hp, within_iff.mpr (h.imp_left Eq.symm)⟩
    · rintro ⟨q, hq, hw⟩
      rw [hp] at hq; cases hq
      exact (within_iff.mp hw).imp_left Eq.symm

/-- The nearest ancestors come first. -/
theorem pairwise_ancestors (n : ν) : (t.ancestors n).Pairwise fun m a => t.Below a m := by
  induction n using ht.induction with
  | top n hp =>
    rw [ancestors_of_parent_none hp]
    exact .nil
  | child n p hp ih =>
    rw [ht.ancestors_of_parent hp]
    exact List.pairwise_cons.mpr ⟨fun a ha => ht.mem_ancestors.mp ha, ih⟩

theorem contains_iff [DecidableEq ν] {a n : ν} : t.contains a n = true ↔ t.Within a n := by
  rw [contains, Bool.or_eq_true, beq_iff_eq, List.contains_iff_mem, ht.mem_ancestors, within_iff]

/-! ## Siblings -/

theorem parent_of_children {p n : ν} {before after : List ν}
    (h : t.children p = before ++ n :: after) : t.parent n = some p :=
  ht.mem_children.mp (h ▸ List.mem_append_right _ List.mem_cons_self)

theorem children_of_parent {p n : ν} (h : t.parent n = some p) :
    ∃ before after, t.children p = before ++ n :: after :=
  List.append_of_mem (ht.mem_children.mpr h)

theorem length_children_le (p : ν) : (t.children p).length ≤ t.size :=
  ht.length_le_size (ht.nodup_children p) fun _ hc =>
    .inr ⟨p, below_of_parent (ht.mem_children.mp hc)⟩

/-- A list of children splits around a child in one way only. -/
theorem split_unique {p n : ν} {before before' after after' : List ν}
    (h : t.children p = before ++ n :: after) (h' : t.children p = before' ++ n :: after') :
    before = before' ∧ after = after' := by
  have hn := ht.nodup_children p
  rw [h] at hn
  have hmem : n ∉ before := fun hm =>
    (List.nodup_append.mp hn).2.2 n hm n List.mem_cons_self rfl
  have hmem' : n ∉ before' := fun hm => by
    have hn' := ht.nodup_children p
    rw [h'] at hn'
    exact (List.nodup_append.mp hn').2.2 n hm n List.mem_cons_self rfl
  have he := h.symm.trans h'
  rcases List.append_eq_append_iff.mp he with ⟨l, rfl, hl⟩ | ⟨l, rfl, hl⟩
  · cases l with
    | nil => simpa using hl
    | cons a l =>
      rw [List.cons_append] at hl
      exact absurd (List.mem_append_right _ (by simp [(List.cons.inj hl).1])) hmem'
  · cases l with
    | nil => simpa [eq_comm] using hl
    | cons a l =>
      rw [List.cons_append] at hl
      exact absurd (List.mem_append_right _ (by simp [(List.cons.inj hl).1])) hmem

theorem follow_nextSibling {p n : ν} {before after : List ν} {k : Nat}
    (h : t.children p = before ++ n :: after) (hk : after.length ≤ k) :
    follow t.nextSibling k n = after :=
  follow_eq_of_step (fun _ _ _ h => ht.nextSibling_eq h) h hk

theorem follow_previousSibling {p n : ν} {before after : List ν} {k : Nat}
    (h : t.children p = before ++ n :: after) (hk : before.length ≤ k) :
    follow t.previousSibling k n = before.reverse := by
  have hstep : ∀ before n after, (t.children p).reverse = before ++ n :: after →
      t.previousSibling n = after.head? := by
    intro before n after hs
    have hs : t.children p = after.reverse ++ n :: before.reverse := by
      simpa using congrArg List.reverse hs
    rw [ht.previousSibling_eq hs, List.getLast?_reverse]
  have h' : (t.children p).reverse = after.reverse ++ n :: before.reverse := by simp [h]
  exact follow_eq_of_step hstep h' (by simpa using hk)

theorem seek_nextSibling {p : ν} {before after : List ν} {k : Nat} (test : ν → Bool)
    (h : t.children p = before ++ after) (hk : after.length ≤ k) :
    seek t.nextSibling test k after.head? = after.find? test := by
  induction after generalizing before k with
  | nil => simp only [List.head?_nil, seek, List.find?_nil]
  | cons m after ih =>
    obtain ⟨k, rfl⟩ : ∃ j, k = j + 1 := Nat.exists_eq_succ_of_ne_zero (by rintro rfl; simp at hk)
    have h' : t.children p = (before ++ [m]) ++ after := by simpa using h
    rw [List.head?_cons, seek, List.find?_cons, ht.nextSibling_eq h, ih h' (by simpa using hk)]
    cases test m <;> rfl

theorem seek_previousSibling {p : ν} {before after : List ν} {k : Nat} (test : ν → Bool)
    (h : t.children p = before ++ after) (hk : before.length ≤ k) :
    seek t.previousSibling test k before.getLast? = before.reverse.find? test := by
  induction before using List.reverseRecOn generalizing after k with
  | nil => simp only [List.getLast?_nil, seek, List.reverse_nil, List.find?_nil]
  | append_singleton before m ih =>
    obtain ⟨k, rfl⟩ : ∃ j, k = j + 1 := Nat.exists_eq_succ_of_ne_zero (by rintro rfl; simp at hk)
    have h' : t.children p = before ++ m :: after := by simpa using h
    rw [List.getLast?_concat, seek, List.reverse_concat, List.find?_cons, ht.previousSibling_eq h',
      ih h' (by simpa using hk)]
    cases test m <;> rfl

theorem firstElementChild_eq (p : ν) :
    t.firstElementChild p = (t.children p).find? t.isElement := by
  have h : t.children p = [] ++ t.children p := rfl
  rw [firstElementChild, ← head?_children]
  exact ht.seek_nextSibling _ h (ht.length_children_le p)

section Split

variable {p n : ν} {before after : List ν} (h : t.children p = before ++ n :: after)

include h

theorem length_split_le : before.length ≤ t.size ∧ after.length ≤ t.size := by
  have := ht.length_children_le p
  rw [h, List.length_append, List.length_cons] at this
  omega

theorem nextElementSibling_eq : t.nextElementSibling n = after.find? t.isElement := by
  have h' : t.children p = (before ++ [n]) ++ after := by simpa using h
  rw [nextElementSibling, ht.nextSibling_eq h]
  exact ht.seek_nextSibling _ h' (ht.length_split_le h).2

theorem previousElementSibling_eq :
    t.previousElementSibling n = before.reverse.find? t.isElement := by
  rw [previousElementSibling, ht.previousSibling_eq h]
  exact ht.seek_previousSibling _ h (ht.length_split_le h).1

theorem precedes_iff_right {m : ν} : t.Precedes n m ↔ m ∈ after := by
  constructor
  · rintro ⟨q, before', between, after', hq⟩
    have hp := ht.parent_of_children h
    rw [ht.parent_of_children hq] at hp; cases hp
    rw [(ht.split_unique h hq).2]
    exact List.mem_append_right _ List.mem_cons_self
  · intro hm
    obtain ⟨between, after', rfl⟩ := List.append_of_mem hm
    exact ⟨p, before, between, after', h⟩

theorem precedes_iff_left {m : ν} : t.Precedes m n ↔ m ∈ before := by
  constructor
  · rintro ⟨q, before', between, after', hq⟩
    have hq' : t.children q = (before' ++ m :: between) ++ n :: after' := by simpa using hq
    have hp := ht.parent_of_children h
    rw [ht.parent_of_children hq'] at hp; cases hp
    rw [(ht.split_unique h hq').1]
    exact List.mem_append_right _ List.mem_cons_self
  · intro hm
    obtain ⟨before', between, rfl⟩ := List.append_of_mem hm
    exact ⟨p, before', between, after, by simpa using h⟩

end Split

theorem parent_of_precedes {a b : ν} (h : t.Precedes a b) :
    ∃ p, t.parent a = some p ∧ t.parent b = some p := by
  obtain ⟨p, before, between, after, h⟩ := h
  have h' : t.children p = (before ++ a :: between) ++ b :: after := by simpa using h
  exact ⟨p, ht.parent_of_children h, ht.parent_of_children h'⟩

theorem not_precedes_self (a : ν) : ¬ t.Precedes a a := fun h => by
  obtain ⟨p, hp, -⟩ := ht.parent_of_precedes h
  obtain ⟨before, after, hs⟩ := ht.children_of_parent hp
  have hn := ht.nodup_children p
  rw [hs] at hn
  exact (List.nodup_cons.mp (List.nodup_append.mp hn).2.1).1 ((ht.precedes_iff_right hs).mp h)

theorem precedes_trans {a b c : ν} (h : t.Precedes a b) (h' : t.Precedes b c) :
    t.Precedes a c := by
  obtain ⟨p, before, between, after, hs⟩ := h
  have hs' : t.children p = (before ++ a :: between) ++ b :: after := by simpa using hs
  have hc := (ht.precedes_iff_right hs').mp h'
  refine (ht.precedes_iff_right hs).mpr (List.mem_append_right _ (List.mem_cons_of_mem _ hc))

theorem precedes_total {p a b : ν} (ha : t.parent a = some p) (hb : t.parent b = some p) :
    a = b ∨ t.Precedes a b ∨ t.Precedes b a := by
  obtain ⟨before, after, hs⟩ := ht.children_of_parent ha
  have hm := ht.mem_children.mpr hb
  rw [hs, List.mem_append, List.mem_cons] at hm
  rcases hm with hm | rfl | hm
  · exact .inr (.inr ((ht.precedes_iff_left hs).mpr hm))
  · exact .inl rfl
  · exact .inr (.inl ((ht.precedes_iff_right hs).mpr hm))

/-- Siblings are not inside of each other. -/
theorem not_within_of_precedes {a b : ν} (h : t.Precedes a b) :
    ¬ t.Within a b ∧ ¬ t.Within b a := by
  obtain ⟨p, ha, hb⟩ := ht.parent_of_precedes h
  -- from one sibling inside of the other, their parent lies within it too
  have key : ∀ {x y : ν}, t.parent x = some p → t.parent y = some p → x ≠ y → ¬ t.Within x y :=
    fun hx hy hne hw => by
      rcases within_iff.mp hw with he | hw
      · exact hne he.symm
      · obtain ⟨q, hq, hw⟩ := below_iff_parent.mp hw
        rw [hy] at hq; cases hq
        exact ht.not_below_of_within hw (below_of_parent hx)
  have hne : a ≠ b := fun he => ht.not_precedes_self a (he ▸ h)
  exact ⟨key ha hb hne, key hb ha hne.symm⟩

theorem precedesSibling_iff [DecidableEq ν] {p a b : ν} (ha : t.parent a = some p) :
    t.precedesSibling a b = true ↔ t.Precedes a b := by
  obtain ⟨before, after, hs⟩ := ht.children_of_parent ha
  have hs' : t.children p = (before ++ [a]) ++ after := by simpa using hs
  rw [precedesSibling, ht.nextSibling_eq hs, ht.precedes_iff_right hs,
    ht.seek_nextSibling _ hs' (ht.length_split_le hs).2, List.find?_isSome]
  simp

end IsForest

end Links

end DomQuery.Tree
