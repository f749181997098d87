import DomQuery.Query.Nth
import Mathlib.Data.List.Induction
import Mathlib.Data.List.Nodup
import Mathlib.Tactic.Ring

/-!
# Positions of children

A form `an+b` selects the positions that it hits for some `n ≥ 0`. They are found
by stepping from one of them to the next, in one direction or the other, and
then looked up among the children that are counted, which come in one group or in
a group for each type.

* `mem_nthIndices`: stepping finds the positions that are hit.
* `mem_selectInGroup`: a node is selected by where it stands in its group.
* `mem_selectAmong`: the group of a node is what is of its type.
-/

namespace DomQuery

open DomQuery.Selector DomQuery.Tree

/-- The form selects the position, counted from one. -/
def Selector.NthForm.Hits (form : NthForm) (position : Nat) : Prop :=
  ∃ n : Nat, form.step * n + form.offset = position

namespace Query

/-! ### Stepping -/

/-- What is reached in steps is where they begin or is reached from the next position. -/
theorem exists_step (step position : Int) (i : Nat) :
    (∃ k : Nat, position + step * k = i) ↔
      position = i ∨ ∃ k : Nat, position + step + step * k = i := by
  constructor
  · rintro ⟨_ | k, hk⟩
    · exact .inl (by simpa using hk)
    · exact .inr ⟨k, by rw [← hk]; push_cast; ring⟩
  · rintro (rfl | ⟨k, hk⟩)
    · exact ⟨0, by simp⟩
    · exact ⟨k + 1, by rw [← hk]; push_cast; ring⟩

theorem mem_stepUp {count step position : Int} {fuel i : Nat} (hs : 0 < step)
    (hf : count - position ≤ fuel) (hp : 0 ≤ position) :
    i ∈ stepUp count step fuel position ↔
      (i : Int) < count ∧ ∃ k : Nat, position + step * k = i := by
  have hup : ∀ k : Nat, 0 ≤ step * k := fun k => Int.mul_nonneg hs.le (Int.natCast_nonneg k)
  induction fuel generalizing position with
  | zero =>
    simp only [stepUp, List.not_mem_nil, false_iff]
    rintro ⟨hi, k, hk⟩
    have := hup k
    omega
  | succ fuel ih =>
    rw [stepUp]
    split
    · have hrest : i ∈ stepUp count step fuel (position + step) ↔
          (i : Int) < count ∧ ∃ k : Nat, position + step + step * k = i := ih (by omega) (by omega)
      have hhere : i = position.toNat ↔ (i : Int) < count ∧ position = i := by omega
      rw [List.mem_cons, hrest, hhere, exists_step step position, and_or_left]
    · simp only [List.not_mem_nil, false_iff]
      rintro ⟨hi, k, hk⟩
      have := hup k
      omega

theorem mem_stepDown {count step position : Int} {fuel i : Nat} (hs : step < 0)
    (hf : position < fuel) (hp : position < count) :
    i ∈ stepDown (-step) fuel position ↔
      (i : Int) < count ∧ ∃ k : Nat, position + step * k = i := by
  have hdown : ∀ k : Nat, step * k ≤ 0 := fun k =>
    Int.mul_nonpos_of_nonpos_of_nonneg hs.le (Int.natCast_nonneg k)
  induction fuel generalizing position with
  | zero =>
    simp only [stepDown, List.not_mem_nil, false_iff]
    rintro ⟨-, k, hk⟩
    have := hdown k
    omega
  | succ fuel ih =>
    rw [stepDown]
    split
    · have hrest : i ∈ stepDown (-step) fuel (position - -step) ↔
          (i : Int) < count ∧ ∃ k : Nat, position + step + step * k = i := by
        rw [Int.sub_neg]
        exact ih (by omega) (by omega)
      have hhere : i = position.toNat ↔ (i : Int) < count ∧ position = i := by omega
      rw [List.mem_cons, hrest, hhere, exists_step step position, and_or_left]
    · simp only [List.not_mem_nil, false_iff]
      rintro ⟨-, k, hk⟩
      have := hdown k
      omega

/-- A jump that passes over nothing in question leaves the rest as it was. -/
theorem exists_jump {step position : Int} {skip i : Nat} (h : ∀ k < skip, position + step * k ≠ i) :
    (∃ k : Nat, position + step * skip + step * k = i) ↔ ∃ k : Nat, position + step * k = i := by
  constructor
  · rintro ⟨k, hk⟩
    exact ⟨skip + k, by rw [← hk]; push_cast; ring⟩
  · rintro ⟨k, hk⟩
    obtain ⟨k, rfl⟩ := Nat.exists_eq_add_of_le (Nat.le_of_not_lt fun hlt => h k hlt hk)
    exact ⟨k, by rw [← hk]; push_cast; ring⟩

/-- Whole steps from below zero to the first position that is not. -/
theorem jump_up {step position : Int} (hs : 0 < step) (hp : position < 0) :
    ∃ skip : Nat, (-position + step - 1) / step = skip ∧ 0 ≤ position + step * skip ∧
      ∀ k < skip, position + step * k < 0 := by
  have hnonneg : 0 ≤ (-position + step - 1) / step := Int.ediv_nonneg (by omega) hs.le
  obtain ⟨skip, hskip⟩ := Int.eq_ofNat_of_zero_le hnonneg
  have hdiv := Int.mul_ediv_add_emod (-position + step - 1) step
  have hlt := Int.emod_lt_of_pos (-position + step - 1) hs
  have hmod := Int.emod_nonneg (-position + step - 1) hs.ne'
  rw [hskip] at hdiv
  refine ⟨skip, hskip, by omega, fun k hk => ?_⟩
  have hle : step * (k + 1) ≤ step * skip := Int.mul_le_mul_of_nonneg_left (by omega) hs.le
  rw [Int.mul_add] at hle
  omega

/-- Whole steps from `count` or above to the first position below it. -/
theorem jump_down {step position count : Int} (hs : step < 0) (hp : count ≤ position) :
    ∃ skip : Nat, (position - count + -step) / -step = skip ∧ position + step * skip < count ∧
      ∀ k < skip, count ≤ position + step * k := by
  have hnonneg : 0 ≤ (position - count + -step) / -step := Int.ediv_nonneg (by omega) (by omega)
  obtain ⟨skip, hskip⟩ := Int.eq_ofNat_of_zero_le hnonneg
  have hdiv := Int.mul_ediv_add_emod (position - count + -step) (-step)
  have hlt := Int.emod_lt_of_pos (position - count + -step) (by omega : 0 < -step)
  have hmod := Int.emod_nonneg (position - count + -step) (by omega : -step ≠ 0)
  rw [hskip, Int.neg_mul] at hdiv
  refine ⟨skip, hskip, by omega, fun k hk => ?_⟩
  have hle : step * skip ≤ step * (k + 1) := Int.mul_le_mul_of_nonpos_left hs.le (by omega)
  rw [Int.mul_add] at hle
  omega

/-- Stepping finds the positions that are hit. -/
theorem mem_nthIndices {step offset : Int} {count i : Nat} :
    i ∈ nthIndices step offset count ↔
      i < count ∧ ∃ n : Nat, step * n + offset = (i + 1 : Nat) := by
  have hshift : (∃ n : Nat, step * n + offset = (i + 1 : Nat)) ↔
      ∃ n : Nat, offset - 1 + step * n = i := exists_congr fun n => by omega
  rw [hshift]
  unfold nthIndices
  generalize offset - 1 = position
  by_cases hzero : step = 0
  · subst hzero
    simp only [beq_self_eq_true, if_true, Int.zero_mul, Int.add_zero, exists_const]
    split
    · rename_i h
      simp only [Bool.and_eq_true, decide_eq_true_eq] at h
      simp only [List.mem_singleton]
      omega
    · rename_i h
      simp only [Bool.and_eq_true, decide_eq_true_eq] at h
      simp only [List.not_mem_nil, false_iff]
      omega
  · rw [if_neg (by simpa using hzero)]
    have hcount : (i : Int) < count ↔ i < count := Int.ofNat_lt
    rw [← hcount]
    split
    · rename_i hs
      split
      · rename_i hp
        obtain ⟨skip, hskip, hstart, hout⟩ := jump_up hs hp
        rw [hskip]
        refine (mem_stepUp hs (by omega) hstart).trans (and_congr_right fun _ => ?_)
        exact exists_jump fun k hk => by have := hout k hk; omega
      · exact mem_stepUp hs (by omega) (by omega)
    · have hs : step < 0 := by omega
      simp only [List.mem_reverse]
      split
      · rename_i hp
        obtain ⟨skip, hskip, hstart, hout⟩ := jump_down hs hp
        have hjump : position - -step * skip = position + step * skip := by ring
        rw [hskip, hjump]
        refine (mem_stepDown hs hstart hstart).trans (and_congr_right fun hi => ?_)
        exact exists_jump fun k hk => by have := hout k hk; omega
      · exact mem_stepDown hs (by omega) (by omega)

/-! ### Groups -/

variable {ν : Type} {t : Links ν} {form : NthForm}

/-- In a list without repetitions, a node is looked up by its position only. -/
theorem mem_filterMap_getElem? {before after : List ν} {n : ν} (hn : (before ++ n :: after).Nodup)
    {positions : List Nat} :
    n ∈ positions.filterMap (fun i => (before ++ n :: after)[i]?) ↔ before.length ∈ positions := by
  have hat : (before ++ n :: after)[before.length]? = some n := by simp
  rw [List.mem_filterMap]
  constructor
  · rintro ⟨i, hi, hget⟩
    have hlt : before.length < (before ++ n :: after).length := by simp
    rwa [(List.getElem?_inj hlt hn).mp (hat.trans hget.symm)]
  · intro hi
    exact ⟨before.length, hi, hat⟩

/-- A node of a group is selected by its position, from the end that is counted
from. -/
theorem mem_selectInGroup {before after : List ν} {n : ν} (hn : (before ++ n :: after).Nodup) :
    n ∈ selectInGroup form (before ++ n :: after) ↔
      form.Hits ((if form.fromEnd then after else before).length + 1) := by
  have hfound : ∀ {before after : List ν}, (before ++ n :: after).Nodup →
      (n ∈ (nthIndices form.step form.offset (before ++ n :: after).length).filterMap
        (fun i => (before ++ n :: after)[i]?) ↔ form.Hits (before.length + 1)) := by
    intro before after hn
    rw [mem_filterMap_getElem? hn, mem_nthIndices]
    exact and_iff_right (by simp)
  unfold selectInGroup
  split
  · have hreverse : (before ++ n :: after).reverse = after.reverse ++ n :: before.reverse := by simp
    rw [hreverse, hfound (hreverse ▸ List.nodup_reverse.mpr hn), List.length_reverse]
  · exact hfound hn

theorem mem_of_mem_selectInGroup {group : List ν} {n : ν} (h : n ∈ selectInGroup form group) :
    n ∈ group := by
  obtain ⟨i, -, hi⟩ := List.mem_filterMap.mp h
  have hmem := List.mem_of_getElem? hi
  split at hmem
  · exact List.mem_reverse.mp hmem
  · exact hmem

/-- What makes the type of an element. -/
def typeOf (t : Links ν) (n : ν) : String × Option String × Option String :=
  (t.localName n, t.nsPrefix n, t.ns n)

theorem sameType_iff {a b : ν} : sameType t a b = true ↔ typeOf t a = typeOf t b := by
  simp [sameType, typeOf, and_assoc]

/-- One element of each type. -/
structure Heads (t : Links ν) (nodes heads : List ν) : Prop where
  mem : ∀ m ∈ heads, m ∈ nodes
  apart : heads.Pairwise fun a b => typeOf t a ≠ typeOf t b
  covers : ∀ n ∈ nodes, ∃ m ∈ heads, typeOf t m = typeOf t n

/-- The first node of a group tells the type of the group. -/
theorem any_head?_filter {nodes : List ν} {m : ν} (hm : m ∈ nodes) (n : ν) :
    (nodes.filter (sameType t m)).head?.any (sameType t n) = sameType t m n := by
  cases hh : (nodes.filter (sameType t m)).head? with
  | none =>
    have hnone := List.filter_eq_nil_iff.mp (List.head?_eq_none_iff.mp hh) m hm
    exact absurd (sameType_iff.mpr rfl) hnone
  | some first =>
    have hfirst := (List.mem_filter.mp (List.mem_of_head? hh)).2
    rw [Option.any_some, Bool.eq_iff_iff, sameType_iff, sameType_iff, sameType_iff.mp hfirst,
      eq_comm]

theorem filter_concat_of_ne {nodes : List ν} {m n : ν} (h : typeOf t m ≠ typeOf t n) :
    (nodes ++ [n]).filter (sameType t m) = nodes.filter (sameType t m) := by
  have hn : sameType t m n = false := Bool.eq_false_iff.mpr (mt sameType_iff.mp h)
  simp [List.filter_append, hn]

/-- A node of a type that is there joins its group. -/
theorem addToGroup_of_mem {nodes heads : List ν} {n : ν} (hmem : ∀ m ∈ heads, m ∈ nodes)
    (hapart : heads.Pairwise fun a b => typeOf t a ≠ typeOf t b)
    (hn : ∃ m ∈ heads, typeOf t m = typeOf t n) :
    addToGroup t n (heads.map fun m => nodes.filter (sameType t m)) =
      heads.map fun m => (nodes ++ [n]).filter (sameType t m) := by
  induction heads with
  | nil => simp at hn
  | cons m heads ih =>
    obtain ⟨hm, hmem⟩ := List.forall_mem_cons.mp hmem
    obtain ⟨hfirst, hapart⟩ := List.pairwise_cons.mp hapart
    rw [List.map_cons, List.map_cons, addToGroup, any_head?_filter hm]
    by_cases hs : typeOf t m = typeOf t n
    · have hothers : ∀ m' ∈ heads, typeOf t m' ≠ typeOf t n := fun m' hm' he =>
        hfirst m' hm' (hs.trans he.symm)
      rw [if_pos (sameType_iff.mpr hs), List.map_congr_left fun m' hm' =>
        filter_concat_of_ne (hothers m' hm')]
      simp [List.filter_append, sameType_iff.mpr hs]
    · have hothers : ∃ m' ∈ heads, typeOf t m' = typeOf t n := by simpa [hs] using hn
      rw [if_neg (mt sameType_iff.mp hs), ih hmem hapart hothers, filter_concat_of_ne hs]

/-- A node of a new type begins a group. -/
theorem addToGroup_of_not_mem {nodes heads : List ν} {n : ν} (hmem : ∀ m ∈ heads, m ∈ nodes)
    (hn : ∀ m ∈ heads, typeOf t m ≠ typeOf t n) :
    addToGroup t n (heads.map fun m => nodes.filter (sameType t m)) =
      (heads.map fun m => (nodes ++ [n]).filter (sameType t m)) ++ [[n]] := by
  induction heads with
  | nil => rfl
  | cons m heads ih =>
    obtain ⟨hm, hmem⟩ := List.forall_mem_cons.mp hmem
    obtain ⟨hs, hn⟩ := List.forall_mem_cons.mp hn
    rw [List.map_cons, List.map_cons, addToGroup, any_head?_filter hm,
      if_neg (mt sameType_iff.mp hs), ih hmem hn, filter_concat_of_ne hs]
    rfl

/-- Each type has one group, with all nodes of the type in order. -/
theorem exists_heads (t : Links ν) (nodes : List ν) : ∃ heads, Heads t nodes heads ∧
    groupByType t nodes = heads.map fun m => nodes.filter (sameType t m) := by
  induction nodes using List.reverseRecOn with
  | nil => exact ⟨[], ⟨by simp, .nil, by simp⟩, rfl⟩
  | append_singleton nodes n ih =>
    obtain ⟨heads, hheads, hgroups⟩ := ih
    have hadd : groupByType t (nodes ++ [n]) = addToGroup t n (groupByType t nodes) :=
      List.foldl_concat ..
    have hmem : ∀ m ∈ heads, m ∈ nodes ++ [n] := fun m hm =>
      List.mem_append_left _ (hheads.mem m hm)
    by_cases hn : ∃ m ∈ heads, typeOf t m = typeOf t n
    · refine ⟨heads, ⟨hmem, hheads.apart, ?_⟩, ?_⟩
      · intro x hx
        rcases List.mem_append.mp hx with hx | hx
        · exact hheads.covers x hx
        · rwa [List.mem_singleton.mp hx]
      · rw [hadd, hgroups, addToGroup_of_mem hheads.mem hheads.apart hn]
    · have hnew : ∀ m ∈ heads, typeOf t m ≠ typeOf t n := fun m hm he => hn ⟨m, hm, he⟩
      refine ⟨heads ++ [n], ⟨?_, ?_, ?_⟩, ?_⟩
      · intro m hm
        rcases List.mem_append.mp hm with hm | hm
        · exact hmem m hm
        · exact List.mem_append_right _ hm
      · exact List.pairwise_append.mpr
          ⟨hheads.apart, List.pairwise_singleton _ _, by simpa using hnew⟩
      · intro x hx
        rcases List.mem_append.mp hx with hx | hx
        · obtain ⟨m, hm, he⟩ := hheads.covers x hx
          exact ⟨m, List.mem_append_left _ hm, he⟩
        · exact ⟨n, by simp, by rw [List.mem_singleton.mp hx]⟩
      · -- nothing before it is of its type
        have hnone : nodes.filter (sameType t n) = [] := by
          refine List.filter_eq_nil_iff.mpr fun x hx he => ?_
          obtain ⟨m, hm, hmx⟩ := hheads.covers x hx
          exact hnew m hm (hmx.trans (sameType_iff.mp he).symm)
        rw [hadd, hgroups, addToGroup_of_not_mem hheads.mem hnew, List.map_append]
        simp [List.filter_append, hnone, sameType_iff]

/-- Among siblings, a node is selected by its position in the group of its type or, where types do
not matter, among all. -/
theorem mem_selectAmong {nodes : List ν} {n : ν} :
    n ∈ selectAmong t form nodes ↔
      n ∈ selectInGroup form (nodes.filter fun s => !form.ofType || sameType t n s) := by
  unfold selectAmong
  cases form.ofType with
  | false => simp
  | true =>
    obtain ⟨heads, hheads, hgroups⟩ := exists_heads t nodes
    simp only [if_true, hgroups, List.flatMap_map, List.mem_flatMap, Bool.not_true, Bool.false_or]
    have hsame : ∀ {m}, typeOf t m = typeOf t n →
        nodes.filter (sameType t m) = nodes.filter (sameType t n) := fun {m} he =>
      List.filter_congr fun s _ => by rw [Bool.eq_iff_iff, sameType_iff, sameType_iff, he]
    constructor
    · rintro ⟨m, hm, hn⟩
      have he := sameType_iff.mp (List.mem_filter.mp (mem_of_mem_selectInGroup hn)).2
      rwa [← hsame he]
    · intro hn
      obtain ⟨m, hm, he⟩ := hheads.covers n (List.mem_filter.mp (mem_of_mem_selectInGroup hn)).1
      exact ⟨m, hm, by rwa [hsame he]⟩

end Query

end DomQuery
