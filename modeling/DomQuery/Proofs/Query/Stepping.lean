import DomQuery.Proofs.Css.Sound
import DomQuery.Proofs.Query.Positions

/-!
# Stepping in words of 64 bits

Positions are stepped through with integers of any size. Here the same is done in words,
every intermediate value on its own, and there is no result once one of them does not fit.
For forms of 32 bits and up to `2 ^ 62` items, all of them fit.

* `pairwise_nthIndices`: positions come in ascending order.
* `stepUp?_eq`, `stepDown?_eq`: the loops end, without an overflow.
* `nthIndices_in_words`: the positions that are hit are found in words.
-/

namespace DomQuery.Query

open DomQuery.Css

/-! ### Words -/

/-- The integer, if it fits into a word. -/
def word? (i : Int) : Option Int :=
  if -9223372036854775808 ≤ i ∧ i ≤ 9223372036854775807 then some i else none

/-- As many items as can be counted in a word. -/
def wordCount (count : Nat) : Int :=
  min count 9223372036854775807

/-- The position as an index. One below zero has none. -/
def index? (position : Int) : Option Nat :=
  if 0 ≤ position then some position.toNat else none

/-- The first position in steps from below zero that is not. -/
def jumpUp? (step position : Int) : Option Int := do
  let below ← word? (-position)
  let more ← word? (below + step)
  let most ← word? (more - 1)
  let skip ← word? (most.tdiv step)
  let jump ← word? (step * skip)
  word? (position + jump)

/-- The first position in strides from `count` or above that is below it. -/
def jumpDown? (count stride position : Int) : Option Int := do
  let above ← word? (position - count)
  let more ← word? (above + stride)
  let skip ← word? (more.tdiv stride)
  let jump ← word? (stride * skip)
  word? (position - jump)

/-- Steps through positions up to `count`, and ends within the fuel. -/
def stepUp? (count step : Int) : Nat → Int → Option (List Nat)
  | 0, _ => none
  | fuel + 1, position =>
    if position < count then do
      let next ← word? (position + step)
      let later ← stepUp? count step fuel next
      return (index? position).toList ++ later
    else some []

/-- Steps through positions down to zero, and ends within the fuel. -/
def stepDown? (stride : Int) : Nat → Int → Option (List Nat)
  | 0, _ => none
  | fuel + 1, position =>
    if 0 ≤ position then do
      let next ← word? (position - stride)
      let later ← stepDown? stride fuel next
      return (index? position).toList ++ later
    else some []

/-- The positions that `nthIndices` gives, in words and with this much fuel for its loop. -/
def nthIndices? (step offset : Int) (count fuel : Nat) : Option (List Nat) := do
  let position ← word? (offset - 1)
  if step == 0 then
    return if 0 ≤ position && position < wordCount count then (index? position).toList else []
  else if 0 < step then
    let start ← if position < 0 then jumpUp? step position else some position
    stepUp? (wordCount count) step fuel start
  else
    let stride ← word? (-step)
    let start ←
      if wordCount count ≤ position then jumpDown? (wordCount count) stride position
      else some position
    return (← stepDown? stride fuel start).reverse

theorem word?_eq {i : Int} (h : -9223372036854775808 ≤ i) (h' : i ≤ 9223372036854775807) :
    word? i = some i :=
  if_pos ⟨h, h'⟩

theorem index?_eq {position : Int} (h : 0 ≤ position) : index? position = some position.toNat :=
  if_pos h

theorem wordCount_eq {count : Nat} (h : count ≤ 4611686018427387904) : wordCount count = count := by
  unfold wordCount
  omega

/-! ### Order -/

theorem pairwise_stepUp {count step : Int} (hs : 0 < step) {fuel : Nat} {position : Int}
    (hp : 0 ≤ position) : (stepUp count step fuel position).Pairwise (· < ·) ∧
      ∀ i ∈ stepUp count step fuel position, position ≤ i := by
  induction fuel generalizing position with
  | zero => exact ⟨.nil, List.forall_mem_nil _⟩
  | succ fuel ih =>
    have hnext : 0 ≤ position + step := by omega
    obtain ⟨hlater, hfrom⟩ := ih hnext
    rw [stepUp]
    split
    · refine ⟨List.pairwise_cons.mpr ⟨fun i hi => ?_, hlater⟩,
        List.forall_mem_cons.mpr ⟨by omega, fun i hi => ?_⟩⟩
      all_goals
        have := hfrom i hi
        omega
    · exact ⟨.nil, List.forall_mem_nil _⟩

theorem pairwise_stepDown {stride : Int} (hs : 0 < stride) {fuel : Nat} {position : Int} :
    (stepDown stride fuel position).Pairwise (· > ·) ∧
      ∀ i ∈ stepDown stride fuel position, (i : Int) ≤ position := by
  induction fuel generalizing position with
  | zero => exact ⟨.nil, List.forall_mem_nil _⟩
  | succ fuel ih =>
    obtain ⟨hlater, hfrom⟩ := @ih (position - stride)
    rw [stepDown]
    split
    · refine ⟨List.pairwise_cons.mpr ⟨fun i hi => ?_, hlater⟩,
        List.forall_mem_cons.mpr ⟨by omega, fun i hi => ?_⟩⟩
      all_goals
        have := hfrom i hi
        omega
    · exact ⟨.nil, List.forall_mem_nil _⟩

/-- Positions come in ascending order. -/
theorem pairwise_nthIndices (step offset : Int) (count : Nat) :
    (nthIndices step offset count).Pairwise (· < ·) := by
  unfold nthIndices
  generalize offset - 1 = position
  by_cases hzero : step = 0
  · simp only [hzero, beq_self_eq_true, if_true]
    split
    · exact List.pairwise_singleton _ _
    · exact .nil
  · rw [if_neg (by simpa using hzero)]
    split
    · rename_i hs
      split
      · rename_i hp
        obtain ⟨skip, hskip, hstart, -⟩ := jump_up hs hp
        rw [hskip]
        exact (pairwise_stepUp hs hstart).1
      · exact (pairwise_stepUp hs (by omega)).1
    · exact List.pairwise_reverse.mpr (pairwise_stepDown (by omega)).1

/-! ### Loops -/

/-- No position is beyond the count by more than a step, and each of them is another one. -/
theorem stepUp?_eq {count step : Int} (hs : 0 < step) (hrange : InRange step)
    (hc : count ≤ 4611686018427387904) : ∀ {k fuel : Nat} {position : Int}, k < fuel →
    0 ≤ position → count - position ≤ k →
    stepUp? count step fuel position = some (stepUp count step k position)
  | _, 0, _, hfuel, _, _ => absurd hfuel (Nat.not_lt_zero _)
  | 0, fuel + 1, position, _, _, hk => by
    rw [stepUp?, stepUp, if_neg (by omega)]
  | k + 1, fuel + 1, position, hfuel, hp, hk => by
    rw [stepUp?, stepUp]
    split
    · unfold InRange at hrange
      rw [word?_eq (by omega) (by omega), index?_eq hp, Option.bind_eq_bind, Option.bind_some,
        stepUp?_eq hs hrange hc (Nat.lt_of_succ_lt_succ hfuel) (by omega) (by omega)]
      rfl
    · rfl

/-- No position is below zero by more than a stride. -/
theorem stepDown?_eq {stride : Int} (hs : 0 < stride) (hstride : stride ≤ 2147483648) :
    ∀ {k fuel : Nat} {position : Int}, k < fuel → position < k →
    position ≤ 4611686018427387904 →
    stepDown? stride fuel position = some (stepDown stride k position)
  | _, 0, _, hfuel, _, _ => absurd hfuel (Nat.not_lt_zero _)
  | 0, fuel + 1, position, _, hk, _ => by
    rw [stepDown?, stepDown, if_neg (by omega)]
  | k + 1, fuel + 1, position, hfuel, hk, hp => by
    rw [stepDown?, stepDown]
    split
    · rename_i hpos
      rw [word?_eq (by omega) (by omega), index?_eq hpos, Option.bind_eq_bind, Option.bind_some,
        stepDown?_eq hs hstride (Nat.lt_of_succ_lt_succ hfuel) (by omega) (by omega)]
      rfl
    · rfl

/-! ### Jumps -/

/-- A jump up ends before it has passed zero by a whole step. -/
theorem jumpUp?_eq {step position : Int} (hs : 0 < step) (hrange : InRange step)
    (hp : position < 0) (hlow : -2147483649 ≤ position) :
    jumpUp? step position = some (position + step * ((-position + step - 1) / step)) := by
  have hdiv := Int.mul_ediv_add_emod (-position + step - 1) step
  have hlt := Int.emod_lt_of_pos (-position + step - 1) hs
  have hmod := Int.emod_nonneg (-position + step - 1) hs.ne'
  have hnonneg : 0 ≤ (-position + step - 1) / step := Int.ediv_nonneg (by omega) hs.le
  have hle : (-position + step - 1) / step ≤ -position + step - 1 :=
    Int.ediv_le_self _ (by omega)
  have htdiv : (-position + step - 1).tdiv step = (-position + step - 1) / step :=
    Int.tdiv_eq_ediv_of_nonneg (by omega)
  unfold InRange at hrange
  simp only [jumpUp?, Option.bind_eq_bind]
  rw [word?_eq (by omega) (by omega), Option.bind_some, word?_eq (by omega) (by omega),
    Option.bind_some, word?_eq (by omega) (by omega), Option.bind_some, htdiv,
    word?_eq (by omega) (by omega), Option.bind_some, word?_eq (by omega) (by omega),
    Option.bind_some, word?_eq (by omega) (by omega)]

/-- A jump down ends before it has passed the last position by a whole stride. -/
theorem jumpDown?_eq {count stride position : Int} (hs : 0 < stride) (hstride : stride ≤ 2147483648)
    (hc : 0 ≤ count) (hp : count ≤ position) (hhigh : position ≤ 2147483647) :
    jumpDown? count stride position =
      some (position - stride * ((position - count + stride) / stride)) := by
  have hdiv := Int.mul_ediv_add_emod (position - count + stride) stride
  have hlt := Int.emod_lt_of_pos (position - count + stride) hs
  have hmod := Int.emod_nonneg (position - count + stride) hs.ne'
  have hnonneg : 0 ≤ (position - count + stride) / stride := Int.ediv_nonneg (by omega) hs.le
  have hle : (position - count + stride) / stride ≤ position - count + stride :=
    Int.ediv_le_self _ (by omega)
  have htdiv : (position - count + stride).tdiv stride = (position - count + stride) / stride :=
    Int.tdiv_eq_ediv_of_nonneg (by omega)
  simp only [jumpDown?, Option.bind_eq_bind]
  rw [word?_eq (by omega) (by omega), Option.bind_some, word?_eq (by omega) (by omega),
    Option.bind_some, htdiv, word?_eq (by omega) (by omega), Option.bind_some,
    word?_eq (by omega) (by omega), Option.bind_some, word?_eq (by omega) (by omega)]

/-! ### Positions -/

variable {step offset : Int} {count : Nat}

/-- Any fuel beyond the number of items is enough. -/
theorem nthIndices?_eq (hs : InRange step) (ho : InRange offset)
    (hc : count ≤ 4611686018427387904) {fuel : Nat} (hfuel : count < fuel) :
    nthIndices? step offset count fuel = some (nthIndices step offset count) := by
  have ho' := ho
  have hs' := hs
  unfold InRange at ho' hs'
  unfold nthIndices? nthIndices
  rw [word?_eq (by omega) (by omega), wordCount_eq hc]
  simp only [Option.bind_eq_bind, Option.bind_some]
  by_cases hzero : step = 0
  · simp only [hzero, beq_self_eq_true, if_true]
    split
    · rename_i h
      simp only [Bool.and_eq_true, decide_eq_true_eq] at h
      rw [index?_eq h.1]
      rfl
    · rfl
  have hne : ¬ (step == 0) = true := by simpa using hzero
  rw [if_neg hne, if_neg hne]
  by_cases hpos : 0 < step
  · rw [if_pos hpos, if_pos hpos]
    split
    · rename_i hp
      obtain ⟨skip, hskip, hstart, -⟩ := jump_up hpos hp
      rw [jumpUp?_eq hpos hs hp (by omega), Option.bind_some, hskip]
      exact stepUp?_eq hpos hs (by omega) hfuel hstart (by omega)
    · exact stepUp?_eq hpos hs (by omega) hfuel (by omega) (by omega)
  · have hneg : step < 0 := by omega
    rw [if_neg hpos, if_neg hpos, word?_eq (by omega) (by omega), Option.bind_some]
    split
    · rename_i hp
      obtain ⟨skip, hskip, hstart, -⟩ := jump_down hneg hp
      have hjump : offset - 1 - -step * skip = offset - 1 + step * skip := by ring
      have hend : stepDown? (-step) fuel (offset - 1 + step * skip) =
          some (stepDown (-step) count (offset - 1 + step * skip)) :=
        stepDown?_eq (by omega) (by omega) hfuel (by omega) (by omega)
      rw [jumpDown?_eq (by omega) (by omega) (by omega) hp (by omega), Option.bind_some, hskip,
        hjump, hend]
      rfl
    · have hend : stepDown? (-step) fuel (offset - 1) =
          some (stepDown (-step) count (offset - 1)) :=
        stepDown?_eq (by omega) (by omega) hfuel (by omega) (by omega)
      rw [hend]
      rfl

/-- For forms of 32 bits and up to `2 ^ 62` items, the positions are exactly those that are
hit, in ascending order. In words they are found as well: nothing overflows, and the loop ends
with any fuel beyond the number of items. -/
theorem nthIndices_in_words (hs : InRange step) (ho : InRange offset) (hc : count ≤ 2 ^ 62) :
    (nthIndices step offset count).Pairwise (· < ·) ∧
    (∀ i, i ∈ nthIndices step offset count ↔
      i < count ∧ ∃ n : Nat, step * n + offset = (i + 1 : Nat)) ∧
    ∀ fuel > count, nthIndices? step offset count fuel = some (nthIndices step offset count) :=
  ⟨pairwise_nthIndices step offset count, fun _ => mem_nthIndices,
    fun _ hfuel => nthIndices?_eq hs ho hc hfuel⟩

/-- From the last position of 32 bits down in the longest strides, among `2 ^ 62` items. -/
theorem nthIndices_in_words_extremes : InRange (-2147483648) ∧ InRange 2147483647 ∧
    nthIndices (-2147483648) 2147483647 (2 ^ 62) = [2147483646] ∧
    ∀ fuel > 2 ^ 62, nthIndices? (-2147483648) 2147483647 (2 ^ 62) fuel = some [2147483646] := by
  have hs : InRange (-2147483648) := ⟨by decide, by decide⟩
  have ho : InRange 2147483647 := ⟨by decide, by decide⟩
  obtain ⟨-, -, hwords⟩ := nthIndices_in_words hs ho (Nat.le_refl (2 ^ 62))
  have hfound : nthIndices (-2147483648) 2147483647 (2 ^ 62) = [2147483646] := by decide +kernel
  refine ⟨hs, ho, hfound, fun fuel hfuel => ?_⟩
  rw [hwords fuel hfuel, hfound]

end DomQuery.Query
