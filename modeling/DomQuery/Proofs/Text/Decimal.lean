import Mathlib.Data.String.Basic
import Mathlib.Order.Compare
import Mathlib.Tactic.Ring

/-!
# The order of numbers as texts

Texts are compared character by character (`compare_eq_compare_toList`), so numbers that
are written with equally many digits are in the order of the numbers
(`compare_padded_append`). Numbers written with different numbers of digits are in the
order of what they would be after a decimal point (`compare_padded_append_of_belowDigits`).
-/

namespace DomQuery.Text

/-! ### Comparing in steps -/

section Nat

variable {a b x y : Nat}

theorem compare_mul_right {k : Nat} (hk : 0 < k) : compare (a * k) (b * k) = compare a b := by
  simp only [Nat.compare_eq_ite_lt, Nat.mul_lt_mul_right hk]

theorem compare_pred (ha : 0 < a) (hb : 0 < b) : compare (a - 1) (b - 1) = compare a b := by
  simp only [Nat.compare_eq_ite_lt, Nat.sub_lt_sub_iff_right ha, Nat.sub_lt_sub_iff_right hb]

/-- Numbers that are counted from zero in parts of the given lengths are compared by the parts
that they are in, and then within those. -/
theorem compare_start_add (start length : Nat → Nat)
    (h : ∀ a, start a + length a ≤ start (a + 1)) (hx : x < length a) (hy : y < length b) :
    compare (start a + x) (start b + y) = (compare a b).then (compare x y) := by
  have hlt {a b : Nat} (hab : a < b) : start a + length a ≤ start b := by
    induction hab with
    | refl => exact h a
    | @step b _ ih => exact (ih.trans (Nat.le_add_right _ _)).trans (h b)
  rcases Nat.lt_trichotomy a b with hab | rfl | hab
  · have := hlt hab
    rw [Nat.compare_eq_lt.mpr hab, Nat.compare_eq_lt.mpr (by omega)]
    rfl
  · simp only [Nat.compare_eq_ite_lt, Nat.add_lt_add_iff_left, Nat.lt_irrefl, if_false]
    rfl
  · have := hlt hab
    rw [Nat.compare_eq_gt.mpr hab, Nat.compare_eq_gt.mpr (by omega)]
    rfl

/-- The same for parts that are numbered from one. -/
theorem compare_start_pred_add (start length : Nat → Nat)
    (h : ∀ a, start a + length (a + 1) ≤ start (a + 1)) (ha : 0 < a) (hb : 0 < b)
    (hx : x < length a) (hy : y < length b) :
    compare (start (a - 1) + x) (start (b - 1) + y) = (compare a b).then (compare x y) := by
  rw [← Nat.sub_add_cancel ha] at hx
  rw [← Nat.sub_add_cancel hb] at hy
  rw [compare_start_add start (fun a => length (a + 1)) h hx hy, compare_pred ha hb]

/-- Numbers in parts of one length. -/
theorem compare_mul_add {k : Nat} (hx : x < k) (hy : y < k) :
    compare (a * k + x) (b * k + y) = (compare a b).then (compare x y) :=
  compare_start_add (· * k) (fun _ => k) (fun a => (Nat.succ_mul a k).ge) hx hy

theorem compare_div_mod {k : Nat} (hk : 0 < k) :
    compare a b = (compare (a / k) (b / k)).then (compare (a % k) (b % k)) := by
  rw [← compare_mul_add (Nat.mod_lt a hk) (Nat.mod_lt b hk), Nat.div_add_mod', Nat.div_add_mod']

/-- Nothing is before zero. -/
theorem compare_zero_then_lt : (compare 0 a).then .lt = .lt := by
  cases a with
  | zero => rfl
  | succ a => rw [Nat.compare_eq_lt.mpr a.succ_pos]; rfl

theorem compare_zero_right_then_gt : (compare a 0).then .gt = .gt := by
  cases a with
  | zero => rfl
  | succ a => rw [Nat.compare_eq_gt.mpr a.succ_pos]; rfl

/-- What follows matters only between equal numbers. -/
theorem compare_then_congr {o o' : Ordering} (h : a = b → o = o') :
    (compare a b).then o = (compare a b).then o' := by
  rcases eq_or_ne a b with hab | hab
  · rw [h hab]
  · have hne : compare a b ≠ .eq := fun heq => hab (Nat.compare_eq_eq.mp heq)
    cases hcompare : compare a b with
    | eq => exact absurd hcompare hne
    | lt => rfl
    | gt => rfl

end Nat

/-! ### Texts -/

theorem compare_cons_self (c : Char) (l r : List Char) :
    compare (c :: l) (c :: r) = compare l r := by
  rw [List.compare_cons_cons, Std.compare_self, Ordering.eq_then]

theorem compare_eq_lt_iff {l r : List Char} : compare l r = .lt ↔ l < r := by
  induction l generalizing r with
  | nil =>
    cases r with
    | nil => exact iff_of_false nofun (List.lt_irrefl [])
    | cons d r => exact iff_of_true rfl (List.nil_lt_cons d r)
  | cons c l ih =>
    cases r with
    | nil => exact iff_of_false nofun (List.not_lt_nil _)
    | cons d r =>
      rw [List.compare_cons_cons, Ordering.then_eq_lt, List.cons_lt_cons_iff, ih, compare_lt_iff_lt,
        compare_eq_iff_eq]

/-- Texts are in the order of their characters. -/
theorem compare_eq_compare_toList (s t : String) : compare s t = compare s.toList t.toList := by
  have hlt (s t : String) : compare s t = .lt ↔ compare s.toList t.toList = .lt := by
    rw [compare_lt_iff_lt, String.lt_iff, compare_eq_lt_iff]
  have hgt : compare s t = .gt ↔ compare s.toList t.toList = .gt := by
    rw [Std.OrientedCmp.gt_iff_lt, hlt, Std.OrientedCmp.gt_iff_lt]
  cases h : compare s.toList t.toList with
  | lt => exact (hlt s t).mpr h
  | gt => exact hgt.mpr h
  | eq =>
    cases h' : compare s t with
    | lt => exact absurd ((hlt s t).mp h') (by simp [h])
    | gt => exact absurd (hgt.mp h') (by simp [h])
    | eq => rfl

/-! ### Digits -/

/-- The number written with `width` digits. -/
def padded : Nat → Nat → List Char
  | 0, _ => []
  | width + 1, n => (n / 10 ^ width).digitChar :: padded width (n % 10 ^ width)

/-- The text is empty, or its first character is below the digits. -/
def BelowDigits (l : List Char) : Prop :=
  ∀ c ∈ l.head?, c < '0'

theorem compare_digitChar : ∀ a < 10, ∀ b < 10, compare a.digitChar b.digitChar = compare a b := by
  decide

theorem zero_le_digitChar : ∀ a < 10, '0' ≤ a.digitChar := by
  decide

section Padded

variable {width width' n n' : Nat} {rest rest' : List Char}

theorem leading_lt (hn : n < 10 ^ (width + 1)) : n / 10 ^ width < 10 :=
  Nat.div_lt_of_lt_mul (by rwa [← Nat.pow_succ])

/-- The digit that leads `n`, and the rest of it. -/
theorem mul_pow_succ (n width k : Nat) : n * 10 ^ (k + 1) =
    (n / 10 ^ width * (10 ^ width * 10 ^ k) + n % 10 ^ width * 10 ^ k) * 10 := by
  conv_lhs => rw [← Nat.div_add_mod' n (10 ^ width)]
  ring

/-- Numbers of the same width are in their own order. -/
theorem compare_padded_append (hn : n < 10 ^ width) (hn' : n' < 10 ^ width) :
    compare (padded width n ++ rest) (padded width n' ++ rest') =
      (compare n n').then (compare rest rest') := by
  induction width generalizing n n' with
  | zero =>
    rw [Nat.lt_one_iff.mp hn, Nat.lt_one_iff.mp hn']
    rfl
  | succ width ih =>
    have hpos : 0 < 10 ^ width := Nat.pow_pos (by decide)
    rw [padded, padded, List.cons_append, List.cons_append, List.compare_cons_cons,
      compare_digitChar _ (leading_lt hn) _ (leading_lt hn'),
      ih (Nat.mod_lt _ hpos) (Nat.mod_lt _ hpos), ← Ordering.then_assoc, ← compare_div_mod hpos]

theorem compare_padded_of_belowDigits (hrest : BelowDigits rest) (hn : n < 10 ^ (width + 1)) :
    compare rest (padded (width + 1) n ++ rest') = .lt ∧
      compare (padded (width + 1) n ++ rest') rest = .gt := by
  suffices h : compare rest (padded (width + 1) n ++ rest') = .lt from
    ⟨h, Std.OrientedCmp.gt_iff_lt.mpr h⟩
  cases rest with
  | nil => rfl
  | cons c rest =>
    have hc : compare c (n / 10 ^ width).digitChar = .lt :=
      compare_lt_iff_lt.mpr ((hrest c rfl).trans_le (zero_le_digitChar _ (leading_lt hn)))
    rw [padded, List.cons_append, List.compare_cons_cons, hc]
    rfl

/-- Numbers that may be of different widths are in the order of what they are after a decimal
point, and the shorter one comes first if that is the same. -/
theorem compare_padded_append_of_belowDigits (hn : n < 10 ^ width) (hn' : n' < 10 ^ width')
    (hrest : BelowDigits rest) (hrest' : BelowDigits rest') :
    compare (padded width n ++ rest) (padded width' n' ++ rest') =
      ((compare (n * 10 ^ width') (n' * 10 ^ width)).then (compare width width')).then
        (compare rest rest') := by
  induction width generalizing n n' width' with
  | zero =>
    obtain rfl := Nat.lt_one_iff.mp hn
    cases width' with
    | zero =>
      obtain rfl := Nat.lt_one_iff.mp hn'
      rfl
    | succ width' =>
      rw [Nat.zero_mul, Nat.compare_eq_lt.mpr width'.succ_pos, compare_zero_then_lt]
      exact (compare_padded_of_belowDigits hrest hn').1
  | succ width ih =>
    cases width' with
    | zero =>
      obtain rfl := Nat.lt_one_iff.mp hn'
      rw [Nat.zero_mul, Nat.compare_eq_gt.mpr width.succ_pos, compare_zero_right_then_gt]
      exact (compare_padded_of_belowDigits hrest' hn).2
    | succ width' =>
      have hpos (k : Nat) : 0 < 10 ^ k := Nat.pow_pos (by decide)
      have hmod := Nat.mod_lt n (hpos width)
      have hmod' := Nat.mod_lt n' (hpos width')
      -- the leading digits take the greatest part of both products
      have hleading : compare (n * 10 ^ (width' + 1)) (n' * 10 ^ (width + 1)) =
          (compare (n / 10 ^ width) (n' / 10 ^ width')).then
            (compare (n % 10 ^ width * 10 ^ width') (n' % 10 ^ width' * 10 ^ width)) := by
        have hlt : n % 10 ^ width * 10 ^ width' < 10 ^ width * 10 ^ width' :=
          Nat.mul_lt_mul_of_pos_right hmod (hpos width')
        have hlt' : n' % 10 ^ width' * 10 ^ width < 10 ^ width * 10 ^ width' := by
          rw [Nat.mul_comm (10 ^ width)]
          exact Nat.mul_lt_mul_of_pos_right hmod' (hpos width)
        rw [mul_pow_succ n width width', mul_pow_succ n' width' width, Nat.mul_comm (10 ^ width'),
          compare_mul_right (by decide), compare_mul_add hlt hlt']
      have hwidth : compare (width + 1) (width' + 1) = compare width width' :=
        (compare_pred width.succ_pos width'.succ_pos).symm
      rw [padded, padded, List.cons_append, List.cons_append, List.compare_cons_cons,
        compare_digitChar _ (leading_lt hn) _ (leading_lt hn'), ih hmod hmod', hleading, hwidth]
      simp only [Ordering.then_assoc]

end Padded

end DomQuery.Text
