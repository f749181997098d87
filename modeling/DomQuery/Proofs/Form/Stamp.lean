import DomQuery.Form.Range
import DomQuery.Proofs.Form.Calendar

/-!
# Values of inputs for dates and times

The values of these inputs are compared as texts (`Stamp.compareValues_text`). Values of one
form, with years of the same number of digits, times of the same precision and the same
character between date and time, are in the order of their moments that way
(`Stamp.order_eq_compare`). Others need not be: the year 10000 comes before the year 9999,
and one moment that is written in two ways is before itself.
-/

namespace DomQuery.Form

open DomQuery.Text

/-! ### Seconds -/

/-- The seconds of a time, with a fraction of up to three digits. -/
structure Seconds where
  whole : Nat
  width : Nat
  fraction : Nat
  whole_lt : whole < 60
  width_le : width ≤ 3
  fits : fraction < 10 ^ width

namespace Seconds

/-- The fraction with its point, if there is one. -/
def fractionText (s : Seconds) : List Char :=
  if s.width = 0 then [] else '.' :: padded s.width s.fraction

def text (s : Seconds) : List Char :=
  padded 2 s.whole ++ s.fractionText

/-- The fraction in milliseconds. -/
def thousandths (s : Seconds) : Nat :=
  s.fraction * 10 ^ (3 - s.width)

/-- The seconds in milliseconds. -/
def moment (s : Seconds) : Nat :=
  s.whole * 1000 + s.thousandths

variable {a b : Seconds}

theorem thousandths_lt (s : Seconds) : s.thousandths < 1000 := by
  have h : 10 ^ s.width * 10 ^ (3 - s.width) = 1000 := by
    rw [← Nat.pow_add, Nat.add_sub_cancel' s.width_le]
  rw [thousandths, ← h]
  exact Nat.mul_lt_mul_of_pos_right s.fits (Nat.pow_pos (by decide))

theorem thousandths_of_width_eq (h : a.width = 0) : a.thousandths = 0 := by
  have hfits := a.fits
  rw [h, Nat.pow_zero, Nat.lt_one_iff] at hfits
  rw [thousandths, hfits, Nat.zero_mul]

/-- Fractions are compared as thousandths. -/
theorem compare_scaled : compare (a.fraction * 10 ^ b.width) (b.fraction * 10 ^ a.width) =
    compare a.thousandths b.thousandths := by
  have hscale (s : Seconds) (k : Nat) :
      s.thousandths * 10 ^ (s.width + k) = s.fraction * 10 ^ k * 1000 := by
    have h : 3 - s.width + (s.width + k) = k + 3 := by have := s.width_le; omega
    rw [thousandths, Nat.mul_assoc, ← Nat.pow_add, h, Nat.pow_add, Nat.mul_assoc]
  calc compare (a.fraction * 10 ^ b.width) (b.fraction * 10 ^ a.width)
    _ = compare (a.fraction * 10 ^ b.width * 1000) (b.fraction * 10 ^ a.width * 1000) :=
      (compare_mul_right (by decide)).symm
    _ = compare (a.thousandths * 10 ^ (a.width + b.width))
        (b.thousandths * 10 ^ (a.width + b.width)) := by
      rw [hscale a, Nat.add_comm a.width, hscale b]
    _ = compare a.thousandths b.thousandths := compare_mul_right (Nat.pow_pos (by decide))

theorem compare_fractionText : compare a.fractionText b.fractionText =
    (compare a.thousandths b.thousandths).then (compare a.width b.width) := by
  rw [fractionText, fractionText]
  split <;> rename_i ha <;> split <;> rename_i hb
  · rw [thousandths_of_width_eq ha, thousandths_of_width_eq hb, ha, hb]
    rfl
  · rw [thousandths_of_width_eq ha, ha, Nat.compare_eq_lt.mpr (Nat.pos_of_ne_zero hb),
      compare_zero_then_lt]
    rfl
  · rw [thousandths_of_width_eq hb, hb, Nat.compare_eq_gt.mpr (Nat.pos_of_ne_zero ha),
      compare_zero_right_then_gt]
    rfl
  · have hnil : BelowDigits [] := nofun
    have h := compare_padded_append_of_belowDigits a.fits b.fits hnil hnil
    rw [List.append_nil, List.append_nil, compare_scaled, Std.compare_self, Ordering.then_eq] at h
    rw [compare_cons_self, h]

/-- Of two ways to write the same seconds, the shorter one comes first. -/
theorem compare_text : compare a.text b.text =
    (compare a.moment b.moment).then (compare a.width b.width) := by
  rw [text, text, compare_padded_append (a.whole_lt.trans (by decide))
      (b.whole_lt.trans (by decide)), compare_fractionText, moment, moment,
    compare_mul_add a.thousandths_lt b.thousandths_lt, Ordering.then_assoc]

theorem moment_lt (s : Seconds) : s.moment < 60000 := by
  have := s.whole_lt
  have := s.thousandths_lt
  rw [moment]
  omega

end Seconds

/-! ### Times -/

/-- A time of day, with or without seconds. -/
structure Time where
  hour : Nat
  minute : Nat
  seconds : Option Seconds
  hour_lt : hour < 24
  minute_lt : minute < 60

namespace Time

/-- The seconds with their colon, if there are any. -/
def secondsText (t : Time) : List Char :=
  match t.seconds with
  | none => []
  | some s => ':' :: s.text

def text (t : Time) : List Char :=
  padded 2 t.hour ++ ':' :: (padded 2 t.minute ++ t.secondsText)

/-- The milliseconds of the minute before. -/
def millis (t : Time) : Nat :=
  match t.seconds with
  | none => 0
  | some s => s.moment

/-- The milliseconds of the day before. -/
def moment (t : Time) : Nat :=
  (t.hour * 60 + t.minute) * 60000 + t.millis

/-- How exactly the time is written: to the minute, the second, or a number of digits more. -/
def precision (t : Time) : Nat :=
  match t.seconds with
  | none => 0
  | some s => s.width + 1

def order (a b : Time) : Ordering :=
  (compare a.moment b.moment).then (compare a.precision b.precision)

variable {a b : Time}

theorem millis_lt (t : Time) : t.millis < 60000 := by
  rw [millis]
  split
  · decide
  · exact Seconds.moment_lt _

theorem moment_lt (t : Time) : t.moment < 86400000 := by
  have := t.hour_lt
  have := t.minute_lt
  have := t.millis_lt
  rw [moment]
  omega

theorem compare_secondsText : compare a.secondsText b.secondsText =
    (compare a.millis b.millis).then (compare a.precision b.precision) := by
  rw [secondsText, secondsText, millis, millis, precision, precision]
  cases a.seconds <;> cases b.seconds
  · rfl
  · rw [Nat.compare_eq_lt.mpr (Nat.succ_pos _), compare_zero_then_lt]
    rfl
  · rw [Nat.compare_eq_gt.mpr (Nat.succ_pos _), compare_zero_right_then_gt]
    rfl
  · rw [compare_cons_self, Seconds.compare_text]
    exact congrArg _ (compare_pred (Nat.succ_pos _) (Nat.succ_pos _))

/-- Times are in their own order, and one that is written in two ways is before itself. -/
theorem compare_text : compare a.text b.text = a.order b := by
  rw [text, text, compare_padded_append (a.hour_lt.trans (by decide))
      (b.hour_lt.trans (by decide)), compare_cons_self,
    compare_padded_append (a.minute_lt.trans (by decide)) (b.minute_lt.trans (by decide)),
    compare_secondsText, order, moment, moment, compare_mul_add a.millis_lt b.millis_lt,
    compare_mul_add a.minute_lt b.minute_lt, Ordering.then_assoc, Ordering.then_assoc]

theorem order_eq_compare (h : a.precision = b.precision) :
    a.order b = compare a.moment b.moment := by
  rw [order, h, Std.compare_self, Ordering.then_eq]

end Time

/-! ### Times of a day -/

/-- A time on a day. -/
structure LocalTime where
  date : Date
  separator : Char
  time : Time
  isSeparator : separator = 'T' ∨ separator = ' '

namespace LocalTime

def text (t : LocalTime) : List Char :=
  t.date.text ++ t.separator :: t.time.text

/-- The milliseconds before. -/
def moment (t : LocalTime) : Nat :=
  t.date.moment * 86400000 + t.time.moment

def order (a b : LocalTime) : Ordering :=
  (a.date.order b.date).then ((compare a.separator b.separator).then (a.time.order b.time))

variable {a b : LocalTime}

theorem compare_text : compare a.text b.text = a.order b := by
  rw [text, text, Date.compare_text, List.compare_cons_cons, Time.compare_text, order]

theorem order_eq_compare (hyear : a.date.month.year.width = b.date.month.year.width)
    (hseparator : a.separator = b.separator) (htime : a.time.precision = b.time.precision) :
    a.order b = compare a.moment b.moment := by
  rw [order, Date.order_eq_compare hyear, hseparator, Std.compare_self, Ordering.eq_then,
    Time.order_eq_compare htime, moment, moment,
    compare_mul_add a.time.moment_lt b.time.moment_lt]

end LocalTime

/-! ### All of them -/

/-- A valid value of an input of the type. -/
inductive Stamp : InputType → Type where
  | month (m : Month) : Stamp .month
  | date (d : Date) : Stamp .date
  | week (w : Week) : Stamp .week
  | time (t : Time) : Stamp .time
  | datetimeLocal (t : LocalTime) : Stamp .datetimeLocal

namespace Stamp

variable {type : InputType}

def chars : Stamp type → List Char
  | month m => m.text
  | date d => d.text
  | week w => w.text
  | time t => t.text
  | datetimeLocal t => t.text

def text (s : Stamp type) : String :=
  String.ofList s.chars

/-- When it is, in units of the type. -/
def moment : Stamp type → Nat
  | month m => m.moment
  | date d => d.moment
  | week w => w.moment
  | time t => t.moment
  | datetimeLocal t => t.moment

/-- The order of the parts as they are written. -/
def order : Stamp type → Stamp type → Ordering
  | month a, month b => a.order b
  | date a, date b => a.order b
  | week a, week b => a.order b
  | time a, time b => a.order b
  | datetimeLocal a, datetimeLocal b => a.order b

/-- What may be written in different ways is written in the same way. -/
def SameForm : Stamp type → Stamp type → Prop
  | month a, month b => a.year.width = b.year.width
  | date a, date b => a.month.year.width = b.month.year.width
  | week a, week b => a.year.width = b.year.width
  | time a, time b => a.precision = b.precision
  | datetimeLocal a, datetimeLocal b =>
    a.date.month.year.width = b.date.month.year.width ∧ a.separator = b.separator ∧
      a.time.precision = b.time.precision

variable {a b : Stamp type}

theorem chars_ne_nil (s : Stamp type) : s.chars ≠ [] := by
  cases s <;> exact List.append_ne_nil_of_right_ne_nil _ (List.cons_ne_nil _ _)

theorem compare_chars : compare a.chars b.chars = a.order b := by
  have hnil (o : Ordering) : o.then (compare ([] : List Char) []) = o := Ordering.then_eq
  cases a <;> cases b
  · simpa only [chars, order, List.append_nil, hnil] using Month.compare_text [] []
  · simpa only [chars, order, List.append_nil, hnil] using Date.compare_text [] []
  · simpa only [chars, order, List.append_nil, hnil] using Week.compare_text [] []
  · exact Time.compare_text
  · exact LocalTime.compare_text

/-- Values are compared by their parts as they are written. -/
theorem compareValues_text (a b : Stamp type) :
    compareValues type a.text b.text = some (a.order b) := by
  have hempty (s : Stamp type) : s.text.isEmpty = false := by
    rw [← Bool.not_eq_true, String.isEmpty_iff, ← String.toList_eq_nil_iff, text,
      String.toList_ofList]
    exact s.chars_ne_nil
  have hcompare : compareValues type a.text b.text = some (compare a.text b.text) := by
    have ha := hempty a
    have hb := hempty b
    cases a <;> simp only [compareValues, ha, hb, Bool.or_self, Bool.false_eq_true, if_false]
  rw [hcompare, compare_eq_compare_toList, text, text, String.toList_ofList,
    String.toList_ofList, compare_chars]

/-- Values of one form are in the order of their moments. -/
theorem order_eq_compare (h : a.SameForm b) : a.order b = compare a.moment b.moment := by
  cases a <;> cases b
  · exact Month.order_eq_compare h
  · exact Date.order_eq_compare h
  · exact Week.order_eq_compare h
  · exact Time.order_eq_compare h
  · exact LocalTime.order_eq_compare h.1 h.2.1 h.2.2

/-- Only values that are written alike come together. -/
theorem order_eq_eq : a.order b = .eq ↔ a.text = b.text := by
  rw [← compare_chars, text, text, String.ofList_inj]
  exact Std.LawfulEqCmp.compare_eq_iff_eq

end Stamp

end DomQuery.Form
