import DomQuery.Proofs.Text.Decimal

/-!
# Dates and times as they are written

The values that inputs for dates and times take, with the moments that they stand for and
the order that they have as texts. A year has four digits or more, and the seconds of a
time may be left out or have a fraction; all else has a fixed width. So for each kind of
value, the order of the texts is the order of their parts one after another (`compare_text`).
Between values of the same form, that is the order of the moments (`order_eq_compare`).

Days are counted from the first day of the first year, which is a Monday.
-/

namespace DomQuery.Form

open DomQuery.Text

/-! ### The calendar -/

section Calendar

variable (year years : Nat)

/-- The year has a day more than others. -/
def IsLeap : Prop :=
  year % 4 = 0 ∧ (year % 100 ≠ 0 ∨ year % 400 = 0)

instance : Decidable (IsLeap year) :=
  inferInstanceAs (Decidable (_ ∧ _))

def yearLength : Nat :=
  if IsLeap year then 366 else 365

/-- The days of the first years together. -/
def daysOfYears : Nat :=
  365 * years + years / 4 - years / 100 + years / 400

def monthLength (month : Nat) : Nat :=
  if month = 2 then if IsLeap year then 29 else 28
  else if month ∈ [4, 6, 9, 11] then 30 else 31

/-- The days of the first months of a year together. -/
def daysOfMonths : Nat → Nat
  | 0 => 0
  | months + 1 => daysOfMonths months + monthLength year (months + 1)

/-- The weeks of a year. It has all weeks that have their Thursdays in it, so there is one more
if it starts with a Thursday, or with a Wednesday and is leap. -/
def weeksOfYear : Nat :=
  let first := daysOfYears (year - 1) % 7
  if first = 3 ∨ first = 2 ∧ IsLeap year then 53 else 52

/-- The weeks of the first years together. -/
def weeksOfYears : Nat :=
  (daysOfYears years + 3) / 7

theorem daysOfYears_succ :
    daysOfYears (years + 1) = daysOfYears years + yearLength (years + 1) := by
  have hle : years / 100 ≤ years / 4 := Nat.div_le_div_left (by decide) (by decide)
  have h4 : 100 ∣ years + 1 → 4 ∣ years + 1 := (by decide : 4 ∣ 100).trans
  have h100 : 400 ∣ years + 1 → 100 ∣ years + 1 := (by decide : 100 ∣ 400).trans
  simp only [daysOfYears, yearLength, IsLeap, Nat.succ_div, ← Nat.dvd_iff_mod_eq_zero, ne_eq]
  -- what is left to omega does not know of the divisions
  generalize years / 4 = a, years / 100 = b, years / 400 = c at *
  split_ifs <;> omega

theorem weeksOfYears_succ :
    weeksOfYears (years + 1) = weeksOfYears years + weeksOfYear (years + 1) := by
  rw [weeksOfYears, daysOfYears_succ, yearLength, weeksOfYear, weeksOfYears, Nat.add_sub_cancel]
  split <;> rename_i h <;> simp only [h, and_true, and_false, or_false] <;> split <;> omega

example : weeksOfYear 2020 = 53 ∧ weeksOfYear 2021 = 52 := by decide

theorem monthLength_le (month : Nat) : monthLength year month ≤ 31 := by
  rw [monthLength]
  split_ifs <;> decide

theorem weeksOfYear_le : weeksOfYear year ≤ 53 := by
  rw [weeksOfYear]
  split <;> decide

/-- The months make up the year. -/
theorem daysOfMonths_twelve : daysOfMonths year 12 = yearLength year := by
  by_cases h : IsLeap year <;> simp [daysOfMonths, monthLength, yearLength, h]

theorem daysOfMonths_pred {month : Nat} (h : 0 < month) :
    daysOfMonths year (month - 1) + monthLength year month = daysOfMonths year month := by
  cases month with
  | zero => cases h
  | succ months => rfl

theorem daysOfMonths_le {month : Nat} (h : month ≤ 12) :
    daysOfMonths year month ≤ yearLength year := by
  rw [← daysOfMonths_twelve]
  exact monotone_nat_of_le_succ (fun _ => Nat.le_add_right _ _) h

end Calendar

/-! ### Years -/

/-- A year with its number of digits. -/
structure Year where
  width : Nat
  number : Nat
  four_le_width : 4 ≤ width
  pos : 0 < number
  fits : number < 10 ^ width

namespace Year

def text (y : Year) : List Char :=
  padded y.width y.number

/-- Years are compared from their first digits on. -/
def order (a b : Year) : Ordering :=
  (compare (a.number * 10 ^ b.width) (b.number * 10 ^ a.width)).then (compare a.width b.width)

variable {a b : Year}

/-- In all values, a year is followed by a hyphen. -/
theorem compare_text (rest rest' : List Char) :
    compare (a.text ++ '-' :: rest) (b.text ++ '-' :: rest') =
      (a.order b).then (compare rest rest') := by
  have hhyphen (l : List Char) : BelowDigits ('-' :: l) := by
    rintro c ⟨⟩
    decide
  rw [text, text, compare_padded_append_of_belowDigits a.fits b.fits (hhyphen rest)
    (hhyphen rest'), compare_cons_self, order]

theorem order_eq_compare (h : a.width = b.width) : a.order b = compare a.number b.number := by
  rw [order, h, compare_mul_right (Nat.pow_pos (by decide)), Std.compare_self, Ordering.then_eq]

end Year

/-! ### Months -/

/-- A month of a year. -/
structure Month where
  year : Year
  month : Nat
  pos : 0 < month
  le_twelve : month ≤ 12

namespace Month

def text (m : Month) : List Char :=
  m.year.text ++ '-' :: padded 2 m.month

/-- The months before, from the start of the year zero. -/
def moment (m : Month) : Nat :=
  m.year.number * 12 + (m.month - 1)

def order (a b : Month) : Ordering :=
  (a.year.order b.year).then (compare a.month b.month)

variable {a b : Month}

theorem compare_text (rest rest' : List Char) :
    compare (a.text ++ rest) (b.text ++ rest') = (a.order b).then (compare rest rest') := by
  simp only [text, List.append_assoc, List.cons_append]
  rw [Year.compare_text, compare_padded_append (a.le_twelve.trans_lt (by decide))
    (b.le_twelve.trans_lt (by decide)), order, Ordering.then_assoc]

theorem order_eq_compare (h : a.year.width = b.year.width) :
    a.order b = compare a.moment b.moment := by
  have ha := a.le_twelve
  have hb := b.le_twelve
  rw [order, Year.order_eq_compare h, moment, moment, compare_mul_add (by omega) (by omega),
    compare_pred a.pos b.pos]

end Month

/-! ### Days -/

/-- A day of a month. -/
structure Date where
  month : Month
  day : Nat
  pos : 0 < day
  le_monthLength : day ≤ monthLength month.year.number month.month

namespace Date

def text (d : Date) : List Char :=
  d.month.text ++ '-' :: padded 2 d.day

/-- The days of the year before. -/
def dayOfYear (d : Date) : Nat :=
  daysOfMonths d.month.year.number (d.month.month - 1) + (d.day - 1)

/-- The days before. -/
def moment (d : Date) : Nat :=
  daysOfYears (d.month.year.number - 1) + d.dayOfYear

def order (a b : Date) : Ordering :=
  (a.month.order b.month).then (compare a.day b.day)

variable {a b : Date}

theorem day_lt (d : Date) : d.day < 10 ^ 2 :=
  (d.le_monthLength.trans (monthLength_le _ _)).trans_lt (by decide)

theorem compare_text (rest rest' : List Char) :
    compare (a.text ++ rest) (b.text ++ rest') = (a.order b).then (compare rest rest') := by
  simp only [text, List.append_assoc, List.cons_append]
  rw [Month.compare_text, compare_cons_self, compare_padded_append a.day_lt b.day_lt, order,
    Ordering.then_assoc]

theorem day_pred_lt (d : Date) : d.day - 1 < monthLength d.month.year.number d.month.month := by
  have := d.pos
  have := d.le_monthLength
  omega

/-- The day is in its month, and the month in the year. -/
theorem dayOfYear_lt (d : Date) : d.dayOfYear < yearLength d.month.year.number := by
  have hmonth := daysOfMonths_le d.month.year.number d.month.le_twelve
  have hday := d.day_pred_lt
  rw [← daysOfMonths_pred _ d.month.pos] at hmonth
  rw [dayOfYear]
  omega

theorem compare_dayOfYear (h : a.month.year.number = b.month.year.number) :
    compare a.dayOfYear b.dayOfYear =
      (compare a.month.month b.month.month).then (compare a.day b.day) := by
  rw [dayOfYear, dayOfYear, h, compare_start_pred_add (daysOfMonths _) (monthLength _)
      (fun _ => Nat.le_refl _) a.month.pos b.month.pos (h ▸ a.day_pred_lt) b.day_pred_lt,
    compare_pred a.pos b.pos]

theorem order_eq_compare (h : a.month.year.width = b.month.year.width) :
    a.order b = compare a.moment b.moment := by
  rw [order, Month.order, Year.order_eq_compare h, moment, moment,
    compare_start_pred_add daysOfYears yearLength (fun years => (daysOfYears_succ years).ge)
      a.month.year.pos b.month.year.pos a.dayOfYear_lt b.dayOfYear_lt,
    compare_then_congr compare_dayOfYear, Ordering.then_assoc]

end Date

/-! ### Weeks -/

/-- A week of a year. -/
structure Week where
  year : Year
  week : Nat
  pos : 0 < week
  le_weeksOfYear : week ≤ weeksOfYear year.number

namespace Week

def text (w : Week) : List Char :=
  w.year.text ++ '-' :: 'W' :: padded 2 w.week

/-- The days before its Monday. -/
def moment (w : Week) : Nat :=
  (weeksOfYears (w.year.number - 1) + (w.week - 1)) * 7

def order (a b : Week) : Ordering :=
  (a.year.order b.year).then (compare a.week b.week)

variable {a b : Week}

theorem week_lt (w : Week) : w.week < 10 ^ 2 :=
  (w.le_weeksOfYear.trans (weeksOfYear_le _)).trans_lt (by decide)

theorem compare_text (rest rest' : List Char) :
    compare (a.text ++ rest) (b.text ++ rest') = (a.order b).then (compare rest rest') := by
  simp only [text, List.append_assoc, List.cons_append]
  rw [Year.compare_text, compare_cons_self, compare_padded_append a.week_lt b.week_lt, order,
    Ordering.then_assoc]

theorem week_pred_lt (w : Week) : w.week - 1 < weeksOfYear w.year.number := by
  have := w.pos
  have := w.le_weeksOfYear
  omega

theorem order_eq_compare (h : a.year.width = b.year.width) :
    a.order b = compare a.moment b.moment := by
  rw [order, Year.order_eq_compare h, moment, moment, compare_mul_right (by decide),
    compare_start_pred_add weeksOfYears weeksOfYear (fun years => (weeksOfYears_succ years).ge)
      a.year.pos b.year.pos a.week_pred_lt b.week_pred_lt,
    compare_pred a.pos b.pos]

end Week

end DomQuery.Form
