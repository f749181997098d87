import DomQuery.Proofs.Form.Controls
import DomQuery.Proofs.Form.Stamp
import DomQuery.Proofs.Query.Single

/-!
# Dates and times in a range

An input for dates or times that has limits is in range if its value is between them, in
the order of the texts. That is the order in time for values of one form
(`range_decided_by_order`), but not for all (`order_not_chronological`).
-/

namespace DomQuery.Query

open DomQuery.Document DomQuery.Form DomQuery.Selector DomQuery.Tree

variable {ν : Type} [DecidableEq ν]

/-- Neither before the least value nor after the greatest, so far as there are limits. -/
def Between {type : InputType} (least greatest : Option (Stamp type)) (value : Stamp type) : Prop :=
  (∀ limit ∈ least, value.order limit ≠ .lt) ∧ ∀ limit ∈ greatest, value.order limit ≠ .gt

section Limits

variable {type : InputType} {value : Stamp type} {least greatest : Option (Stamp type)}

instance : Decidable (Between least greatest value) :=
  inferInstanceAs (Decidable (_ ∧ _))

theorem between_iff_moments (h : ∀ limit ∈ least.toList ++ greatest.toList, value.SameForm limit) :
    Between least greatest value ↔ (∀ limit ∈ least, limit.moment ≤ value.moment) ∧
      ∀ limit ∈ greatest, value.moment ≤ limit.moment := by
  refine and_congr (forall₂_congr fun limit hlimit => ?_) (forall₂_congr fun limit hlimit => ?_)
  · have hform := h limit (List.mem_append_left _ (Option.mem_toList.mpr hlimit))
    rw [Stamp.order_eq_compare hform, ne_eq, Nat.compare_eq_lt, Nat.not_lt]
  · have hform := h limit (List.mem_append_right _ (Option.mem_toList.mpr hlimit))
    rw [Stamp.order_eq_compare hform, ne_eq, Nat.compare_eq_gt, Nat.not_lt]

variable {tree : View ν} {n : ν}

/-- An input with limits is in range if its value is between them. -/
theorem inRange?_eq (htype : inputType? tree.toLinks n = some type)
    (hmutable : isMutable tree.toLinks n = true) (hvalue : tree.value n = value.text)
    (hmin : tree.attribute? n "min" = least.map Stamp.text)
    (hmax : tree.attribute? n "max" = greatest.map Stamp.text)
    (hlimits : least ≠ none ∨ greatest ≠ none) :
    inRange? tree n = some (decide (Between least greatest value)) := by
  have hrange : type.takesRange = true ∧ (type == .range) = false := by
    cases value <;> decide
  have hlimit (o : Ordering) (limit? : Option (Stamp type)) :
      (!(limit?.map Stamp.text).any fun bound =>
        compareValues type value.text bound == some o) = true ↔
      ∀ limit ∈ limit?, value.order limit ≠ o := by
    cases limit? with
    | none => simp
    | some limit => simp [Stamp.compareValues_text]
  have hdecided : (!((least.map Stamp.text).any fun bound =>
        compareValues type value.text bound == some .lt) &&
      !((greatest.map Stamp.text).any fun bound =>
        compareValues type value.text bound == some .gt)) =
      decide (Between least greatest value) := by
    rw [Bool.eq_iff_iff, Bool.and_eq_true, hlimit, hlimit, decide_eq_true_iff, Between]
  rw [inRange?, htype]
  simp only [hrange, hmutable, hmin, hmax, hvalue, ← hdecided, Bool.not_true, Bool.or_self,
    Bool.false_eq_true, if_false]
  split
  · rename_i hnone hnone'
    rw [Option.map_eq_none_iff] at hnone hnone'
    exact absurd hlimits (by simp [hnone, hnone'])
  · rfl

end Limits

/-! ### Asked as selectors -/

/-- Values for dates and times are compared by their parts as they are written, and come
together only if they are written alike. Values of one form are in the order of their moments.
An input that the user may change and that has limits is in range if its value is between
them in that order; so if they are of one form, it is if its moment is between theirs. -/
theorem range_decided_by_order {type : InputType} (value : Stamp type) :
    (∀ other : Stamp type, compareValues type value.text other.text = some (value.order other) ∧
      (value.order other = .eq ↔ value.text = other.text) ∧
      (value.SameForm other → value.order other = compare value.moment other.moment)) ∧
    ∀ (tree : View ν) (n : ν) (warn : Bool) (least greatest : Option (Stamp type)),
      inputType? tree.toLinks n = some type → isMutable tree.toLinks n = true →
      tree.value n = value.text → tree.attribute? n "min" = least.map Stamp.text →
      tree.attribute? n "max" = greatest.map Stamp.text → least ≠ none ∨ greatest ≠ none →
      Says tree ":in-range" n warn (decide (Between least greatest value)) ∧
      Says tree ":out-of-range" n warn (!decide (Between least greatest value)) ∧
      ((∀ limit ∈ least.toList ++ greatest.toList, value.SameForm limit) →
        (Between least greatest value ↔ (∀ limit ∈ least, limit.moment ≤ value.moment) ∧
          ∀ limit ∈ greatest, value.moment ≤ limit.moment)) := by
  refine ⟨fun other => ⟨value.compareValues_text other, Stamp.order_eq_eq,
    Stamp.order_eq_compare⟩, fun tree n warn least greatest htype hmutable hvalue hmin hmax
    hlimits => ?_⟩
  have he : tree.isElement n = true :=
    Links.isElement_of_isHtmlNamed (isHtmlNamed_of_inputType? htype)
  have hrange := inRange?_eq htype hmutable hvalue hmin hmax hlimits
  refine ⟨says_controlState (k := .inRange) (by decide) he fun ctx h => ?_,
    says_controlState (k := .outOfRange) (by decide) he fun ctx h => ?_, between_iff_moments⟩
  all_goals
    obtain ⟨rfl, -, -⟩ := Context.of_ok h
    rw [Context.holdsKeyword, hrange]
    cases decide (Between least greatest value) <;> rfl

/-! ### Limits of other forms -/

/-- The last day with a year of four digits. -/
def lastDay : Stamp .date :=
  .date ⟨⟨⟨4, 9999, by decide, by decide, by decide⟩, 12, by decide, by decide⟩, 31, by decide,
    by decide⟩

/-- The day after it. -/
def dayAfter : Stamp .date :=
  .date ⟨⟨⟨5, 10000, by decide, by decide, by decide⟩, 1, by decide, by decide⟩, 1, by decide,
    by decide⟩

example : lastDay.text = "9999-12-31" ∧ dayAfter.text = "10000-01-01" := by decide +kernel

/-- A time to the minute. -/
def timeOfDay (hour minute : Nat) (hhour : hour < 24) (hminute : minute < 60) : Stamp .time :=
  .time ⟨hour, minute, none, hhour, hminute⟩

def noon : Stamp .time :=
  timeOfDay 12 0 (by decide) (by decide)

/-- The same time to the second. -/
def noonSharp : Stamp .time :=
  .time ⟨12, 0, some ⟨0, 0, 0, by decide, by decide, by decide⟩, by decide, by decide⟩

/-- Three inputs with limits. In the last two, the limit is not of the form of the value. -/
def limits : Document :=
  (Document.empty .html).run
    [.createElement "input", .setAttribute ⟨1⟩ "type" "time", .setAttribute ⟨1⟩ "min" "08:30",
      .setAttribute ⟨1⟩ "max" "17:00", .setAttribute ⟨1⟩ "value" "12:00",
      .createElement "input", .setAttribute ⟨2⟩ "type" "date",
      .setAttribute ⟨2⟩ "min" "9999-12-31", .setAttribute ⟨2⟩ "value" "10000-01-01",
      .createElement "input", .setAttribute ⟨3⟩ "type" "time",
      .setAttribute ⟨3⟩ "min" "12:00:00", .setAttribute ⟨3⟩ "value" "12:00"]

theorem range_decided_by_order_limits : inputType? limits.links ⟨1⟩ = some .time ∧
    isMutable limits.links ⟨1⟩ = true ∧ limits.view.value ⟨1⟩ = noon.text ∧
    Says limits.view ":in-range" ⟨1⟩ false true ∧ Says limits.view ":out-of-range" ⟨1⟩ false false ∧
    compareValues .date lastDay.text dayAfter.text = some (lastDay.order dayAfter) := by
  have htype : inputType? limits.links ⟨1⟩ = some .time := by decide +kernel
  have hmutable : isMutable limits.links ⟨1⟩ = true := by decide +kernel
  have hvalue : limits.view.value ⟨1⟩ = noon.text := by decide +kernel
  have hmin : limits.view.attribute? ⟨1⟩ "min" =
      (some (timeOfDay 8 30 (by decide) (by decide))).map Stamp.text := by decide +kernel
  have hmax : limits.view.attribute? ⟨1⟩ "max" =
      (some (timeOfDay 17 0 (by decide) (by decide))).map Stamp.text := by decide +kernel
  obtain ⟨-, hrange⟩ := @range_decided_by_order NodeId _ _ noon
  obtain ⟨hin, hout, hmoments⟩ :=
    hrange limits.view ⟨1⟩ false _ _ htype hmutable hvalue hmin hmax (.inl nofun)
  have hform : ∀ limit ∈ [timeOfDay 8 30 (by decide) (by decide),
      timeOfDay 17 0 (by decide) (by decide)], noon.SameForm limit :=
    List.forall_mem_cons.mpr ⟨rfl, List.forall_mem_cons.mpr ⟨rfl, nofun⟩⟩
  have hbetween := (hmoments hform).mpr
    ⟨by rintro _ ⟨⟩; decide, by rintro _ ⟨⟩; decide⟩
  rw [decide_eq_true hbetween] at hin hout
  exact ⟨htype, hmutable, hvalue, hin, hout, ((@range_decided_by_order NodeId _ _ lastDay).1 _).1⟩

/-- So values are not always in the order of their moments. The first day with a year of five
digits is before the last one with four, and noon is before noon when that is written with its
seconds; an input with such a limit is out of range. -/
theorem order_not_chronological : (¬ ∀ (type : InputType) (a b : Stamp type),
      compareValues type a.text b.text = some (compare a.moment b.moment)) ∧
    lastDay.moment < dayAfter.moment ∧
    compareValues .date lastDay.text dayAfter.text = some .gt ∧
    Says limits.view ":out-of-range" ⟨2⟩ false true ∧
    noon.moment = noonSharp.moment ∧ compareValues .time noon.text noonSharp.text = some .lt ∧
    Says limits.view ":out-of-range" ⟨3⟩ false true := by
  have hlt : lastDay.moment < dayAfter.moment := by decide +kernel
  have hgt : compareValues .date lastDay.text dayAfter.text = some .gt := by decide +kernel
  refine ⟨fun h => ?_, hlt, hgt, by decide +kernel, by decide +kernel, by decide +kernel,
    by decide +kernel⟩
  have horder := h .date lastDay dayAfter
  rw [hgt, Nat.compare_eq_lt.mpr hlt] at horder
  cases horder

end DomQuery.Query
