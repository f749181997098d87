import DomQuery.Proofs.Css.Integers
import DomQuery.Proofs.Selector.Branches
import DomQuery.Selector.Printer

/-!
# Reading steps that were written

The text of `an+b` has no blanks and leaves out what is zero. Its offset is a part of the
unit when it is negative, as in `2n-1`, and else a number of its own. Either way it is read
back as the pair that it was written for.

* `spells_stepText`: the values of the text, and what is read of them.
-/

namespace DomQuery.Selector

open DomQuery.Css DomQuery.Text

variable {a b : Int} {rest : List Char} {after : List Item}

/-- The number that is written for an integer. -/
def numberOf (i : Int) : Numeral :=
  integer (if i < 0 then some .minus else none) i.natAbs

theorem int?_numberOf {i : Int} (h : InRange i) : (numberOf i).int? = some i := by
  have hvalue : (if (if i < 0 then some Sign.minus else none) = some .minus then -(i.natAbs : Int)
      else i.natAbs) = i := by
    by_cases hi : i < 0
    · simp only [if_pos hi, if_true]
      omega
    · simp only [if_neg hi, reduceCtorEq, if_false]
      omega
  rw [numberOf, int?_integer, hvalue, saturate_of_inRange h]

/-- What may follow a step: the end of its block, or a blank. -/
def EndsStep (rest : List Char) : Prop :=
  ∃ tail, rest = ')' :: tail ∨ rest = ' ' :: tail

theorem EndsStep.endsName (h : EndsStep rest) : EndsName rest := by
  obtain ⟨tail, rfl | rfl⟩ := h
  · exact endsName_cons (by decide)
  · exact endsName_cons (by decide)

theorem EndsStep.endsNumber (h : EndsStep rest) : EndsNumber rest := by
  obtain ⟨tail, rfl | rfl⟩ := h
  all_goals
    rintro _ ⟨⟩
    decide

theorem EndsStep.startsIdent (h : EndsStep rest) : startsIdent rest = false := by
  obtain ⟨tail, rfl | rfl⟩ := h
  · rfl
  · rfl

theorem next_token {t : Token} (h : t.isWhitespace = false) (items : List Item) :
    next Item.first (.token t :: items) = .ok (.token t, items) := by
  simp [next, skipSpace, Item.first, h]

/-! ### The forms of a step -/

theorem readStep_number {value : Numeral} (h : value.int? = some b) (after : List Item) :
    readStep Item.first (.token (.number value) :: after) = .ok ((0, b), after) := by
  rw [readStep, next_token rfl]
  simp only [bind, Except.bind, Item.first, h]
  rfl

theorem readStep_dimension {value : Numeral} (h : value.int? = some a) (unit : String)
    (after : List Item) : readStep Item.first (.token (.dimension value unit) :: after) =
      readAfterStep Item.first a unit after := by
  rw [readStep, next_token rfl]
  simp only [bind, Except.bind, Item.first, h]

theorem readAfterStep_n (a : Int) (after : List Item) : readAfterStep Item.first a "n" after =
    (readOffset Item.first after).map fun r => ((a, r.1), r.2) := by
  have hlower : lower "n" = "n" := by decide +kernel
  rw [readAfterStep, hlower]
  rcases readOffset Item.first after with e | r
  · rfl
  · rfl

/-- The offset of a unit such as `n-1`. -/
theorem readAfterStep_minus (a : Int) {m : Nat} (hm : InRange (-m)) (after : List Item) :
    readAfterStep Item.first a (String.ofList ('n' :: integerText (some .minus) m)) after =
      .ok ((a, -m), after) := by
  obtain ⟨d, ds, hdigits, hd⟩ := exists_toDigits_ten m
  have hdash : dashDigits? (String.ofList ('n' :: integerText (some .minus) m)) = some (-(m : Int)) := by
    have hall : (d :: ds).all Char.isDigit = true := by
      rw [← hdigits]
      exact List.all_eq_true.mpr fun c hc => isDigit_of_mem_toDigits hc
    have hvalue : Numeral.valueOf ((d :: ds).map fun c => c.toNat - 48) = m := by
      rw [valueOf_digits, ← hdigits, Nat.ofDigitChars_ten_toDigits]
    rw [dashDigits?, String.toList_ofList, integerText, hdigits]
    change (if _ then _ else _) = _
    rw [hvalue, saturate_of_inRange hm]
    simp [hall]
  have hlower : (lower (String.ofList ('n' :: integerText (some .minus) m))).toList =
      'n' :: '-' :: d.toLower :: ds.map Char.toLower := by
    rw [toList_lower, String.toList_ofList, integerText, hdigits]
    rfl
  unfold readAfterStep
  split
  · rename_i h
    rw [h] at hlower
    cases hlower
  · rename_i h
    rw [h] at hlower
    cases hlower
  · rw [hdash]
    rfl

theorem spells_number {sign : Option Sign} {n : Nat} (hrest : EndsStep rest) :
    Spells (integerText sign n) [.token (.number (integer sign n))] rest :=
  spells_token (scan?_number hrest.endsNumber hrest.startsIdent) rfl

theorem spells_dimension {unit : List Char} (a : Int)
    (hunit : ∀ c ∈ unit, isNameChar c = true ∧ c ≠ '\x00') (hrest : EndsName rest) :
    Spells ((toString a).toList ++ 'n' :: unit)
      [.token (.dimension (numberOf a) (String.ofList ('n' :: unit)))] rest := by
  have hscan : Token.scan? ((toString a).toList ++ ('n' :: unit ++ rest)) =
      some (.dimension (numberOf a) (String.ofList ('n' :: unit)), rest) := by
    rw [toList_toString]
    exact scan?_dimension hunit hrest
  rw [← List.append_assoc] at hscan
  exact spells_token hscan rfl

/-! ### The texts of a step -/

/-- The text stands for values that are read as the step, where no offset follows. -/
def StandsFor (text : List Char) (a b : Int) (rest : List Char) : Prop :=
  ∃ vs, Spells text vs rest ∧ ∀ after, readOffset Item.first after = .ok (0, after) →
    readStep Item.first (Item.ofValues vs ++ after) = .ok ((a, b), after)

theorem standsFor_constant (hb : InRange b) (hrest : EndsStep rest) :
    StandsFor (toString b).toList 0 b rest := by
  refine ⟨[.token (.number (numberOf b))], ?_, fun after _ => readStep_number (int?_numberOf hb) after⟩
  rw [toList_toString]
  exact spells_number hrest

theorem standsFor_multiple (ha : InRange a) (hrest : EndsStep rest) :
    StandsFor (toString a ++ "n").toList a 0 rest := by
  refine ⟨[.token (.dimension (numberOf a) "n")], ?_, fun after hafter => ?_⟩
  · rw [String.toList_append]
    exact spells_dimension a (by simp) hrest.endsName
  · refine (readStep_dimension (int?_numberOf ha) "n" after).trans ?_
    rw [readAfterStep_n, hafter]
    rfl

/-- A negative offset is a part of the unit. -/
theorem standsFor_minus (ha : InRange a) (hb : InRange b) (hneg : b < 0) (hrest : EndsStep rest) :
    StandsFor (toString a ++ "n" ++ toString b).toList a b rest := by
  have hb' : b = -(b.natAbs : Int) := by omega
  refine ⟨[.token (.dimension (numberOf a)
    (String.ofList ('n' :: integerText (some .minus) b.natAbs)))], ?_, fun after _ => ?_⟩
  · have hunit : ∀ c ∈ integerText (some .minus) b.natAbs, isNameChar c = true ∧ c ≠ '\x00' := by
      intro c hc
      rcases List.mem_cons.mp hc with rfl | hc
      · decide
      · exact isNameChar_of_isDigit (isDigit_of_mem_toDigits hc)
    have htext : (toString a ++ "n" ++ toString b).toList =
        (toString a).toList ++ 'n' :: integerText (some .minus) b.natAbs := by
      rw [String.toList_append, String.toList_append, toList_toString b, if_pos hneg]
      simp
    rw [htext]
    exact spells_dimension a hunit hrest.endsName
  · refine (readStep_dimension (int?_numberOf ha) _ after).trans ?_
    rw [readAfterStep_minus a (hb' ▸ hb) after, ← hb']

/-- An offset that is not negative is a number with a sign. -/
theorem standsFor_plus (ha : InRange a) (hb : InRange b) (hneg : ¬ b < 0) (hrest : EndsStep rest) :
    StandsFor (toString a ++ "n+" ++ toString b).toList a b rest := by
  have hb' : b = (b.natAbs : Int) := by omega
  have hsigned : (integer (some .plus) b.natAbs).int? = some b := by
    rw [int?_integer, if_neg (by simp), ← hb', saturate_of_inRange hb]
  refine ⟨[.token (.dimension (numberOf a) "n"), .token (.number (integer (some .plus) b.natAbs))],
    ?_, fun after _ => ?_⟩
  · have htext : (toString a ++ "n+" ++ toString b).toList =
        ((toString a).toList ++ 'n' :: []) ++ integerText (some .plus) b.natAbs := by
      rw [String.toList_append, String.toList_append, toList_toString b, if_neg hneg]
      simp [integerText, Sign.text]
    rw [htext]
    have hplus : EndsName (integerText (some .plus) b.natAbs ++ rest) :=
      endsName_cons (by decide)
    exact (spells_dimension a (by simp) hplus).append (spells_number hrest)
  · refine (readStep_dimension (int?_numberOf ha) "n" _).trans ?_
    have hoffset : readOffset Item.first
        (.token (.number (integer (some .plus) b.natAbs)) :: after) = .ok (b, after) := by
      rw [readOffset, next_token rfl]
      simp only [Item.first, hsigned]
      rfl
    exact (readAfterStep_n a _).trans (congrArg _ hoffset)

/-- The text of a step stands for values that are read as the step. -/
theorem spells_stepText (ha : InRange a) (hb : InRange b) (hrest : EndsStep rest) :
    StandsFor (stepText a b).toList a b rest := by
  unfold stepText
  split
  · obtain rfl := beq_iff_eq.mp ‹_›
    exact standsFor_constant hb hrest
  split
  · obtain rfl := beq_iff_eq.mp ‹_›
    exact standsFor_multiple ha hrest
  split
  · exact standsFor_minus ha hb ‹_› hrest
  · exact standsFor_plus ha hb ‹_› hrest

end DomQuery.Selector
