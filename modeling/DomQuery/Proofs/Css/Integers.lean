import DomQuery.Css.Step
import DomQuery.Proofs.Css.Serialize

/-!
# Reading integers that were written

An integer in decimal digits is read as a number without point and exponent, and its
value is the integer, as long as it has 32 bits.

* `int?_integer`: the value of the number that a sign and digits stand for.
* `scan?_number`, `scan?_dimension`: its token, alone or with a unit.
-/

namespace DomQuery.Css

open DomQuery.Text

variable {c : Char} {cs rest : List Char} {n : Nat} {sign : Option Sign}

def Sign.text : Sign → List Char
  | .plus => ['+']
  | .minus => ['-']

/-- A sign, if any, and decimal digits. -/
def integerText (sign : Option Sign) (n : Nat) : List Char :=
  (sign.map Sign.text).getD [] ++ Nat.toDigits 10 n

/-- The number that a sign and decimal digits stand for. -/
def integer (sign : Option Sign) (n : Nat) : Numeral :=
  ⟨sign, (Nat.toDigits 10 n).map fun c => c.toNat - 48, [], none⟩

theorem valueOf_digits (cs : List Char) :
    Numeral.valueOf (cs.map fun c => c.toNat - 48) = Nat.ofDigitChars 10 cs 0 := by
  rw [Numeral.valueOf, List.foldl_map, Nat.ofDigitChars_eq_foldl]
  rfl

theorem int?_integer (sign : Option Sign) (n : Nat) :
    (integer sign n).int? = some (Numeral.saturate (if sign = some .minus then -n else n)) := by
  have hvalue : Numeral.valueOf (integer sign n).whole = n := by
    rw [integer, valueOf_digits, Nat.ofDigitChars_ten_toDigits]
  simp only [Numeral.int?, hvalue]
  simp [integer, Numeral.isInteger, Numeral.isNegative]

/-- An integer is written with a sign only if it is below zero. -/
theorem toList_toString (i : Int) : (toString i).toList =
    integerText (if i < 0 then some .minus else none) i.natAbs := by
  rcases i with n | n
  · rw [if_neg (by simp)]
    exact String.toList_ofList
  · rw [if_pos (Int.negSucc_lt_zero n)]
    change ("-" ++ toString (n + 1)).toList = _
    rw [String.toList_append]
    exact congrArg (['-'] ++ ·) String.toList_ofList

theorem saturate_of_inRange {i : Int} (h : InRange i) : Numeral.saturate i = i := by
  unfold InRange at h
  unfold Numeral.saturate
  omega

/-- No number goes on here. -/
def EndsNumber (rest : List Char) : Prop :=
  ∀ c ∈ rest.head?, c.isDigit = false ∧ c ≠ '.' ∧ c ≠ 'e' ∧ c ≠ 'E' ∧ c ≠ '%'

theorem isDigit_of_mem_toDigits (h : c ∈ Nat.toDigits 10 n) : c.isDigit = true :=
  Nat.isDigit_of_mem_toDigits (by decide) (by decide) h

theorem exists_toDigits_ten (n : Nat) : ∃ d ds, Nat.toDigits 10 n = d :: ds ∧ d.isDigit = true := by
  rcases h : Nat.toDigits 10 n with _ | ⟨d, ds⟩
  · exact absurd h (Nat.toDigits_ne_nil)
  · exact ⟨d, ds, rfl, isDigit_of_mem_toDigits (h ▸ List.mem_cons_self)⟩

theorem scanDigits_toDigits (hrest : EndsNumber rest) : scanDigits (Nat.toDigits 10 n ++ rest) =
    ((Nat.toDigits 10 n).map fun c => c.toNat - 48, rest) := by
  have hdigits : ∀ c ∈ Nat.toDigits 10 n, c.isDigit = true := fun c => isDigit_of_mem_toDigits
  have hstop : rest.takeWhile Char.isDigit = [] ∧ rest.dropWhile Char.isDigit = rest := by
    rcases rest with _ | ⟨c, rest⟩
    · exact ⟨rfl, rfl⟩
    · have hc := (hrest c rfl).1
      simp [hc]
  rw [scanDigits_eq, List.takeWhile_append_of_pos hdigits, List.dropWhile_append_of_pos hdigits,
    hstop.1, hstop.2, List.append_nil]

theorem scanSign_integerText (sign : Option Sign) (n : Nat) (rest : List Char) :
    scanSign (integerText sign n ++ rest) = (sign, Nat.toDigits 10 n ++ rest) := by
  rcases sign with _ | _ | _
  · obtain ⟨d, ds, hdigits, hd⟩ := exists_toDigits_ten n
    have hplus : d ≠ '+' := by
      rintro rfl
      cases hd
    have hminus : d ≠ '-' := by
      rintro rfl
      cases hd
    rw [integerText, hdigits]
    exact scanSign_of_ne hplus hminus _
  · rfl
  · rfl

theorem scanNumeral_integerText (hrest : EndsNumber rest) :
    scanNumeral (integerText sign n ++ rest) = (integer sign n, rest) := by
  have hfraction : scanFraction rest = ([], rest) := by
    rcases rest with _ | ⟨c, rest⟩
    · rfl
    · exact scanFraction_of_ne (hrest c rfl).2.1 rest
  have hexponent : scanExponent rest = (none, rest) := by
    rcases rest with _ | ⟨c, rest⟩
    · rfl
    · obtain ⟨-, -, he, hE, -⟩ := hrest c rfl
      simp [scanExponent, he, hE]
  rw [scanNumeral_eq]
  simp only [scanSign_integerText, scanDigits_toDigits hrest, hfraction, hexponent]
  rfl

theorem startsNumber_integerText (sign : Option Sign) (n : Nat) (rest : List Char) :
    startsNumber (integerText sign n ++ rest) = true := by
  obtain ⟨d, ds, hdigits, hd⟩ := exists_toDigits_ten n
  have hpoint : d ≠ '.' := by
    rintro rfl
    cases hd
  rw [startsNumber_eq, scanSign_integerText, hdigits, List.cons_append, startsMagnitude_of_ne hpoint,
    hd]

/-- What begins a number is read as one. -/
theorem scan?_of_startsNumber (h : startsNumber cs = true) : Token.scan? cs = some (scanNumeric cs) := by
  rcases cs with _ | ⟨c, cs⟩
  · cases h
  have hspace : isSpace c = false := by
    refine Bool.eq_false_iff.mpr fun hspace => ?_
    rcases eq_of_isSpace hspace with rfl | rfl | rfl | rfl | rfl
    all_goals cases h
  refine congrArg some ?_
  unfold scanFrom
  rw [hspace, h]
  rfl

theorem scan?_integerText (hrest : EndsNumber rest) :
    Token.scan? (integerText sign n ++ rest) = some (if startsIdent rest then
      (.dimension (integer sign n) (scanName rest).1, (scanName rest).2)
    else (.number (integer sign n), rest)) := by
  have hpercent : rest.head? ≠ some '%' := fun h => (hrest '%' h).2.2.2.2 rfl
  rw [scan?_of_startsNumber (startsNumber_integerText sign n rest), scanNumeric_eq,
    scanNumeral_integerText hrest, scanUnit_of_ne hpercent]

theorem scan?_number (hrest : EndsNumber rest) (hident : startsIdent rest = false) :
    Token.scan? (integerText sign n ++ rest) = some (.number (integer sign n), rest) := by
  rw [scan?_integerText hrest, hident]
  rfl

/-- Characters of names are read as they are. -/
theorem writes_self {cs : List Char} (h : ∀ c ∈ cs, isNameChar c = true ∧ c ≠ '\x00') :
    Writes cs cs := by
  induction cs with
  | nil => exact writes_nil
  | cons c cs ih =>
    obtain ⟨⟨hc, hnul⟩, hcs⟩ := List.forall_mem_cons.mp h
    exact (ih hcs).cons hc hnul

theorem isNameChar_of_isDigit (h : c.isDigit = true) : isNameChar c = true ∧ c ≠ '\x00' := by
  refine ⟨by simp [isNameChar, h], ?_⟩
  rintro rfl
  cases h

/-- A unit that begins with `n` and needs no escapes. -/
theorem scan?_dimension {unit : List Char} (hunit : ∀ c ∈ unit, isNameChar c = true ∧ c ≠ '\x00')
    (hrest : EndsName rest) : Token.scan? (integerText sign n ++ ('n' :: unit ++ rest)) =
      some (.dimension (integer sign n) (String.ofList ('n' :: unit)), rest) := by
  have hnumber : EndsNumber ('n' :: unit ++ rest) := by
    rintro _ ⟨⟩
    decide
  have hwrites : Writes ('n' :: unit) ('n' :: unit) := (writes_self hunit).cons rfl (by decide)
  have hname : scanName ('n' :: unit ++ rest) = (String.ofList ('n' :: unit), rest) := by
    rw [scanName, hwrites.scan hrest (by simp)]
  rw [scan?_integerText hnumber, hname]
  rfl

end DomQuery.Css
