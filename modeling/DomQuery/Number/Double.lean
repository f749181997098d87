import DomQuery.Text.Ascii

/-!
# Decimal texts in double precision

Two number texts are compared by the double-precision values they round to. All
finite values of that format are multiples of `2 ^ -1074`, so a value is kept as
an integer in that unit, and infinity as the first power of two beyond the
largest one. Rounding is to nearest, and ties go to the even neighbour.
-/

namespace DomQuery.Number

open DomQuery.Text

/-- A decimal number `± digits · 10 ^ exponent`. -/
structure Decimal where
  negative : Bool
  digits : Nat
  exponent : Int
deriving DecidableEq, Repr

/-- The nearest integer to `num / den`, a tie going to the even one. -/
def roundHalfEven (num den : Nat) : Nat :=
  let q := num / den
  let twice := 2 * (num % den)
  if twice < den then q
  else if den < twice then q + 1
  else q + q % 2

/-- Infinity in units of `2 ^ -1074`. -/
def infinity : Nat :=
  1 <<< 2098

/-- `num / den` units of `2 ^ -1074`, rounded to 53 binary digits. -/
def roundUnits (num den : Nat) : Nat :=
  let excess := (num / den).log2 - 52
  min infinity (roundHalfEven num (den <<< excess) <<< excess)

namespace Decimal

/-- The magnitude in units of `2 ^ -1074`. Numbers far out of range are not
multiplied out. -/
def units (d : Decimal) : Nat :=
  let size : Int := (Nat.toDigits 10 d.digits).length + d.exponent
  if d.digits == 0 || size < -400 then 0
  else if 400 < size then infinity
  else roundUnits ((d.digits * Nat.pow 10 d.exponent.toNat) <<< 1074) (Nat.pow 10 (-d.exponent).toNat)

/-- The value in units of `2 ^ -1074`. -/
def value (d : Decimal) : Int :=
  if d.negative then -(d.units : Int) else d.units

end Decimal

/-- What a number text can stand for. -/
inductive Reading where
  | notANumber
  /-- In units of `2 ^ -1074`. -/
  | value (units : Int)
deriving DecidableEq, Repr

def digitsValue (cs : List Char) : Nat :=
  cs.foldl (fun n c => 10 * n + (c.toNat - 48)) 0

/-- Takes a sign off the front: whether it was a minus, and the rest. -/
def dropSign : List Char → Bool × List Char
  | '-' :: cs => (true, cs)
  | '+' :: cs => (false, cs)
  | cs => (false, cs)

/-- The exponent that ends a number, zero if there is none. -/
def readExponent? : List Char → Option Int
  | [] => some 0
  | e :: cs =>
    if e == 'e' || e == 'E' then
      let (negative, cs) := dropSign cs
      if !cs.isEmpty && cs.all Char.isDigit then
        let n : Int := digitsValue cs
        some (if negative then -n else n)
      else none
    else none

/-- Digits with an optional point and exponent; at least one digit is needed. -/
def readMagnitude? (cs : List Char) : Option (Nat × Int) :=
  let (whole, rest) := cs.span Char.isDigit
  let (fraction, rest) :=
    match rest with
    | '.' :: after => after.span Char.isDigit
    | _ => ([], rest)
  if whole.isEmpty && fraction.isEmpty then none
  else
    (readExponent? rest).map fun e => (digitsValue (whole ++ fraction), e - fraction.length)

/-- The number that `text` spells, in decimal or by name. -/
def readDouble? (text : String) : Option Reading :=
  let (negative, cs) := dropSign text.toList
  match lower (String.ofList cs) with
  | "nan" => some .notANumber
  | "inf" | "infinity" => some (.value (if negative then -(infinity : Int) else infinity))
  | _ => (readMagnitude? cs).map fun (digits, e) => .value (Decimal.value ⟨negative, digits, e⟩)

/-- The order of two readings, if both are numbers. -/
def Reading.compare? : Reading → Reading → Option Ordering
  | .value a, .value b => some (compare a b)
  | _, _ => none

end DomQuery.Number
