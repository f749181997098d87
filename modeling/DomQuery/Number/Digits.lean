/-!
# Decimal digits of single precision

A short decimal that reads back as a given number of single precision, nearly
always the shortest. The number and the ends of the interval that rounds to it
are scaled by a power of ten in products of 32 bits. What such a product may be
off narrows the interval, so a decimal at the very end of it is passed over for
one with another digit.
-/

namespace DomQuery.Number

/-- A positive number `mantissa · 2 ^ exponent`. -/
structure Binary where
  mantissa : Nat
  exponent : Int
deriving DecidableEq, Repr

namespace Binary

/-- The magnitude that the bits of a number of single precision encode, without
its sign. The exponent of all ones is read like any other. -/
def ofBits32 (bits : UInt32) : Binary :=
  let fraction : Nat := bits.toNat % 0x800000
  let field : Nat := bits.toNat / 0x800000 % 0x100
  if field == 0 then ⟨fraction, -149⟩ else ⟨0x800000 + fraction, (field : Int) - 150⟩

/-- The number is a natural number. -/
def isInteger (b : Binary) : Bool :=
  (b.mantissa <<< b.exponent.toNat) % (1 <<< (-b.exponent).toNat) == 0

/-- The same number with a mantissa of exactly 32 bits. The mantissa must not be
zero nor have more bits than that. -/
def normalize (b : Binary) : Binary :=
  let shift := 31 - b.mantissa.log2
  ⟨b.mantissa <<< shift, b.exponent - shift⟩

/-- Halfway to the next larger number of single precision. -/
def upperEnd (b : Binary) : Binary :=
  normalize ⟨2 * b.mantissa + 1, b.exponent - 1⟩

/-- Halfway to the next smaller number, with the exponent of `upperEnd`. Below
the least mantissa the numbers are twice as dense. -/
def lowerEnd (b : Binary) : Binary :=
  let low : Binary := if b.mantissa == 0x800000 then ⟨4 * b.mantissa - 1, b.exponent - 2⟩
    else ⟨2 * b.mantissa - 1, b.exponent - 1⟩
  let exponent := b.upperEnd.exponent
  ⟨low.mantissa <<< (low.exponent - exponent).toNat, exponent⟩

/-- The power `10 ^ k`, rounded to a mantissa of 32 bits. -/
def tenTo (k : Int) : Binary :=
  let n := Nat.pow 10 k.natAbs
  if 0 ≤ k then
    if n.log2 ≤ 31 then normalize ⟨n, 0⟩
    else
      let shift := n.log2 - 31
      ⟨(n + 1 <<< (shift - 1)) >>> shift, shift⟩
  else
    let shift := 32 + n.log2
    ⟨(1 <<< (shift + 1) + n) / (2 * n), -shift⟩

/-- The upper half of the product of two mantissas of 32 bits, rounded. -/
def scaleBy (power b : Binary) : Nat :=
  (b.mantissa * power.mantissa + 0x80000000) >>> 32

end Binary

/-- A number scaled to a fixed point: `top` is the upper end of what rounds to
it, `width` the length of the interval below, and `center` how far below `top`
the number itself is. All count units of `2 ^ -places`; times `10 ^ power` they
are what they stand for. -/
structure Scaled where
  top : Nat
  width : Nat
  center : Nat
  places : Nat
  power : Int
deriving DecidableEq, Repr

namespace Scaled

/-- Scales a number by the power of ten, of every eighth, that leaves between
three and 29 places behind the point. Both ends are moved inwards by a unit. -/
def ofBinary (b : Binary) : Scaled :=
  let up := b.upperEnd
  -- 0.30103 is the decimal logarithm of two
  let least := 35 - (29 + up.exponent) * 30103 / 100000
  let k := 8 * (least / 8) - 28
  let ten := Binary.tenTo k
  let top := ten.scaleBy up - 1
  let bottom := ten.scaleBy b.lowerEnd + 1
  ⟨top, top - bottom, top - ten.scaleBy b.normalize, (-(up.exponent + ten.exponent + 32)).toNat, -k⟩

/-- A cut of `top` to a multiple of a unit: the multiple, the rest, the unit,
the width and the center, and the power of ten that the multiple counts. -/
structure Cut where
  count : Nat
  rest : Nat
  unit : Nat
  width : Nat
  center : Nat
  power : Int
deriving DecidableEq, Repr

/-- The cut before the point at `10 ^ digits`, if it stays inside the interval. -/
def cutWhole? (s : Scaled) (digits : Nat) : Option Cut :=
  let unit := Nat.pow 10 digits <<< s.places
  let rest := s.top % unit
  if rest ≤ s.width then
    some ⟨s.top / unit, rest, unit, s.width, s.center, s.power + digits⟩
  else none

/-- The cut `digits` places after the point, if it stays inside the interval. -/
def cutFraction? (s : Scaled) (digits : Nat) : Option Cut :=
  let unit := 1 <<< s.places
  let scale := Nat.pow 10 digits
  let top := s.top * scale
  let rest := top % unit
  if rest < s.width * scale then
    some ⟨top / unit, rest, unit, s.width * scale, s.center * scale, s.power - digits⟩
  else none

/-- The first cut that stays inside the interval, from long units to short. -/
def cut? (s : Scaled) : Option Cut :=
  (((List.range 10).reverse.filter fun digits => Nat.pow 10 digits ≤ s.top >>> s.places).findSome?
    s.cutWhole?) <|> ((List.range 9).findSome? fun i => s.cutFraction? (i + 1))

/-- Steps down from the cut as long as that stays inside the interval and comes
nearer to its center. -/
def Cut.approach : Nat → Cut → Cut
  | 0, c => c
  | fuel + 1, c =>
    let next := c.rest + c.unit
    if c.rest < c.center && next ≤ c.width &&
        (next < c.center || next - c.center < c.center - c.rest) then
      Cut.approach fuel { c with count := c.count - 1, rest := next }
    else c

end Scaled

/-- A decimal `n · 10 ^ k` that reads back as the number. -/
def Binary.toDecimal (b : Binary) : Nat × Int :=
  match (Scaled.ofBinary b).cut? with
  | some cut =>
    let cut := cut.approach 9
    (cut.count, cut.power)
  | none => (0, 0)

/-- The same decimal `n · 10 ^ k` without factors of ten in `n`; `fuel` bounds
their number. -/
def dropZeros : Nat → Nat → Int → Nat × Int
  | 0, n, k => (n, k)
  | fuel + 1, n, k => if n != 0 && n % 10 == 0 then dropZeros fuel (n / 10) (k + 1) else (n, k)

end DomQuery.Number
