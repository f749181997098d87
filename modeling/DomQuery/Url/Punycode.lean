import DomQuery.Text.Ascii

/-!
# Labels in ASCII

A label beyond ASCII is sent as its ASCII characters, a hyphen, and numbers that
say where the others go. Code points are put in from low to high: every number is
a distance, counted in places of the text and then in code points. Its digits are
letters and decimal digits, and how much a digit is worth depends on the numbers
before it.
-/

namespace DomQuery.Url

/-- The value of a digit. -/
def digitValue? (c : Char) : Option Nat :=
  if 'a' ≤ c && c ≤ 'z' then some (c.toNat - 97)
  else if 'A' ≤ c && c ≤ 'Z' then some (c.toNat - 65)
  else if c.isDigit then some (c.toNat - 22)
  else none

/-- A digit below this ends a number; `k` grows by 36 with every digit. -/
def threshold (k bias : Nat) : Nat :=
  if k ≤ bias then 1 else if bias + 26 ≤ k then 26 else k - bias

/-- Takes `delta` down to 455 in steps of 35, and `k` up by 36 in each. -/
def scaleDown (delta k : Nat) : Nat × Nat :=
  if 455 < delta then scaleDown (delta / 35) (k + 36) else (delta, k)
termination_by delta
decreasing_by exact Nat.div_lt_self (by omega) (by omega)

/-- The bias after a distance of `delta` in a text that has `size` characters
now. -/
def nextBias (delta size : Nat) (first : Bool) : Nat :=
  let delta := if first then delta / 700 else delta / 2
  let (delta, k) := scaleDown (delta + delta / size) 0
  k + 36 * delta / (delta + 38)

/-- Numbers and the worth of digits stay below this. -/
def distanceLimit : Nat := 0x100000000

/-- Adds the number that `cs` begins with to `n`, and gives what follows it. -/
def readDistance? (bias k weight n : Nat) : List Char → Option (Nat × List Char)
  | [] => none
  | c :: cs =>
    match digitValue? c with
    | none => none
    | some digit =>
      let n := n + digit * weight
      let worth := weight * (36 - threshold k bias)
      if distanceLimit ≤ n then none
      else if digit < threshold k bias then some (n, cs)
      else if distanceLimit ≤ worth then none
      else readDistance? bias (k + 36) worth n cs

theorem length_of_readDistance? {bias k weight n m : Nat} {cs rest : List Char}
    (h : readDistance? bias k weight n cs = some (m, rest)) : rest.length < cs.length := by
  induction cs generalizing k weight n with
  | nil => simp [readDistance?] at h
  | cons c cs ih =>
    simp only [readDistance?] at h
    split at h
    · simp at h
    · split at h
      · simp at h
      · split at h
        · simp only [Option.some.injEq, Prod.mk.injEq] at h
          simp [h.2]
        · split at h
          · simp at h
          · exact Nat.lt_succ_of_lt (ih h)

/-- Puts in the characters that the digits in `cs` stand for. The last one had the
code point `code` and stands before `place`. -/
def putIn? (text : List Char) (code place bias : Nat) (cs : List Char) : Option (List Char) :=
  if cs.isEmpty then some text
  else
    match _h : readDistance? bias 36 1 place cs with
    | none => none
    | some (n, rest) =>
      let size := text.length + 1
      let next := code + n / size
      if next.isValidChar then
        let text := text.insertIdx (n % size) (Char.ofNat next)
        putIn? text next (n % size + 1) (nextBias (n - place) size (place == 0)) rest
      else none
termination_by cs.length
decreasing_by exact length_of_readDistance? _h

/-- The label that an ASCII text stands for. The last hyphen ends its ASCII
characters, but not when there are none. -/
def fromPunycode? (cs : List Char) : Option (List Char) :=
  let digits := (cs.reverse.takeWhile (· != '-')).reverse
  let before := cs.length - digits.length
  if before ≤ 1 then putIn? [] 128 0 72 cs
  else putIn? (cs.take (before - 1)) 128 0 72 digits

end DomQuery.Url
