/-!
# Sets of characters

A set of characters as ranges of code points, ascending and with gaps between
them, so that equal sets are equal lists. Sets can also be read from run-length
tables, in which every run has a label and a length.
-/

namespace DomQuery.Text

/-- The largest code point. -/
def lastCode : Nat := 0x10FFFF

/-- A set of code points: inclusive ranges in ascending order. -/
structure CharSet where
  ranges : List (Nat × Nat)
deriving DecidableEq, Repr

namespace CharSet

def empty : CharSet := ⟨[]⟩

/-- All code points. -/
def full : CharSet := ⟨[(0, lastCode)]⟩

/-- Joins the range from `a` to `b` and those after it where they touch or
overlap, in a list ordered by first elements. -/
def joinFrom (a b : Nat) : List (Nat × Nat) → List (Nat × Nat)
  | [] => [(a, b)]
  | (c, d) :: rest =>
    if c ≤ b + 1 then joinFrom a (max b d) rest else (a, b) :: joinFrom c d rest

/-- Joins ranges that touch or overlap, in a list ordered by first elements. -/
def joinRanges : List (Nat × Nat) → List (Nat × Nat)
  | [] => []
  | (a, b) :: rest => joinFrom a b rest

/-- The set of the code points in any of the ranges. -/
def ofList (ranges : List (Nat × Nat)) : CharSet :=
  ⟨joinRanges ((ranges.filter fun r => r.1 ≤ r.2).mergeSort fun r s => r.1 ≤ s.1)⟩

def ofRange (a b : Nat) : CharSet :=
  ofList [(a, b)]

def singleton (c : Char) : CharSet :=
  ⟨[(c.toNat, c.toNat)]⟩

def hasCode (s : CharSet) (n : Nat) : Bool :=
  s.ranges.any fun r => r.1 ≤ n && n ≤ r.2

def contains (s : CharSet) (c : Char) : Bool :=
  s.hasCode c.toNat

def union (s t : CharSet) : CharSet :=
  ofList (s.ranges ++ t.ranges)

/-- The gaps of a list of ranges from `next` on. -/
def gaps (next : Nat) : List (Nat × Nat) → List (Nat × Nat)
  | [] => if next ≤ lastCode then [(next, lastCode)] else []
  | (a, b) :: rest => if next < a then (next, a - 1) :: gaps (b + 1) rest else gaps (b + 1) rest

def compl (s : CharSet) : CharSet :=
  ⟨gaps 0 s.ranges⟩

def inter (s t : CharSet) : CharSet :=
  (s.compl.union t.compl).compl

def diff (s t : CharSet) : CharSet :=
  s.inter t.compl

def symmDiff (s t : CharSet) : CharSet :=
  (s.diff t).union (t.diff s)

def isAscii (s : CharSet) : Bool :=
  s.ranges.all fun r => r.2 < 0x80

/-! ### Run-length tables -/

/-- A run is a label of letters and a length in decimal. Reads the runs of `cs`
after `position`; `label` (last letter first) and `length` belong to the run
that is being read, and a letter after a digit ends it. -/
def readRuns (wanted : String → Bool) (position : Nat) (label : List Char) (length : Nat)
    (inLength : Bool) : List Char → List (Nat × Nat)
  | [] =>
    if inLength && length != 0 && wanted (String.ofList label.reverse) then
      [(position, position + length - 1)]
    else []
  | c :: cs =>
    if c.isDigit then readRuns wanted position label (10 * length + (c.toNat - 48)) true cs
    else if inLength then
      let rest := readRuns wanted (position + length) [c] 0 false cs
      if length != 0 && wanted (String.ofList label.reverse) then
        (position, position + length - 1) :: rest
      else rest
    else readRuns wanted position (c :: label) length false cs

/-- The code points whose run has a label that is wanted. Spaces and line breaks
in a table mean nothing. -/
def ofRuns (table : String) (wanted : String → Bool) : CharSet :=
  ofList (readRuns wanted 0 [] 0 false (table.toList.filter fun c => c != ' ' && c != '\n'))

end CharSet

end DomQuery.Text
