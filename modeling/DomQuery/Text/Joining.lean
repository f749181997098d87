import DomQuery.Text.Category

/-!
# Joined letters

In some scripts the letters of a word hold on to each other. A letter can join
the one after it, the one before it, or both, and marks between two letters do
not part them.
-/

namespace DomQuery.Text

/-- How all code points join, as runs from zero on: the next one (`L`), the one
before (`R`), both (`D`) or neither (`U`). -/
def joiningRuns : String :=
  "U1568D1U1R4D1R1D1R1D5R4D13U1D7R1D2U35D2U1R3U1R3D16R18D38R1D2R9D1R1D1R1D2R2U1R1U24R2U10D3U2
   D1U16R1U1D3R5D4R1D9R1D1R1D1R1D2R1U29R1D11R3D15R2D4R1D1R2D3R2D6U74D33U85R1D5R2D1R1D10R1D1R3
   U7D1U1D4U1R1D1R2U5R19U3D1U2D5R1U17D10R3U1R1D2R2D6R1D15U3902D1U24D89U14D34U1D1U36757D50L1
   U25165D5R1U1R1U1R2U2L1R5D4L1D5R1D3R1U2R1U6D4R1U144D1R1D1R3D3R1D2R1D1R2D1R1U23R4D2U337L1D33
   R1D1U414R1D2U107D3R1D17U12D3R1U27D4R2D12U46D1U1D2R3U1D1R2D2R1D2U1D1R2D1U4R1D1L1U55604D68
   U988860"

/-- The letters that join the next one. -/
def joinsNext : CharSet :=
  .ofRuns joiningRuns fun label => label == "L" || label == "D"

/-- The letters that join the one before. -/
def joinsBefore : CharSet :=
  .ofRuns joiningRuns fun label => label == "R" || label == "D"

/-- Marks and signs that letters join across. -/
def joinsAcross : CharSet :=
  ((CharSet.ofCategories ["Mn", "Me", "Cf"]).union (.singleton (Char.ofNat 0x1E94B))).diff
    (.ofRange 0x200C 0x200D)

end DomQuery.Text
