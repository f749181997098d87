import DomQuery.Text.Ascii

/-!
# Rows of texts

A table that gives texts to characters is a list of rows in ascending order. A
row has the code point of its first character and a word for this character and
for each of those that follow it.
-/

namespace DomQuery.Text

/-- The text that a table has for `c`. -/
def rowText? (rows : List (Nat × String)) (c : Char) : Option (List Char) :=
  match (rows.takeWhile fun row => row.1 ≤ c.toNat).getLast? with
  | none => none
  | some (first, texts) => (wordsOf texts.toList)[c.toNat - first]?

end DomQuery.Text
