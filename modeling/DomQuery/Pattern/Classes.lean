import DomQuery.Text.Age
import DomQuery.Text.CaseOrbit
import DomQuery.Text.Category
import DomQuery.Text.Property
import DomQuery.Text.Script
import DomQuery.Text.Segment

/-!
# Named character classes

The classes that a pattern can name: by a backslash and a letter, in brackets
and colons, and by a Unicode property.
-/

namespace DomQuery.Pattern

open DomQuery.Text

/-- The classes of `\d`, `\s` and `\w`. -/
inductive Perl where
  | digit
  | space
  | word
deriving DecidableEq, Repr

def Perl.ofLetter? (c : Char) : Option Perl :=
  match c.toLower with
  | 'd' => some .digit
  | 's' => some .space
  | 'w' => some .word
  | _ => none

/-- A class within ASCII. -/
def Perl.ascii : Perl → CharSet
  | .digit => .ofRange 48 57
  | .space => .ofList [(9, 13), (32, 32)]
  | .word => .ofList [(48, 57), (65, 90), (95, 95), (97, 122)]

/-- A class in all of Unicode. -/
def Perl.unicode : Perl → CharSet
  | .digit => .ofCategories ["Nd"]
  | .space => .whiteSpace
  | .word =>
    (CharSet.alphabetic.union (.ofCategories ["Mn", "Mc", "Me", "Nd", "Pc"])).union .joinControl

/-- The class `[:name:]`. -/
def bracketClass? (name : String) : Option CharSet :=
  match name with
  | "alnum" => some (.ofList [(48, 57), (65, 90), (97, 122)])
  | "alpha" => some (.ofList [(65, 90), (97, 122)])
  | "ascii" => some (.ofRange 0 127)
  | "blank" => some (.ofList [(9, 9), (32, 32)])
  | "cntrl" => some (.ofList [(0, 31), (127, 127)])
  | "digit" => some (.ofRange 48 57)
  | "graph" => some (.ofRange 33 126)
  | "lower" => some (.ofRange 97 122)
  | "print" => some (.ofRange 32 126)
  | "punct" => some (.ofList [(33, 47), (58, 64), (91, 96), (123, 126)])
  | "space" => some (.ofList [(9, 13), (32, 32)])
  | "upper" => some (.ofRange 65 90)
  | "word" => some (.ofList [(48, 57), (65, 90), (95, 95), (97, 122)])
  | "xdigit" => some (.ofList [(48, 57), (65, 70), (97, 102)])
  | _ => none

/-! ### Unicode properties -/

/-- What follows an `is` at the very beginning of a name. -/
def afterIs? : List Char → Option (List Char)
  | a :: b :: rest => if a.toLower == 'i' && b.toLower == 's' then some rest else none
  | _ => none

/-- The characters by which names are compared: those of ASCII in lower case,
without blanks, underscores and hyphens. -/
def foldName (name : List Char) : List Char :=
  (name.filter fun c =>
    c.toNat < 0x80 && !(c == ' ' || c == '_' || c == '-')).map Char.toLower

/-- A property name as it is compared. An `is` before a name means nothing, but
`isc` is a name of its own. -/
def propertyKey (name : String) : String :=
  match afterIs? name.toList with
  | some rest =>
    let key := foldName rest
    if key == ['c'] then "isc" else String.ofList key
  | none => String.ofList (foldName name.toList)

/-- The characters of a general category or a group of them. -/
def categoryClass? (key : String) : Option CharSet :=
  match key with
  | "any" => some .full
  | "ascii" => some (.ofRange 0 127)
  | "assigned" => some (CharSet.ofCategories ["Cn"]).compl
  | _ => (categories? key).map CharSet.ofCategories

/-- The class `\p\x7bname\x7d`. -/
def propertyClass? (name : String) : Option CharSet :=
  let key := propertyKey name
  CharSet.ofProperty? key <|> categoryClass? key <|> CharSet.ofScript? key

/-- The class `\p\x7bproperty=value\x7d`. -/
def propertyValueClass? (property value : String) : Option CharSet :=
  let key := propertyKey value
  match propertyKey property with
  | "generalcategory" | "gc" => categoryClass? key
  | "script" | "sc" => CharSet.ofScript? key
  | "scriptextensions" | "scx" => CharSet.ofScriptExtensions? key
  | "age" => CharSet.ofAge? key
  | "graphemeclusterbreak" | "gcb" => CharSet.ofGraphemeBreak? key
  | "wordbreak" | "wb" => CharSet.ofWordBreak? key
  | "sentencebreak" | "sb" => CharSet.ofSentenceBreak? key
  | _ => none

end DomQuery.Pattern
