/-!
# Tokens of style sheet text

The lexical units in which a selector is read: identifiers, hashes, strings,
numbers with an optional unit, punctuation and brackets. Escapes are already
resolved in names and strings. A number keeps the digits it was written with;
its integer value is exact and saturates at the ends of the 32-bit range.
-/

namespace DomQuery.Css

/-- A written sign. -/
inductive Sign where
  | plus
  | minus
deriving DecidableEq, Repr

/-- A number as written: sign, digits before and after the point, exponent. -/
structure Numeral where
  sign : Option Sign
  whole : List Nat
  /-- Digits after the point; empty when no point was written. -/
  fraction : List Nat
  exponent : Option (Sign × List Nat)
deriving DecidableEq, Repr

namespace Numeral

/-- The value of a digit string in base ten. -/
def valueOf (digits : List Nat) : Nat :=
  digits.foldl (fun n d => 10 * n + d) 0

def isNegative (n : Numeral) : Bool :=
  n.sign == some .minus

/-- Neither a point nor an exponent was written. -/
def isInteger (n : Numeral) : Bool :=
  n.fraction.isEmpty && n.exponent.isNone

/-- `i` moved to the nearer end of the 32-bit range when it lies outside. -/
def saturate (i : Int) : Int :=
  max (-2147483648) (min 2147483647 i)

/-- The integer value, for numbers written without point and exponent. -/
def int? (n : Numeral) : Option Int :=
  if n.isInteger then
    let magnitude : Int := valueOf n.whole
    some (saturate (if n.isNegative then -magnitude else magnitude))
  else none

end Numeral

/-- A token. Brackets that open a block come with their names: `function f`
stands for `f(`. -/
inductive Token where
  | ident (name : String)
  | atKeyword (name : String)
  /-- `#` and a name that is no identifier, such as `#1a`. -/
  | hash (name : String)
  | idHash (name : String)
  | quoted (value : String)
  /-- A string cut off by the end of its line. -/
  | badString (value : String)
  /-- `url(…)` without quotes. -/
  | url (value : String)
  | badUrl (contents : String)
  | delim (c : Char)
  | number (value : Numeral)
  | percentage (value : Numeral)
  | dimension (value : Numeral) (unit : String)
  | whitespace (text : String)
  | comment (text : String)
  | colon
  | semicolon
  | comma
  /-- `~=` -/
  | includeMatch
  /-- `|=` -/
  | dashMatch
  /-- `^=` -/
  | prefixMatch
  /-- `$=` -/
  | suffixMatch
  /-- `*=` -/
  | substringMatch
  /-- `<!--` -/
  | commentOpen
  /-- `-->` -/
  | commentClose
  | function (name : String)
  | openParen
  | openSquare
  | openCurly
  | closeParen
  | closeSquare
  | closeCurly
deriving DecidableEq, Repr

namespace Token

/-- The bracket that closes the block this token opens. -/
def closer? : Token → Option Token
  | .function _ => some .closeParen
  | .openParen => some .closeParen
  | .openSquare => some .closeSquare
  | .openCurly => some .closeCurly
  | _ => none

end Token

end DomQuery.Css
