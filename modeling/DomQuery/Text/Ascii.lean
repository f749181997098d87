/-!
# ASCII text

Markup, selectors and attribute values agree on the ASCII part of text only:
case folds in `A`–`Z`, five characters separate words, and everything beyond
ASCII is compared as written. The operations here stay within that part;
`isWhite` and `trim` are the exceptions, they know the white space of all of
Unicode.
-/

namespace DomQuery.Text

/-- The five characters that separate words: tab, line feed, form feed,
carriage return and space. -/
def isSpace (c : Char) : Bool :=
  c == ' ' || c == '\t' || c == '\n' || c == '\x0c' || c == '\r'

/-- The characters that end a line of a style sheet. -/
def isNewline (c : Char) : Bool :=
  c == '\n' || c == '\r' || c == '\x0c'

/-- `text` with `A`–`Z` replaced by `a`–`z`. -/
def lower (text : String) : String :=
  text.map Char.toLower

/-- Equality up to ASCII case. -/
def eqFold (s t : String) : Bool :=
  lower s == lower t

/-- `cs` cut at every character that satisfies `p`; one more piece than there
are cuts. -/
def cut (p : Char → Bool) : List Char → List (List Char)
  | [] => [[]]
  | c :: cs =>
    if p c then [] :: cut p cs
    else
      match cut p cs with
      | [] => [[c]]
      | piece :: pieces => (c :: piece) :: pieces

/-- The maximal runs of `cs` that hold no separator. -/
def wordsOf (cs : List Char) : List (List Char) :=
  (cut isSpace cs).filter fun piece => !piece.isEmpty

/-- The words of `text`, in order and with repetitions. -/
def words (text : String) : List String :=
  (wordsOf text.toList).map String.ofList

/-- `text` before and after the first `c`. -/
def splitOnce (c : Char) (text : String) : Option (String × String) :=
  match text.toList.span (· != c) with
  | (_, []) => none
  | (before, _ :: after) => some (String.ofList before, String.ofList after)

/-- `text` cut at every `c`. -/
def splitAt (c : Char) (text : String) : List String :=
  (cut (· == c) text.toList).map String.ofList

/-- The characters with the Unicode property `White_Space`. -/
def isWhite (c : Char) : Bool :=
  let n := c.toNat
  (9 ≤ n && n ≤ 13) || n == 0x20 || n == 0x85 || n == 0xA0 || n == 0x1680 ||
    (0x2000 ≤ n && n ≤ 0x200A) || n == 0x2028 || n == 0x2029 || n == 0x202F ||
    n == 0x205F || n == 0x3000

/-- `text` without the white space at its ends. -/
def trim (text : String) : String :=
  let cs := text.toList.dropWhile isWhite
  String.ofList (cs.reverse.dropWhile isWhite).reverse

/-- `part` occurs in `cs` as a run of neighbours. -/
def occursIn (part : List Char) : List Char → Bool
  | [] => part.isEmpty
  | c :: cs => part.isPrefixOf (c :: cs) || occursIn part cs

/-- An ASCII letter or digit. -/
def isAlnum (c : Char) : Bool :=
  c.isAlphanum

end DomQuery.Text
