import DomQuery.Pattern.Basic
import DomQuery.Pattern.Classes
import DomQuery.Pattern.Flags

/-!
# Escapes

What a backslash and the characters after it stand for in a pattern. A text
that is no escape reads as `none`.
-/

namespace DomQuery.Pattern

open DomQuery.Text

/-- A literal, a class or an assertion. `byte` marks a literal written with two
hexadecimal digits, which is a byte where Unicode is off. -/
inductive Atom where
  | literal (c : Char) (byte : Bool)
  | set (s : CharSet)
  | look (l : Look)
  | dot

def hexDigit? (c : Char) : Option Nat :=
  if c.isDigit then some (c.toNat - 48)
  else if 'a' ≤ c && c ≤ 'f' then some (c.toNat - 87)
  else if 'A' ≤ c && c ≤ 'F' then some (c.toNat - 55)
  else none

/-- The character with number `n`, if there is one. -/
def charWithCode? (n : Nat) : Option Char :=
  if n.isValidChar then some (Char.ofNat n) else none

/-- Exactly `count` more hexadecimal digits. -/
def readHexDigits (flags : Flags) : Nat → Nat → List Char → Option (Nat × List Char)
  | 0, value, cs => some (value, cs)
  | _ + 1, _, [] => none
  | count + 1, value, c :: cs =>
    match hexDigit? c with
    | some d => readHexDigits flags count (16 * value + d) (flags.skip cs)
    | none => none

/-- Hexadecimal digits up to a closing brace; `value` is `none` before the
first of them. -/
def readHexBraced (flags : Flags) : Nat → Option Nat → List Char → Option (Nat × List Char)
  | 0, _, _ => none
  | _ + 1, _, [] => none
  | fuel + 1, value, c :: cs =>
    if c == '\x7d' then value.map fun n => (n, flags.skip cs)
    else
      match hexDigit? c with
      | some d => readHexBraced flags fuel (some (16 * value.getD 0 + d)) (flags.skip cs)
      | none => none

/-- The character after `\x`, `\u` or `\U`, with `digits` digits or braces. -/
def readHex (flags : Flags) (digits : Nat) (cs : List Char) : Option (Atom × List Char) := do
  match flags.skip cs with
  | '\x7b' :: rest =>
    let (n, rest) ← readHexBraced flags (rest.length + 1) none (flags.skip rest)
    return (.literal (← charWithCode? n) false, rest)
  | cs =>
    let (n, rest) ← readHexDigits flags digits 0 cs
    return (.literal (← charWithCode? n) (digits == 2), rest)

/-- The characters up to a closing brace. -/
def readBraced (flags : Flags) : Nat → List Char → Option (List Char × List Char)
  | 0, _ => none
  | _ + 1, [] => none
  | fuel + 1, c :: cs =>
    if c == '\x7d' then some ([], cs)
    else (readBraced flags fuel (flags.skip cs)).map fun (name, rest) => (c :: name, rest)

/-- `text` before and after the first occurrence of `mark`. -/
def splitMark (mark : List Char) : List Char → Option (List Char × List Char)
  | [] => none
  | c :: cs =>
    if mark.isPrefixOf (c :: cs) then some ([], (c :: cs).drop mark.length)
    else (splitMark mark cs).map fun (before, after) => (c :: before, after)

/-- The class that stands between the braces of `\p`, and whether it is meant
to be complemented. -/
def bracedProperty? (name : List Char) : Option (CharSet × Bool) :=
  let byValue (property value : List Char) (unequal : Bool) :=
    (propertyValueClass? (String.ofList property) (String.ofList value)).map fun s => (s, unequal)
  match splitMark ['!', '='] name with
  | some (property, value) => byValue property value true
  | none =>
    match splitMark [':'] name <|> splitMark ['='] name with
    | some (property, value) => byValue property value false
    | none => (propertyClass? (String.ofList name)).map fun s => (s, false)

/-- The class after `\p` or `\P`. -/
def readProperty (flags : Flags) (negated : Bool) (cs : List Char) :
    Option (Atom × List Char) := do
  if !flags.unicode then none
  match flags.skip cs with
  | '\x7b' :: rest =>
    let (name, rest) ← readBraced flags (rest.length + 1) (flags.skip rest)
    let (s, unequal) ← bracedProperty? name
    return (.set (flags.finish (negated != unequal) s), rest)
  | '\\' :: _ => none
  | c :: rest => return (.set (flags.finish negated (← propertyClass? c.toString)), flags.skip rest)
  | [] => none

/-- A class of a backslash and a letter. Without Unicode its complement would
hold parts of characters, which no pattern may. -/
def perlClass (flags : Flags) (perl : Perl) (negated : Bool) : Option Atom :=
  let s := if flags.unicode then perl.unicode else perl.ascii
  if negated then (if flags.unicode then some (.set s.compl) else none) else some (.set s)

/-- Characters that may always be escaped. -/
def isMeta (c : Char) : Bool :=
  ("\\.+*?()|[]\x7b\x7d^$#&-~").toList.contains c

/-- ASCII characters whose escape means themselves. -/
def isEscapable (c : Char) : Bool :=
  isMeta c || (c.toNat < 0x80 && !c.isAlphanum && c != '<' && c != '>')

/-- A condition on words, if it can be tested. -/
def wordLook (flags : Flags) (l : Look) : Atom :=
  .look (if flags.unicode then .unicodeWord else l)

def isNameOfBoundary (c : Char) : Bool :=
  c.isAlpha || c == '-'

/-- The letters of a named boundary. -/
def readBoundaryName (flags : Flags) : Nat → List Char → List Char × List Char
  | 0, cs => ([], cs)
  | _ + 1, [] => ([], [])
  | fuel + 1, c :: cs =>
    if isNameOfBoundary c then
      let (name, rest) := readBoundaryName flags fuel (flags.skip cs)
      (c :: name, rest)
    else ([], c :: cs)

/-- What follows `\b`: a name in braces, unless the braces hold a count. -/
def readBoundary (flags : Flags) (cs : List Char) : Option (Atom × List Char) :=
  match cs with
  | '\x7b' :: inner =>
    match flags.skip inner with
    | [] => none
    | c :: _ =>
      if isNameOfBoundary c then
        let (name, rest) := readBoundaryName flags inner.length (flags.skip inner)
        match rest with
        | '\x7d' :: rest =>
          match String.ofList name with
          | "start" => some (wordLook flags .wordStart, rest)
          | "end" => some (wordLook flags .wordEnd, rest)
          | "start-half" => some (wordLook flags .wordStartHalf, rest)
          | "end-half" => some (wordLook flags .wordEndHalf, rest)
          | _ => none
        | _ => none
      else some (wordLook flags .wordBoundary, cs)
  | _ => some (wordLook flags .wordBoundary, cs)

/-- What follows a backslash. -/
def readEscape (flags : Flags) : List Char → Option (Atom × List Char)
  | [] => none
  | 'x' :: cs => readHex flags 2 cs
  | 'u' :: cs => readHex flags 4 cs
  | 'U' :: cs => readHex flags 8 cs
  | 'p' :: cs => readProperty flags false cs
  | 'P' :: cs => readProperty flags true cs
  | 'a' :: cs => some (.literal '\x07' false, cs)
  | 'f' :: cs => some (.literal '\x0c' false, cs)
  | 't' :: cs => some (.literal '\t' false, cs)
  | 'n' :: cs => some (.literal '\n' false, cs)
  | 'r' :: cs => some (.literal '\r' false, cs)
  | 'v' :: cs => some (.literal '\x0b' false, cs)
  | 'A' :: cs => some (.look .textStart, cs)
  | 'z' :: cs => some (.look .textEnd, cs)
  | 'b' :: cs => readBoundary flags cs
  | 'B' :: cs => some (wordLook flags .notWordBoundary, cs)
  | '<' :: cs => some (wordLook flags .wordStart, cs)
  | '>' :: cs => some (wordLook flags .wordEnd, cs)
  | c :: cs =>
    match Perl.ofLetter? c with
    | some perl => (perlClass flags perl c.isUpper).map fun atom => (atom, cs)
    | none => if isEscapable c then some (.literal c false, cs) else none

end DomQuery.Pattern
