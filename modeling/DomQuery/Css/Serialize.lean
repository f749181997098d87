import DomQuery.Css.Lexer
import DomQuery.Number.Digits

/-!
# Writing tokens

Text for identifiers, strings and whole tokens that reads back as the same
token. Numbers are written with at most six significant digits, the way a
browser shows them in a message, and an integral value that was written with a
point or an exponent keeps a `.0`.
-/

namespace DomQuery.Css

open DomQuery.Number

/-- `n` in hexadecimal between a backslash and a blank. -/
def hexEscape (c : Char) : List Char :=
  '\\' :: Nat.toDigits 16 c.toNat ++ [' ']

def isControl (c : Char) : Bool :=
  c.toNat < 0x20 || c.toNat == 0x7F

/-- A character inside a name: itself or an escape of it. -/
def nameChar (c : Char) : List Char :=
  if c == '\x00' then [replacement]
  else if isNameChar c then [c]
  else if isControl c then hexEscape c
  else ['\\', c]

/-- The tail of an identifier or a whole hash name. -/
def serializeName (name : List Char) : List Char :=
  name.flatMap nameChar

/-- A digit is escaped where an identifier would begin with it. -/
def serializeStart : List Char → List Char
  | [] => []
  | c :: cs => if c.isDigit then hexEscape c ++ serializeName cs else serializeName (c :: cs)

/-- An identifier that reads back as `name`; nothing for the empty name. -/
def identifierChars : List Char → List Char
  | '-' :: '-' :: cs => '-' :: '-' :: serializeName cs
  | ['-'] => ['\\', '-']
  | '-' :: cs => '-' :: serializeStart cs
  | cs => serializeStart cs

def identifier (name : String) : String :=
  String.ofList (identifierChars name.toList)

/-- A character inside a double-quoted string. -/
def stringChar (c : Char) : List Char :=
  if c == '"' then ['\\', '"']
  else if c == '\\' then ['\\', '\\']
  else if c == '\x00' then [replacement]
  else if isControl c then hexEscape c
  else [c]

def stringBody (value : String) : String :=
  String.ofList (value.toList.flatMap stringChar)

/-- A double-quoted string that reads back as `value`. -/
def quotedString (value : String) : String :=
  "\"" ++ stringBody value ++ "\""

/-- A character inside an unquoted URL. -/
def urlChar (c : Char) : List Char :=
  if c.toNat ≤ 0x20 || c.toNat == 0x7F then hexEscape c
  else if c == '(' || c == ')' || c == '"' || c == '\'' || c == '\\' then ['\\', c]
  else [c]

namespace Numeral

/-- The value in double precision, digit by digit. -/
def toFloat (n : Numeral) : Float :=
  let whole := n.whole.foldl (fun x d => x * 10 + d.toFloat) 0.0
  let (fraction, _) := n.fraction.foldl
    (fun (x, factor) d => (x + d.toFloat * factor, factor * 0.1)) (0.0, 0.1)
  let value := (if n.isNegative then -1.0 else 1.0) * (whole + fraction)
  match n.exponent with
  | none => value
  | some (sign, digits) =>
    let e := digits.foldl (fun x d => x * 10 + d.toFloat) 0.0
    value * Float.pow 10.0 ((if sign == .minus then -1.0 else 1.0) * e)

end Numeral

/-- A decimal text in three parts. -/
structure DecimalLayout where
  whole : List Nat
  fraction : List Nat
  exponent : Option Int
deriving DecidableEq, Repr

/-- Where the point goes: digits `ds`, the point `place` digits to the right of
their start. Small and large numbers get an exponent. -/
def layOut (ds : List Nat) (place : Int) : DecimalLayout :=
  let count : Int := ds.length
  if count ≤ place && place ≤ 21 then ⟨ds ++ List.replicate (place - count).toNat 0, [], none⟩
  else if 0 < place && place ≤ 21 then ⟨ds.take place.toNat, ds.drop place.toNat, none⟩
  else if -6 < place && place ≤ 0 then ⟨[0], List.replicate (-place).toNat 0 ++ ds, none⟩
  else ⟨ds.take 1, ds.drop 1, some (place - 1)⟩

/-- The digits of `n`, with leading zeros up to `width`. -/
def digitsOf (width n : Nat) : List Nat :=
  let ds := (Nat.toDigits 10 n).map fun c => c.toNat - 48
  List.replicate (width - ds.length) 0 ++ ds

/-- At most `precision` significant digits; a half goes up. Zeros at the end of
the fraction are dropped. -/
def DecimalLayout.round (precision : Nat) (t : DecimalLayout) : DecimalLayout :=
  let digits := t.whole ++ t.fraction
  let excess := (digits.dropWhile (· == 0)).length - precision
  let n := Numeral.valueOf digits
  let unit := Nat.pow 10 excess
  let rounded := if excess == 0 then n else (n + unit / 2) / unit * unit
  let width := t.fraction.length
  let scale := Nat.pow 10 width
  let fraction := if width == 0 then [] else digitsOf width (rounded % scale)
  ⟨digitsOf 1 (rounded / scale), (fraction.reverse.dropWhile (· == 0)).reverse, t.exponent⟩

def DecimalLayout.text (t : DecimalLayout) : String :=
  let digits (ds : List Nat) := String.ofList (ds.map fun d => Char.ofNat (48 + d))
  let point := if t.fraction.isEmpty then "" else "." ++ digits t.fraction
  let scale := match t.exponent with
    | none => ""
    | some e => "e" ++ toString e
  digits t.whole ++ point ++ scale

/-- The text of a single-precision value. `written` holds when the number was
written as an integer. -/
def numberText (value : Float32) (signed integral : Bool) : String :=
  let bits := value.toBits
  let negative := bits.toNat >>> 31 == 1
  let b := Binary.ofBits32 bits
  let sign := if signed && !negative then "+" else ""
  if b.mantissa == 0 then
    sign ++ (if negative then "-0" else "0") ++ (if integral then "" else ".0")
  else
    let (n, k) := dropZeros 10 b.toDecimal.1 b.toDecimal.2
    let ds := digitsOf 1 n
    let t := (layOut ds (ds.length + k)).round 6
    let bare := t.fraction.isEmpty && t.exponent.isNone
    sign ++ (if negative then "-" else "") ++ t.text ++
      (if !integral && b.isInteger && bare then ".0" else "")

def Numeral.text (n : Numeral) : String :=
  numberText n.toFloat.toFloat32 n.sign.isSome n.isInteger

/-- A percentage is kept as a fraction of one and multiplied back. -/
def Numeral.percentText (n : Numeral) : String :=
  numberText ((n.toFloat / 100.0).toFloat32 * (100.0 : Float32)) n.sign.isSome n.isInteger

/-- A unit after a number. One that could be taken for an exponent begins with
an escape. -/
def unitText (unit : String) : String :=
  match unit.toList with
  | e :: cs =>
    if (e == 'e' || e == 'E') && (cs.isEmpty || cs.head? == some '-') then
      "\\65 " ++ String.ofList (serializeName cs)
    else identifier unit
  | [] => ""

/-- The text of a token. -/
def Token.text : Token → String
  | .ident name => identifier name
  | .atKeyword name => "@" ++ identifier name
  | .hash name => "#" ++ String.ofList (serializeName name.toList)
  | .idHash name => "#" ++ identifier name
  | .quoted value => quotedString value
  | .badString value => "\"" ++ stringBody value
  | .url value => "url(" ++ String.ofList (value.toList.flatMap urlChar) ++ ")"
  | .badUrl contents => "url(" ++ contents ++ ")"
  | .delim c => c.toString
  | .number value => value.text
  | .percentage value => value.percentText ++ "%"
  | .dimension value unit => value.text ++ unitText unit
  | .whitespace text => text
  | .comment text => "/*" ++ text ++ "*/"
  | .colon => ":"
  | .semicolon => ";"
  | .comma => ","
  | .includeMatch => "~="
  | .dashMatch => "|="
  | .prefixMatch => "^="
  | .suffixMatch => "$="
  | .substringMatch => "*="
  | .commentOpen => "<!--"
  | .commentClose => "-->"
  | .function name => identifier name ++ "("
  | .openParen => "("
  | .openSquare => "["
  | .openCurly => "\x7b"
  | .closeParen => ")"
  | .closeSquare => "]"
  | .closeCurly => "\x7d"

end DomQuery.Css
