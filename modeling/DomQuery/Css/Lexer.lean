import DomQuery.Css.Token
import DomQuery.Text.Ascii

/-!
# From characters to tokens

`Token.scan?` reads the token at the head of a character list, `lex` reads
them all. The pieces follow the token grammar of CSS Syntax: `scanName` for
names and their escapes, `scanQuoted` for strings, `scanNumeral` for numbers,
`scanUrl` for unquoted URLs. A NUL character inside a token reads as U+FFFD,
as does an escape that names no character.
-/

namespace DomQuery.Css

open DomQuery.Text

/-- U+FFFD, which stands for characters that cannot be kept. -/
def replacement : Char := '\uFFFD'

def isNonAscii (c : Char) : Bool :=
  0x80 ≤ c.toNat

/-- A character that may begin an identifier without an escape. -/
def isNameStart (c : Char) : Bool :=
  c.isAlpha || c == '_' || c == '\x00' || isNonAscii c

/-- A character that may continue an identifier without an escape. -/
def isNameChar (c : Char) : Bool :=
  isNameStart c || c.isDigit || c == '-'

/-- The value of a hexadecimal digit. -/
def hexValue? (c : Char) : Option Nat :=
  if c.isDigit then some (c.toNat - 48)
  else if 'a' ≤ c && c ≤ 'f' then some (c.toNat - 87)
  else if 'A' ≤ c && c ≤ 'F' then some (c.toNat - 55)
  else none

/-- The character with number `n`, if it is one that text may hold. -/
def charOf (n : Nat) : Char :=
  if n != 0 && n.isValidChar then Char.ofNat n else replacement

/-- Up to `limit` hexadecimal digits: their value and what follows. -/
def takeHex : Nat → Nat → List Char → Nat × List Char
  | 0, value, cs => (value, cs)
  | _ + 1, value, [] => (value, [])
  | limit + 1, value, c :: cs =>
    match hexValue? c with
    | some d => takeHex limit (16 * value + d) cs
    | none => (value, c :: cs)

/-- Drops one line end, two characters if it is a carriage return with its
line feed. -/
def dropNewline : List Char → List Char
  | '\r' :: '\n' :: cs => cs
  | '\r' :: cs => cs
  | '\n' :: cs => cs
  | '\x0c' :: cs => cs
  | cs => cs

/-- The character that an escape stands for; the backslash is already read.
One blank after a hexadecimal escape belongs to it. -/
def scanEscape : List Char → Char × List Char
  | [] => (replacement, [])
  | '\x00' :: cs => (replacement, cs)
  | c :: cs =>
    match hexValue? c with
    | none => (c, cs)
    | some d =>
      let (value, rest) := takeHex 5 d cs
      match rest with
      | ' ' :: rest => (charOf value, rest)
      | '\t' :: rest => (charOf value, rest)
      | rest => (charOf value, dropNewline rest)

/-- The list goes on with an end of line. -/
def startsLine : List Char → Bool
  | c :: _ => isNewline c
  | [] => false

/-- A name: name characters and escapes. `fuel` bounds the characters read. -/
def scanNameWith : Nat → List Char → List Char × List Char
  | 0, cs => ([], cs)
  | _ + 1, [] => ([], [])
  | fuel + 1, c :: cs =>
    if c == '\\' then
      if startsLine cs then ([], c :: cs)
      else
        let (d, rest) := scanEscape cs
        let (name, rest) := scanNameWith fuel rest
        (d :: name, rest)
    else if isNameChar c then
      let (name, rest) := scanNameWith fuel cs
      ((if c == '\x00' then replacement else c) :: name, rest)
    else ([], c :: cs)

/-- The name at the head of `cs`, possibly empty, and what follows it. -/
def scanName (cs : List Char) : String × List Char :=
  let (name, rest) := scanNameWith cs.length cs
  (String.ofList name, rest)

/-- An identifier begins here. After a hyphen any backslash will do, even one
that escapes nothing. -/
def startsIdent : List Char → Bool
  | '-' :: c :: _ => isNameStart c || c == '-' || c == '\\'
  | '\\' :: cs => !startsLine cs
  | c :: _ => isNameStart c
  | [] => false

/-- The rest of a string after its opening `quote`: its value, whether a line
end cut it off, and what follows. -/
def scanQuotedWith (quote : Char) : Nat → List Char → List Char × Bool × List Char
  | 0, cs => ([], true, cs)
  | _ + 1, [] => ([], true, [])
  | fuel + 1, c :: cs =>
    if c == quote then ([], true, cs)
    else if isNewline c then ([], false, c :: cs)
    else if c == '\\' then
      match cs with
      | [] => ([], true, [])
      | d :: _ =>
        if isNewline d then scanQuotedWith quote fuel (dropNewline cs)
        else
          let (e, rest) := scanEscape cs
          let (value, whole, rest) := scanQuotedWith quote fuel rest
          (e :: value, whole, rest)
    else
      let (value, whole, rest) := scanQuotedWith quote fuel cs
      ((if c == '\x00' then replacement else c) :: value, whole, rest)

def scanQuoted (quote : Char) (cs : List Char) : Token × List Char :=
  match scanQuotedWith quote (cs.length + 1) cs with
  | (value, true, rest) => (.quoted (String.ofList value), rest)
  | (value, false, rest) => (.badString (String.ofList value), rest)

/-- The text of a comment after its opening, and what follows its end. -/
def scanComment : List Char → List Char × List Char
  | [] => ([], [])
  | '*' :: '/' :: cs => ([], cs)
  | c :: cs =>
    let (text, rest) := scanComment cs
    (c :: text, rest)

/-- The decimal digits at the head of `cs`. -/
def scanDigits (cs : List Char) : List Nat × List Char :=
  let (digits, rest) := cs.span Char.isDigit
  (digits.map fun c => c.toNat - 48, rest)

/-- An optional sign. -/
def scanSign : List Char → Option Sign × List Char
  | '+' :: cs => (some .plus, cs)
  | '-' :: cs => (some .minus, cs)
  | cs => (none, cs)

def startsDigit : List Char → Bool
  | c :: _ => c.isDigit
  | [] => false

/-- A number begins here: a sign, if any, then a digit or a point with one. -/
def startsNumber (cs : List Char) : Bool :=
  match (scanSign cs).2 with
  | '.' :: rest => startsDigit rest
  | rest => startsDigit rest

/-- The exponent of a number, if one is written in full. -/
def scanExponent : List Char → Option (Sign × List Nat) × List Char
  | e :: cs =>
    if e == 'e' || e == 'E' then
      let (sign, rest) := scanSign cs
      if startsDigit rest then
        let (digits, rest) := scanDigits rest
        (some (sign.getD .plus, digits), rest)
      else (none, e :: cs)
    else (none, e :: cs)
  | [] => (none, [])

/-- A number; the caller has seen that one begins here. -/
def scanNumeral (cs : List Char) : Numeral × List Char :=
  let (sign, rest) := scanSign cs
  let (whole, rest) := scanDigits rest
  let (fraction, rest) :=
    match rest with
    | '.' :: after => if startsDigit after then scanDigits after else ([], rest)
    | _ => ([], rest)
  let (exponent, rest) := scanExponent rest
  (⟨sign, whole, fraction, exponent⟩, rest)

/-- A number with the percent sign or the unit that follows it. -/
def scanNumeric (cs : List Char) : Token × List Char :=
  let (value, rest) := scanNumeral cs
  match rest with
  | '%' :: rest => (.percentage value, rest)
  | rest =>
    if startsIdent rest then
      let (unit, rest) := scanName rest
      (.dimension value unit, rest)
    else (.number value, rest)

/-- A control character that no unquoted URL may hold. -/
def isUnprintable (c : Char) : Bool :=
  let n := c.toNat
  (1 ≤ n && n ≤ 8) || n == 0x0B || (0x0E ≤ n && n ≤ 0x1F) || n == 0x7F

/-- What follows a malformed URL: all up to its closing parenthesis is lost,
and `\)` does not close. Returns the contents and what follows. -/
def scanBadUrl : List Char → List Char × List Char
  | [] => ([], [])
  | ')' :: cs => ([], cs)
  | '\\' :: c :: cs =>
    if c == ')' || c == '\\' then
      let (text, rest) := scanBadUrl cs
      ('\\' :: c :: text, rest)
    else
      let (text, rest) := scanBadUrl (c :: cs)
      ('\\' :: text, rest)
  | c :: cs =>
    let (text, rest) := scanBadUrl cs
    (c :: text, rest)

/-- The contents of an unquoted URL from its first printable character on.
`none` marks a malformed one, and then what follows is where the fault was. -/
def scanUrlWith : Nat → List Char → Option (List Char) × List Char
  | 0, cs => (some [], cs)
  | _ + 1, [] => (some [], [])
  | fuel + 1, c :: cs =>
    if c == ')' then (some [], cs)
    else if isSpace c then
      match cs.dropWhile isSpace with
      | [] => (some [], [])
      | ')' :: rest => (some [], rest)
      | _ :: rest => (none, rest)
    else if isUnprintable c || c == '"' || c == '\'' || c == '(' then (none, cs)
    else if c == '\\' then
      if startsLine cs then (none, cs)
      else
        let (d, rest) := scanEscape cs
        let (value, rest) := scanUrlWith fuel rest
        (value.map (d :: ·), rest)
    else
      let (value, rest) := scanUrlWith fuel cs
      (value.map ((if c == '\x00' then replacement else c) :: ·), rest)

/-- What follows `url(`; `none` when a quote comes first, for then it is a
function with a string argument. -/
def scanUrl (cs : List Char) : Option (Token × List Char) :=
  match cs.dropWhile isSpace with
  | [] => some (.url "", [])
  | c :: rest =>
    if c == '"' || c == '\'' then none
    else
      match scanUrlWith (rest.length + 2) (c :: rest) with
      | (some value, rest) => some (.url (String.ofList value), rest)
      | (none, fault) =>
        let (text, after) := scanBadUrl fault
        let before := (c :: rest).take (rest.length + 1 - fault.length)
        some (.badUrl (String.ofList (before ++ text)), after)

/-- A name and, if a parenthesis follows, the function or URL it begins. -/
def scanIdentLike (cs : List Char) : Token × List Char :=
  match scanName cs with
  | (name, '(' :: rest) =>
    if eqFold name "url" then (scanUrl rest).getD (.function name, rest)
    else (.function name, rest)
  | (name, rest) => (.ident name, rest)

/-- `followed` if an equals sign comes next, else `c` alone. -/
def scanMatch (c : Char) (followed : Token) : List Char → Token × List Char
  | '=' :: cs => (followed, cs)
  | cs => (.delim c, cs)

/-- A hash: `#` is already read. -/
def scanHash (cs : List Char) : Token × List Char :=
  if startsIdent cs then
    let (name, rest) := scanName cs
    (.idHash name, rest)
  else
    match cs with
    | c :: _ =>
      if c.isDigit || c == '-' then
        let (name, rest) := scanName cs
        (.hash name, rest)
      else (.delim '#', cs)
    | [] => (.delim '#', cs)

/-- The token that begins with `c`, where `cs` follows. -/
def scanFrom (c : Char) (cs : List Char) : Token × List Char :=
  if isSpace c then
    let (blank, rest) := cs.span isSpace
    (.whitespace (String.ofList (c :: blank)), rest)
  else if startsNumber (c :: cs) then scanNumeric (c :: cs)
  else
    match c with
    | '"' => scanQuoted '"' cs
    | '\'' => scanQuoted '\'' cs
    | '#' => scanHash cs
    | '$' => scanMatch c .suffixMatch cs
    | '*' => scanMatch c .substringMatch cs
    | '^' => scanMatch c .prefixMatch cs
    | '|' => scanMatch c .dashMatch cs
    | '~' => scanMatch c .includeMatch cs
    | '(' => (.openParen, cs)
    | ')' => (.closeParen, cs)
    | '[' => (.openSquare, cs)
    | ']' => (.closeSquare, cs)
    | '\x7b' => (.openCurly, cs)
    | '\x7d' => (.closeCurly, cs)
    | ',' => (.comma, cs)
    | ':' => (.colon, cs)
    | ';' => (.semicolon, cs)
    | '-' =>
      match cs with
      | '-' :: '>' :: rest => (.commentClose, rest)
      | _ => if startsIdent (c :: cs) then scanIdentLike (c :: cs) else (.delim c, cs)
    | '/' =>
      match cs with
      | '*' :: rest =>
        let (text, rest) := scanComment rest
        (.comment (String.ofList text), rest)
      | _ => (.delim c, cs)
    | '<' =>
      match cs with
      | '!' :: '-' :: '-' :: rest => (.commentOpen, rest)
      | _ => (.delim c, cs)
    | '@' =>
      if startsIdent cs then
        let (name, rest) := scanName cs
        (.atKeyword name, rest)
      else (.delim c, cs)
    | _ => if startsIdent (c :: cs) then scanIdentLike (c :: cs) else (.delim c, cs)

/-- The first token of `cs` and what follows it. -/
def Token.scan? : List Char → Option (Token × List Char)
  | [] => none
  | c :: cs => some (scanFrom c cs)

/-- A token with the text it was read from. -/
structure Lexeme where
  token : Token
  source : List Char
deriving DecidableEq, Repr

/-- The tokens of `cs`, whose length is `size`, at most `fuel` of them. -/
def lexWith : Nat → Nat → List Char → List Lexeme
  | 0, _, _ => []
  | fuel + 1, size, cs =>
    match Token.scan? cs with
    | none => []
    | some (token, rest) =>
      let left := rest.length
      ⟨token, cs.take (size - left)⟩ :: lexWith fuel left rest

/-- All tokens of `cs`, in order. Every token takes at least one character, so
the number of characters bounds the number of tokens. -/
def lex (cs : List Char) : List Lexeme :=
  lexWith cs.length cs.length cs

end DomQuery.Css
