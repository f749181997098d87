import DomQuery.Markup.Declaration

/-!
# Cutting up pages

What a text means depends on the element it stands in. Most elements hold
markup; some hold text up to their end tag, with references or without; scripts
hide their end tag in comments; and one element has no end.
-/

namespace DomQuery.Markup

open DomQuery.Text

/-- How a text is to be read. -/
inductive Content where
  | markup
  /-- Text with references, up to the end tag of this name. -/
  | text (name : String)
  /-- Text without references, up to the end tag of this name. -/
  | rawText (name : String)
  /-- A script, up to its end tag. -/
  | script
  /-- Text to the end of the page. -/
  | plain
deriving DecidableEq, Repr

/-- `cs` stands behind `</`, and goes on with an end tag of this name. -/
def isEndTag (name : String) (cs : List Char) : Bool :=
  match dropWord? name cs with
  | some (c :: _) => isSpace c || c == '/' || c == '>'
  | _ => false

/-- Cuts `cs` in front of the end tag of this name. -/
def spanText (name : String) : List Char → List Char × List Char
  | [] => ([], [])
  | c :: rest =>
    let isEnd := match c, rest with
      | '<', '/' :: rest => isEndTag name rest
      | _, _ => false
    if isEnd then ([], c :: rest)
    else
      let (text, after) := spanText name rest
      (c :: text, after)

/-! ### Scripts -/

/-- How deep a script is in a comment. -/
inductive ScriptDepth where
  | outside
  /-- In a comment; its last characters are so many hyphens, two at most. -/
  | comment (dashes : Nat)
  /-- In a comment, and in what looks like a script there. -/
  | nested (dashes : Nat)
deriving DecidableEq, Repr

/-- The depth after one more character. -/
def ScriptDepth.next (d : ScriptDepth) (c : Char) : ScriptDepth :=
  match d with
  | .outside => .outside
  | .comment n =>
    if c == '-' then .comment (min 2 (n + 1))
    else if c == '>' && n == 2 then .outside
    else .comment 0
  | .nested n =>
    if c == '-' then .nested (min 2 (n + 1))
    else if c == '>' && n == 2 then .outside
    else .nested 0

/-- The word that `cs` begins with is one that ends a tag name. -/
def wordAhead? (cs : List Char) : Option (String × Nat) :=
  let word := cs.takeWhile Char.isAlpha
  match cs.drop word.length with
  | c :: _ =>
    if isSpace c || c == '/' || c == '>' then some (lower (String.ofList word), word.length + 1)
    else none
  | [] => none

/-- The depth after `<`, and how many more characters belong to it; `rest`
follows. -/
def ScriptDepth.afterBracket (d : ScriptDepth) (rest : List Char) : ScriptDepth × Nat :=
  match d with
  | .outside => if "!--".toList.isPrefixOf rest then (.comment 2, 3) else (.outside, 0)
  | .comment _ =>
    if rest.head?.any Char.isAlpha then
      match wordAhead? rest with
      | some (word, n) => (if word == "script" then .nested 0 else .comment 0, n)
      | none => (.comment 0, 0)
    else (.comment 0, 0)
  | .nested _ =>
    match rest with
    | '/' :: rest =>
      match wordAhead? rest with
      | some (word, n) => (if word == "script" then .comment 0 else .nested 0, n + 1)
      | none => (.nested 0, 1)
    | _ => (.nested 0, 0)

/-- Cuts `cs` in front of the end tag of a script. The first `skip` characters
are known to belong to it. -/
def spanScript (d : ScriptDepth) (skip : Nat) : List Char → List Char × List Char
  | [] => ([], [])
  | c :: rest =>
    let keep (r : List Char × List Char) := (c :: r.1, r.2)
    match skip with
    | skip + 1 => keep (spanScript d skip rest)
    | 0 =>
      if c == '<' then
        let isEnd := match d, rest with
          | .nested _, _ => false
          | _, '/' :: rest => isEndTag "script" rest
          | _, _ => false
        if isEnd then ([], c :: rest)
        else
          let (d, skip) := d.afterBracket rest
          keep (spanScript d skip rest)
      else keep (spanScript (d.next c) 0 rest)

/-! ### Tokens -/

/-- The tokens of a text with references. A number without its semicolon at the
beginning is a mistake. -/
def referenceTokens (cs : List Char) : List Token :=
  let tokens := textTokens (decodeReferences false cs)
  if beginsUnclosed cs then .mistake :: tokens else tokens

/-- Reads what follows `<`. -/
def readMarkup (foreign : Bool) (cs : List Char) : List Token × List Char :=
  let tag (isStart : Bool) (cs : List Char) :=
    match readTag isStart cs with
    | some (t, rest) => ([Token.tag t], rest)
    | none => ([], [])
  let bogus (cs : List Char) :=
    let (comment, rest) := readBogusComment cs
    ([comment], rest)
  match cs with
  | '/' :: '>' :: rest => ([.mistake], rest)
  | ['/'] => (textTokens ['<', '/'], [])
  | '/' :: c :: rest => if c.isAlpha then tag false (c :: rest) else bogus (c :: rest)
  | '!' :: rest => readDeclaration foreign rest
  | '?' :: _ => bogus cs
  | c :: _ => if c.isAlpha then tag true cs else (textTokens ['<'], cs)
  | [] => (textTokens ['<'], [])

/-- The end tag that `cs` begins with, and what follows it. -/
def readEndTag (cs : List Char) : List Token × List Char :=
  match cs with
  | '<' :: '/' :: rest =>
    match readTag false rest with
    | some (t, rest) => ([.tag t], rest)
    | none => ([], [])
  | _ => ([], cs)

/-- Reads text and the end tag behind it. -/
def readText (tokens : List Char → List Token) (parts : List Char × List Char) :
    List Token × List Char :=
  let (endTag, rest) := readEndTag parts.2
  (tokens parts.1 ++ endTag, rest)

/-- The tokens of a text without references. -/
def rawTokens (cs : List Char) : List Token :=
  textTokens (cs.map visible)

/-- Reads the next tokens: a piece of markup or a text in front of one, or all
that an element with text holds, together with its end tag. -/
def readTokens (content : Content) (foreign : Bool) (cs : List Char) : List Token × List Char :=
  match content with
  | .markup =>
    match cs with
    | '<' :: rest => readMarkup foreign rest
    | _ =>
      let (text, rest) := cs.span (· != '<')
      (referenceTokens text, rest)
  | .text name => readText (fun cs => referenceTokens (cs.map visible)) (spanText name cs)
  | .rawText name => readText rawTokens (spanText name cs)
  | .script => readText rawTokens (spanScript .outside 0 cs)
  | .plain => (rawTokens cs, [])

end DomQuery.Markup
