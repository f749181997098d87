import DomQuery.Markup.Tag

/-!
# Comments and document types

What begins with `<!`. A comment ends at `-->` and a few misspellings of it; a
declaration of another kind is read as a comment that ends at `>`.
-/

namespace DomQuery.Markup

open DomQuery.Text

/-- What was read last in a comment, as far as it may be a part of its end. -/
inductive CommentState where
  | start
  | startDash
  | inside
  | dash
  | dashes
  | bang
deriving DecidableEq, Repr

/-- Reads a comment from behind `<!--`: its text, and what follows it. -/
def readComment (s : CommentState) (read : List Char) : List Char → List Char × List Char
  | [] => (read.reverse, [])
  | c :: rest =>
    match s, c with
    | .start, '-' => readComment .startDash read rest
    | .start, '>' | .startDash, '>' | .dashes, '>' | .bang, '>' => (read.reverse, rest)
    | .startDash, '-' | .dash, '-' => readComment .dashes read rest
    | .inside, '-' => readComment .dash read rest
    | .dashes, '-' => readComment .dashes ('-' :: read) rest
    | .dashes, '!' => readComment .bang read rest
    | .bang, '-' => readComment .dash ('!' :: '-' :: '-' :: read) rest
    | .start, c | .inside, c => readComment .inside (visible c :: read) rest
    | .startDash, c | .dash, c => readComment .inside (visible c :: '-' :: read) rest
    | .dashes, c => readComment .inside (visible c :: '-' :: '-' :: read) rest
    | .bang, c => readComment .inside (visible c :: '!' :: '-' :: '-' :: read) rest

/-- Reads what is taken for a comment, up to `>`. -/
def readBogusComment (cs : List Char) : Token × List Char :=
  let (text, rest) := cs.span (· != '>')
  (.comment (String.ofList (text.map visible)), rest.drop 1)

/-! ### Document types -/

/-- `cs` behind `word`, in any case of letters. -/
def dropWord? (word : String) (cs : List Char) : Option (List Char) :=
  if eqFold (String.ofList (cs.take word.length)) word then some (cs.drop word.length) else none

/-- Reads a quoted identifier: the identifier, whether it was closed, and what
follows it. A `>` ends it as well. -/
def readIdentifier (quote : Char) (cs : List Char) : String × Bool × List Char :=
  let (id, rest) := cs.span fun c => c != quote && c != '>'
  let id := String.ofList (id.map visible)
  match rest with
  | c :: after => if c == quote then (id, true, after) else (id, false, rest)
  | [] => (id, false, [])

/-- A declaration that goes wrong at `cs`. -/
def brokenAt (d : Doctype) (cs : List Char) : Doctype × List Char :=
  ({ d with isBroken := true }, (cs.dropWhile (· != '>')).drop 1)

/-- Reads the end of a declaration. What stands there without need is ignored;
the end of the text is not. -/
def readDoctypeEnd (d : Doctype) (cs : List Char) : Doctype × List Char :=
  match cs.dropWhile isSpace with
  | [] => ({ d with isBroken := true }, [])
  | rest => (d, (rest.dropWhile (· != '>')).drop 1)

/-- Reads the system identifier; `isNeeded` when it may not be missing. -/
def readSystemId (isNeeded : Bool) (d : Doctype) (cs : List Char) : Doctype × List Char :=
  match cs.dropWhile isSpace with
  | '>' :: rest => ({ d with isBroken := isNeeded }, rest)
  | c :: rest =>
    if c == '"' || c == '\'' then
      let (id, isClosed, rest) := readIdentifier c rest
      let d := { d with systemId := some id }
      if isClosed then readDoctypeEnd d rest else brokenAt d rest
    else brokenAt d (c :: rest)
  | [] => brokenAt d []

def readPublicId (d : Doctype) (cs : List Char) : Doctype × List Char :=
  match cs.dropWhile isSpace with
  | c :: rest =>
    if c == '"' || c == '\'' then
      let (id, isClosed, rest) := readIdentifier c rest
      let d := { d with publicId := some id }
      if isClosed then readSystemId false d rest else brokenAt d rest
    else brokenAt d (c :: rest)
  | [] => brokenAt d []

/-- Reads a document type from behind the word `doctype`. -/
def readDoctype (cs : List Char) : Doctype × List Char :=
  match cs.dropWhile isSpace with
  | [] => brokenAt {} []
  | '>' :: rest => ({ isBroken := true }, rest)
  | cs =>
    let (name, rest) := cs.span fun c => !isSpace c && c != '>'
    let d : Doctype := { name := some (nameOf name) }
    match rest.dropWhile isSpace with
    | '>' :: rest => (d, rest)
    | rest =>
      match dropWord? "public" rest, dropWord? "system" rest with
      | some rest, _ => readPublicId d rest
      | _, some rest => readSystemId true d rest
      | _, _ => brokenAt d rest

/-- Reads what follows `<!`. Sections of character data exist inside of `foreign`
elements only. -/
def readDeclaration (foreign : Bool) (cs : List Char) : List Token × List Char :=
  match dropWord? "--" cs with
  | some rest =>
    let (text, rest) := readComment .start [] rest
    ([.comment (String.ofList text)], rest)
  | none =>
    match dropWord? "doctype" cs with
    | some rest =>
      let (d, rest) := readDoctype rest
      ([.doctype d], rest)
    | none =>
      if foreign && "[CDATA[".toList.isPrefixOf cs then
        let (text, rest) := readSection [] (cs.drop 7)
        (textTokens text, rest)
      else
        let (comment, rest) := readBogusComment cs
        ([comment], rest)
where
  /-- Reads a section of character data up to its end. -/
  readSection (read : List Char) : List Char → List Char × List Char
    | ']' :: ']' :: '>' :: rest => (read.reverse, rest)
    | c :: rest => readSection (c :: read) rest
    | [] => (read.reverse, [])

/-! ### Modes of rendering -/

/-- Public identifiers of document types that ask for the old mode. -/
def oldPublicIds : List String :=
  ["-//w3o//dtd w3 html strict 3.0//en//", "-/w3c/dtd html 4.0 transitional/en", "html"]

/-- What public identifiers of document types begin with that ask for the old
mode. -/
def oldPublicStarts : List String := [
  "-//as//dtd html 3.0 aswedit + extensions//",
  "-//advasoft ltd//dtd html 3.0 aswedit + extensions//",
  "-//ietf//dtd html 2.0 level 1//",
  "-//ietf//dtd html 2.0 level 2//",
  "-//ietf//dtd html 2.0 strict level 1//",
  "-//ietf//dtd html 2.0 strict level 2//",
  "-//ietf//dtd html 2.0 strict//",
  "-//ietf//dtd html 2.0//",
  "-//ietf//dtd html 2.1e//",
  "-//ietf//dtd html 3.0//",
  "-//ietf//dtd html 3.2 final//",
  "-//ietf//dtd html 3.2//",
  "-//ietf//dtd html 3//",
  "-//ietf//dtd html level 0//",
  "-//ietf//dtd html level 1//",
  "-//ietf//dtd html level 2//",
  "-//ietf//dtd html level 3//",
  "-//ietf//dtd html strict level 0//",
  "-//ietf//dtd html strict level 1//",
  "-//ietf//dtd html strict level 2//",
  "-//ietf//dtd html strict level 3//",
  "-//ietf//dtd html strict//",
  "-//ietf//dtd html//",
  "-//metrius//dtd metrius presentational//",
  "-//microsoft//dtd internet explorer 2.0 html strict//",
  "-//microsoft//dtd internet explorer 2.0 html//",
  "-//microsoft//dtd internet explorer 2.0 tables//",
  "-//microsoft//dtd internet explorer 3.0 html strict//",
  "-//microsoft//dtd internet explorer 3.0 html//",
  "-//microsoft//dtd internet explorer 3.0 tables//",
  "-//netscape comm. corp.//dtd html//",
  "-//netscape comm. corp.//dtd strict html//",
  "-//o'reilly and associates//dtd html 2.0//",
  "-//o'reilly and associates//dtd html extended 1.0//",
  "-//o'reilly and associates//dtd html extended relaxed 1.0//",
  "-//sq//dtd html 2.0 hotmetal + extensions//",
  "-//softquad software//dtd hotmetal pro 6.0::19990601::extensions to html 4.0//",
  "-//softquad//dtd hotmetal pro 4.0::19971010::extensions to html 4.0//",
  "-//spyglass//dtd html 2.0 extended//",
  "-//sun microsystems corp.//dtd hotjava html//",
  "-//sun microsystems corp.//dtd hotjava strict html//",
  "-//w3c//dtd html 3 1995-03-24//",
  "-//w3c//dtd html 3.2 draft//",
  "-//w3c//dtd html 3.2 final//",
  "-//w3c//dtd html 3.2//",
  "-//w3c//dtd html 3.2s draft//",
  "-//w3c//dtd html 4.0 frameset//",
  "-//w3c//dtd html 4.0 transitional//",
  "-//w3c//dtd html experimental 19960712//",
  "-//w3c//dtd html experimental 970421//",
  "-//w3c//dtd w3 html//",
  "-//w3o//dtd w3 html 3.0//",
  "-//webtechs//dtd mozilla html 2.0//",
  "-//webtechs//dtd mozilla html//"]

/-- Like `oldPublicStarts`, but only without a system identifier. -/
def oldPublicStartsAlone : List String :=
  ["-//w3c//dtd html 4.01 frameset//", "-//w3c//dtd html 4.01 transitional//"]

/-- The system identifier that asks for the old mode, less its scheme. -/
def oldSystemId : String :=
  "//www.ibm.com/data/dtd/v11/ibmxhtml1-transitional.dtd"

/-- `id` begins with one of `starts`. -/
def beginsWithOne (starts : List String) (id : String) : Bool :=
  starts.any fun start => start.toList.isPrefixOf id.toList

/-- The page is to be treated like pages from before the standard. -/
def Doctype.isOld (d : Doctype) : Bool :=
  let publicId := (d.publicId.map lower).getD ""
  d.isBroken || d.name != some "html" ||
    oldPublicIds.contains publicId || beginsWithOne oldPublicStarts publicId ||
    d.systemId.map lower == some ("http:" ++ oldSystemId) ||
    (d.systemId.isNone && beginsWithOne oldPublicStartsAlone publicId)

end DomQuery.Markup
