import DomQuery.Markup.Reference
import DomQuery.Markup.Token

/-!
# Reading tags

A tag is a name and attributes up to `>`. Values may be quoted in two ways or
not at all. A tag that the end of the text cuts off is no tag.
-/

namespace DomQuery.Markup

open DomQuery.Text

/-- The null character is not kept. -/
def visible (c : Char) : Char :=
  if c == '\x00' then replacement else c

/-- A name of a tag or an attribute. -/
def nameOf (cs : List Char) : String :=
  String.ofList (cs.map fun c => (visible c).toLower)

/-- The value that is written as `cs`. -/
def valueOf (cs : List Char) : String :=
  String.ofList ((decodeReferences true cs).map visible)

/-- Reads a value: the value and what follows it, `none` when a quote is open to
the end. `cs` follows the equals sign and white space. -/
def readValue? (cs : List Char) : Option (String × List Char) :=
  let quoted (quote : Char) (rest : List Char) :=
    match rest.span (· != quote) with
    | (_, []) => none
    | (value, _ :: rest) => some (valueOf value, rest)
  match cs with
  | '"' :: rest => quoted '"' rest
  | '\'' :: rest => quoted '\'' rest
  | _ =>
    let (value, rest) := cs.span fun c => !isSpace c && c != '>'
    some (valueOf value, rest)

/-- Reads one attribute: its name, its value, and what follows it. -/
def readAttribute? (cs : List Char) : Option ((String × String) × List Char) :=
  let (first, rest) := match cs with
    | '=' :: rest => (['='], rest)
    | _ => ([], cs)
  let (name, rest) := rest.span fun c => !isSpace c && c != '/' && c != '>' && c != '='
  let name := nameOf (first ++ name)
  match rest.dropWhile isSpace with
  | '=' :: rest =>
    (readValue? (rest.dropWhile isSpace)).map fun (value, rest) => ((name, value), rest)
  | _ => some ((name, ""), rest)

/-- Reads the attributes of a tag up to its end. The first of several attributes
with one name counts. -/
def readAttributes : Nat → Tag → List Char → Option (Tag × List Char)
  | 0, _, _ => none
  | fuel + 1, tag, cs =>
    match cs.dropWhile isSpace with
    | [] => none
    | '>' :: rest => some (tag, rest)
    | '/' :: '>' :: rest => some ({ tag with isSelfClosing := true }, rest)
    | '/' :: rest => readAttributes fuel tag rest
    | cs =>
      match readAttribute? cs with
      | none => none
      | some (a, rest) =>
        let known := tag.attributes.any fun b => b.1 == a.1
        let attributes := if known then tag.attributes else tag.attributes ++ [a]
        readAttributes fuel { tag with attributes } rest

/-- Reads a tag from its name on. -/
def readTag (isStart : Bool) (cs : List Char) : Option (Tag × List Char) :=
  let (name, rest) := cs.span fun c => !isSpace c && c != '/' && c != '>'
  readAttributes (cs.length + 1) { isStart, name := nameOf name } rest

end DomQuery.Markup
