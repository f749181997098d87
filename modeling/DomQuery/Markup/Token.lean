import DomQuery.Text.Ascii

/-!
# Pieces of markup

A page is cut into tags, comments, document types and runs of text. A run is
either all white space or free of it, since the two are often treated
differently.
-/

namespace DomQuery.Markup

open DomQuery.Text

/-- A start tag or an end tag. -/
structure Tag where
  isStart : Bool
  /-- In lower case. -/
  name : String
  /-- In the order of the text, each name once. -/
  attributes : List (String × String) := []
  isSelfClosing : Bool := false
deriving DecidableEq, Repr

def Tag.attribute? (tag : Tag) (name : String) : Option String :=
  tag.attributes.lookup name

/-- A document type declaration. -/
structure Doctype where
  name : Option String := none
  publicId : Option String := none
  systemId : Option String := none
  /-- The declaration is broken. -/
  isBroken : Bool := false
deriving DecidableEq, Repr

inductive Token where
  | doctype (d : Doctype)
  | tag (t : Tag)
  | comment (text : String)
  /-- A run of white space. -/
  | space (text : String)
  /-- A run without white space. -/
  | text (text : String)
  /-- The null character. -/
  | null
  /-- A mistake that stands for nothing, in front of what follows. -/
  | mistake
  | endOfFile
deriving DecidableEq, Repr

/-- Cuts characters into runs. -/
def textTokens (cs : List Char) : List Token :=
  (cs.splitBy fun a b => (a != '\x00' && b != '\x00') && isSpace a == isSpace b).map fun run =>
    match run with
    | '\x00' :: _ => .null
    | c :: _ => if isSpace c then .space (String.ofList run) else .text (String.ofList run)
    | [] => .text ""

end DomQuery.Markup
