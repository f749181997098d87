import DomQuery.Text.Ascii

/-!
# Names of custom elements

Which names a document may define as custom elements.
-/

namespace DomQuery.Tree

open DomQuery.Text

/-- Names with a hyphen that SVG and MathML took first. -/
def reservedNames : List String :=
  ["annotation-xml", "color-profile", "font-face", "font-face-format", "font-face-name",
    "font-face-src", "font-face-uri", "missing-glyph"]

/-- A lower case letter first, a hyphen somewhere, no upper case letter and no
space, and not reserved. -/
def isCustomElementName (name : String) : Bool :=
  let cs := name.toList
  (cs.head?.any Char.isLower) && cs.contains '-' &&
    !cs.any (fun c => c.isUpper || isSpace c) && !reservedNames.contains name

end DomQuery.Tree
