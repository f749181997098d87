import DomQuery.Document.Basic
import DomQuery.Markup.Token

/-!
# Kinds of elements

What markup means depends on which elements are open. This is the list of what
the names of elements say: which ones end others, which ones are barriers when
an open element is looked for, and which ones hold text.
-/

namespace DomQuery.Markup

open DomQuery.Document DomQuery.Text DomQuery.Tree

/-- The namespaces that markup can produce. -/
inductive Namespace where
  | html
  | mathMl
  | svg
deriving DecidableEq, Repr

/-- A namespace of the family that all of these belong to. -/
def familyNamespace (path : String) : String :=
  "http://www.w3.org/" ++ path

def Namespace.uri : Namespace → String
  | .html => htmlNamespace
  | .mathMl => familyNamespace "1998/Math/MathML"
  | .svg => familyNamespace "2000/svg"

/-- An element that was opened and not closed yet. -/
structure OpenElement where
  node : NodeId
  ns : Namespace
  name : String
deriving DecidableEq, Repr

namespace OpenElement

variable (e : OpenElement)

/-- An HTML element with this name. -/
def isNamed (name : String) : Bool :=
  e.ns == .html && e.name == name

/-- An HTML element with one of these names. -/
def isOneOf (names : List String) : Bool :=
  e.ns == .html && names.contains e.name

/-- Its content is text, although it is no HTML element. -/
def isTextPoint : Bool :=
  e.ns == .mathMl && ["mi", "mo", "mn", "ms", "mtext"].contains e.name

/-- Its content is HTML, although it is none. -/
def isHtmlPoint : Bool :=
  e.ns == .svg && ["foreignObject", "desc", "title"].contains e.name

end OpenElement

def headings : List String :=
  ["h1", "h2", "h3", "h4", "h5", "h6"]

/-- Elements that stand in the head, or should. -/
def metadata : List String :=
  ["base", "basefont", "bgsound", "link", "meta", "noframes", "script", "style", "template",
    "title"]

/-- Blocks with a start tag that ends a paragraph and nothing else about them. -/
def plainBlocks : List String :=
  ["address", "article", "aside", "blockquote", "center", "details", "dialog", "dir", "div",
    "dl", "fieldset", "figcaption", "figure", "footer", "header", "hgroup", "main", "menu",
    "nav", "ol", "p", "search", "section", "summary", "ul"]

/-- Blocks with an end tag that ends what is open in them. -/
def closableBlocks : List String :=
  plainBlocks.erase "p" ++ ["button", "listing", "pre"]

/-- Elements that mark up words. -/
def formattingNames : List String :=
  ["b", "big", "code", "em", "font", "i", "s", "small", "strike", "strong", "tt", "u"]

/-- Elements in tables. -/
def tableParts : List String :=
  ["caption", "col", "colgroup", "tbody", "td", "tfoot", "th", "thead", "tr"]

/-- Elements that end where it makes sense, without an end tag. -/
def impliedEnds : List String :=
  ["dd", "dt", "li", "option", "optgroup", "p", "rb", "rp", "rt", "rtc"]

/-- Elements that end with the template that holds them. -/
def thoroughImpliedEnds : List String :=
  impliedEnds ++ ["caption", "colgroup", "tbody", "td", "tfoot", "th", "thead", "tr"]

/-- Elements that an end tag of another name does not reach across. -/
def special : List String :=
  ["address", "applet", "area", "article", "aside", "base", "basefont", "bgsound",
    "blockquote", "body", "br", "button", "caption", "center", "col", "colgroup", "dd",
    "details", "dir", "div", "dl", "dt", "embed", "fieldset", "figcaption", "figure", "footer",
    "form", "frame", "frameset", "h1", "h2", "h3", "h4", "h5", "h6", "head", "header",
    "hgroup", "hr", "html", "iframe", "img", "input", "isindex", "li", "link", "listing",
    "main", "marquee", "menu", "meta", "nav", "noembed", "noframes", "noscript", "object",
    "ol", "p", "param", "plaintext", "pre", "script", "section", "select", "source", "style",
    "summary", "table", "tbody", "td", "template", "textarea", "tfoot", "th", "thead", "title",
    "tr", "track", "ul", "wbr", "xmp"]

/-! ### Barriers -/

def isScopeEnd (e : OpenElement) : Bool :=
  e.isOneOf ["applet", "caption", "html", "table", "td", "th", "marquee", "object", "template"] ||
    e.isTextPoint || e.isHtmlPoint

def isListScopeEnd (e : OpenElement) : Bool :=
  isScopeEnd e || e.isOneOf ["ol", "ul"]

def isButtonScopeEnd (e : OpenElement) : Bool :=
  isScopeEnd e || e.isNamed "button"

def isTableScopeEnd (e : OpenElement) : Bool :=
  e.isOneOf ["html", "table", "template"]

def isSelectScopeEnd (e : OpenElement) : Bool :=
  !e.isOneOf ["optgroup", "option"]

/-- An element that satisfies `p` is open on this side of any barrier. The
innermost element comes first. -/
def inScope (isEnd p : OpenElement → Bool) : List OpenElement → Bool
  | [] => false
  | e :: rest => p e || (!isEnd e && inScope isEnd p rest)

end DomQuery.Markup
