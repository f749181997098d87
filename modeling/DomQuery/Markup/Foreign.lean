import DomQuery.Markup.Formatting

/-!
# Elements that are not HTML

Formulas and drawings keep the case of some names and the prefixes of some
attributes. A tag that can only be HTML ends them.
-/

namespace DomQuery.Markup

open DomQuery.Document DomQuery.Text DomQuery.Tree

/-- Attributes of drawings with upper case letters in their names. -/
def svgAttributeNames : List String :=
  ["attributeName", "attributeType", "baseFrequency", "baseProfile", "calcMode",
    "clipPathUnits", "diffuseConstant", "edgeMode", "filterUnits", "glyphRef",
    "gradientTransform", "gradientUnits", "kernelMatrix", "kernelUnitLength", "keyPoints",
    "keySplines", "keyTimes", "lengthAdjust", "limitingConeAngle", "markerHeight",
    "markerUnits", "markerWidth", "maskContentUnits", "maskUnits", "numOctaves", "pathLength",
    "patternContentUnits", "patternTransform", "patternUnits", "pointsAtX", "pointsAtY",
    "pointsAtZ", "preserveAlpha", "preserveAspectRatio", "primitiveUnits", "refX", "refY",
    "repeatCount", "repeatDur", "requiredExtensions", "requiredFeatures", "specularConstant",
    "specularExponent", "spreadMethod", "startOffset", "stdDeviation", "stitchTiles",
    "surfaceScale", "systemLanguage", "tableValues", "targetX", "targetY", "textLength",
    "viewBox", "viewTarget", "xChannelSelector", "yChannelSelector", "zoomAndPan"]

/-- Elements of drawings with upper case letters in their names. -/
def svgElementNames : List String :=
  ["altGlyph", "altGlyphDef", "altGlyphItem", "animateColor", "animateMotion",
    "animateTransform", "clipPath", "feBlend", "feColorMatrix", "feComponentTransfer",
    "feComposite", "feConvolveMatrix", "feDiffuseLighting", "feDisplacementMap",
    "feDistantLight", "feDropShadow", "feFlood", "feFuncA", "feFuncB", "feFuncG", "feFuncR",
    "feGaussianBlur", "feImage", "feMerge", "feMergeNode", "feMorphology", "feOffset",
    "fePointLight", "feSpecularLighting", "feSpotLight", "feTile", "feTurbulence",
    "foreignObject", "glyphRef", "linearGradient", "radialGradient", "textPath"]

/-- The spelling in `names` of a name in lower case. -/
def spelling (names : List String) (name : String) : String :=
  (names.find? fun n => lower n == name).getD name

/-- Attributes with a namespace of their own. -/
def linkAttributes : List String :=
  ["xlink:actuate", "xlink:arcrole", "xlink:href", "xlink:role", "xlink:show", "xlink:title",
    "xlink:type"]

/-- The attribute of a foreign element that is written with this name. -/
def foreignAttribute (ns : Namespace) (name value : String) : Attribute :=
  let name := match ns with
    | .mathMl => if name == "definitionurl" then "definitionURL" else name
    | .svg => spelling svgAttributeNames name
    | .html => name
  if linkAttributes.contains name then ⟨name, some (familyNamespace "1999/xlink"), value⟩
  else
    match name with
    | "xml:lang" | "xml:space" => ⟨name, some xmlNamespace, value⟩
    -- an empty prefix is written with its colon
    | "xmlns" => ⟨":xmlns", some xmlnsNamespace, value⟩
    | "xmlns:xlink" => ⟨name, some xmlnsNamespace, value⟩
    | _ => ⟨name, none, value⟩

/-- Inserts a foreign element, and opens it unless it is closed by its own tag. -/
def insertForeign (ns : Namespace) (tag : Tag) : Build Unit := do
  let attributes := tag.attributes.map fun (name, value) => foreignAttribute ns name value
  let e ← insertElement ns tag.name attributes
  unless tag.isSelfClosing do push e

/-- Start tags that can only be HTML. -/
def breakouts : List String :=
  ["b", "big", "blockquote", "body", "br", "center", "code", "dd", "div", "dl", "dt", "em",
    "embed", "h1", "h2", "h3", "h4", "h5", "h6", "head", "hr", "i", "img", "li", "listing",
    "menu", "meta", "nobr", "ol", "p", "pre", "ruby", "s", "small", "span", "strong", "strike",
    "sub", "sup", "table", "tt", "u", "ul", "var"]

/-- The tag ends the foreign elements it stands in. -/
def isBreakout (tag : Tag) : Bool :=
  if tag.isStart then
    breakouts.contains tag.name ||
      (tag.name == "font" &&
        tag.attributes.any fun (name, _) => ["color", "face", "size"].contains name)
  else tag.name == "br" || tag.name == "p"

/-- The token belongs to the foreign element `e`. -/
def OpenElement.holdsForeign (e : OpenElement) (token : Token) : Bool :=
  let isText := match token with
    | .space _ | .text _ | .null => true
    | _ => false
  let start? := match token with
    | .tag tag => if tag.isStart then some tag.name else none
    | _ => none
  if e.ns == .html || token == .endOfFile then false
  else if e.isTextPoint then
    !(isText || start?.any fun name => name != "mglyph" && name != "malignmark")
  else if e.isHtmlPoint then !(isText || start?.isSome)
  else if e.ns == .mathMl && e.name == "annotation-xml" then start? != some "svg"
  else true

/-- The token is to be treated as a part of a formula or drawing. -/
def isForeign (token : Token) : Build Bool :=
  return (← current?).any fun e => e.holdsForeign token

/-- The elements that an end tag with this name closes, if it closes a foreign
one; `none` when an HTML element is reached first. -/
def closeForeign? (name : String) : List OpenElement → Option (List OpenElement)
  | [] => none
  | e :: outer =>
    if e.ns == .html then none
    else if lower e.name == name then some outer
    else closeForeign? name outer

/-- Ends foreign elements up to one that holds HTML. -/
def leaveForeign : Build Unit :=
  popTo fun e => e.ns == .html || e.isTextPoint || e.isHtmlPoint

/-- Treats a token as a part of a formula or drawing. `asHtml` treats it like any
other token. -/
def foreignRules (asHtml : Token → Build Outcome) (token : Token) : Build Outcome := do
  match token with
  | .null =>
    insertText (String.singleton replacement)
    return .done
  | .space text =>
    insertText text
    return .done
  | .text text =>
    ruleOutFrameset
    insertText text
    return .done
  | .comment text =>
    insertComment text
    return .done
  | .tag tag =>
    if isBreakout tag then
      leaveForeign
      asHtml token
    else if tag.isStart then
      match ← current? with
      | some e =>
        let name := if e.ns == .svg then spelling svgElementNames tag.name else tag.name
        insertForeign e.ns { tag with name }
        return .done
      | none => asHtml token
    else
      match closeForeign? tag.name (← get).openElements with
      | some outer =>
        setOpen outer
        return .done
      | none => asHtml token
  | .doctype _ | .mistake | .endOfFile => asHtml token

end DomQuery.Markup
