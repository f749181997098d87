import DomQuery.Markup.Foreign
import DomQuery.Markup.Head

/-!
# Text and blocks

The rules for the body of a page. All other modes fall back on them.
-/

namespace DomQuery.Markup

open DomQuery.Document DomQuery.Text DomQuery.Tree

/-- The input takes no part in the layout. -/
def isHiddenInput (tag : Tag) : Bool :=
  tag.name == "input" && (tag.attribute? "type").any fun type => eqFold type "hidden"

/-- Another body adds its attributes to the one that is open. -/
def mergeBody (tag : Tag) : Build Unit := do
  match ← body? with
  | some e =>
    unless ← isOpen "template" do
      ruleOutFrameset
      mergeAttributes e tag
  | none => pure ()

/-- A frameset takes the place of a body that holds nothing yet. -/
def replaceBody (tag : Tag) : Build Unit := do
  let b ← get
  match ← body? with
  | some e =>
    if b.framesetAllowed then
      edit (remove e.node)
      setOpen b.openElements.getLast?.toList
      insertOpen tag
      setMode .inFrameset
  | none => pure ()

/-- The item that a new item of the same list ends. -/
def openItem? (names : List String) : List OpenElement → Option OpenElement
  | [] => none
  | e :: rest =>
    if e.isOneOf names then some e
    else if e.isOneOf special && !e.isOneOf ["address", "div", "p"] then none
    else openItem? names rest

/-- Opens an item of a list. -/
def openListItem (tag : Tag) : Build Unit := do
  ruleOutFrameset
  let names := if tag.name == "li" then ["li"] else ["dd", "dt"]
  match openItem? names (← get).openElements with
  | some e =>
    closeImpliedExcept e.name
    popThroughNamed e.name
  | none => pure ()
  endParagraph
  insertOpen tag

/-- Opens a form, unless one is open. -/
def openForm (tag : Tag) : Build Unit := do
  let inTemplate ← isOpen "template"
  if (← get).form.isNone || inTemplate then
    endParagraph
    let e ← openElement tag
    unless inTemplate do modify fun b => { b with form := some e.node }

/-- Opens a select; in a table it minds the table. -/
def openSelect (tag : Tag) : Build Unit := do
  reopenFormatting
  insertOpen tag
  ruleOutFrameset
  modify fun b =>
    let inTable := [Mode.inTable, .inCaption, .inTableBody, .inRow, .inCell].contains b.mode
    { b with mode := if inTable then .inSelectInTable else .inSelect }

/-- Inserts an element that stands for itself among words. -/
def insertAmongWords (tag : Tag) : Build Unit := do
  reopenFormatting
  insertVoid tag

/-- A start tag in a body. -/
def bodyStart (tag : Tag) : Build Unit := do
  if metadata.contains tag.name then startMetadata tag
  else if plainBlocks.contains tag.name then
    endParagraph
    insertOpen tag
  else if headings.contains tag.name then
    endParagraph
    if ← currentIsOneOf headings then pop
    insertOpen tag
  else if formattingNames.contains tag.name then
    reopenFormatting
    openFormatting tag
  else if tableParts.contains tag.name || ["frame", "head"].contains tag.name then return ()
  else
    match tag.name with
    | "html" => mergePage tag
    | "body" => mergeBody tag
    | "frameset" => replaceBody tag
    | "pre" | "listing" =>
      endParagraph
      insertOpen tag
      modify fun b => { b with skipsLineFeed := true, framesetAllowed := false }
    | "form" => openForm tag
    | "li" | "dd" | "dt" => openListItem tag
    | "plaintext" =>
      endParagraph
      insertOpen tag
      modify fun b => { b with content := .plain }
    | "button" =>
      if ← namedInScope isScopeEnd "button" then
        closeImplied impliedEnds
        popThroughNamed "button"
      reopenFormatting
      insertOpen tag
      ruleOutFrameset
    | "a" =>
      closeOpenLink
      reopenFormatting
      openFormatting tag
    | "nobr" =>
      reopenFormatting
      if ← namedInScope isScopeEnd "nobr" then
        closeFormatting "nobr"
        reopenFormatting
      openFormatting tag
    | "applet" | "marquee" | "object" =>
      reopenFormatting
      insertOpen tag
      addMarker
      ruleOutFrameset
    | "table" =>
      unless (← get).isOld do endParagraph
      insertOpen tag
      ruleOutFrameset
      setMode .inTable
    | "area" | "br" | "embed" | "img" | "keygen" | "wbr" | "input" =>
      insertAmongWords tag
      unless isHiddenInput tag do ruleOutFrameset
    | "image" =>
      insertAmongWords { tag with name := "img" }
      ruleOutFrameset
    | "param" | "source" | "track" => insertVoid tag
    | "hr" =>
      endParagraph
      insertVoid tag
      ruleOutFrameset
    | "textarea" =>
      modify fun b => { b with skipsLineFeed := true, framesetAllowed := false }
      insertTextElement tag (.text tag.name)
    | "xmp" =>
      endParagraph
      reopenFormatting
      ruleOutFrameset
      insertTextElement tag (.rawText tag.name)
    | "iframe" =>
      ruleOutFrameset
      insertTextElement tag (.rawText tag.name)
    | "noembed" | "noscript" => insertTextElement tag (.rawText tag.name)
    | "select" => openSelect tag
    | "optgroup" | "option" =>
      popIf "option"
      reopenFormatting
      insertOpen tag
    | "rb" | "rtc" =>
      if ← namedInScope isScopeEnd "ruby" then closeImplied impliedEnds
      insertOpen tag
    | "rp" | "rt" =>
      if ← namedInScope isScopeEnd "ruby" then closeImpliedExcept "rtc"
      insertOpen tag
    | "math" => insertForeign .mathMl tag
    | "svg" => insertForeign .svg tag
    | _ =>
      reopenFormatting
      insertOpen tag

/-- Closes the form that is open. -/
def closeForm : Build Unit := do
  if ← isOpen "template" then
    if ← namedInScope isScopeEnd "form" then
      closeImplied impliedEnds
      popThroughNamed "form"
  else
    match (← get).form with
    | some n =>
      modify fun b => { b with form := none }
      if ← isInScope isScopeEnd fun e => e.node == n then
        closeImplied impliedEnds
        removeOpen n
    | none => pure ()

/-- An end tag in a body, other than those that end the body. -/
def bodyEnd (tag : Tag) : Build Unit := do
  let close (isEnd : OpenElement → Bool) : Build Unit := do
    if ← namedInScope isEnd tag.name then
      closeImpliedExcept tag.name
      popThroughNamed tag.name
  if closableBlocks.contains tag.name then
    if ← namedInScope isScopeEnd tag.name then
      closeImplied impliedEnds
      popThroughNamed tag.name
  else if headings.contains tag.name then
    if ← isInScope isScopeEnd fun e => e.isOneOf headings then
      closeImplied impliedEnds
      popThrough fun e => e.isOneOf headings
  else if formattingNames.contains tag.name then closeFormatting tag.name
  else
    match tag.name with
    | "template" => closeTemplate
    | "a" | "nobr" => closeFormatting tag.name
    | "form" => closeForm
    | "p" =>
      unless ← namedInScope isButtonScopeEnd "p" do discard (openImplied "p")
      closeParagraph
    | "li" => close isListScopeEnd
    | "dd" | "dt" => close isScopeEnd
    | "applet" | "marquee" | "object" =>
      if ← namedInScope isScopeEnd tag.name then
        closeImplied impliedEnds
        popThroughNamed tag.name
        clearFormatting
    | "br" => bodyStart { isStart := true, name := "br" }
    | _ => closeNamed tag.name

def bodyRules (token : Token) : Build Outcome := do
  match token with
  | .space text =>
    reopenFormatting
    insertText text
    return .done
  | .text text =>
    reopenFormatting
    ruleOutFrameset
    insertText text
    return .done
  | .comment text =>
    insertComment text
    return .done
  | .endOfFile =>
    if (← get).templateModes.isEmpty then return .done else endInTemplate
  | .tag tag =>
    if tag.isStart then
      bodyStart tag
      return .done
    else if tag.name == "body" || tag.name == "html" then
      if ← namedInScope isScopeEnd "body" then
        setMode .afterBody
        return if tag.name == "html" then .again else .done
      else return .done
    else
      bodyEnd tag
      return .done
  | .null | .mistake | .doctype _ => return .done

end DomQuery.Markup
