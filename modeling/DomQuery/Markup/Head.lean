import DomQuery.Markup.Formatting

/-!
# Metadata

Elements of the head are treated in one way wherever they stand. The modes from
the beginning of a page to the end of its head are here too; what a page leaves
out is put in.
-/

namespace DomQuery.Markup

open DomQuery.Document DomQuery.Text DomQuery.Tree

/-- A template with this tag asks for being the shadow root of what it is in. -/
def declaresShadow (tag : Tag) : Bool :=
  match tag.attribute? "shadowrootmode" with
  | some mode => mode == "open" || mode == "close"
  | none => false

/-- Opens a template. No shadow roots are made for a page, so a template that
declares one leaves its content to the element it is in, which must not be the
element of the page. -/
def openTemplate (tag : Tag) : Build Unit := do
  addMarker
  ruleOutFrameset
  setMode .inTemplate
  modify fun b => { b with templateModes := .inTemplate :: b.templateModes }
  unless declaresShadow tag && (← get).openElements.length > 1 do insertOpen tag

/-- Closes a template, if one is open. -/
def closeTemplate : Build Unit := do
  if ← isOpen "template" then
    closeImplied thoroughImpliedEnds
    leaveTemplate

/-- A start tag of metadata. -/
def startMetadata (tag : Tag) : Build Unit :=
  match tag.name with
  | "title" => insertTextElement tag (.text tag.name)
  | "noframes" | "style" => insertTextElement tag (.rawText tag.name)
  | "script" => insertTextElement tag .script
  | "template" => openTemplate tag
  | _ => insertVoid tag

/-- A tag of metadata, or the end of a template. -/
def isMetadata (tag : Tag) : Bool :=
  if tag.isStart then metadata.contains tag.name else tag.name == "template"

def handleMetadata (tag : Tag) : Build Unit :=
  if tag.isStart then startMetadata tag else closeTemplate

/-- Adds the attributes of a tag that an open element lacks. -/
def mergeAttributes (e : OpenElement) (tag : Tag) : Build Unit :=
  edit (addMissingAttributes e.node tag.plainAttributes)

/-- Another start tag of the page adds its attributes to the first one. -/
def mergePage (tag : Tag) : Build Unit := do
  unless ← isOpen "template" do
    match ← outermost? with
    | some e => mergeAttributes e tag
    | none => pure ()

/-- End tags that stand for the beginning of what they end. -/
def isEndOfPage (tag : Tag) : Bool :=
  !tag.isStart && ["body", "html", "br"].contains tag.name

/-- Begins the page. -/
def openPage (attributes : List Attribute) : Build Unit := do
  let e ← createElement .html "html" attributes
  edit (append Document.root e.node)
  push e

def initialRules (token : Token) : Build Outcome := do
  match token with
  | .space _ => return .done
  | .comment text =>
    insertCommentIn Document.root text
    return .done
  | _ =>
    modify fun b => { b with isOld := true }
    againIn .beforeHtml

def beforeHtmlRules (token : Token) : Build Outcome := do
  match token with
  | .space _ => return .done
  | .comment text =>
    insertCommentIn Document.root text
    return .done
  | .tag tag =>
    if tag.isStart && tag.name == "html" then
      openPage tag.plainAttributes
      setMode .beforeHead
      return .done
    else if tag.isStart || isEndOfPage tag || tag.name == "head" then beginPage
    else return .done
  | _ => beginPage
where
  beginPage : Build Outcome := do
    openPage []
    againIn .beforeHead

def beforeHeadRules (token : Token) : Build Outcome := do
  match token with
  | .space _ => return .done
  | .comment text =>
    insertComment text
    return .done
  | .tag tag =>
    if tag.isStart && tag.name == "html" then
      mergePage tag
      return .done
    else if tag.isStart && tag.name == "head" then
      let e ← openElement tag
      modify fun b => { b with head := some e, mode := .inHead }
      return .done
    else if tag.isStart || isEndOfPage tag || tag.name == "head" then beginHead
    else return .done
  | _ => beginHead
where
  beginHead : Build Outcome := do
    let e ← openImplied "head"
    modify fun b => { b with head := some e }
    againIn .inHead

def inHeadRules (token : Token) : Build Outcome := do
  match token with
  | .space text =>
    insertText text
    return .done
  | .comment text =>
    insertComment text
    return .done
  | .tag tag =>
    if isMetadata tag then
      handleMetadata tag
      return .done
    else if tag.isStart then
      match tag.name with
      | "html" =>
        mergePage tag
        return .done
      | "noscript" =>
        insertTextElement tag (.rawText tag.name)
        return .done
      | "head" => return .done
      | _ => endHead
    else if tag.name == "head" then
      pop
      setMode .afterHead
      return .done
    else if isEndOfPage tag then endHead
    else return .done
  | _ => endHead
where
  endHead : Build Outcome := do
    pop
    againIn .afterHead

/-- Metadata after the head goes into the head. -/
def handleLateMetadata (tag : Tag) : Build Unit := do
  match (← get).head with
  | some head =>
    push head
    handleMetadata tag
    removeOpen head.node
  | none => handleMetadata tag

def afterHeadRules (token : Token) : Build Outcome := do
  match token with
  | .space text =>
    insertText text
    return .done
  | .comment text =>
    insertComment text
    return .done
  | .tag tag =>
    if isMetadata tag then
      if tag.isStart then handleLateMetadata tag else handleMetadata tag
      return .done
    else if tag.isStart then
      match tag.name with
      | "html" =>
        mergePage tag
        return .done
      | "body" =>
        insertOpen tag
        ruleOutFrameset
        setMode .inBody
        return .done
      | "frameset" =>
        insertOpen tag
        setMode .inFrameset
        return .done
      | "head" => return .done
      | _ => beginBody
    else if isEndOfPage tag then beginBody
    else return .done
  | _ => beginBody
where
  beginBody : Build Outcome := do
    discard (openImplied "body")
    againIn .inBody

/-- The text of an element, and the end of it. -/
def textRules (token : Token) : Build Outcome := do
  match token with
  | .space text | .text text =>
    insertText text
    return .done
  | .endOfFile =>
    pop
    againIn (← get).returnMode
  | .tag tag =>
    unless tag.isStart do
      pop
      setMode (← get).returnMode
    return .done
  | _ => return .done

/-- The end of the page inside of templates: leaves them one by one. -/
def endInTemplate : Build Outcome := do
  if ← isOpen "template" then
    leaveTemplate
    return .again
  else return .done

end DomQuery.Markup
