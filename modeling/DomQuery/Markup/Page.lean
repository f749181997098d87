import DomQuery.Markup.Select

/-!
# Pages

The modes at the end of a page, in templates and in framesets, and the choice
of rules for a token. `Document.ofMarkup` builds the tree of a page.
-/

namespace DomQuery.Markup

open DomQuery.Document DomQuery.Text DomQuery.Tree

/-- The mode that a start tag stands for as the first one in a template. -/
def templateModeFor (name : String) : Mode :=
  match name with
  | "caption" | "colgroup" | "tbody" | "tfoot" | "thead" => .inTable
  | "col" => .inColumnGroup
  | "tr" => .inTableBody
  | "td" | "th" => .inRow
  | _ => .inBody

def templateRules (token : Token) : Build Outcome := do
  match token with
  | .space _ | .text _ | .comment _ => bodyRules token
  | .tag tag =>
    if isMetadata tag then
      handleMetadata tag
      return .done
    else if tag.isStart then switchTemplate (templateModeFor tag.name)
    else return .done
  | .endOfFile => endInTemplate
  | .null | .mistake | .doctype _ => return .done

def afterBodyRules (token : Token) : Build Outcome := do
  match token with
  | .space _ => bodyRules token
  | .comment text =>
    match ← outermost? with
    | some e => insertCommentIn e.node text
    | none => pure ()
    return .done
  | .endOfFile => return .done
  | .tag tag =>
    match tag.isStart, tag.name with
    | true, "html" => bodyRules token
    | false, "html" =>
      setMode .afterAfterBody
      return .done
    | _, _ => againIn .inBody
  | _ => againIn .inBody

def framesetRules (token : Token) : Build Outcome := do
  match token with
  | .space text => insertText text
  | .comment text => insertComment text
  | .tag tag =>
    match tag.isStart, tag.name with
    | true, "html" => mergePage tag
    | true, "frameset" => insertOpen tag
    | false, "frameset" =>
      if (← get).openElements.length > 1 then
        pop
        unless ← currentIs "frameset" do setMode .afterFrameset
    | true, "frame" => insertVoid tag
    | true, "noframes" => startMetadata tag
    | _, _ => return .done
  | _ => return .done
  return .done

def afterFramesetRules (token : Token) : Build Outcome := do
  match token with
  | .space text => insertText text
  | .comment text => insertComment text
  | .tag tag =>
    match tag.isStart, tag.name with
    | true, "html" => mergePage tag
    | false, "html" => setMode .afterAfterFrameset
    | true, "noframes" => startMetadata tag
    | _, _ => return .done
  | _ => return .done
  return .done

def afterAfterBodyRules (token : Token) : Build Outcome := do
  match token with
  | .space _ => bodyRules token
  | .comment text =>
    insertCommentIn Document.root text
    return .done
  | .endOfFile => return .done
  | .tag tag =>
    if tag.isStart && tag.name == "html" then bodyRules token else againIn .inBody
  | _ => againIn .inBody

def afterAfterFramesetRules (token : Token) : Build Outcome := do
  match token with
  | .space _ => bodyRules token
  | .comment text =>
    insertCommentIn Document.root text
    return .done
  | .tag tag =>
    match tag.isStart, tag.name with
    | true, "html" => mergePage tag
    | true, "noframes" => startMetadata tag
    | _, _ => return .done
    return .done
  | _ => return .done

/-- The rules of the mode that the builder is in. -/
def modeRules (token : Token) : Build Outcome := do
  match (← get).mode with
  | .initial => initialRules token
  | .beforeHtml => beforeHtmlRules token
  | .beforeHead => beforeHeadRules token
  | .inHead => inHeadRules token
  | .afterHead => afterHeadRules token
  | .inBody => bodyRules token
  | .text => textRules token
  | .inTable => tableRules token
  | .inTableText => tableTextRules token
  | .inCaption => captionRules token
  | .inColumnGroup => columnGroupRules token
  | .inTableBody => tableBodyRules token
  | .inRow => rowRules token
  | .inCell => cellRules token
  | .inSelect => selectRules token
  | .inSelectInTable => selectInTableRules token
  | .inTemplate => templateRules token
  | .afterBody => afterBodyRules token
  | .inFrameset => framesetRules token
  | .afterFrameset => afterFramesetRules token
  | .afterAfterBody => afterAfterBodyRules token
  | .afterAfterFrameset => afterAfterFramesetRules token

/-- Treats a token, again and again while the mode changes under it. -/
def handleWithin : Nat → Token → Build Unit
  | 0, _ => return ()
  | fuel + 1, token => do
    let outcome ←
      if ← isForeign token then foreignRules modeRules token else modeRules token
    if outcome == .again then handleWithin fuel token

/-- Treats a token. It is looked at a few times, and once more for each element
that is open. -/
def handle (token : Token) : Build Unit := do
  handleWithin (16 + 2 * (← get).openElements.length) token

/-- Declares the type of the document, which counts at its beginning only. -/
def handleDoctype (doctype : Doctype) : Build Unit := do
  if (← get).mode == .initial then
    let n ← create (createNode (.doctype (doctype.name.getD "")))
    edit (append Document.root n)
    modify fun b => { b with isOld := doctype.isOld, mode := .beforeHtml }

/-- The text without the line feed it begins with. -/
def withoutLineFeed (text : String) : String :=
  match text.toList with
  | '\n' :: rest => String.ofList rest
  | _ => text

/-- Treats the next token of a page. -/
def handleNext (token : Token) : Build Unit := do
  let skips := (← get).skipsLineFeed
  modify fun b => { b with skipsLineFeed := false }
  match token with
  | .doctype doctype => handleDoctype doctype
  | .mistake => pure ()
  | .space text =>
    let text := if skips then withoutLineFeed text else text
    unless text.isEmpty do handle (.space text)
  | _ => handle token

/-- The text that comes next stands in an element that is not HTML. -/
def inForeign : Build Bool :=
  return (← current?).any fun e => e.ns != .html

/-- Builds the tree of what is left of a page. -/
def buildFrom : Nat → List Char → Build Unit
  | 0, _ | _, [] => handleNext .endOfFile
  | fuel + 1, cs => do
    let (tokens, rest) := readTokens (← get).content (← inForeign) cs
    modify fun b => { b with content := .markup }
    tokens.forM handleNext
    buildFrom fuel rest

/-- The characters of a page, with line feeds for all line ends. -/
def pageText : List Char → List Char
  | '\r' :: '\n' :: rest => '\n' :: pageText rest
  | '\r' :: rest => '\n' :: pageText rest
  | c :: rest => c :: pageText rest
  | [] => []

/-- The page without the mark for the order of bytes. -/
def withoutMark (cs : List Char) : List Char :=
  match cs with
  | '\uFEFF' :: rest => rest
  | _ => cs

end DomQuery.Markup

namespace DomQuery.Document

open DomQuery.Markup

/-- The document that a page describes. Every text is a page. -/
def ofMarkup (page : String) : Document :=
  let cs := pageText (withoutMark page.toList)
  let start : Builder := { document := ⟨Document.empty .html, .empty .html⟩ }
  ((buildFrom cs.length cs).run start).2.document.val

end DomQuery.Document
