import DomQuery.Markup.Body

/-!
# Tables and what is in them

A table takes its parts and nothing else. Text and other elements are put in
front of it, and tags that are missing between its parts are put in.
-/

namespace DomQuery.Markup

open DomQuery.Document DomQuery.Text DomQuery.Tree

/-- Treats what does not belong into a table like anything in a body, but in
front of the table. -/
def fosterRules (token : Token) : Build Outcome := do
  modify fun b => { b with fosters := true }
  let outcome ← bodyRules token
  modify fun b => { b with fosters := false }
  return outcome

/-- Start and end tags that metadata and tables share. -/
def isTableMetadata (tag : Tag) : Bool :=
  if tag.isStart then ["style", "script", "template"].contains tag.name
  else tag.name == "template"

/-- End tags that mean nothing inside of tables. -/
def strayEnds : List String :=
  ["body", "html"] ++ tableParts

def tableStart (tag : Tag) : Build Outcome := do
  match tag.name with
  | "caption" =>
    popTo isTableScopeEnd
    addMarker
    insertOpen tag
    setMode .inCaption
    return .done
  | "colgroup" =>
    popTo isTableScopeEnd
    insertOpen tag
    setMode .inColumnGroup
    return .done
  | "col" =>
    popTo isTableScopeEnd
    discard (openImplied "colgroup")
    againIn .inColumnGroup
  | "tbody" | "tfoot" | "thead" =>
    popTo isTableScopeEnd
    insertOpen tag
    setMode .inTableBody
    return .done
  | "td" | "th" | "tr" =>
    popTo isTableScopeEnd
    discard (openImplied "tbody")
    againIn .inTableBody
  | "table" =>
    if ← namedInScope isTableScopeEnd "table" then
      popThroughNamed "table"
      resetMode
      return .again
    else return .done
  | "input" =>
    if isHiddenInput tag then
      insertVoid tag
      return .done
    else fosterRules (.tag tag)
  | "form" =>
    let b ← get
    if b.form.isNone && !(← isOpen "template") then
      let e ← insertElement .html tag.name tag.plainAttributes
      modify fun b => { b with form := some e.node }
    return .done
  | _ => fosterRules (.tag tag)

def tableRules (token : Token) : Build Outcome := do
  match token with
  | .space _ | .text _ | .null =>
    if ← currentIsOneOf ["table", "tbody", "tfoot", "thead", "tr"] then
      modify fun b => { b with returnMode := b.mode }
      againIn .inTableText
    else fosterRules token
  | .comment text =>
    insertComment text
    return .done
  | .tag tag =>
    if isTableMetadata tag then
      handleMetadata tag
      return .done
    else if tag.isStart then tableStart tag
    else if tag.name == "table" then
      if ← namedInScope isTableScopeEnd "table" then
        popThroughNamed "table"
        resetMode
      return .done
    else if strayEnds.contains tag.name then return .done
    else fosterRules token
  | .endOfFile => bodyRules token
  | .mistake | .doctype _ => return .done

/-- Inserts the text that waited: into the table if it is white space only, and
else in front of it. -/
def flushTableText : Build Unit := do
  let texts := (← get).tableText.reverse
  modify fun b => { b with tableText := [] }
  let isBlank := texts.all fun
    | .space _ => true
    | _ => false
  texts.forM fun token =>
    if isBlank then
      match token with
      | .space text => insertText text
      | _ => return ()
    else discard (fosterRules token)

def tableTextRules (token : Token) : Build Outcome := do
  match token with
  | .null => return .done
  | .space _ | .text _ =>
    modify fun b => { b with tableText := token :: b.tableText }
    return .done
  | _ =>
    flushTableText
    againIn (← get).returnMode

/-- Closes a caption, if one is open. -/
def closeCaption : Build Bool := do
  if ← namedInScope isTableScopeEnd "caption" then
    closeImplied impliedEnds
    popThroughNamed "caption"
    clearFormatting
    setMode .inTable
    return true
  else return false

def captionRules (token : Token) : Build Outcome := do
  match token with
  | .tag tag =>
    if (tag.isStart && tableParts.contains tag.name) || (!tag.isStart && tag.name == "table") then
      return if ← closeCaption then .again else .done
    else if !tag.isStart && tag.name == "caption" then
      discard closeCaption
      return .done
    else if !tag.isStart && strayEnds.contains tag.name then return .done
    else bodyRules token
  | _ => bodyRules token

def columnGroupRules (token : Token) : Build Outcome := do
  match token with
  | .space text =>
    insertText text
    return .done
  | .comment text =>
    insertComment text
    return .done
  | .endOfFile => bodyRules token
  | .tag tag =>
    match tag.isStart, tag.name with
    | true, "html" =>
      mergePage tag
      return .done
    | true, "col" =>
      insertVoid tag
      return .done
    | false, "colgroup" =>
      if ← currentIs "colgroup" then
        pop
        setMode .inTable
      return .done
    | false, "col" => return .done
    | _, "template" =>
      handleMetadata tag
      return .done
    | _, _ => endGroup
  | _ => endGroup
where
  endGroup : Build Outcome := do
    if ← currentIs "colgroup" then
      pop
      againIn .inTable
    else return .done

def isBodyContext (e : OpenElement) : Bool :=
  e.isOneOf ["tbody", "tfoot", "thead", "template", "html"]

def isRowContext (e : OpenElement) : Bool :=
  e.isOneOf ["tr", "template", "html"]

/-- Closes the part of a table that holds rows. -/
def closeTableBody : Build Unit := do
  popTo isBodyContext
  pop
  setMode .inTable

def tableBodyRules (token : Token) : Build Outcome := do
  match token with
  | .tag tag =>
    let closesBody :=
      if tag.isStart then
        ["caption", "col", "colgroup", "tbody", "tfoot", "thead"].contains tag.name
      else tag.name == "table"
    if tag.isStart && tag.name == "tr" then
      popTo isBodyContext
      insertOpen tag
      setMode .inRow
      return .done
    else if tag.isStart && (tag.name == "th" || tag.name == "td") then
      popTo isBodyContext
      discard (openImplied "tr")
      againIn .inRow
    else if closesBody then
      -- a head that is alone in a template stays open
      if ← isInScope isTableScopeEnd fun e => e.isOneOf ["table", "tbody", "tfoot"] then
        closeTableBody
        return .again
      else return .done
    else if !tag.isStart && ["tbody", "tfoot", "thead"].contains tag.name then
      if ← namedInScope isTableScopeEnd tag.name then closeTableBody
      return .done
    else if !tag.isStart && strayEnds.contains tag.name then return .done
    else tableRules token
  | _ => tableRules token

/-- Closes a row, if one is open. -/
def closeRow : Build Bool := do
  if ← namedInScope isTableScopeEnd "tr" then
    popTo isRowContext
    pop
    setMode .inTableBody
    return true
  else return false

def rowRules (token : Token) : Build Outcome := do
  match token with
  | .tag tag =>
    if tag.isStart && (tag.name == "th" || tag.name == "td") then
      popTo isRowContext
      insertOpen tag
      setMode .inCell
      addMarker
      return .done
    else if tag.isStart && tableParts.contains tag.name then
      return if ← closeRow then .again else .done
    else if tag.isStart then tableRules token
    else
      match tag.name with
      | "tr" =>
        discard closeRow
        return .done
      | "table" => return if ← closeRow then .again else .done
      | "tbody" | "tfoot" | "thead" =>
        if ← namedInScope isTableScopeEnd tag.name then
          return if ← closeRow then .again else .done
        else return .done
      | name => if strayEnds.contains name then return .done else tableRules token
  | _ => tableRules token

/-- Closes the cell that is open. -/
def closeCell : Build Unit := do
  closeImplied impliedEnds
  popThrough fun e => e.isOneOf ["td", "th"]
  clearFormatting
  setMode .inRow

def cellRules (token : Token) : Build Outcome := do
  match token with
  | .tag tag =>
    if tag.isStart then
      if tableParts.contains tag.name then
        if ← isInScope isTableScopeEnd fun e => e.isOneOf ["td", "th"] then
          closeCell
          return .again
        else return .done
      else bodyRules token
    else if tag.name == "td" || tag.name == "th" then
      if ← namedInScope isTableScopeEnd tag.name then
        closeImplied impliedEnds
        popThroughNamed tag.name
        clearFormatting
        setMode .inRow
      return .done
    else if ["table", "tbody", "tfoot", "thead", "tr"].contains tag.name then
      if ← namedInScope isTableScopeEnd tag.name then
        closeCell
        return .again
      else return .done
    else if strayEnds.contains tag.name then return .done
    else bodyRules token
  | _ => bodyRules token

end DomQuery.Markup
