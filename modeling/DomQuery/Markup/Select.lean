import DomQuery.Markup.Table

/-!
# Lists to choose from

A select holds options and groups of options. Most other tags are ignored in
it; some end it, and in a table the tags of the table do.
-/

namespace DomQuery.Markup

open DomQuery.Document DomQuery.Text DomQuery.Tree

/-- Leaves the select; `false` when none is open. -/
def leaveSelect : Build Bool := do
  if ← namedInScope isSelectScopeEnd "select" then
    popThroughNamed "select"
    resetMode
    return true
  else return false

/-- A start tag that a select does not end for. -/
def selectStart (tag : Tag) : Build Unit := do
  match tag.name with
  | "html" => mergePage tag
  | "option" =>
    popIf "option"
    insertOpen tag
  | "optgroup" =>
    popIf "option"
    popIf "optgroup"
    insertOpen tag
  | "hr" =>
    popIf "option"
    popIf "optgroup"
    insertVoid tag
  | "select" => discard leaveSelect
  | "script" | "template" => startMetadata tag
  | _ => return ()

def selectEnd (tag : Tag) : Build Unit := do
  match tag.name with
  | "optgroup" =>
    match (← get).openElements with
    | e :: o :: _ => if e.isNamed "option" && o.isNamed "optgroup" then pop
    | _ => pure ()
    popIf "optgroup"
  | "option" => popIf "option"
  | "select" => discard leaveSelect
  | "template" => closeTemplate
  | _ => return ()

def selectRules (token : Token) : Build Outcome := do
  match token with
  | .space text | .text text =>
    insertText text
    return .done
  | .comment text =>
    insertComment text
    return .done
  | .endOfFile => bodyRules token
  | .tag tag =>
    if tag.isStart && ["input", "keygen", "textarea"].contains tag.name then
      return if ← leaveSelect then .again else .done
    else
      if tag.isStart then selectStart tag else selectEnd tag
      return .done
  | .null | .mistake | .doctype _ => return .done

def selectInTableRules (token : Token) : Build Outcome := do
  match token with
  | .tag tag =>
    let ofTable :=
      ["caption", "table", "tbody", "tfoot", "thead", "tr", "td", "th"].contains tag.name
    if ofTable then
      if tag.isStart || (← namedInScope isTableScopeEnd tag.name) then
        popThroughNamed "select"
        resetMode
        return .again
      else return .done
    else selectRules token
  | _ => selectRules token

end DomQuery.Markup
