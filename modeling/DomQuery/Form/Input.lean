import DomQuery.Tree.View

/-!
# Controls and their types

An `input` element is one of many controls, by its `type`. Which attributes and
which states mean something depends on the type, so the lists of types are all
here.
-/

namespace DomQuery.Form

open DomQuery.Text DomQuery.Tree

/-- The type of an `input` element. -/
inductive InputType where
  | button
  | checkbox
  | color
  | date
  | datetimeLocal
  | email
  | file
  | hidden
  | image
  | month
  | number
  | password
  | radio
  | range
  | reset
  | search
  | submit
  | tel
  | text
  | time
  | url
  | week
deriving DecidableEq, Repr

namespace InputType

/-- The type that an attribute in lower case names; anything else is text. -/
def ofName : String → InputType
  | "button" => .button
  | "checkbox" => .checkbox
  | "color" => .color
  | "date" => .date
  | "datetime-local" => .datetimeLocal
  | "email" => .email
  | "file" => .file
  | "hidden" => .hidden
  | "image" => .image
  | "month" => .month
  | "number" => .number
  | "password" => .password
  | "radio" => .radio
  | "range" => .range
  | "reset" => .reset
  | "search" => .search
  | "submit" => .submit
  | "tel" => .tel
  | "time" => .time
  | "url" => .url
  | "week" => .week
  | _ => .text

/-- The value can be edited as text. -/
def isEditable (type : InputType) : Bool :=
  [date, datetimeLocal, email, month, number, password, search, tel, text, time, url,
    week].contains type

/-- A placeholder can be shown. -/
def takesPlaceholder (type : InputType) : Bool :=
  [email, number, password, search, tel, text, url].contains type

/-- The value can be out of a range. -/
def takesRange (type : InputType) : Bool :=
  [date, datetimeLocal, month, number, range, time, week].contains type

/-- A value can be required. -/
def canBeRequired (type : InputType) : Bool :=
  !(List.contains [button, color, hidden, image, range, reset, submit] type)

/-- The value can be held against a pattern. -/
def takesPattern (type : InputType) : Bool :=
  [email, password, search, tel, text, url].contains type

end InputType

variable {ν : Type}

/-- The type of an HTML `input`. -/
def inputType? (t : Links ν) (n : ν) : Option InputType :=
  if t.isHtmlNamed n "input" then
    some (InputType.ofName (lower ((t.attribute? n "type").getD "")))
  else none

/-- `n` is a button that submits the form it belongs to. -/
def isSubmitButton (t : Links ν) (n : ν) : Bool :=
  if t.isHtmlNamed n "button" then
    match (t.attribute? n "type").map lower with
    | some "reset" | some "button" => false
    | _ => true
  else
    match inputType? t n with
    | some .submit | some .image => true
    | _ => false

/-- A box that is checked, or an option that is selected. -/
def isChecked (t : View ν) (n : ν) : Bool :=
  match inputType? t.toLinks n with
  | some .checkbox | some .radio => t.isChecked n
  | some _ => false
  | none => t.isHtmlNamed n "option" && t.isSelected n

end DomQuery.Form
