import DomQuery.Form.Format
import DomQuery.Form.Range
import DomQuery.Pattern.Parser
import DomQuery.Query.Context

/-!
# Controls among others

The states of a control that depend on other elements: the form that owns it,
the radio buttons of its group, the options it offers, the fields it contains.
-/

namespace DomQuery.Query.Context

open DomQuery.Form DomQuery.Text DomQuery.Tree

variable {ν : Type} [DecidableEq ν] (ctx : Context ν)

/-- The form that owns `n`: the one it names, else the nearest around it. -/
def formOwner (n : ν) : Option ν :=
  match ctx.tree.attribute? n "form" with
  | some id => (ctx.elementById id).filter fun form => ctx.tree.isHtmlNamed form "form"
  | none =>
    (elementAncestors ctx.tree.toLinks n).find? fun form => ctx.tree.isHtmlNamed form "form"

/-- The radio buttons below the form of `n` that share its name and its form; a
button without a name is a group of its own. Without a form the whole tree is
searched. -/
def radioGroup (n : ν) : List ν :=
  let name := (ctx.tree.attribute? n "name").getD ""
  if name.isEmpty then [n]
  else
    let owner := ctx.formOwner n
    (ctx.tree.walk (owner.getD (ctx.tree.topmost n))).filter fun m =>
      inputType? ctx.tree.toLinks m == some .radio &&
        ctx.tree.attribute? m "name" == some name && ctx.formOwner m == owner

/-- No button of the group is checked. -/
def isGroupUnchecked (n : ν) : Bool :=
  !(ctx.radioGroup n).any ctx.tree.isChecked

def isIndeterminate (n : ν) : Bool :=
  match inputType? ctx.tree.toLinks n with
  | some .checkbox => ctx.tree.isIndeterminate n
  | some .radio => ctx.isGroupUnchecked n
  | some _ => false
  | none => ctx.tree.isHtmlNamed n "progress" && !ctx.tree.hasAttribute n "value"

/-- Checked or selected to begin with, or the first submit button inside the
form that owns it. -/
def isDefault (n : ν) : Bool :=
  match inputType? ctx.tree.toLinks n with
  | some .checkbox | some .radio => ctx.tree.hasAttribute n "checked"
  | _ =>
    if ctx.tree.isHtmlNamed n "option" then ctx.tree.hasAttribute n "selected"
    else
      isSubmitButton ctx.tree.toLinks n &&
        match ctx.formOwner n with
        | some form => (ctx.tree.walk form).find? (isSubmitButton ctx.tree.toLinks) == some n
        | none => false

/-! ### Validity -/

/-- The value of an option: its attribute, else its text with single spaces. -/
def optionValue (n : ν) : String :=
  match ctx.tree.attribute? n "value" with
  | some value => value
  | none => " ".intercalate (words (ctx.tree.childText n))

/-- The option that a `select` stands at: the last one selected, else the first
one, unless several may be selected. -/
def chosenOption (n : ν) : Option ν :=
  let options := (ctx.tree.walk n).filter fun m => ctx.tree.isHtmlNamed m "option"
  match options.reverse.find? ctx.tree.isSelected with
  | some option => some option
  | none => if ctx.tree.hasAttribute n "multiple" then none else options.head?

/-- A value is required and missing. -/
def isValueMissing (n : ν) : Bool :=
  required? ctx.tree.toLinks n == some true &&
    if ctx.tree.isHtmlNamed n "select" then
      (ctx.chosenOption n).all fun option => (ctx.optionValue option).isEmpty
    else
      match inputType? ctx.tree.toLinks n with
      | some .checkbox => !ctx.tree.isChecked n
      | some .radio => ctx.isGroupUnchecked n
      | _ => (ctx.tree.value n).isEmpty

/-- The value does not have the form that the type of the input asks for. -/
def hasWrongForm (type : InputType) (n : ν) (value : String) : Bool :=
  match type with
  | .email =>
    if ctx.tree.hasAttribute n "multiple" then
      !(splitAt ',' value).all fun address => isMailAddress (trim address)
    else !isMailAddress (trim value)
  | .url => !isAbsoluteAddress (trim value)
  | _ => false

/-- The value does not match the pattern given for it. -/
def missesPattern (type : InputType) (n : ν) (value : String) : Bool :=
  type.takesPattern &&
    (ctx.tree.attribute? n "pattern").any fun pattern => !Pattern.accepts pattern value

/-- The value of a control breaks one of its constraints. -/
def violatesConstraints (n : ν) : Bool :=
  ctx.isValueMissing n || inRange? ctx.tree n == some false ||
    match inputType? ctx.tree.toLinks n with
    | none => false
    | some type =>
      let value := ctx.tree.value n
      !value.isEmpty && (ctx.hasWrongForm type n value || ctx.missesPattern type n value)

/-- Elements whose values are validated, unless they are barred from it. -/
def validated : List String :=
  ["button", "input", "object", "output", "select", "textarea"]

/-- The control is exempt from validation. -/
def isBarred (n : ν) : Bool :=
  let name := ctx.tree.localName n
  name == "object" || name == "output" || disabled? ctx.tree.toLinks n == some true ||
    (name == "button" && !isSubmitButton ctx.tree.toLinks n) ||
    ((inputType? ctx.tree.toLinks n).any fun type =>
      type == .hidden || type == .reset || type == .button ||
        ctx.tree.hasAttribute n "readonly") ||
    (ctx.tree.ancestors n).any fun m => ctx.tree.isHtmlNamed m "datalist"

/-- Whether the value of a control is valid; `none` where that is not asked. -/
def controlValidity? (n : ν) : Option Bool :=
  if !ctx.tree.isHtmlElement n || !validated.contains (ctx.tree.localName n) ||
      ctx.isBarred n then none
  else some (!ctx.violatesConstraints n)

/-- Validity of a control, or of all controls of a form or fieldset together. -/
def validity? (n : ν) : Option Bool :=
  if ctx.tree.isHtmlNamed n "form" || ctx.tree.isHtmlNamed n "fieldset" then
    some ((ctx.tree.walk n).all fun m => ctx.controlValidity? m != some false)
  else ctx.controlValidity? n

end DomQuery.Query.Context
