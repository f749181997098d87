import DomQuery.Form.Input

/-!
# Disabled controls

Some elements can be disabled: by their own attribute, by the group an option
is in, or by a fieldset around them. A fieldset spares what is inside of its
first legend, but that does not protect from another fieldset further out.
-/

namespace DomQuery.Form

open DomQuery.Tree

/-- Elements that can be disabled. -/
def disableable : List String :=
  ["button", "fieldset", "input", "optgroup", "option", "select", "textarea"]

variable {ν : Type} [DecidableEq ν]

/-- The first legend among the children of a fieldset. -/
def legend? (t : Links ν) (fieldset : ν) : Option ν :=
  (t.children fieldset).find? fun c => t.isHtmlNamed c "legend"

/-- `fieldset` is a disabled fieldset, and `n` is not in its legend. -/
def disables (t : Links ν) (n fieldset : ν) : Bool :=
  t.isHtmlNamed fieldset "fieldset" && t.hasAttribute fieldset "disabled" &&
    !(legend? t fieldset).any fun legend => t.contains legend n

/-- The elements around `n` up to the first node that is none. -/
def elementAncestors (t : Links ν) (n : ν) : List ν :=
  (t.ancestors n).takeWhile t.isElement

def inDisabledFieldset (t : Links ν) (n : ν) : Bool :=
  (elementAncestors t n).any (disables t n)

/-- Whether `n` is disabled; `none` when it is not for `n` to be either. A
custom element can only be disabled by its own attribute. -/
def disabled? (t : Links ν) (n : ν) : Option Bool :=
  if !t.isHtmlElement n then none
  else
    let name := t.localName n
    let custom := isCustomElementName name
    if !disableable.contains name && !custom then none
    else if t.hasAttribute n "disabled" then some true
    else if custom then none
    else if name == "option" then
      some ((t.parent n).any fun p =>
        t.isHtmlNamed p "optgroup" && t.hasAttribute p "disabled")
    else some (name != "optgroup" && inDisabledFieldset t n)

/-- The user may change the value. -/
def isMutable (t : Links ν) (n : ν) : Bool :=
  !t.hasAttribute n "readonly" && disabled? t n != some true

/-- `n` is a control whose text can be edited, or an element whose content can. -/
def isReadWrite (t : Links ν) (n : ν) : Bool :=
  if t.isHtmlNamed n "textarea" then isMutable t n
  else
    match inputType? t n with
    | some type => type.isEditable && isMutable t n
    | none => t.isContentEditable n

/-- `n` has a placeholder, and no value to show in its place. -/
def isPlaceholderShown (t : View ν) (n : ν) : Bool :=
  (t.isHtmlNamed n "textarea" || (inputType? t.toLinks n).any InputType.takesPlaceholder) &&
    ((t.attribute? n "placeholder").any fun placeholder => !placeholder.isEmpty) &&
      (t.value n).isEmpty

/-- Whether a value is required of `n`; `none` where none can be. -/
def required? (t : Links ν) (n : ν) : Option Bool :=
  if t.isHtmlNamed n "select" || t.isHtmlNamed n "textarea" ||
      (inputType? t n).any InputType.canBeRequired then
    some (t.hasAttribute n "required")
  else none

end DomQuery.Form
