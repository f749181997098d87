/-!
# Names of pseudo-classes and pseudo-elements

Which names there are. A name can be evaluated, or recognized and left out on
purpose, as all vendor names are, or unknown.
-/

namespace DomQuery.Selector

/-- Pseudo-classes without an argument that ask for the state or the place of an
element. -/
inductive Keyword where
  | anyLink
  | checked
  | closed
  | default
  | defined
  | disabled
  | empty
  | enabled
  | focus
  | focusVisible
  | focusWithin
  | inRange
  | indeterminate
  | invalid
  | onlyChild
  | onlyOfType
  | open
  | optional
  | outOfRange
  | placeholderShown
  | readOnly
  | readWrite
  | required
  | root
  | scope
  | target
  | targetWithin
  | valid
deriving DecidableEq, Repr

def Keyword.ofName? : String → Option Keyword
  | "any-link" | "link" => some .anyLink
  | "checked" => some .checked
  | "closed" => some .closed
  | "default" => some .default
  | "defined" => some .defined
  | "disabled" => some .disabled
  | "empty" => some .empty
  | "enabled" => some .enabled
  | "focus" => some .focus
  | "focus-visible" => some .focusVisible
  | "focus-within" => some .focusWithin
  | "in-range" => some .inRange
  | "indeterminate" => some .indeterminate
  | "invalid" => some .invalid
  | "only-child" => some .onlyChild
  | "only-of-type" => some .onlyOfType
  | "open" => some .open
  | "optional" => some .optional
  | "out-of-range" => some .outOfRange
  | "placeholder-shown" => some .placeholderShown
  | "read-only" => some .readOnly
  | "read-write" => some .readWrite
  | "required" => some .required
  | "root" => some .root
  | "scope" => some .scope
  | "target" => some .target
  | "target-within" => some .targetWithin
  | "valid" => some .valid
  | _ => none

/-- Names that belong to one browser. -/
def isVendorName (name : String) : Bool :=
  name.startsWith "-webkit-" || name.startsWith "-moz-" || name.startsWith "-ms-"

/-- Pseudo-classes that are recognized and not evaluated. -/
def unsupportedClasses : List String :=
  ["active", "autofill", "blank", "buffering", "current", "fullscreen", "future",
    "has-slotted", "hover", "modal", "muted", "past", "paused", "picture-in-picture",
    "playing", "popover-open", "seeking", "stalled", "state", "user-invalid",
    "user-valid", "volume-locked"]

def isUnsupportedClass (name : String) : Bool :=
  unsupportedClasses.contains name || isVendorName name

/-- Pseudo-elements that are recognized. None is ever generated. -/
def knownElements : List String :=
  ["after", "backdrop", "before", "cue", "cue-region", "file-selector-button",
    "first-letter", "first-line", "marker", "part", "placeholder", "selection",
    "slotted", "target-text"]

def isKnownElement (name : String) : Bool :=
  knownElements.contains name || isVendorName name

/-- Pseudo-elements that may be written with one colon. -/
def singleColonElements : List String :=
  ["after", "before", "first-letter", "first-line"]

end DomQuery.Selector
