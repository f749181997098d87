import DomQuery.Query.Form
import DomQuery.Query.Nth

/-!
# Keywords

The pseudo-classes without an argument: what an element is, where it stands, and
what state it is in.
-/

namespace DomQuery.Query.Context

open DomQuery.Form DomQuery.Selector DomQuery.Tree

variable {ν : Type} [DecidableEq ν] (ctx : Context ν)

/-- A child of a document. -/
def isRoot (n : ν) : Bool :=
  (ctx.tree.parent n).any fun p => ctx.tree.kind p == .document

/-- Without element children and without text. -/
def isEmpty (n : ν) : Bool :=
  (ctx.tree.children n).all fun c =>
    match ctx.tree.kind c with
    | .element => false
    | .text => ((ctx.tree.textData c).getD "").isEmpty
    | _ => true

/-- The first and the last of its kind. -/
def isOnly (ofType : Bool) (n : ν) : Eval ν Bool := do
  if ← ctx.isNth ⟨false, ofType, 0, 1⟩ none n then ctx.isNth ⟨true, ofType, 0, 1⟩ none n
  else return false

/-- The element with the focus. -/
def focused : Option ν :=
  ctx.document.bind ctx.tree.activeElement

/-- The element that the address of the document points to. -/
def target : Option ν :=
  match ctx.document.bind ctx.tree.fragment with
  | some fragment => if fragment.isEmpty then none else ctx.elementById fragment
  | none => none

/-- The element that a selector is relative to: the context, if it is an element
outside of shadow trees, or the root of the document, if it is none. -/
def isScope (n : ν) : Bool :=
  if ctx.tree.isElement ctx.node then !ctx.shadow && n == ctx.node else ctx.isRoot n

/-- A hyperlink. -/
def isLink (n : ν) : Bool :=
  ctx.tree.isHtmlElement n &&
    (ctx.tree.localName n == "a" || ctx.tree.localName n == "area") &&
      ctx.tree.hasAttribute n "href"

/-- Whether `n` is open, if it is an element that can be opened and closed. -/
def open? (n : ν) : Option Bool :=
  if ctx.tree.isHtmlElement n &&
      (ctx.tree.localName n == "details" || ctx.tree.localName n == "dialog") then
    some (ctx.tree.hasAttribute n "open")
  else none

def holdsKeyword (k : Keyword) (n : ν) : Eval ν Bool :=
  match k with
  | .anyLink => return ctx.isLink n
  | .checked => return Form.isChecked ctx.tree n
  | .closed => return ctx.open? n == some false
  | .default => return ctx.isDefault n
  | .defined => return !ctx.tree.isHtmlElement n || ctx.tree.isDefined n
  | .disabled => return disabled? ctx.tree.toLinks n == some true
  | .empty => return ctx.isEmpty n
  | .enabled => return disabled? ctx.tree.toLinks n == some false
  | .focus | .focusVisible => return ctx.focused == some n
  | .focusWithin => return ctx.focused.any (ctx.tree.contains n)
  | .inRange => return inRange? ctx.tree n == some true
  | .indeterminate => return ctx.isIndeterminate n
  | .invalid => return ctx.validity? n == some false
  | .onlyChild => ctx.isOnly false n
  | .onlyOfType => ctx.isOnly true n
  | .open => return ctx.open? n == some true
  | .optional => return required? ctx.tree.toLinks n == some false
  | .outOfRange => return inRange? ctx.tree n == some false
  | .placeholderShown => return isPlaceholderShown ctx.tree n
  | .readOnly => return !isReadWrite ctx.tree.toLinks n
  | .readWrite => return isReadWrite ctx.tree.toLinks n
  | .required => return required? ctx.tree.toLinks n == some true
  | .root => return ctx.isRoot n
  | .scope => return ctx.isScope n
  | .target => return ctx.target == some n
  | .targetWithin => return ctx.target.any (ctx.tree.contains n)
  | .valid => return ctx.validity? n == some true

end DomQuery.Query.Context
