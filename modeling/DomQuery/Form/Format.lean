import DomQuery.Text.Ascii

/-!
# The form of addresses

Which texts pass for a mail address and for an absolute address of a page.
-/

namespace DomQuery.Form

open DomQuery.Text

/-- The characters, besides letters and digits, of a mail address before `@`. -/
def mailboxSymbols : List Char :=
  ".!#$%&'*+/=?^_\x60\x7b|\x7d~-".toList

/-- A label of a domain name: letters, digits and hyphens, the hyphens inside. -/
def isDomainLabel (label : List Char) : Bool :=
  !label.isEmpty && label.head? != some '-' && label.getLast? != some '-' &&
    label.all fun c => isAlnum c || c == '-'

def isMailAddress (address : String) : Bool :=
  match splitOnce '@' address with
  | none => false
  | some (mailbox, domain) =>
    !mailbox.isEmpty &&
      (mailbox.toList.all fun c => isAlnum c || mailboxSymbols.contains c) &&
      (cut (· == '.') domain.toList).all isDomainLabel

/-- A scheme, a colon, and something more. -/
def isAbsoluteAddress (address : String) : Bool :=
  match splitOnce ':' address with
  | none => false
  | some (scheme, rest) =>
    scheme.toList.head?.any Char.isAlpha &&
      (scheme.toList.all fun c => isAlnum c || c == '+' || c == '-' || c == '.') &&
      !rest.isEmpty

end DomQuery.Form
