import DomQuery.Text.Bidi
import DomQuery.Text.Composition
import DomQuery.Text.Joining
import DomQuery.Url.Mapping
import DomQuery.Url.Punycode

/-!
# Domain names

A domain name is a list of labels. It can be written with characters that stand
for others, and with labels in ASCII that stand for labels beyond it. `labels?`
reads all of these, and refuses names that could be mistaken for others or that
cannot be sent.
-/

namespace DomQuery.Url

open DomQuery.Text

/-- Characters of ASCII that no domain name has. -/
def isForbidden (c : Char) : Bool :=
  c.toNat ≤ 0x20 || c.toNat == 0x7F || "%#/:<>?@[\\]^|".toList.contains c

/-- The text that is meant by `cs`, in composed form. -/
def meant? (cs : List Char) : Option (List Char) :=
  match cs.mapM meaning? with
  | none => none
  | some texts =>
    let text := composed texts.flatten
    if text.any isForbidden then none else some text

/-! ### Joiners -/

/-- The nearest character that is not joined across is in `letters`. -/
def meets (letters : CharSet) (cs : List Char) : Bool :=
  (cs.dropWhile joinsAcross.contains).head?.any letters.contains

/-- A joiner stands behind a virama, or keeps apart two letters that would join.
What is before it comes with the last character first. -/
def joinerFits (joiner : Char) (before after : List Char) : Bool :=
  match before with
  | [] => false
  | last :: _ =>
    combiningClass last == virama ||
      (joiner == '\u200c' && meets joinsNext before && meets joinsBefore after)

/-- All joiners in `cs` fit. -/
def joinersFit (before : List Char) : List Char → Bool
  | [] => true
  | c :: cs => (!isJoiner c || joinerFits c before cs) && joinersFit (c :: before) cs

/-! ### Labels -/

def markChars : CharSet :=
  .ofCategories ["Mn", "Mc", "Me"]

/-- Longer labels beyond ASCII are not sent. -/
def maxLabel : Nat := 1000

/-- Longer labels in ASCII are not read. -/
def maxDigits : Nat := 2000

/-- A label that can be shown and sent. -/
def isLabel (label : List Char) : Bool :=
  !label.head?.any markChars.contains && joinersFit [] label &&
    (label.length ≤ maxLabel || label.all fun c => c.toNat < 0x80)

/-- The label that a piece of a name stands for. A piece in ASCII has to stand for
a label beyond it, in the form in which it would be read. -/
def label? (piece : List Char) : Option (List Char) :=
  match piece with
  | 'x' :: 'n' :: '-' :: '-' :: rest =>
    if rest.isEmpty || rest.getLast? == some '-' || maxDigits < rest.length ||
        rest.any fun c => 0x7F < c.toNat then none
    else
      match fromPunycode? rest with
      | none => none
      | some label => if meant? label == some label && isLabel label then some label else none
  | _ => if isLabel piece then some piece else none

/-! ### Order of the characters -/

/-- Classes of characters without a direction that any label may have. -/
def weakClasses : List String := ["EN", "ES", "CS", "ET", "ON", "BN", "NSM"]

def ltrChars : CharSet :=
  .ofBidi ("L" :: weakClasses)

def ltrEnds : CharSet :=
  .ofBidi ["L", "EN"]

def rtlChars : CharSet :=
  .ofBidi (["R", "AL", "AN"] ++ weakClasses)

def rtlEnds : CharSet :=
  .ofBidi ["R", "AL", "AN", "EN"]

/-- Characters that only right-to-left text has. -/
def rtlOnly : CharSet :=
  .ofBidi ["R", "AL", "AN"]

def europeanDigits : CharSet :=
  .ofBidi ["EN"]

def arabicDigits : CharSet :=
  .ofBidi ["AN"]

def attachedMarks : CharSet :=
  .ofBidi ["NSM"]

/-- The last character that is no mark. -/
def lastBase? (label : List Char) : Option Char :=
  label.reverse.find? fun c => !attachedMarks.contains c

/-- A label that keeps its order beside labels of the other direction. -/
def keepsOrder (label : List Char) : Bool :=
  match label.head? with
  | none => true
  | some first =>
    if leftToRightChars.contains first then
      label.all ltrChars.contains && (lastBase? label).any ltrEnds.contains
    else
      rightToLeftChars.contains first && label.all rtlChars.contains &&
        (lastBase? label).any rtlEnds.contains &&
        !(label.any europeanDigits.contains && label.any arabicDigits.contains)

/-- The labels of a name. When one of them has right-to-left text, all of them
have to keep their order. -/
def labels? (name : List Char) : Option (List (List Char)) :=
  match meant? name with
  | none => none
  | some text =>
    match (cut (· == '.') text).mapM label? with
    | none => none
    | some labels =>
      if labels.flatten.any rtlOnly.contains && !labels.all keepsOrder then none
      else some labels

end DomQuery.Url
