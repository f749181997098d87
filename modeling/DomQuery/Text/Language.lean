import DomQuery.Text.Ascii

/-!
# Language ranges

A range such as `de-*-DE` selects language tags by their subtags. The first
subtag of the tag has to equal that of the range; the others of the range have
to occur in the tag in their order, with any subtags between them. A star
stands for any first subtag and adds nothing later on.
-/

namespace DomQuery.Text

/-- A range of language tags. -/
inductive LanguageRange where
  /-- Any language at all, but not the empty tag. -/
  | any
  /-- The empty tag only. -/
  | empty
  /-- The first subtag, `none` for a star, and the later ones without stars. -/
  | extended (first : Option String) (later : List String)
  /-- Not a range; selects nothing. -/
  | invalid
deriving DecidableEq, Repr

/-- The ASCII letter or digit that `c` equals up to case, if there is one. Two
letters beyond ASCII count as cases of `s` and `k`. -/
def caseFold (c : Char) : Char :=
  if c == '\u017F' then 's' else if c == '\u212A' then 'k' else c.toLower

namespace LanguageRange

/-- A subtag of a range: letters and digits, or a star. -/
def isSubtag (subtag : String) : Bool :=
  subtag == "*" || (!subtag.isEmpty && subtag.toList.all isAlnum)

/-- The range that `text` describes. -/
def ofText (text : String) : LanguageRange :=
  if text == "*" then .any
  else if text == "" then .empty
  else
    match splitAt '-' text with
    | first :: later =>
      if (first :: later).all isSubtag then
        .extended (if first == "*" then none else some first) (later.filter (· != "*"))
      else .invalid
    | [] => .invalid

/-- Subtags that differ in case at most. -/
def sameSubtag (s t : List Char) : Bool :=
  s.map caseFold == t.map caseFold

/-- `later` occur among `subtags` in their order. -/
def inOrder : List (List Char) → List (List Char) → Bool
  | [], _ => true
  | _ :: _, [] => false
  | s :: later, t :: subtags =>
    if sameSubtag s t then inOrder later subtags else inOrder (s :: later) subtags

/-- A nonempty run of letters and digits. -/
def isWord (subtag : List Char) : Bool :=
  !subtag.isEmpty && subtag.all fun c => isAlnum (caseFold c)

/-- The range selects the language `tag`. -/
def selects (range : LanguageRange) (tag : String) : Bool :=
  match range with
  | .any => !tag.isEmpty
  | .empty => tag.isEmpty
  | .invalid => false
  | .extended first later =>
    match cut (· == '-') tag.toList with
    | [] => false
    | head :: rest =>
      (match first with
        | some s => sameSubtag s.toList head
        | none => !head.isEmpty && head.all fun c => (caseFold c).isAlpha) &&
      rest.all isWord && inOrder (later.map String.toList) rest

end LanguageRange

end DomQuery.Text
