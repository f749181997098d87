import DomQuery.Css.Step
import DomQuery.Remember
import DomQuery.Selector.Basic

/-!
# Reading selectors

The text of a selector is first cut into component values, and each value is
then read by its kind: a bracketed block becomes an attribute selector, a block
after a name becomes the argument that the name asks for. Reading goes from the
innermost blocks outwards, so every function below works on one level only.

Only the grammar is checked. Names of pseudo-classes and sequences of
combinators are looked at when a selector is split into chains. The lists
inside `:is()` and `:where()` are forgiving: a branch that cannot be read is
left out.
-/

namespace DomQuery.Selector

open DomQuery.Css DomQuery.Text

/-- A reader that numbers the lists it begins. The count goes on after a
failure, so a dropped branch leaves its numbers unused. -/
abbrev Read := ExceptT ReadError (StateM Nat)

/-- The next list number. -/
def freshId : Read ListId := do
  let n ← get
  set (n + 1)
  return ⟨n⟩

/-- A component value as the selector grammar sees it. -/
inductive Item where
  | token (t : Token)
  /-- `[…]`, already read. -/
  | bracketed (contents : Except ReadError AttributeSelector)
  /-- `name(…)` with readers for its uses. -/
  | function (name : String) (argument : Read Argument) (source : String)
  /-- A block that no selector has. -/
  | block (opener : Token)

/-- The token an item begins with. -/
def Item.first : Item → Token
  | .token t => t
  | .bracketed _ => .openSquare
  | .function name _ _ => .function name
  | .block opener => opener

def Item.isComma (i : Item) : Bool :=
  i.first == .comma

/-- The items between commas; one more group than there are commas. -/
def splitCommas : List Item → List (List Item)
  | [] => [[]]
  | i :: rest =>
    if i.isComma then [] :: splitCommas rest
    else
      match splitCommas rest with
      | [] => [[i]]
      | group :: groups => (i :: group) :: groups

/-! ### Attribute selectors -/

/-- `|name`, the bar already read. -/
def barredName? : List Item → Option (String × List Item)
  | .token (.ident name) :: rest => some (name, rest)
  | _ => none

/-- The fault of a name that should stand here, white space included. -/
def faultAt : List Item → ReadError
  | i :: _ => .unexpected i.first
  | [] => .endOfInput

def expectBarredName (items : List Item) : Except ReadError (String × List Item) :=
  match barredName? items with
  | some found => .ok found
  | none => .error (faultAt items)

/-- The possibly qualified name of an attribute selector. -/
def readAttributeName (items : List Item) :
    Except ReadError ((Option Qualifier × String) × List Item) := do
  let (item, rest) ← next Item.first items
  match item with
  | .token (.ident name) =>
    match rest with
    | .token (.delim '|') :: tail =>
      match barredName? tail with
      | some (localName, tail) => return ((some (.named name), localName), tail)
      | none => return ((none, name), rest)
    | _ => return ((none, name), rest)
  | .token (.delim '*') =>
    match rest with
    | .token (.delim '|') :: tail =>
      let (localName, tail) ← expectBarredName tail
      return ((some .any, localName), tail)
    | _ => throw (faultAt rest)
  | .token (.delim '|') =>
    let (localName, rest) ← expectBarredName rest
    return ((some .none, localName), rest)
  | _ => throw (.unexpected item.first)

def operator? : Token → Option Operator
  | .delim '=' => some .equals
  | .includeMatch => some .includes
  | .dashMatch => some .dashMatch
  | .prefixMatch => some .startsWith
  | .suffixMatch => some .endsWith
  | .substringMatch => some .contains
  | _ => none

/-- The optional flag at the end of an attribute selector. -/
def readFlag (items : List Item) : Except ReadError (Option String × List Item) :=
  match next Item.first items with
  | .error _ => .ok (none, [])
  | .ok (item, rest) =>
    match item.first with
    | .ident flag => .ok (some flag, rest)
    | t => .error (.unexpected t)

/-- What stands between the square brackets of an attribute selector. -/
def readAttribute (items : List Item) : Except ReadError AttributeSelector := do
  let ((qualifier, name), rest) ← readAttributeName items
  match next Item.first rest with
  | .error _ => return ⟨qualifier, name, none⟩
  | .ok (item, rest) =>
    match operator? item.first with
    | none => throw (.unexpected item.first)
    | some operator =>
      let (item, rest) ← next Item.first rest
      match item.first with
      | .ident value | .quoted value =>
        let (flag, rest) ← readFlag rest
        expectEnd Item.first rest
        return ⟨qualifier, name, some ⟨operator, value, flag⟩⟩
      | t => throw (.unexpected t)

/-! ### Complex selectors -/

/-- The last component read is not a combinator. -/
def endsCompound : List Component → Bool
  | .combinator _ :: _ => false
  | _ :: _ => true
  | [] => false

/-- `components`, last first, with a descendant combinator if white space
separates them from what comes. -/
def joined (space : Bool) (components : List Component) : List Component :=
  if space && endsCompound components then .combinator .descendant :: components
  else components

/-- The type selector with `qualifier` whose name, the bar already read, stands
at the head of the items. -/
def barredType? (qualifier : Qualifier) : List Item → Option (Component × List Item)
  | .token (.ident name) :: rest => some (.type ⟨some qualifier, name⟩, rest)
  | .token (.delim '*') :: rest => some (.type ⟨some qualifier, "*"⟩, rest)
  | _ => none

/-- The type selector that begins with `name` or, for `none`, with `*`. A bar
that no name follows is left where it is. -/
def readType (name : Option String) (rest : List Item) : Component × List Item :=
  let plain : Component := .type ⟨none, name.getD "*"⟩
  match rest with
  | .token (.delim '|') :: tail =>
    (barredType? (match name with
      | some p => .named p
      | none => .any) tail).getD (plain, rest)
  | _ => (plain, rest)

/-- What follows a colon. -/
def readPseudo : List Item → Read (Component × List Item)
  | .token .colon :: .token (.ident name) :: rest =>
    return (.pseudoElement (lower name) none, rest)
  | .token .colon :: .function name _ source :: rest =>
    return (.pseudoElement (lower name) (some source), rest)
  | .token .colon :: rest => throw (faultAt rest)
  | .token (.ident name) :: rest => return (.pseudoClass (lower name) none, rest)
  | .function name argument _ :: rest =>
    return (.pseudoClass (lower name) (some (← argument)), rest)
  | rest => throw (faultAt rest)

/-- The simple selector that begins with `item`. -/
def readSimple (item : Item) (rest : List Item) : Read (Component × List Item) :=
  match item with
  | .token (.ident name) => return readType (some name) rest
  | .token (.delim '*') => return readType none rest
  | .token (.delim '|') =>
    match barredType? .none rest with
    | some found => return found
    | none => throw (faultAt rest)
  | .token (.idHash name) => return (.id name, rest)
  | .token (.delim '.') =>
    match rest with
    | .token (.ident name) :: rest => return (.className name, rest)
    | rest => throw (faultAt rest)
  | .bracketed contents =>
    match contents with
    | .ok a => return (.attr a, rest)
    | .error e => throw e
  | .token .colon => readPseudo rest
  | _ => throw (.unexpected item.first)

def combinator? : Item → Option Combinator
  | .token (.delim '>') => some .child
  | .token (.delim '+') => some .nextSibling
  | .token (.delim '~') => some .subsequentSibling
  | _ => none

/-- Reads one branch: `components` is what was read so far, last first, and
`space` tells whether white space followed it. Every step takes an item, so
the number of items is fuel enough. -/
def readComponents : Nat → Bool → List Component → List Item → Read (List Component)
  | _, _, [], [] => throw .endOfInput
  | _, _, components, [] => return components.reverse
  | 0, _, components, _ => return components.reverse
  | fuel + 1, space, components, item :: rest =>
    if item.first.isWhitespace then readComponents fuel true components rest
    else
      match combinator? item with
      | some c => readComponents fuel false (.combinator c :: components) rest
      | none => do
        let (component, rest) ← readSimple item rest
        readComponents fuel false (component :: joined space components) rest

/-- One branch of a list. -/
def readComplex (items : List Item) : Read Complex :=
  .mk <$> readComponents items.length false [] items

/-! ### Lists and arguments -/

/-- A selector list of branches between commas. -/
def readList (forgiving : Bool) (items : List Item) : Read SelectorList := do
  let id ← freshId
  let branches := (splitCommas items).map readComplex
  if forgiving then
    let found ← branches.mapM attempt
    return .mk id (found.filterMap fun s => s)
  else
    return .mk id (← branches.mapM fun branch => branch)

/-- The text of one language range: names, strings and stars put together. -/
def readRange : List Item → Except ReadError String
  | [] => .ok ""
  | item :: rest =>
    match item.first with
    | .ident part | .quoted part => (part ++ ·) <$> readRange rest
    | .delim '*' => ("*" ++ ·) <$> readRange rest
    | .whitespace _ => readRange rest
    | t => .error (.unexpected t)

/-- A single keyword. -/
def readKeyword (items : List Item) : Except ReadError String := do
  let (item, rest) ← next Item.first items
  match item.first with
  | .ident name =>
    expectEnd Item.first rest
    return lower name
  | t => throw (.unexpected t)

def lift {α : Type} (result : Except ReadError α) : Read α :=
  match result with
  | .ok a => return a
  | .error e => throw e

/-- What follows the word `of`, if it comes next. -/
def afterOf? (items : List Item) : Option (List Item) :=
  match next Item.first items with
  | .ok (.token (.ident name), rest) => if lower name == "of" then some rest else none
  | _ => none

/-- `an+b`, and a list after `of` where `allowOf` permits one. -/
def readNth (allowOf : Bool) (items : List Item) : Read Argument := do
  let ((a, b), rest) ← lift (readStep Item.first items)
  match (if allowOf then afterOf? rest else none) with
  | some items => return .nth a b (some (← readList false items))
  | none =>
    lift (expectEnd Item.first rest)
    return .nth a b none

/-- The argument of the pseudo-class `name`, which is in lower case. -/
def readArgument (name : String) (items : List Item) (source : String) : Read Argument :=
  if name == "is" || name == "where" then .selectors <$> readList true items
  else if name == "not" || name == "has" || name == "host" || name == "host-context" then
    .selectors <$> readList false items
  else if name == "nth-child" || name == "nth-last-child" then readNth true items
  else if name == "nth-of-type" || name == "nth-last-of-type" then readNth false items
  else if name == "lang" then .words <$> lift ((splitCommas items).mapM readRange)
  else if name == "dir" || name == "state" then
    (fun word => .words [word]) <$> lift (readKeyword items)
  else return .raw source

mutual

def Item.ofValue : Value → Item
  | .token t => .token t
  | .block opener contents source =>
    let items := Item.ofValues contents
    match opener with
    | .openSquare => .bracketed (readAttribute items)
    | .function name =>
      let source := trim (String.ofList source)
      .function name (readArgument (lower name) items source) source
    | opener => .block opener

def Item.ofValues : List Value → List Item
  | [] => []
  | v :: vs => Item.ofValue v :: Item.ofValues vs

end

/-- A selector list, or what kept the text from being one. -/
def SelectorList.parse (text : String) : Except ReadError SelectorList :=
  (readList false (Item.ofValues (values text))).run.run 0 |>.1

end DomQuery.Selector
