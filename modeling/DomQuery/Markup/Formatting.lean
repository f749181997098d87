import DomQuery.Markup.Builder

/-!
# Words across blocks

Elements that mark up words may overlap with blocks and with each other. When a
block cuts one off it is opened again inside; when its end tag comes too late,
the tree is rearranged so that both nest.
-/

namespace DomQuery.Markup

open DomQuery.Document DomQuery.Text DomQuery.Tree

/-- The entry needs no opening. -/
def isMarkerOrOpen (b : Builder) : Formatting → Bool
  | .marker => true
  | .element e _ => b.openElements.any fun o => o.node == e.node

/-- Opens the elements of entries again, the first one last in the list. -/
def reopen : List Formatting → Build (List Formatting)
  | [] => return []
  | .marker :: rest => return .marker :: (← reopen rest)
  | .element _ tag :: rest => do
    let rest ← reopen rest
    return .element (← openElement tag) tag :: rest

/-- Opens again what was cut off since the last marker. -/
def reopenFormatting : Build Unit := do
  let b ← get
  let (closed, rest) := b.formatting.span fun f => !isMarkerOrOpen b f
  let reopened ← reopen closed
  modify fun b => { b with formatting := reopened ++ rest }

/-- The same tag, attributes in any order. -/
def isSameTag (s t : Tag) : Bool :=
  s.name == t.name && s.attributes.length == t.attributes.length &&
    s.attributes.all fun a => t.attributes.contains a

/-- The entries after the last marker, last first. -/
def sinceMarker (formatting : List Formatting) : List (OpenElement × Tag) :=
  (formatting.takeWhile fun f => f != .marker).filterMap fun
    | .element e tag => some (e, tag)
    | .marker => none

/-- The entry is for the node `n`. -/
def Formatting.isFor (n : NodeId) : Formatting → Bool
  | .element e _ => e.node == n
  | .marker => false

def forget (n : NodeId) : Build Unit :=
  modify fun b => { b with formatting := b.formatting.eraseP fun f => f.isFor n }

/-- Opens an element that marks up words. Of entries for the same tag only the
last three are kept. -/
def openFormatting (tag : Tag) : Build Unit := do
  let same := (sinceMarker (← get).formatting).filter fun (_, t) => isSameTag tag t
  if same.length ≥ 3 then
    match same.getLast? with
    | some (e, _) => forget e.node
    | none => pure ()
  let e ← openElement tag
  modify fun b => { b with formatting := .element e tag :: b.formatting }

/-! ### End tags that come too late -/

/-- Closes the innermost element with this name, unless a special element is in
the way. -/
def closeNamed (name : String) : Build Unit := do
  let found := (← get).openElements.find? fun e => e.isNamed name || e.isOneOf special
  match found with
  | some e =>
    if e.isNamed name then
      closeImpliedExcept name
      popTo fun o => o.node == e.node
      pop
  | none => pure ()

/-- The place in the list of formatting where an element goes. -/
inductive Bookmark where
  /-- In place of the entry for this node. -/
  | replace (n : NodeId)
  /-- After the entry for this node. -/
  | after (n : NodeId)

/-- Puts `entry` at a bookmark, in a list with the last entry first. -/
def putEntry (mark : Bookmark) (entry : Formatting) : List Formatting → List Formatting
  | [] => []
  | f :: rest =>
    match mark with
    | .replace n => if f.isFor n then entry :: rest else f :: putEntry mark entry rest
    | .after n => if f.isFor n then entry :: f :: rest else f :: putEntry mark entry rest

/-- Puts a copy of `e` in its place among the open elements and the formatting. -/
def renew (e : OpenElement) (tag : Tag) : Build OpenElement := do
  let copy ← createElement .html tag.name tag.plainAttributes
  modify fun b =>
    { b with
      openElements := b.openElements.map fun o => if o.node == e.node then copy else o
      formatting := putEntry (.replace e.node) (.element copy tag) b.formatting }
  return copy

/-- Moves `n` to the end of `p`. -/
def moveInto (p n : NodeId) : Build Unit := do
  edit (remove n)
  edit (append p n)

/-- Goes up through the open elements between a block and the element to be
closed, innermost first. Each that marks up words is copied, and takes in what
was built so far; the others are closed, and so are all after the third.
`count` are done, and `last` is the outermost so far. -/
def copyBetween (count : Nat) (block : NodeId) (last : NodeId) (mark : Bookmark) :
    List OpenElement → Build (NodeId × Bookmark)
  | [] => return (last, mark)
  | e :: outer => do
    let entry := (← get).formatting.find? fun f => f.isFor e.node
    match entry with
    | some (.element _ tag) =>
      if count ≥ 3 then
        forget e.node
        removeOpen e.node
        copyBetween (count + 1) block last mark outer
      else
        let copy ← renew e tag
        let mark := if last == block then .after copy.node else mark
        moveInto copy.node last
        copyBetween (count + 1) block copy.node mark outer
    | _ =>
      removeOpen e.node
      copyBetween (count + 1) block last mark outer

/-- Inserts `e` directly inside of the open element `block`. -/
def openWithin (block : NodeId) (e : OpenElement) : List OpenElement → List OpenElement
  | [] => []
  | o :: outer => if o.node == block then e :: o :: outer else o :: openWithin block e outer

/-- Closes `e`, which is open around `block`: the elements between them end
before the block and go on inside of it, and so does `e` itself. `inner` are the
open elements inside of `e`. -/
def closeAcross (e : OpenElement) (tag : Tag) (block : OpenElement) (inner : List OpenElement)
    (parent : OpenElement) : Build Unit := do
  let between := (inner.dropWhile fun o => o.node != block.node).drop 1
  let (last, mark) ← copyBetween 0 block.node block.node (.replace e.node) between
  edit (remove last)
  insertAt (← placeFor parent) (.node last)
  let copy ← createElement .html tag.name tag.plainAttributes
  edit (moveChildren block.node copy.node)
  edit (append block.node copy.node)
  modify fun b => { b with formatting := putEntry mark (.element copy tag) b.formatting }
  forget e.node
  removeOpen e.node
  modify fun b => { b with openElements := openWithin block.node copy b.openElements }

/-- One round of closing the element that marks up words under `name`; `false`
when there is nothing more to do. -/
def closeRound (name : String) : Build Bool := do
  let b ← get
  match (sinceMarker b.formatting).find? fun (_, t) => t.name == name with
  | none =>
    closeNamed name
    return false
  | some (e, tag) =>
    let inner := b.openElements.takeWhile fun o => o.node != e.node
    match b.openElements.drop inner.length with
    | [] =>
      forget e.node
      return false
    | _ :: outer =>
      if !inScope isScopeEnd (fun o => o.node == e.node) b.openElements then return false
      else
        match inner.reverse.find? fun o => o.isOneOf special, outer.head? with
        | some block, some parent =>
          closeAcross e tag block inner parent
          return true
        | _, _ =>
          setOpen outer
          forget e.node
          return false

/-- Closes elements that mark up words, at most so many times. -/
def closeRounds (name : String) : Nat → Build Unit
  | 0 => return ()
  | n + 1 => do
    if ← closeRound name then closeRounds name n

/-- Closes what is marked up under `name`. -/
def closeFormatting (name : String) : Build Unit := do
  let b ← get
  let isPlain := b.openElements.head?.any fun e =>
    e.isNamed name && !b.formatting.any fun f => f.isFor e.node
  if isPlain then pop else closeRounds name 8

/-- Ends a link that is still open where another one begins. -/
def closeOpenLink : Build Unit := do
  match (sinceMarker (← get).formatting).find? fun (e, _) => e.isNamed "a" with
  | some (e, _) =>
    closeFormatting "a"
    forget e.node
    removeOpen e.node
  | none => pure ()

end DomQuery.Markup
