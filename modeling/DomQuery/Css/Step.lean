import DomQuery.Css.Block
import DomQuery.Text.Ascii

/-!
# Reading tokens, and the `An+B` notation

`next` takes the next token that is not white space. `readStep` reads
`an+b`: a step and an offset in any of the spellings that the grammar of
child-indexed pseudo-classes allows, where signs and digits may be glued to the
`n`. The readers work on any items that stand for tokens, so that they also
serve for values with blocks among them.
-/

namespace DomQuery.Css

open DomQuery.Text

/-- Why a text could not be read. -/
inductive ReadError where
  | unexpected (t : Token)
  | endOfInput
deriving DecidableEq, Repr

section Items

variable {α : Type} (tokenOf : α → Token)

def Token.isWhitespace : Token → Bool
  | .whitespace _ => true
  | _ => false

def skipSpace (items : List α) : List α :=
  items.dropWhile fun item => (tokenOf item).isWhitespace

/-- The next item that is not white space, and those after it. -/
def next (items : List α) : Except ReadError (α × List α) :=
  match skipSpace tokenOf items with
  | item :: rest => .ok (item, rest)
  | [] => .error .endOfInput

/-- Nothing but white space is left. -/
def expectEnd (items : List α) : Except ReadError Unit :=
  match skipSpace tokenOf items with
  | item :: _ => .error (.unexpected (tokenOf item))
  | [] => .ok ()

/-- The integer `-digits` of a name `n-digits`, if `name` is one. -/
def dashDigits? (name : String) : Option Int :=
  match name.toList with
  | n :: '-' :: d :: ds =>
    if (n == 'n' || n == 'N') && (d :: ds).all Char.isDigit then
      some (Numeral.saturate (-(Numeral.valueOf ((d :: ds).map fun c => c.toNat - 48) : Int)))
    else none
  | _ => none

/-- The number after a sign that stands alone: it may not have its own. -/
def readUnsigned (negative : Bool) (items : List α) : Except ReadError (Int × List α) := do
  let (item, rest) ← next tokenOf items
  match tokenOf item with
  | .number value =>
    match value.sign, value.int? with
    | none, some b => return (if negative then -b else b, rest)
    | _, _ => throw (.unexpected (tokenOf item))
  | t => throw (.unexpected t)

/-- The optional offset after `n`. -/
def readOffset (items : List α) : Except ReadError (Int × List α) :=
  match next tokenOf items with
  | .error _ => .ok (0, items)
  | .ok (item, rest) =>
    match tokenOf item with
    | .delim '+' => readUnsigned tokenOf false rest
    | .delim '-' => readUnsigned tokenOf true rest
    | .number value =>
      match value.sign, value.int? with
      | some _, some b => .ok (b, rest)
      | _, _ => .ok (0, items)
    | _ => .ok (0, items)

/-- What follows a step `a` with the name `name` glued to it, where `name`
is `n`, `n-` or `n-digits`. -/
def readAfterStep (a : Int) (name : String) (rest : List α) :
    Except ReadError ((Int × Int) × List α) := do
  match lower name with
  | "n" =>
    let (b, rest) ← readOffset tokenOf rest
    return ((a, b), rest)
  | "n-" =>
    let (b, rest) ← readUnsigned tokenOf true rest
    return ((a, b), rest)
  | _ =>
    match dashDigits? name with
    | some b => return ((a, b), rest)
    | none => throw (.unexpected (.ident name))

/-- `-n` and what may follow it; the fault of a name is the whole name. -/
def readNamed (name : String) (rest : List α) : Except ReadError ((Int × Int) × List α) :=
  match lower name with
  | "even" => .ok ((2, 0), rest)
  | "odd" => .ok ((2, 1), rest)
  | _ =>
    match name.toList with
    | '-' :: tail =>
      let tail := String.ofList tail
      if lower tail == "n" || lower tail == "n-" || (dashDigits? tail).isSome then
        readAfterStep tokenOf (-1) tail rest
      else .error (.unexpected (.ident name))
    | _ => readAfterStep tokenOf 1 name rest

/-- `an+b` at the head of `items`: the pair `(a, b)` and what follows. -/
def readStep (items : List α) : Except ReadError ((Int × Int) × List α) := do
  let (item, rest) ← next tokenOf items
  match tokenOf item with
  | .number value =>
    match value.int? with
    | some b => return ((0, b), rest)
    | none => throw (.unexpected (tokenOf item))
  | .dimension value unit =>
    match value.int? with
    | some a => readAfterStep tokenOf a unit rest
    | none => throw (.unexpected (tokenOf item))
  | .ident name => readNamed tokenOf name rest
  | .delim '+' =>
    match rest with
    | [] => throw .endOfInput
    | item :: rest =>
      match tokenOf item with
      | .ident name => readAfterStep tokenOf 1 name rest
      | t => throw (.unexpected t)
  | t => throw (.unexpected t)

end Items

end DomQuery.Css
