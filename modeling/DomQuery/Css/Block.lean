import DomQuery.Css.Lexer

/-!
# Component values

The tokens of a text with every bracket matched: a block holds what stands
between its brackets, and the text it was read from. A bracket that closes
nothing stays a token, and blocks still open at the end of the text end there.
Comments are dropped from the values but not from the text.
-/

namespace DomQuery.Css

/-- A token, or a block with its contents and their source text. -/
inductive Value where
  | token (t : Token)
  | block (opener : Token) (contents : List Value) (source : List Char)
deriving Repr

/-- A block that is still open: what it holds so far, last first. -/
structure Frame where
  opener : Token
  closer : Token
  /-- The text of the opening token. -/
  lead : List Char
  contents : List Value
  source : List (List Char)
deriving Repr

namespace Frame

/-- The text read so far, in order. -/
def text (f : Frame) : List Char :=
  f.source.reverse.flatten

def value (f : Frame) : Value :=
  .block f.opener f.contents.reverse f.text

end Frame

/-- The values read so far on the outermost level, and the open blocks from the
innermost out. -/
structure Nesting where
  values : List Value
  frames : List Frame
deriving Repr

namespace Nesting

def empty : Nesting := ⟨[], []⟩

/-- Adds a value with its text to the innermost open block. -/
def push (n : Nesting) (v : Option Value) (text : List Char) : Nesting :=
  match n.frames with
  | [] => ⟨v.toList ++ n.values, []⟩
  | f :: fs =>
    ⟨n.values, { f with contents := v.toList ++ f.contents, source := text :: f.source } :: fs⟩

/-- Ends the innermost open block; `trail` is the text of its closing token. -/
def pop (n : Nesting) (trail : List Char) : Nesting :=
  match n.frames with
  | [] => n
  | f :: fs => push ⟨n.values, fs⟩ (some f.value) (f.lead ++ f.text ++ trail)

def read (n : Nesting) (l : Lexeme) : Nesting :=
  match l.token with
  | .comment _ => n.push none l.source
  | token =>
    if (n.frames.head?.map Frame.closer) == some token then n.pop l.source
    else
      match token.closer? with
      | some closer => ⟨n.values, ⟨token, closer, l.source, [], []⟩ :: n.frames⟩
      | none => n.push (some (.token token)) l.source

/-- Ends all open blocks. -/
def close (n : Nesting) : List Value :=
  (n.frames.foldl (fun m _ => m.pop []) n).values.reverse

end Nesting

/-- The component values of `text`. -/
def values (text : String) : List Value :=
  ((lex text.toList).foldl Nesting.read .empty).close

end DomQuery.Css
