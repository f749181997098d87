import DomQuery.Pattern.Bracket

/-!
# Reading patterns

The notation of patterns: alternatives, groups, repetition, bracketed classes,
escapes, and flags that hold until their group ends. A text that is no pattern
reads as `none`; why does not matter.

Reading takes fuel. Every step takes a character, so the length of the text is
enough.
-/

namespace DomQuery.Pattern

open DomQuery.Text

/-! ### Groups -/

/-- The first character of a group name. -/
def isNameHead (c : Char) : Bool :=
  c == '_' || CharSet.alphabetic.contains c

def isNameTail (c : Char) : Bool :=
  isNameHead c || c == '.' || c == '[' || c == ']' ||
    (CharSet.ofCategories ["Nd", "Nl", "No"]).contains c

/-- A group name with the bracket that ends it. -/
def readGroupName (cs : List Char) : Option (List Char × List Char) :=
  match cs.span (· != '>') with
  | (c :: name, _ :: rest) =>
    if isNameHead c && name.all isNameTail then some (c :: name, rest) else none
  | _ => none

/-- What an opening parenthesis begins. -/
inductive Opening where
  /-- A group; the flags hold inside of it. -/
  | group (flags : Flags) (name : Option (List Char))
  /-- Flags that hold from here on. -/
  | setFlags (flags : Flags)

/-- What follows an opening parenthesis. -/
def readOpening (flags : Flags) (cs : List Char) : Option (Opening × List Char) :=
  match flags.skip cs with
  | '?' :: 'P' :: '<' :: rest =>
    (readGroupName rest).map fun (name, rest) => (.group flags (some name), rest)
  | '?' :: '=' :: _ | '?' :: '!' :: _ | '?' :: '<' :: '=' :: _ | '?' :: '<' :: '!' :: _ => none
  | '?' :: '<' :: rest =>
    (readGroupName rest).map fun (name, rest) => (.group flags (some name), rest)
  | '?' :: rest =>
    match readFlags .none rest with
    | none => none
    | some (change, ending, rest) =>
      if ending == ')' then
        if change.isEmpty then none else some (.setFlags (flags.change change), rest)
      else some (.group (flags.change change) none, rest)
  | rest => some (.group flags none, rest)

/-! ### Repetition -/

/-- A decimal number with blanks around it. -/
def readCount (flags : Flags) (cs : List Char) : Option (Option Nat × List Char) :=
  let (digits, rest) := collect cs.length (cs.dropWhile isBlank)
  let rest := rest.dropWhile isBlank
  if digits.isEmpty then some (none, rest)
  else
    let n := digits.foldl (fun n c => 10 * n + (c.toNat - 48)) 0
    if n < 0x100000000 then some (some n, rest) else none
where
  collect : Nat → List Char → List Char × List Char
    | fuel + 1, c :: cs =>
      if c.isDigit then
        let (digits, rest) := collect fuel (flags.skip cs)
        (c :: digits, rest)
      else ([], c :: cs)
    | _, cs => ([], cs)

/-- The bounds of `\x7bn\x7d`, `\x7bn,\x7d` or `\x7bn,m\x7d` after the brace. -/
def readBounds (flags : Flags) (cs : List Char) :
    Option ((Nat × Option Nat) × List Char) := do
  let (least, rest) ← readCount flags (flags.skip cs)
  match rest with
  | '\x7d' :: rest =>
    let n ← least
    return ((n, some n), flags.skip rest)
  | ',' :: rest =>
    match flags.skip rest with
    | '\x7d' :: rest => return ((← least, none), flags.skip rest)
    | rest =>
      let (most, rest) ← readCount flags rest
      match rest with
      | '\x7d' :: rest =>
        let n ← least
        let m ← most
        if n ≤ m then return ((n, some m), flags.skip rest) else none
      | _ => none
  | _ => none

/-- Whether a repetition is lazy makes no difference. -/
def dropLazy : List Char → List Char
  | '?' :: cs => cs
  | cs => cs

/-! ### Patterns -/

/-- A part of a concatenation. Flags cannot be repeated. -/
inductive Piece where
  | pattern (p : Nested Pattern)
  | flags

def Piece.toNested : Piece → Nested Pattern
  | .pattern p => p
  | .flags => ⟨.empty, 0⟩

/-- A concatenation given last piece first. Two pieces and more are a level. -/
def concat (pieces : List Piece) : Nested Pattern :=
  match pieces with
  | [] => ⟨.empty, 0⟩
  | [piece] => piece.toNested
  | last :: others =>
    let deepest := pieces.foldl (fun n piece => max n piece.toNested.depth) 0
    ⟨others.foldl (fun p piece => .seq piece.toNested.value p) last.toNested.value, deepest + 1⟩

/-- Alternatives given last first; `last` is the last of them. Two and more are
a level. -/
def alternation (last : Nested Pattern) (others : List (Nested Pattern)) : Nested Pattern :=
  match others with
  | [] => last
  | others =>
    ⟨others.foldl (fun p q => .alt q.value p) last.value,
      others.foldl (fun n q => max n q.depth) last.depth + 1⟩

def repeatLast (least : Nat) (most : Option Nat) : List Piece → Option (List Piece)
  | .pattern p :: pieces => some (.pattern ⟨p.value.repeated least most, p.depth + 1⟩ :: pieces)
  | _ => none

/-- The pattern of an atom. -/
def Atom.toPattern? (flags : Flags) : Atom → Option Pattern
  | .literal c byte =>
    (literalCode? flags c byte).map fun n =>
      let s := CharSet.ofRange n n
      .chars (if !flags.ignoreCase then s
        else if flags.unicode then s.closeCase
        else if c.toNat < 0x80 then s.closeCase.inter (.ofRange 0 127) else s)
  | .set s => some (.chars s)
  | .look l => some (.look l)
  | .dot =>
    if !flags.unicode then none
    else if flags.dotAll then some (.chars .full)
    else if flags.crlf then some (.chars (CharSet.ofList [(10, 10), (13, 13)]).compl)
    else some (.chars (CharSet.ofRange 10 10).compl)

def readAtom (flags : Flags) (c : Char) (cs : List Char) : Option (Atom × List Char) :=
  match c with
  | '\\' => readEscape flags cs
  | '.' => some (.dot, cs)
  | '^' =>
    some (.look (if !flags.multiLine then .textStart
      else if flags.crlf then .lineStartPair else .lineStart), cs)
  | '$' =>
    some (.look (if !flags.multiLine then .textEnd
      else if flags.crlf then .lineEndPair else .lineEnd), cs)
  | c => some (.literal c false, cs)

/-- What is read of a group: the flags in force, the alternatives that are
complete and the pieces of the one that is not, both last first, and the names
of all groups so far. -/
structure Progress where
  flags : Flags
  alternatives : List (Nested Pattern)
  pieces : List Piece
  names : List (List Char)

namespace Progress

def toNested (p : Progress) : Nested Pattern :=
  alternation (concat p.pieces) p.alternatives

def add (p : Progress) (q : Pattern) (depth : Nat) : Progress :=
  { p with pieces := .pattern ⟨q, depth⟩ :: p.pieces }

end Progress

/-- Reads alternatives up to the parenthesis that closes them or to the end. -/
def readAlternatives : Nat → Progress → List Char → Option (Progress × List Char)
  | 0, _, _ => none
  | fuel + 1, p, cs =>
    match p.flags.skip cs with
    | [] => some (p, [])
    | ')' :: rest => some (p, ')' :: rest)
    | '|' :: rest =>
      readAlternatives fuel
        { p with alternatives := concat p.pieces :: p.alternatives, pieces := [] } rest
    | '(' :: rest =>
      match readOpening p.flags rest with
      | none => none
      | some (.setFlags flags, rest) =>
        readAlternatives fuel { p with flags := flags, pieces := .flags :: p.pieces } rest
      | some (.group flags name, rest) =>
        match name with
        | some name =>
          if p.names.contains name then none
          else readGroup fuel { p with names := name :: p.names } flags rest
        | none => readGroup fuel p flags rest
    | '[' :: rest =>
      let (negated, u, rest) := readClassStart p.flags rest
      match readClass p.flags negated (rest.length + 1) none u rest with
      | some (s, rest) => readAlternatives fuel (p.add (.chars s.value) s.depth) rest
      | none => none
    | '?' :: rest => readRepeated fuel p 0 (some 1) (dropLazy rest)
    | '*' :: rest => readRepeated fuel p 0 none (dropLazy rest)
    | '+' :: rest => readRepeated fuel p 1 none (dropLazy rest)
    | '\x7b' :: rest =>
      match readBounds p.flags rest with
      | some ((least, most), rest) => readRepeated fuel p least most (dropLazy rest)
      | none => none
    | c :: rest =>
      match readAtom p.flags c rest with
      | some (atom, rest) =>
        match atom.toPattern? p.flags with
        | some q => readAlternatives fuel (p.add q 0) rest
        | none => none
      | none => none
where
  /-- The inside of a group, and what follows the group. -/
  readGroup (fuel : Nat) (p : Progress) (flags : Flags) (rest : List Char) :
      Option (Progress × List Char) :=
    match readAlternatives fuel ⟨flags, [], [], p.names⟩ rest with
    | some (inner, ')' :: rest) =>
      let q := inner.toNested
      readAlternatives fuel ({ p with names := inner.names }.add q.value (q.depth + 1)) rest
    | _ => none
  /-- Repeats the last piece and goes on. -/
  readRepeated (fuel : Nat) (p : Progress) (least : Nat) (most : Option Nat)
      (rest : List Char) : Option (Progress × List Char) :=
    match repeatLast least most p.pieces with
    | some pieces => readAlternatives fuel { p with pieces := pieces } rest
    | none => none

/-- No pattern nests deeper than this. -/
def maxDepth : Nat := 250

/-- The pattern that `text` spells. -/
def parse? (text : String) : Option Pattern :=
  match readAlternatives (text.length + 1) ⟨.initial, [], [], []⟩ text.toList with
  | some (p, []) =>
    let q := p.toNested
    if q.depth ≤ maxDepth then some q.value else none
  | _ => none

/-- The pattern for whole texts that match `source`. `source` has to be a
pattern by itself and also between the anchors, and it may not ask for words of
all scripts. -/
def whole? (source : String) : Option Pattern := do
  let _ ← parse? source
  let p ← parse? ("^(?:" ++ source ++ ")$")
  if p.asksForUnicodeWords then none else some p

/-- `value` matches the whole of `source`; what is no pattern asks for nothing. -/
def accepts (source value : String) : Bool :=
  match whole? source with
  | some p => p.matchesAtStart value
  | none => true

end DomQuery.Pattern
