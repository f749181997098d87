import DomQuery.Pattern.Escape

/-!
# Bracketed classes

Sets of characters in brackets: elements, ranges, named classes and classes in
brackets, which are united, and operations on such unions. How many levels a
class nests is counted as it is read.
-/

namespace DomQuery.Pattern

open DomQuery.Text

/-- A part of a pattern and how many levels it nests. -/
structure Nested (α : Type) where
  value : α
  depth : Nat
deriving Repr

/-- The code of a literal; a byte beyond ASCII is no part of any text. -/
def literalCode? (flags : Flags) (c : Char) (byte : Bool) : Option Nat :=
  if !flags.unicode && byte && 0x80 ≤ c.toNat then none else some c.toNat

/-- The code of a literal inside a class. -/
def classCode? (flags : Flags) (a : Atom) : Option Nat :=
  match a with
  | .literal c byte =>
    if !flags.unicode && 0x80 ≤ c.toNat then none else literalCode? flags c byte
  | _ => none

/-- One element of a class. -/
def readClassAtom (flags : Flags) : List Char → Option (Atom × List Char)
  | '\\' :: cs => readEscape flags cs
  | c :: cs => some (.literal c false, cs)
  | [] => none

def classItem? (flags : Flags) : Atom → Option CharSet
  | .set s => some s
  | a => (classCode? flags a).map fun n => .ofRange n n

/-- An element or a range of a class. A hyphen before the closing bracket or
before another hyphen makes no range. -/
def readClassRange (flags : Flags) (cs : List Char) : Option (CharSet × List Char) := do
  let (first, rest) ← readClassAtom flags cs
  match flags.skip rest with
  | [] => none
  | '-' :: after =>
    match flags.skip after with
    | [] => none
    | c :: tail =>
      if c == ']' || c == '-' then return (← classItem? flags first, '-' :: after)
      else
        let (last, rest) ← readClassAtom flags (c :: tail)
        let a ← classCode? flags first
        let b ← classCode? flags last
        if a ≤ b then return (.ofRange a b, rest) else none
  | rest => return (← classItem? flags first, rest)

/-- The class of `[:name:]` or `[:^name:]`, and whether it is negated, after the
first bracket. -/
def readBracketClass : List Char → Option (CharSet × Bool × List Char)
  | ':' :: cs =>
    let (negated, cs) := match cs with
      | '^' :: cs => (true, cs)
      | cs => (false, cs)
    match cs.span (· != ':') with
    | (name, ':' :: ']' :: rest) =>
      (bracketClass? (String.ofList name)).map fun s => (s, negated, rest)
    | _ => none
  | _ => none

/-! ### Unions and operations -/

/-- What was united in a class: the characters, the number of items and how many
levels the deepest of them nests. -/
structure ClassUnion where
  set : CharSet
  items : Nat
  depth : Nat
deriving Repr

namespace ClassUnion

def empty : ClassUnion := ⟨.empty, 0, 0⟩

def add (u : ClassUnion) (s : CharSet) (depth : Nat) : ClassUnion :=
  ⟨u.set.union s, u.items + 1, max u.depth depth⟩

/-- A union of several items is a level of its own. -/
def toNested (u : ClassUnion) : Nested CharSet :=
  ⟨u.set, if u.items ≤ 1 then u.depth else u.depth + 1⟩

end ClassUnion

inductive SetOperator where
  | inter
  | diff
  | symmDiff
deriving DecidableEq, Repr

def SetOperator.apply (op : SetOperator) (s t : CharSet) : CharSet :=
  match op with
  | .inter => s.inter t
  | .diff => s.diff t
  | .symmDiff => s.symmDiff t

/-- Joins what stands before an operator, if one was read, with what follows.
Case is dropped on both sides first. -/
def joinOperands (flags : Flags) (before : Option (Nested CharSet × SetOperator))
    (u : ClassUnion) : Nested CharSet :=
  let right := u.toNested
  match before with
  | none => right
  | some (left, op) =>
    let fold (s : CharSet) := if flags.ignoreCase then s.closeCase else s
    ⟨op.apply (fold left.value) (fold right.value), max left.depth right.depth + 1⟩

/-- The beginning of a class after its bracket: whether it is negated, and the
hyphens or the closing bracket that stand for themselves there. -/
def readClassStart (flags : Flags) (cs : List Char) : Bool × ClassUnion × List Char :=
  let cs := flags.skip cs
  let (negated, cs) := match cs with
    | '^' :: rest => (true, flags.skip rest)
    | cs => (false, cs)
  match hyphens cs.length .empty cs with
  | (u, rest) =>
    match rest with
    | ']' :: after =>
      if u.items == 0 then (negated, u.add (.singleton ']') 0, flags.skip after)
      else (negated, u, rest)
    | _ => (negated, u, rest)
where
  hyphens : Nat → ClassUnion → List Char → ClassUnion × List Char
    | fuel + 1, u, '-' :: cs => hyphens fuel (u.add (.singleton '-') 0) (flags.skip cs)
    | _, u, cs => (u, cs)

/-- The rest of a class: `before` is what stands before the last operator and
`u` what was united since. -/
def readClass (flags : Flags) (negated : Bool) :
    Nat → Option (Nested CharSet × SetOperator) → ClassUnion → List Char →
      Option (Nested CharSet × List Char)
  | 0, _, _, _ => none
  | fuel + 1, before, u, cs =>
    let operator (op : SetOperator) (rest : List Char) :=
      readClass flags negated fuel (some (joinOperands flags before u, op)) .empty rest
    match flags.skip cs with
    | [] => none
    | ']' :: rest =>
      let all := joinOperands flags before u
      (flags.finish? negated all.value).map fun s => (⟨s, all.depth + 1⟩, rest)
    | '&' :: '&' :: rest => operator .inter rest
    | '-' :: '-' :: rest => operator .diff rest
    | '~' :: '~' :: rest => operator .symmDiff rest
    | '[' :: rest =>
      match readBracketClass rest with
      | some (s, complemented, rest) => do
        let s ← flags.finish? complemented s
        readClass flags negated fuel before (u.add s 0) rest
      | none => do
        let (inner, v, rest) := readClassStart flags rest
        let (t, rest) ← readClass flags inner fuel none v rest
        readClass flags negated fuel before (u.add t.value t.depth) rest
    | cs => do
      let (s, rest) ← readClassRange flags cs
      readClass flags negated fuel before (u.add s 0) rest

end DomQuery.Pattern
