import DomQuery.Text.CharSet

/-!
# Patterns and what they match

A pattern denotes a relation between positions of a text: from where to where
it can match. `Pattern.ends` computes its image, all positions where a match
can end that starts at one of the given positions. Greedy and lazy repetition
are the same to it, and it needs no backtracking.
-/

namespace DomQuery

open DomQuery.Text

namespace Pattern

/-- Conditions on a position that match no character. Words are ASCII words. -/
inductive Look where
  | textStart
  | textEnd
  | lineStart
  | lineEnd
  /-- Line ends where a carriage return and line feed count as one end. -/
  | lineStartPair
  | lineEndPair
  | wordBoundary
  | notWordBoundary
  | wordStart
  | wordEnd
  | wordStartHalf
  | wordEndHalf
  /-- A condition on words of all scripts, which no pattern here can test. -/
  | unicodeWord
deriving DecidableEq, Repr

end Pattern

inductive Pattern where
  | empty
  | look (l : Pattern.Look)
  | chars (s : CharSet)
  | seq (p q : Pattern)
  | alt (p q : Pattern)
  /-- From `least` to `most` times; `none` for no limit. -/
  | times (least : Nat) (most : Option Nat) (p : Pattern)
deriving Repr

namespace Pattern

/-- The characters before and after a position. -/
structure Surroundings where
  before : Option Char
  after : Option Char
deriving DecidableEq, Repr

def isWordChar (c : Char) : Bool :=
  c.isAlphanum || c == '_'

namespace Look

def holds (l : Look) (s : Surroundings) : Bool :=
  let wordBefore := s.before.any isWordChar
  let wordAfter := s.after.any isWordChar
  match l with
  | .textStart => s.before.isNone
  | .textEnd => s.after.isNone
  | .lineStart => s.before.isNone || s.before == some '\n'
  | .lineEnd => s.after.isNone || s.after == some '\n'
  | .lineStartPair =>
    s.before.isNone || s.before == some '\n' ||
      (s.before == some '\r' && s.after != some '\n')
  | .lineEndPair =>
    s.after.isNone || s.after == some '\r' ||
      (s.after == some '\n' && s.before != some '\r')
  | .wordBoundary => wordBefore != wordAfter
  | .notWordBoundary => wordBefore == wordAfter
  | .wordStart => !wordBefore && wordAfter
  | .wordEnd => wordBefore && !wordAfter
  | .wordStartHalf => !wordBefore
  | .wordEndHalf => !wordAfter
  | .unicodeWord => false

end Look

/-- What stands around position `i` of `text`. -/
def surroundings (text : Array Char) (i : Nat) : Surroundings :=
  ⟨if i == 0 then none else text[i - 1]?, text[i]?⟩

/-- The elements of both lists, each once. -/
def merge (xs ys : List Nat) : List Nat :=
  xs ++ ys.filter fun y => !xs.contains y

/-- Applies `f` `n` times, or until that changes nothing. -/
def applyTimes (f : List Nat → List Nat) : Nat → List Nat → List Nat
  | 0, xs => xs
  | n + 1, xs =>
    let ys := f xs
    if ys == xs then xs else applyTimes f n ys

/-- What at most `n` applications of `f` lead to. -/
def applyUpTo (f : List Nat → List Nat) : Nat → List Nat → List Nat
  | 0, xs => xs
  | n + 1, xs =>
    let ys := merge xs (f xs)
    if ys.length == xs.length then xs else applyUpTo f n ys

/-- The positions where a match can end that starts at one of `starts`. -/
def ends (text : Array Char) : Pattern → List Nat → List Nat
  | .empty, starts => starts
  | .look l, starts => starts.filter fun i => l.holds (surroundings text i)
  | .chars s, starts =>
    starts.filterMap fun i =>
      match text[i]? with
      | some c => if s.contains c then some (i + 1) else none
      | none => none
  | .seq p q, starts => ends text q (ends text p starts)
  | .alt p q, starts => merge (ends text p starts) (ends text q starts)
  | .times least most p, starts =>
    let reached := applyTimes (ends text p) least starts
    -- a text has no more than its size plus one positions to lead to
    let more := match most with
      | some n => min (n - least) (text.size + 1)
      | none => text.size + 1
    applyUpTo (ends text p) more reached

/-- A condition on words of all scripts occurs in the pattern. -/
def asksForUnicodeWords : Pattern → Bool
  | .empty => false
  | .look l => l == .unicodeWord
  | .chars _ => false
  | .seq p q => p.asksForUnicodeWords || q.asksForUnicodeWords
  | .alt p q => p.asksForUnicodeWords || q.asksForUnicodeWords
  | .times _ _ p => p.asksForUnicodeWords

/-- Repetition; no time at all is the empty pattern. -/
def repeated (least : Nat) (most : Option Nat) (p : Pattern) : Pattern :=
  if least == 0 && most == some 0 then .empty else .times least most p

/-- A match that starts at the first position exists. Whether it has to reach
the end is for the pattern to say. -/
def matchesAtStart (p : Pattern) (text : String) : Bool :=
  !(p.ends text.toList.toArray [0]).isEmpty

end Pattern

end DomQuery
