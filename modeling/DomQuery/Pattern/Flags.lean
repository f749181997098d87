import DomQuery.Text.CaseOrbit

/-!
# Flags of patterns

The flags that hold at a place of a pattern, what they do to blanks and to
sets, and how changes to them are written.
-/

namespace DomQuery.Pattern

open DomQuery.Text

structure Flags where
  ignoreCase : Bool
  multiLine : Bool
  dotAll : Bool
  crlf : Bool
  unicode : Bool
  verbose : Bool
deriving DecidableEq, Repr

/-- The flags a pattern starts with. -/
def Flags.initial : Flags := ⟨false, false, false, false, true, false⟩

/-- White space, also beyond ASCII. -/
def isBlank (c : Char) : Bool :=
  let n := c.toNat
  (9 ≤ n && n ≤ 13) || n == 0x20 || n == 0x85 || n == 0xA0 || n == 0x1680 ||
    (0x2000 ≤ n && n ≤ 0x200A) || n == 0x2028 || n == 0x2029 || n == 0x202F ||
    n == 0x205F || n == 0x3000

/-- What follows white space and comments. `inComment` holds inside one. -/
def skipVerbose (inComment : Bool) : List Char → List Char
  | [] => []
  | c :: cs =>
    if inComment then skipVerbose (c != '\n') cs
    else if isBlank c then skipVerbose false cs
    else if c == '#' then skipVerbose true cs
    else c :: cs

/-- In verbose mode, drops white space and comments. -/
def Flags.skip (flags : Flags) (cs : List Char) : List Char :=
  if flags.verbose then skipVerbose false cs else cs

/-- The set with the flag for case and the negation applied. -/
def Flags.finish (flags : Flags) (negated : Bool) (s : CharSet) : CharSet :=
  let s := if flags.ignoreCase then s.closeCase else s
  if negated then s.compl else s

/-- Case and negation of a class. Without Unicode a class has to stay within
ASCII, which no complement does. -/
def Flags.finish? (flags : Flags) (negated : Bool) (s : CharSet) : Option CharSet :=
  if flags.unicode then some (flags.finish negated s)
  else if negated then none
  else
    let s := if flags.ignoreCase then s.closeCase.inter (.ofRange 0 127) else s
    if s.isAscii then some s else none

/-! ### Changes -/

/-- The flags between `(?` and `:` or `)`: those set and those cleared. -/
structure FlagChange where
  on : List Char
  off : List Char
  negated : Bool
deriving Repr

def FlagChange.none : FlagChange := ⟨[], [], false⟩

def FlagChange.isEmpty (f : FlagChange) : Bool :=
  f.on.isEmpty && f.off.isEmpty && !f.negated

/-- Reads flags; no flag may occur twice, and a minus needs one after it. Also
returns the character that ends them. -/
def readFlags (f : FlagChange) : List Char → Option (FlagChange × Char × List Char)
  | [] => Option.none
  | c :: cs =>
    if c == ':' || c == ')' then
      if f.negated && f.off.isEmpty then Option.none else some (f, c, cs)
    else if c == '-' then
      if f.negated then Option.none else readFlags { f with negated := true } cs
    else if ['i', 'm', 's', 'U', 'u', 'R', 'x'].contains c && !(f.on ++ f.off).contains c then
      if f.negated then readFlags { f with off := c :: f.off } cs
      else readFlags { f with on := c :: f.on } cs
    else Option.none

def Flags.change (flags : Flags) (f : FlagChange) : Flags :=
  let value (c : Char) (old : Bool) :=
    if f.on.contains c then true else if f.off.contains c then false else old
  ⟨value 'i' flags.ignoreCase, value 'm' flags.multiLine, value 's' flags.dotAll,
    value 'R' flags.crlf, value 'u' flags.unicode, value 'x' flags.verbose⟩

end DomQuery.Pattern
