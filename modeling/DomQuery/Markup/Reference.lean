import DomQuery.Markup.EntityTable
import DomQuery.Text.Ascii

/-!
# Character references

`&amp;`, `&#38;` and `&#x26;` stand for a character. A name is read as far as it
can be, and some names do without their semicolon. What is no reference stands
for itself.
-/

namespace DomQuery.Markup

open DomQuery.Text

/-- A name and what it stands for. -/
structure Entity where
  name : List Char
  /-- The semicolon may be missing. -/
  isLoose : Bool
  text : List Char

def hexDigit? (c : Char) : Option Nat :=
  if c.isDigit then some (c.toNat - 48)
  else if ('a' ≤ c && c ≤ 'f') || ('A' ≤ c && c ≤ 'F') then some (c.toLower.toNat - 87)
  else none

/-- The number that hexadecimal digits spell. -/
def hexNumber (digits : List Char) : Nat :=
  digits.foldl (fun n c => 16 * n + (hexDigit? c).getD 0) 0

/-- Reads an entry of the table. -/
def Entity.ofEntry (entry : String) : Entity :=
  let (name, codes) := (splitOnce '=' entry).getD (entry, "")
  let cs := name.toList
  { name := cs.filter (· != '*')
    isLoose := cs.contains '*'
    text := (splitAt '+' codes).map fun code => Char.ofNat (hexNumber code.toList) }

def entities : List Entity :=
  (words entityTable).map Entity.ofEntry

/-- A reference that was read: the characters it stands for, and how many
characters it takes after the ampersand. -/
structure Reading where
  text : List Char
  length : Nat

/-- How far the name of an entity reaches into `cs`. -/
def Entity.reach? (e : Entity) (cs : List Char) : Option Nat :=
  if e.name.isPrefixOf cs then
    if cs[e.name.length]? == some ';' then some (e.name.length + 1)
    else if e.isLoose then some e.name.length
    else none
  else none

/-- The longer one of two readings. -/
def longer (best : Option Reading) (next : Reading) : Option Reading :=
  if best.all fun r => r.length < next.length then some next else best

/-- The longest name that `cs` begins with. -/
def longestName? (cs : List Char) : Option Reading :=
  (entities.filterMap fun e => (e.reach? cs).map fun n => ⟨e.text, n⟩).foldl longer none

/-- A reference by name. In the value of an attribute a name without semicolon
does not count if it seems to be a part of a longer word. -/
def namedReference? (inAttribute : Bool) (cs : List Char) : Option Reading :=
  match longestName? cs with
  | none => none
  | some r =>
    let isWord :=
      cs[r.length - 1]? != some ';' && (cs[r.length]?.any fun c => c == '=' || isAlnum c)
    if inAttribute && isWord then none else some r

/-- What numbers from 128 to 159 mean, where they mean anything but themselves. -/
def windowsCharacters : List (Nat × Nat) := [
  (0x80, 0x20AC), (0x82, 0x201A), (0x83, 0x0192), (0x84, 0x201E), (0x85, 0x2026),
  (0x86, 0x2020), (0x87, 0x2021), (0x88, 0x02C6), (0x89, 0x2030), (0x8A, 0x0160),
  (0x8B, 0x2039), (0x8C, 0x0152), (0x8E, 0x017D), (0x91, 0x2018), (0x92, 0x2019),
  (0x93, 0x201C), (0x94, 0x201D), (0x95, 0x2022), (0x96, 0x2013), (0x97, 0x2014),
  (0x98, 0x02DC), (0x99, 0x2122), (0x9A, 0x0161), (0x9B, 0x203A), (0x9C, 0x0153),
  (0x9E, 0x017E), (0x9F, 0x0178)]

/-- The character in place of what cannot stand in a text. -/
def replacement : Char := '\uFFFD'

/-- The character with a number. -/
def characterOf (n : Nat) : Char :=
  match windowsCharacters.lookup n with
  | some m => Char.ofNat m
  | none => if n == 0 || !(n.isValidChar) then replacement else Char.ofNat n

/-- A reference by number; `cs` follows the number sign. -/
def numericReference? (cs : List Char) : Option Reading :=
  let (isHex, digits) := match cs with
    | 'x' :: rest | 'X' :: rest => (true, rest.takeWhile fun c => (hexDigit? c).isSome)
    | _ => (false, cs.takeWhile Char.isDigit)
  if digits.isEmpty then none
  else
    let n := if isHex then hexNumber digits
      else digits.foldl (fun n c => 10 * n + (c.toNat - 48)) 0
    let length := digits.length + (if isHex then 2 else 1)
    let isClosed := cs[length - 1]? == some ';'
    some ⟨[characterOf n], if isClosed then length + 1 else length⟩

/-- `cs` begins with a reference by number that lacks its semicolon. -/
def beginsUnclosed (cs : List Char) : Bool :=
  match cs with
  | '&' :: '#' :: rest =>
    (numericReference? rest).any fun r => rest[r.length - 2]? != some ';'
  | _ => false

/-- The reference that `cs` begins with; `cs` follows an ampersand. -/
def reference? (inAttribute : Bool) (cs : List Char) : Option Reading :=
  match cs with
  | '#' :: rest => numericReference? rest
  | c :: _ => if isAlnum c then namedReference? inAttribute cs else none
  | [] => none

/-- `cs` with references replaced by what they stand for. -/
def decodeReferences (inAttribute : Bool) (cs : List Char) : List Char :=
  match cs with
  | [] => []
  | '&' :: rest =>
    match reference? inAttribute rest with
    | some r => r.text ++ decodeReferences inAttribute (rest.drop r.length)
    | none => '&' :: decodeReferences inAttribute rest
  | c :: rest => c :: decodeReferences inAttribute rest
termination_by cs.length
decreasing_by all_goals simp; try omega

end DomQuery.Markup
