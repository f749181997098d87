import DomQuery.Text.Ascii
import DomQuery.Url.Domain
import DomQuery.Url.Error

/-!
# Hosts

A host is a name, or an address of version 4 or 6. Only what can be wrong with
one is of interest here. Schemes with a fixed meaning want a domain name; the
hosts of others are taken as they are, but for some characters.
-/

namespace DomQuery.Url

open DomQuery.Text

def isHexDigit (c : Char) : Bool :=
  c.isDigit || ('a' ≤ c && c ≤ 'f') || ('A' ≤ c && c ≤ 'F')

def hexValue (c : Char) : Nat :=
  if c.isDigit then c.toNat - 48 else c.toLower.toNat - 87

/-- The number that the digits spell in a base. -/
def numberIn (base : Nat) (digits : List Char) : Nat :=
  digits.foldl (fun n c => base * n + hexValue c) 0

/-! ### Addresses of version 6 -/

/-- A number below 256 without needless zeros. -/
def isOctet (cs : List Char) : Bool :=
  !cs.isEmpty && cs.all Char.isDigit && (cs == ['0'] || cs.head? != some '0') &&
    numberIn 10 cs < 256

/-- Four octets between points. -/
def isDottedQuad (cs : List Char) : Bool :=
  let octets := cut (· == '.') cs
  octets.length == 4 && octets.all isOctet

/-- `cs` goes on with an address of which `count` pieces were read. With
`compressed` some were left out. -/
def goesOnAsIpv6 (count : Nat) (compressed : Bool) (cs : List Char) : Bool :=
  match cs with
  | [] => compressed || count == 8
  | c :: rest =>
    if count == 8 then false
    else if c == ':' then !compressed && goesOnAsIpv6 (count + 1) true rest
    else
      let digits := ((c :: rest).take 4).takeWhile isHexDigit
      match _h : (c :: rest).drop digits.length with
      | [] => compressed || count + 1 == 8
      | '.' :: _ =>
        !digits.isEmpty && count ≤ 6 && isDottedQuad (c :: rest) && (compressed || count + 2 == 8)
      | ':' :: after => !after.isEmpty && goesOnAsIpv6 (count + 1) compressed after
      | _ => false
termination_by cs.length
decreasing_by
  · simp
  · have h := congrArg List.length _h
    simp only [List.length_drop, List.length_cons] at h
    simp only [List.length_cons]
    omega

def isIpv6 (cs : List Char) : Bool :=
  match cs with
  | ':' :: ':' :: rest => goesOnAsIpv6 1 true rest
  | ':' :: _ | [] | [_] => false
  | _ => goesOnAsIpv6 0 false cs

/-! ### Addresses of version 4 -/

/-- A number in decimal, or in base 8 or 16 when it begins with zero. -/
def ipv4Number? (cs : List Char) : Option Nat :=
  match cs with
  | [] => none
  | '0' :: 'x' :: digits | '0' :: 'X' :: digits =>
    if digits.all isHexDigit then some (numberIn 16 digits) else none
  | ['0'] => some 0
  | '0' :: digits =>
    if digits.all fun c => '0' ≤ c && c ≤ '7' then some (numberIn 8 digits) else none
  | digits => if digits.all Char.isDigit then some (numberIn 10 digits) else none

/-- The labels of a domain name, without the empty one after a last point. -/
def addressParts (labels : List (List Char)) : List (List Char) :=
  if labels.getLast? == some [] && labels.length > 1 then labels.dropLast else labels

/-- The domain name can only be meant as an address. -/
def endsInNumber (labels : List (List Char)) : Bool :=
  match (addressParts labels).getLast? with
  | some last => (!last.isEmpty && last.all Char.isDigit) || (ipv4Number? last).isSome
  | none => false

/-- At most four numbers; the last one fills the bytes that are left. -/
def isIpv4 (labels : List (List Char)) : Bool :=
  let parts := addressParts labels
  match parts.mapM ipv4Number? with
  | none => false
  | some numbers =>
    match numbers.reverse with
    | [] => false
    | last :: before =>
      parts.length ≤ 4 && before.all (· < 256) && last < 1 <<< (8 * (4 - before.length))

/-! ### Names -/

/-- The bytes of `cs` with what `%` spells put in. -/
def percentDecode : List Char → List UInt8
  | [] => []
  | '%' :: a :: b :: rest =>
    if isHexDigit a && isHexDigit b then
      UInt8.ofNat (16 * hexValue a + hexValue b) :: percentDecode rest
    else 37 :: percentDecode (a :: b :: rest)
  | c :: rest => (String.singleton c).toUTF8.toList ++ percentDecode rest

/-- What is wrong with the host of a URL with a well-known scheme. -/
def hostFault? (host : List Char) : Option Fault :=
  match host with
  | '[' :: rest =>
    if rest.getLast? == some ']' && isIpv6 rest.dropLast then none else some .badIpv6
  | _ =>
    match String.fromUTF8? ⟨(percentDecode host).toArray⟩ with
    | none => some .badDomain
    | some name =>
      match labels? name.toList with
      | none => some .badDomain
      | some labels =>
        if labels == [[]] then some .emptyHost
        else if endsInNumber labels && !isIpv4 labels then some .badIpv4
        else none

/-- What is wrong with the host of a URL with any other scheme. -/
def opaqueHostFault? (host : List Char) : Option Fault :=
  match host with
  | '[' :: rest =>
    if rest.getLast? == some ']' && isIpv6 rest.dropLast then none else some .badIpv6
  | _ =>
    if host.any fun c => c == '\x00' || " \t\n\r#/:<>?@[\\]^|".toList.contains c then
      some .badDomainCharacter
    else none

end DomQuery.Url
