import DomQuery.Url.Host

/-!
# Absolute URLs

A URL is read as far as it takes to know that it is one, and what its fragment
is. Texts are taken as they come from a page: control characters and spaces
around them are dropped, and so are tabs and line ends anywhere.
-/

namespace DomQuery.Url

open DomQuery.Text

/-- What a scheme makes of the rest of a URL. -/
inductive SchemeKind where
  /-- Names a machine. -/
  | network
  | file
  | other
deriving DecidableEq, Repr

def SchemeKind.ofName (scheme : String) : SchemeKind :=
  if ["http", "https", "ws", "wss", "ftp"].contains scheme then .network
  else if scheme == "file" then .file
  else .other

def isEdge (c : Char) : Bool :=
  c.toNat ≤ 0x20

/-- The characters that count. -/
def relevant (text : String) : List Char :=
  let cs := text.toList.dropWhile isEdge
  (cs.reverse.dropWhile isEdge).reverse.filter fun c => c != '\t' && c != '\n' && c != '\r'

/-- The scheme in lower case, and what follows its colon. -/
def scheme? (cs : List Char) : Option (String × List Char) :=
  if cs.head?.any Char.isAlpha then
    match cs.span fun c => isAlnum c || c == '+' || c == '-' || c == '.' with
    | (scheme, ':' :: rest) => some (lower (String.ofList scheme), rest)
    | _ => none
  else none

/-- Ends the authority of a URL. -/
def endsAuthority (kind : SchemeKind) (c : Char) : Bool :=
  c == '/' || c == '?' || c == '#' || (c == '\\' && kind != .other)

/-- The part up to the last `@` and the part after it. -/
def splitUser (authority : List Char) : Option (List Char × List Char) :=
  match authority.reverse.span (· != '@') with
  | (_, []) => none
  | (host, _ :: user) => some (user.reverse, host.reverse)

/-- The host and what follows it; a colon in brackets belongs to the host. -/
def spanHost : Bool → List Char → List Char × List Char
  | _, [] => ([], [])
  | bracketed, c :: rest =>
    if c == ':' && !bracketed then ([], c :: rest)
    else
      let bracketed := if c == '[' then true else if c == ']' then false else bracketed
      let (host, after) := spanHost bracketed rest
      (c :: host, after)

/-- What is wrong with a port. A backslash begins the path in any case. -/
def portFault? (port : List Char) : Option Fault :=
  let digits := port.takeWhile (· != '\\')
  if digits.all Char.isDigit && numberIn 10 digits ≤ 65535 then none else some .badPort

/-- What is wrong with an authority; `rest` is what follows it. -/
def authorityFault? (kind : SchemeKind) (authority rest : List Char) : Option Fault :=
  let user := splitUser authority
  let (host, port) := spanHost false ((user.map Prod.snd).getD authority)
  match user with
  | some ([], []) => if rest.isEmpty then check kind host port false else some .emptyHost
  | _ => check kind host port (user.any fun (name, _) => name.any (· != ':') || name.length > 1)
where
  /-- What is wrong with the host and the port. -/
  check (kind : SchemeKind) (host port : List Char) (hasUser : Bool) : Option Fault :=
    let fault :=
      if host.isEmpty then
        if kind != .other || !port.isEmpty || hasUser then some .emptyHost else none
      else if kind == .other then opaqueHostFault? host
      else hostFault? host
    fault <|> portFault? port.tail

/-- A letter and a colon name a drive, not a machine. -/
def isDrive (cs : List Char) : Bool :=
  match cs with
  | [letter, mark] => letter.isAlpha && (mark == ':' || mark == '|')
  | _ => false

/-- What is wrong with what follows the scheme. -/
def fault? (kind : SchemeKind) (cs : List Char) : Option Fault :=
  match kind with
  | .network =>
    let (authority, rest) :=
      (cs.dropWhile fun c => c == '/' || c == '\\').span fun c => !endsAuthority kind c
    authorityFault? kind authority rest
  | .other =>
    match cs with
    | '/' :: '/' :: cs =>
      let (authority, rest) := cs.span fun c => !endsAuthority kind c
      authorityFault? kind authority rest
    | _ => none
  | .file =>
    match cs with
    | a :: b :: cs =>
      if (a == '/' || a == '\\') && (b == '/' || b == '\\') then
        let host := cs.takeWhile fun c => !endsAuthority kind c
        if host.isEmpty || isDrive host then none else hostFault? host
      else none
    | _ => none

/-- The two hexadecimal digits of a byte. -/
def percentEncode (byte : UInt8) : List Char :=
  let digit (n : Nat) := Char.ofNat (if n < 10 then 48 + n else 55 + n)
  ['%', digit (byte.toNat / 16), digit (byte.toNat % 16)]

/-- The character as it stands in a fragment. -/
def encodeInFragment (c : Char) : List Char :=
  if c.toNat ≤ 0x20 || 0x7F ≤ c.toNat || c == '"' || c == '<' || c == '>' || c == '\x60' then
    (String.singleton c).toUTF8.toList.flatMap percentEncode
  else [c]

/-- The fragment of an absolute URL, if it has one. -/
def fragment? (text : String) : Except Fault (Option String) :=
  match scheme? (relevant text) with
  | none => .error .noScheme
  | some (scheme, rest) =>
    match fault? (SchemeKind.ofName scheme) rest with
    | some fault => .error fault
    | none =>
      match rest.dropWhile (· != '#') with
      | [] => .ok none
      | _ :: fragment => .ok (some (String.ofList (fragment.flatMap encodeInFragment)))

end DomQuery.Url
