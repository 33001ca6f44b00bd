import WebBindings.Url.Record
import WebBindings.Url.Escape
/-!
# Reading hosts

A host is an IPv6 address in brackets, an IPv4 address if it ends in a number, or a name. A scheme
that is not special keeps any name as it is written.
-/

namespace WebBindings.Url

/-- A number of an IPv4 address: hexadecimal after `0x`, octal after `0`, else decimal. -/
def ipv4Number? (cs : List Char) : Option Nat :=
  let (radix, digits) :=
    match cs with
    | '0' :: 'x' :: rest => (16, rest)
    | '0' :: 'X' :: rest => (16, rest)
    | '0' :: c :: rest => (8, c :: rest)
    | _ => (10, cs)
  if !cs.isEmpty && digits.all fun c => (Ascii.digit? radix c).isSome then
    some (Ascii.natOf radix digits)
  else none

/-- The dotted parts of a name; a dot at the end is ignored. -/
def labels (name : List Char) : List (List Char) :=
  let parts := Ascii.splitOn (· = '.') name
  if 1 < parts.length && parts.getLast? = some [] then parts.dropLast else parts

/-- Whether a name has to be read as an IPv4 address. -/
def endsInNumber (name : List Char) : Bool :=
  match (labels name).getLast? with
  | none => false
  | some last => (!last.isEmpty && last.all Ascii.isDigit) || (ipv4Number? last).isSome

/-- The address that a name stands for; its last number fills all bytes that the others leave. -/
def ipv4? (name : List Char) : Option Nat := do
  let numbers ← (labels name).mapM ipv4Number?
  let last ← numbers.getLast?
  let leading := numbers.dropLast
  if 3 < leading.length then none
  else if leading.any (255 < ·) then none
  else if 256 ^ (4 - leading.length) ≤ last then none
  else some (leading.zipIdx.foldl (fun sum e => sum + e.1 * 256 ^ (3 - e.2)) last)

/-- A decimal byte without leading zeros. -/
def byte? (cs : List Char) : Option Nat :=
  let n := Ascii.natOf 10 cs
  if !cs.isEmpty && cs.all Ascii.isDigit && n < 256 && (cs.length = 1 || cs.head? ≠ some '0') then
    some n
  else none

/-- The pieces on one side of the gap of an IPv6 address. A dotted quadruple may come last and
counts as two pieces. -/
def ipv6Pieces? (mayEndDotted : Bool) (cs : List Char) : Option (List Nat) :=
  if cs.isEmpty then some []
  else
    let parts := Ascii.splitOn (· = ':') cs
    let piece? (part : List Char) : Option Nat :=
      if !part.isEmpty && part.length ≤ 4 && part.all fun c => (Ascii.digit? 16 c).isSome then
        some (Ascii.natOf 16 part)
      else none
    match parts.getLast? with
    | none => some []
    | some last =>
      if mayEndDotted && last.contains '.' then do
        let leading ← parts.dropLast.mapM piece?
        match ← (Ascii.splitOn (· = '.') last).mapM byte? with
        | [a, b, c, d] => some (leading ++ [a * 256 + b, c * 256 + d])
        | _ => none
      else parts.mapM piece?

/-- Cut at the first double colon. -/
def splitAtGap : List Char → List Char × Option (List Char)
  | [] => ([], none)
  | ':' :: ':' :: rest => ([], some rest)
  | c :: rest =>
    let (front, back) := splitAtGap rest
    (c :: front, back)

def ipv6? (cs : List Char) : Option (List Nat) := do
  match splitAtGap cs with
  | (all, none) =>
    let pieces ← ipv6Pieces? true all
    if pieces.length = 8 then some pieces else none
  | (front, some back) =>
    let before ← ipv6Pieces? false front
    let after ← ipv6Pieces? true back
    let missing := 8 - (before.length + after.length)
    if missing = 0 then none else some (before ++ List.replicate missing 0 ++ after)

def isForbiddenInName (c : Char) : Bool :=
  ['\x00', '\t', '\n', '\r', ' ', '#', '/', ':', '<', '>', '?', '@', '[', '\\', ']', '^',
    '|'].contains c

namespace Host

/-- A host of a special scheme. -/
def ofText? (cs : List Char) : Except Fault Host :=
  match cs with
  | '[' :: rest =>
    if rest.getLast? = some ']' then
      match ipv6? rest.dropLast with
      | some pieces => .ok (.ipv6 pieces)
      | none => .error .invalidIpv6
    else .error .invalidIpv6
  | _ =>
    match decodeAscii? cs with
    | none => .error .invalidName
    | some decoded =>
      let name := decoded.map Char.toLower
      if name.any fun c => isForbiddenInName c || isControl c || c = '%' then .error .invalidName
      else if name.isEmpty then .error .emptyHost
      else if endsInNumber name then
        match ipv4? name with
        | some address => .ok (.ipv4 address)
        | none => .error .invalidIpv4
      else .ok (.name (String.ofList name))

/-- A host of any other scheme, kept as it was written. -/
def ofVerbatim? (cs : List Char) : Except Fault Host :=
  match cs with
  | '[' :: _ => ofText? cs
  | _ =>
    if cs.any isForbiddenInName then .error .invalidNameCharacter
    else .ok (.name (encode isControl cs))

end Host

end WebBindings.Url
