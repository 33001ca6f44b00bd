/-!
# The parts of URLs

A URL as its parts, and the text that shows it. A URL either has a path of segments or, under
schemes such as `mailto`, a path that is kept as it was written.
-/

namespace WebBindings

/-- Where a URL points: a name, an IPv4 address, or the eight pieces of an IPv6 address. -/
inductive Url.Host
  | name (text : String)
  | ipv4 (address : Nat)
  | ipv6 (pieces : List Nat)
deriving DecidableEq

inductive Url.Path
  | segments (parts : List String)
  | verbatim (text : String)
deriving DecidableEq

structure Url.Record where
  scheme : String
  username : String
  password : String
  host : Option Url.Host
  port : Option Nat
  path : Url.Path
  query : Option String
  fragment : Option String
deriving DecidableEq

inductive Url.Fault
  | emptyHost
  | invalidName
  | invalidPort
  | invalidIpv4
  | invalidIpv6
  | invalidNameCharacter
  | relativeWithoutBase
  | relativeToVerbatimPath
deriving DecidableEq

namespace Url

namespace Fault

def message : Fault → String
  | .emptyHost => "empty host"
  | .invalidName => "invalid international domain name"
  | .invalidPort => "invalid port number"
  | .invalidIpv4 => "invalid IPv4 address"
  | .invalidIpv6 => "invalid IPv6 address"
  | .invalidNameCharacter => "invalid domain character"
  | .relativeWithoutBase => "relative URL without a base"
  | .relativeToVerbatimPath => "relative URL with a cannot-be-a-base base"

end Fault

/-- The port that a scheme implies. -/
def defaultPort? (scheme : String) : Option Nat :=
  if scheme = "http" || scheme = "ws" then some 80
  else if scheme = "https" || scheme = "wss" then some 443
  else if scheme = "ftp" then some 21
  else none

/-- Schemes whose URLs always have a host and a path of segments, `file` apart from the host. -/
def isSpecial (scheme : String) : Bool := scheme = "file" || (defaultPort? scheme).isSome

namespace Host

private def hexadecimal (n : Nat) : String := String.ofList (Nat.toDigits 16 n)

private def zeroRun : List Nat → Nat
  | 0 :: rest => zeroRun rest + 1
  | _ => 0

/-- The start and length of the longest run of zero pieces, the first of several. -/
private def longestZeros (pieces : List Nat) : Nat × Nat :=
  (List.range pieces.length).foldl
    (fun best start =>
      let run := zeroRun (pieces.drop start)
      if best.2 < run then (start, run) else best)
    (0, 0)

private def joined (pieces : List Nat) : String := String.intercalate ":" (pieces.map hexadecimal)

/-- The text of a host. The longest run of at least two zero pieces of an IPv6 address is left
out. -/
def shown : Host → String
  | .name text => text
  | .ipv4 a =>
    String.intercalate "."
      [toString (a / 2 ^ 24), toString (a / 2 ^ 16 % 256), toString (a / 2 ^ 8 % 256),
        toString (a % 256)]
  | .ipv6 pieces =>
    let (start, run) := longestZeros pieces
    if run < 2 then "[" ++ joined pieces ++ "]"
    else "[" ++ joined (pieces.take start) ++ "::" ++ joined (pieces.drop (start + run)) ++ "]"

end Host

namespace Path

def shown : Path → String
  | .segments parts => String.join (parts.map ("/" ++ ·))
  | .verbatim text => text

end Path

namespace Record

/-- User name and password, with what separates them from the host. -/
def credentials (u : Record) : String :=
  if u.username.isEmpty && u.password.isEmpty then ""
  else u.username ++ (if u.password.isEmpty then "" else ":" ++ u.password) ++ "@"

/-- The text of a URL without its fragment. Without a host, a path that begins with an empty segment
is set apart from the scheme, so that it does not look like a host. -/
def shownBeforeFragment (u : Record) : String :=
  let authority :=
    match u.host with
    | some host =>
      "//" ++ u.credentials ++ host.shown ++
        (match u.port with
          | some port => ":" ++ toString port
          | none => "")
    | none =>
      match u.path with
      | .segments ("" :: _ :: _) => "/."
      | _ => ""
  u.scheme ++ ":" ++ authority ++ u.path.shown ++
    (match u.query with
      | some query => "?" ++ query
      | none => "")

def shown (u : Record) : String :=
  u.shownBeforeFragment ++
    (match u.fragment with
      | some fragment => "#" ++ fragment
      | none => "")

end Record

end Url

end WebBindings
