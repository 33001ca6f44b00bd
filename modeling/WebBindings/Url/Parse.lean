import WebBindings.Url.Basic
import WebBindings.Url.Host
import WebBindings.Url.Path
/-!
# Reading URLs

A text read as a URL, alone or relative to a base. Tabs and line ends are no part of it, except that
one directly behind the drive letter of a `file` path ends the drive.
-/

namespace WebBindings.Url

def withTail (u : Record) (cs : List Char) : Record :=
  let (query, rest) := cs.span (· ≠ '#')
  { u with
    query :=
      match query with
      | [] => u.query
      | _ :: text => some (encode (escapedInQuery (isSpecial u.scheme)) text)
    fragment :=
      match rest with
      | [] => none
      | _ :: text => some (encode escapedInFragment text) }

/-- Give a URL the path that was read, then read a query and a fragment. -/
def withTrail (u : Record) (read : Trail × List Char) : Record :=
  withTail { u with path := .segments (read.1.segments (u.scheme = "file")), query := none } read.2

/-- Read a path below a text whose last character comes first, then a query and a fragment. -/
def withPath (u : Record) (above cs : List Char) : Record :=
  withTrail u (readPath u.scheme [] above cs)

/-- A URL without anything after its scheme. -/
def bare (scheme : String) : Record := ⟨scheme, "", "", none, none, .segments [], none, none⟩

/-- The path of a URL, the last character first. -/
def Record.pathBackward (u : Record) : List Char := u.path.shown.toList.reverse

def isAnySlash (c : Char) : Bool := c = '/' || c = '\\'

/-- The user name and password before the last `@` of an authority. -/
def readCredentials (cs : List Char) : String × String :=
  let (username, rest) := cs.span (· ≠ ':')
  (encode escapedInCredentials username, encode escapedInCredentials (rest.drop 1))

/-- Cut a host from the front of a text; colons between brackets belong to it. -/
def takeHost (special inBrackets : Bool) : List Char → List Char × List Char
  | [] => ([], [])
  | c :: rest =>
    if (c = ':' && !inBrackets) || endsPath c || c = '/' || (special && c = '\\') then
      ([], c :: rest)
    else
      let brackets := c = '[' || (inBrackets && c ≠ ']')
      let (host, after) := takeHost special brackets rest
      (c :: host, after)

/-- A port; the one that the scheme implies is left out. -/
def readPort (scheme : String) (cs : List Char) : Except Fault (Option Nat × List Char) :=
  match cs with
  | ':' :: rest =>
    let (digits, after) := rest.span Ascii.isDigit
    let port := Ascii.natOf 10 digits
    if 65535 < port then .error .invalidPort
    else if after.head?.all fun c => isAnySlash c || endsPath c then
      .ok (if digits.isEmpty || defaultPort? scheme = some port then none else some port, after)
    else .error .invalidPort
  | _ => .ok (none, cs)

/-- Read what follows the two slashes of a scheme other than `file`. An empty host has no user, no
port, and nothing but the end behind an `@` that begins the authority. -/
def readAuthority (scheme : String) (cs : List Char) : Except Fault Record := do
  let special := isSpecial scheme
  let (authority, below) := cs.span fun c => !(endsPath c || c = '/' || (special && c = '\\'))
  let before := authority.reverse.dropWhile (· ≠ '@')
  let (username, password) := readCredentials (before.drop 1).reverse
  let (text, afterHost) := takeHost special false (cs.drop before.length)
  if authority = ['@'] && !below.isEmpty then throw .emptyHost
  let host ← if special then
      if text.isEmpty then throw .emptyHost else Host.ofText? text
    else Host.ofVerbatim? text
  let hasUser := !(username.isEmpty && password.isEmpty)
  if host = .name "" && (hasUser || afterHost.head? = some ':') then throw .emptyHost
  let (port, rest) ← readPort scheme afterHost
  let u := { bare scheme with username, password, host := some host, port }
  match rest with
  | c :: below =>
    if c = '/' || (special && c = '\\') then return withPath u ['/'] below
    else if endsPath c && !special then return withTail u rest
    else return withPath u ['/'] rest
  | [] => return if special then withPath u ['/'] [] else u

/-- Read a file URL after its scheme; `base` is a file URL too. -/
def readFile (cuts : List Nat) (base : Option Record) (cs : List Char) : Except Fault Record := do
  match cs with
  | [] =>
    match base with
    | some b => return { b with fragment := none }
    | none => return below plain ['/'] []
  | first :: rest =>
    if isAnySlash first then
      match rest with
      | second :: afterSlashes =>
        if isAnySlash second then onHost afterSlashes
        else return rooted rest
      | [] => return rooted rest
    else
      match base with
      | none => return below plain ['/'] cs
      | some b =>
        if first = '?' then return withTail { b with query := none } cs
        else if first = '#' then return withTail b cs
        else if startsWithDriveLetter cs then return below plain ['/'] cs
        else return below b (dropSegment true b.pathBackward) cs
where
  plain : Record := { bare "file" with host := some (.name "") }
  below (u : Record) (above cs : List Char) : Record := withTrail u (readPath "file" cuts above cs)
  /-- Read what follows two slashes. A drive letter is no host and needs none. -/
  onHost (cs : List Char) : Except Fault Record := do
    let (text, afterHost) := cs.span fun c => !(isAnySlash c || endsPath c)
    if text.isEmpty || isDriveLetter false text then return below plain ['/'] cs
    let host ← Host.ofText? text
    if host = .name "localhost" then return below plain ['/'] afterHost
    let read := readPath "file" cuts ['/'] (if afterHost.head?.any isAnySlash then afterHost.drop 1
      else afterHost)
    return withTrail (if read.1.onDrive then plain else { plain with host := some host }) read
  /-- The path begins at the root of the base, which may be a drive. -/
  rooted (cs : List Char) : Record :=
    match if startsWithDriveLetter cs then none else base with
    | none => below plain ['/'] cs
    | some b =>
      match b.path with
      | .segments (drive :: _) =>
        if isDriveLetter true drive.toList then
          below plain ('/' :: drive.toList.reverse ++ ['/']) cs
        else below { plain with host := b.host } ['/'] cs
      | _ => below { plain with host := b.host } ['/'] cs

/-- Read a text without a scheme below a base whose path has segments. -/
def readRelative (b : Record) (cs : List Char) : Except Fault Record :=
  match cs with
  | [] => .ok { b with fragment := none }
  | c :: rest =>
    if isAnySlash c then
      match rest with
      | second :: afterSlashes =>
        if isAnySlash second then
          readAuthority b.scheme
            (if c = '/' && second = '/' then afterSlashes else afterSlashes.dropWhile isAnySlash)
        else .ok (withPath b ['/'] rest)
      | [] => .ok (withPath b ['/'] rest)
    else if c = '?' then .ok (withTail { b with query := none } cs)
    else if c = '#' then .ok (withTail b cs)
    else .ok (withPath b (withSlash (dropSegment false b.pathBackward)) cs)

/-- Take a scheme and its colon from the front of a text. -/
def takeScheme? (cs : List Char) : Option (String × List Char) :=
  let (scheme, rest) := cs.span fun c => Ascii.isAlphanumeric c || c = '+' || c = '-' || c = '.'
  match scheme, rest with
  | first :: _, ':' :: after =>
    if first.isAlpha then some (Ascii.lower (String.ofList scheme), after) else none
  | _, _ => none

def Record.hasVerbatimPath (u : Record) : Bool :=
  match u.path with
  | .verbatim _ => true
  | .segments _ => false

def readAfterScheme (cuts : List Nat) (base : Option Record) (scheme : String) (cs : List Char) :
    Except Fault Record :=
  if scheme = "file" then readFile cuts (base.filter (·.scheme = "file")) cs
  else if isSpecial scheme then
    match base.filter (·.scheme = scheme) with
    | some b =>
      if (cs.takeWhile isAnySlash).length < 2 then readRelative b cs
      else readAuthority scheme (cs.dropWhile isAnySlash)
    | none => readAuthority scheme (cs.dropWhile isAnySlash)
  else
    match cs with
    | '/' :: '/' :: rest => readAuthority scheme rest
    | '/' :: rest => .ok (withPath (bare scheme) ['/'] rest)
    | _ =>
      let (text, rest) := cs.span fun c => !endsPath c
      .ok (withTail { bare scheme with path := .verbatim (encode isControl text) } rest)

/-- A text without the controls and spaces around it. -/
def trimmed (text : String) : List Char :=
  let blank (c : Char) : Bool := c.toNat ≤ 0x20
  ((text.toList.dropWhile blank).reverse.dropWhile blank).reverse

/-- Tabs and line ends. -/
def isBreak (c : Char) : Bool := c = '\t' || c = '\n' || c = '\r'

/-- How many characters other than breaks follow each break. -/
def breaks (cs : List Char) : List Nat :=
  (cs.foldr (fun c (count, found) => if isBreak c then (count, count :: found)
    else (count + 1, found)) (0, [])).2

/-- The URL that a text denotes, relative to a base if it has no scheme. -/
def Record.ofText? (base : Option Record) (text : String) : Except Fault Record :=
  let cs := (trimmed text).filter fun c => !isBreak c
  let cuts := breaks (trimmed text)
  match takeScheme? cs with
  | some (scheme, rest) => readAfterScheme cuts base scheme rest
  | none =>
    match base with
    | none => .error .relativeWithoutBase
    | some b =>
      if cs.head? = some '#' then .ok (withTail b cs)
      else if b.hasVerbatimPath then .error .relativeToVerbatimPath
      else if b.scheme = "file" then readFile cuts base cs
      else readRelative b cs

/-- A resolver for URLs with ASCII hosts. A host in another script is refused, where it would have to be
written in Punycode. -/
def asciiResolver : Resolver := fun base text =>
  let parts := base.bind fun b => (Record.ofText? none b.shown).toOption
  (Record.ofText? parts text).toOption.map fun u => ⟨u.shown⟩

example : asciiResolver (some ⟨"http://example.com/a/b"⟩) "../c?d" = some ⟨"http://example.com/c?d"⟩ := by
  decide +kernel

end WebBindings.Url
