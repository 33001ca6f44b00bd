import WebBindings.Text.Ascii
/-!
# Percent escapes

The characters of each part of a URL that are written as percent escapes, one for each byte.
-/

namespace WebBindings.Url

def escape (byte : UInt8) : String :=
  let digit (n : Nat) : Char := (Nat.digitChar n).toUpper
  String.ofList ['%', digit (byte.toNat / 16), digit (byte.toNat % 16)]

def isControl (c : Char) : Bool := c.toNat < 0x20 || c = '\x7f'

def escapedInFragment (c : Char) : Bool :=
  isControl c || [' ', '"', '<', '>', '`'].contains c

def escapedInPath (c : Char) : Bool :=
  escapedInFragment c || ['#', '?', '\x7b', '\x7d'].contains c

def escapedInCredentials (c : Char) : Bool :=
  escapedInPath c || ['/', ':', ';', '=', '@', '[', '\\', ']', '^', '|'].contains c

def escapedInQuery (special : Bool) (c : Char) : Bool :=
  isControl c || [' ', '"', '#', '<', '>'].contains c || (special && c = '\'')

/-- Escape the characters of a set and everything beyond ASCII, byte by byte. -/
def encode (escaped : Char → Bool) (cs : List Char) : String :=
  String.join (cs.map fun c =>
    if 0x80 ≤ c.toNat || escaped c then String.join (c.toString.toUTF8.toList.map escape)
    else c.toString)

/-- Resolve the escapes of characters below U+0080; nothing if another character remains or is
escaped. -/
def decodeAscii? : List Char → Option (List Char)
  | [] => some []
  | '%' :: a :: b :: rest =>
    match Ascii.digit? 16 a, Ascii.digit? 16 b with
    | some x, some y =>
      if x < 8 then (decodeAscii? rest).map (Char.ofNat (x * 16 + y) :: ·) else none
    | _, _ => (decodeAscii? (a :: b :: rest)).map ('%' :: ·)
  | c :: rest => if c.toNat < 0x80 then (decodeAscii? rest).map (c :: ·) else none

end WebBindings.Url
