/-!
# Script strings

A script string is a sequence of 16-bit code units in which surrogates may stand alone. This file
reads such a sequence as code points, replaces the lone surrogates, and moves text between script
strings and `String`.
-/

namespace WebBindings

structure DOMString where
  units : List UInt16
deriving DecidableEq, Inhabited

/-- One item of a script string: a Unicode scalar value or an unpaired surrogate. -/
inductive CodePoint
  | scalar (c : Char)
  | lone (unit : UInt16)
deriving DecidableEq

namespace Units

/-- Units that open a surrogate pair. -/
def isHigh (u : UInt16) : Bool := 0xD800 ≤ u.toNat && u.toNat < 0xDC00

/-- Units that close a surrogate pair. -/
def isLow (u : UInt16) : Bool := 0xDC00 ≤ u.toNat && u.toNat < 0xE000

def pair (high low : UInt16) : Char :=
  Char.ofNat (0x10000 + (high.toNat - 0xD800) * 0x400 + (low.toNat - 0xDC00))

def single (u : UInt16) : CodePoint :=
  if isHigh u || isLow u then .lone u else .scalar (Char.ofNat u.toNat)

/-- Put a unit before items already read: a high surrogate takes a low one that stands alone. -/
def attach (u : UInt16) : List CodePoint → List CodePoint
  | .lone v :: rest =>
    if isHigh u && isLow v then .scalar (pair u v) :: rest else single u :: .lone v :: rest
  | items => single u :: items

/-- Read units as code points, pairing each high surrogate with a low one that follows it. -/
def codePoints (units : List UInt16) : List CodePoint := units.foldr attach []

/-- The units of a scalar value: one below U+10000, a surrogate pair from there on. -/
def ofChar (c : Char) : List UInt16 :=
  if c.toNat < 0x10000 then [c.toNat.toUInt16]
  else
    let n := c.toNat - 0x10000
    [(0xD800 + n / 0x400).toUInt16, (0xDC00 + n % 0x400).toUInt16]

end Units

namespace CodePoint

def isScalar : CodePoint → Bool
  | .scalar _ => true
  | .lone _ => false

/-- The scalar value, with U+FFFD for an unpaired surrogate. -/
def toChar : CodePoint → Char
  | .scalar c => c
  | .lone _ => '\uFFFD'

/-- The units that the item was read from. -/
def units : CodePoint → List UInt16
  | .scalar c => Units.ofChar c
  | .lone u => [u]

end CodePoint

namespace DOMString

def empty : DOMString := ⟨[]⟩

/-- The number of units, which scripts see as `length`. -/
def length (s : DOMString) : Nat := s.units.length

def isEmpty (s : DOMString) : Bool := s.units.isEmpty

def append (s t : DOMString) : DOMString := ⟨s.units ++ t.units⟩

instance : Append DOMString := ⟨append⟩

def ofString (text : String) : DOMString := ⟨text.toList.flatMap Units.ofChar⟩

def codePoints (s : DOMString) : List CodePoint := Units.codePoints s.units

/-- Whether no surrogate stands alone. -/
def isWellFormed (s : DOMString) : Bool := s.codePoints.all CodePoint.isScalar

/-- The characters, with U+FFFD in place of each lone surrogate. -/
def chars (s : DOMString) : List Char := s.codePoints.map CodePoint.toChar

def text (s : DOMString) : String := String.ofList s.chars

def toWellFormed (s : DOMString) : DOMString :=
  if s.isWellFormed then s else ⟨s.chars.flatMap Units.ofChar⟩

/-- The characters of a well-formed string, and nothing for an ill-formed one. -/
def chars? (s : DOMString) : Option (List Char) :=
  if s.isWellFormed then some s.chars else none

/-- Order by code units, a proper beginning coming first. -/
def compare (s t : DOMString) : Ordering :=
  go s.units t.units
where
  go : List UInt16 → List UInt16 → Ordering
    | [], [] => .eq
    | [], _ :: _ => .lt
    | _ :: _, [] => .gt
    | a :: as, b :: bs =>
      if a.toNat < b.toNat then .lt else if b.toNat < a.toNat then .gt else go as bs

end DOMString

end WebBindings
