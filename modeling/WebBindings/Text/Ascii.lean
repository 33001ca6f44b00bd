/-!
# ASCII classes

The white space, digits and letter case that attribute values, element names and policy headers are
read with. None of these functions looks beyond ASCII.
-/

namespace WebBindings.Ascii

/-- Tab, line feed, form feed, carriage return and space. -/
def isWhitespace (c : Char) : Bool :=
  c = '\t' || c = '\n' || c = '\x0c' || c = '\r' || c = ' '

def isDigit (c : Char) : Bool := '0' ≤ c && c ≤ '9'

def isAlphanumeric (c : Char) : Bool :=
  isDigit c || ('a' ≤ c && c ≤ 'z') || ('A' ≤ c && c ≤ 'Z')

/-- Fold the letters `A` to `Z` and keep everything else. -/
def lower (s : String) : String := s.map Char.toLower

/-- Equality up to the case of ASCII letters. -/
def sameFold (s t : String) : Bool := lower s = lower t

/-- The value of a digit in a radix of at most 16, letters in either case. -/
def digit? (radix : Nat) (c : Char) : Option Nat :=
  let value :=
    if isDigit c then c.toNat - '0'.toNat
    else if 'a' ≤ c && c ≤ 'z' then c.toNat - 'a'.toNat + 10
    else if 'A' ≤ c && c ≤ 'Z' then c.toNat - 'A'.toNat + 10
    else radix
  if value < radix then some value else none

theorem digit?_lt {radix value : Nat} {c : Char} (digit : digit? radix c = some value) :
    value < radix := by
  rw [digit?, Option.ite_none_right_eq_some] at digit
  exact Option.some.inj digit.2 ▸ digit.1

def natOf (radix : Nat) (digits : List Char) : Nat :=
  digits.foldl (fun n c => n * radix + (digit? radix c).getD 0) 0

/-- Cut at every character of a class; the pieces may be empty. -/
def splitOn (p : Char → Bool) : List Char → List (List Char)
  | [] => [[]]
  | c :: rest =>
    if p c then [] :: splitOn p rest
    else
      match splitOn p rest with
      | [] => [[c]]
      | piece :: pieces => (c :: piece) :: pieces

/-- The maximal runs of characters outside a class. -/
def runs (p : Char → Bool) (s : String) : List String :=
  ((splitOn p s.toList).filter fun piece => !piece.isEmpty).map String.ofList

def occursIn (fragment text : String) : Bool :=
  go fragment.toList text.toList
where
  go (f : List Char) : List Char → Bool
    | [] => f.isEmpty
    | c :: rest => f.isPrefixOf (c :: rest) || go f rest

end WebBindings.Ascii
