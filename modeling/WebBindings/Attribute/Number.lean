import WebBindings.Number.Literal
/-!
# Numbers in attributes

How attribute values are read as numbers: white space before the number and anything after it are
ignored.
-/

namespace WebBindings.AttributeNumber

def skipWhitespace (text : String) : List Char := text.toList.dropWhile Ascii.isWhitespace

/-- The greatest magnitude that is kept; larger ones count as this one. -/
def maxMagnitude : Nat := 2 ^ 63 - 1

/-- A magnitude with one more digit behind it. Both the product and the sum stop at the greatest
magnitude. -/
def pushDigit (magnitude : Nat) (c : Char) : Nat :=
  min (min (magnitude * 10) maxMagnitude + (Ascii.digit? 10 c).getD 0) maxMagnitude

/-- The magnitude of decimal digits, read one by one. -/
def magnitudeOf (digits : List Char) : Nat := digits.foldl pushDigit 0

/-- The integer that a text begins with. -/
def integer? (text : String) : Option Int :=
  let (negative, rest) := Literal.unsigned (skipWhitespace text)
  let digits := rest.takeWhile Ascii.isDigit
  if digits.isEmpty then none else some (Double.signed negative (magnitudeOf digits))

/-- The integer that a text begins with, unless it is negative. -/
def nonNegative? (text : String) : Option Int := (integer? text).filter (0 ≤ ·)

/-- The exponent that a text begins with, written without a plus. It is empty if there is none or if it
has no digits. -/
def exponentText : List Char → List Char
  | [] => []
  | e :: rest =>
    if e = 'e' || e = 'E' then
      let (negative, unsigned) := Literal.unsigned rest
      let digits := unsigned.takeWhile Ascii.isDigit
      if digits.isEmpty then [] else 'e' :: ((if negative then ['-'] else []) ++ digits)
    else []

def startsWithFraction : List Char → Bool
  | '.' :: c :: _ => Ascii.isDigit c
  | _ => false

/-- What a literal has behind its first digits: a point and digits, and an exponent. A point without
digits behind it is left out together with what follows. -/
def behindWhole : List Char → List Char
  | '.' :: rest =>
    let (fraction, rest) := rest.span Ascii.isDigit
    if fraction.isEmpty then [] else '.' :: fraction ++ exponentText rest
  | rest => exponentText rest

/-- The decimal literal that an unsigned text begins with, put together anew, with a zero before a leading
point. -/
def literalText? (cs : List Char) : Option (List Char) :=
  let (whole, rest) := if startsWithFraction cs then (['0'], cs) else cs.span Ascii.isDigit
  if whole.isEmpty then none else some (whole ++ behindWhole rest)

/-- The finite number that a text begins with; a zero has no sign. -/
def double? (text : String) : Option Double :=
  let (negative, rest) := Literal.unsigned (skipWhitespace text)
  match (literalText? rest).bind Literal.unsignedDecimal? with
  | none => none
  | some literal =>
    let x := literal.value negative
    if x.isFinite then some x.dropZeroSign else none

end WebBindings.AttributeNumber
