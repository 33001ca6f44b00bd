import WebBindings.Number.Double
import WebBindings.Text.Ascii
import WebBindings.Text.Units
/-!
# Number literals

Reading numbers from text: decimal literals with fraction and exponent, literals with a radix, and
the conversions from script strings to numbers and integers.
-/

namespace WebBindings

/-- The parts of a decimal literal without its sign. -/
structure DecimalLiteral where
  whole : List Char
  fraction : List Char
  exponentNegative : Bool
  exponent : List Char
deriving DecidableEq

namespace DecimalLiteral

/-- The number nearest to a literal's exact value. -/
def value (l : DecimalLiteral) (negative : Bool) : Double :=
  let scale := Double.signed l.exponentNegative (Ascii.natOf 10 l.exponent)
  Double.ofDecimal negative (Ascii.natOf 10 (l.whole ++ l.fraction)) (scale - l.fraction.length)

/-- Take an exponent of at least one digit from the front of a text. -/
def takeExponent? : List Char → Option ((Bool × List Char) × List Char)
  | [] => none
  | e :: rest =>
    if e = 'e' || e = 'E' then
      let (negative, unsigned) :=
        match rest with
        | '-' :: r => (true, r)
        | '+' :: r => (false, r)
        | r => (false, r)
      let (digits, after) := unsigned.span Ascii.isDigit
      if digits.isEmpty then none else some ((negative, digits), after)
    else none

end DecimalLiteral

namespace Literal

/-- White space and line ends that scripts ignore around a number. -/
def isBlank (u : UInt16) : Bool :=
  let n := u.toNat
  (9 ≤ n && n ≤ 13) || n = 0x20 || n = 0xA0 || n = 0x1680 || (0x2000 ≤ n && n ≤ 0x200A) ||
    n = 0x2028 || n = 0x2029 || n = 0x202F || n = 0x205F || n = 0x3000 || n = 0xFEFF

/-- The characters between the surrounding blanks, if they are well-formed. -/
def trimmed? (s : DOMString) : Option (List Char) :=
  let front := s.units.dropWhile isBlank
  DOMString.chars? ⟨(front.reverse.dropWhile isBlank).reverse⟩

/-- The radix that a letter after a leading zero announces. -/
def radix? (c : Char) : Option Nat :=
  if c = 'x' || c = 'X' then some 16
  else if c = 'o' || c = 'O' then some 8
  else if c = 'b' || c = 'B' then some 2
  else none

/-- Split a literal with a radix into the radix and what follows; it has at least one character. -/
def radixParts? : List Char → Option (Nat × List Char)
  | '0' :: letter :: c :: rest => (radix? letter).map fun r => (r, c :: rest)
  | _ => none

/-- The value of digits in a radix, rounded after each digit; `nan` if one is no digit. -/
def radixNumber (radix : Nat) (digits : List Char) : Double :=
  (digits.foldl
    (fun acc c => acc.bind fun x => (Ascii.digit? radix c).map fun d => x.mulAdd radix d)
    (some (Double.zero false))).getD .nan

/-- A whole text as an unsigned decimal literal. -/
def unsignedDecimal? (cs : List Char) : Option DecimalLiteral :=
  let (whole, afterWhole) := cs.span Ascii.isDigit
  let (fraction, afterFraction) :=
    match afterWhole with
    | '.' :: rest => rest.span Ascii.isDigit
    | rest => ([], rest)
  if whole.isEmpty && fraction.isEmpty then none
  else
    match afterFraction with
    | [] => some ⟨whole, fraction, false, []⟩
    | rest =>
      match DecimalLiteral.takeExponent? rest with
      | some ((negative, digits), []) => some ⟨whole, fraction, negative, digits⟩
      | _ => none

/-- Remove an optional sign; the flag tells a minus. -/
def unsigned : List Char → Bool × List Char
  | '-' :: rest => (true, rest)
  | '+' :: rest => (false, rest)
  | cs => (false, cs)

/-- The number that a script string denotes; `nan` if it is no numeric literal. -/
def toNumber (s : DOMString) : Double :=
  match trimmed? s with
  | none => .nan
  | some [] => Double.zero false
  | some cs =>
    match radixParts? cs with
    | some (radix, digits) => radixNumber radix digits
    | none =>
      let (negative, magnitude) := unsigned cs
      if magnitude = "Infinity".toList then .infinite negative
      else
        match unsignedDecimal? magnitude with
        | some literal => literal.value negative
        | none => .nan

/-- The integer that a script string denotes, if it is an integer literal. -/
def toInteger? (s : DOMString) : Option Int :=
  match trimmed? s with
  | none => none
  | some [] => some 0
  | some cs =>
    match radixParts? cs with
    | some (radix, digits) =>
      if digits.all fun c => (Ascii.digit? radix c).isSome then some (Ascii.natOf radix digits)
      else none
    | none =>
      let (negative, digits) := unsigned cs
      if !digits.isEmpty && digits.all Ascii.isDigit then
        some (Double.signed negative (Ascii.natOf 10 digits))
      else none

end Literal

end WebBindings
