import WebBindings.Conversion
/-!
# Integer types

The eight integer types of interfaces, and the three ways to bring a number into the range of one:
wrapping around, clamping, and refusing numbers outside.
-/

namespace WebBindings

variable {σ : Type}

inductive IntegerType
  | byte
  | octet
  | short
  | unsignedShort
  | long
  | unsignedLong
  | longLong
  | unsignedLongLong
deriving DecidableEq

/-- How a number is brought into range. -/
inductive IntegerMode
  | modulo
  | clamp
  | enforceRange
deriving DecidableEq

namespace IntegerType

def name : IntegerType → String
  | .byte => "byte"
  | .octet => "octet"
  | .short => "short"
  | .unsignedShort => "unsigned short"
  | .long => "long"
  | .unsignedLong => "unsigned long"
  | .longLong => "long long"
  | .unsignedLongLong => "unsigned long long"

def all : List IntegerType :=
  [.byte, .octet, .short, .unsignedShort, .long, .unsignedLong, .longLong, .unsignedLongLong]

def bits : IntegerType → Nat
  | .byte | .octet => 8
  | .short | .unsignedShort => 16
  | .long | .unsignedLong => 32
  | .longLong | .unsignedLongLong => 64

def isSigned : IntegerType → Bool
  | .byte | .short | .long | .longLong => true
  | .octet | .unsignedShort | .unsignedLong | .unsignedLongLong => false

/-- The least value of the type. -/
def least (t : IntegerType) : Int := if t.isSigned then -2 ^ (t.bits - 1) else 0

def greatest (t : IntegerType) : Int :=
  if t.isSigned then 2 ^ (t.bits - 1) - 1 else 2 ^ t.bits - 1

/-- The greatest number up to which every integer is a number of scripts. -/
def maxSafe : Double := .ofNat (2 ^ 53 - 1)

/-- The least and the greatest number that clamping and enforcing keep. -/
def bounds (t : IntegerType) : Double × Double :=
  if t.bits = 64 then
    (if t.isSigned then maxSafe.neg else .zero false, maxSafe)
  else
    let two := Double.ofNat 2
    if t.isSigned then
      let half := two.powi (t.bits - 1)
      (half.neg, half.sub (.ofNat 1))
    else (.zero false, (two.powi t.bits).sub (.ofNat 1))

/-- A number without a fraction modulo `2 ^ 64`. A negative one is wrapped around by the negation of
words. -/
def toWord (integral : Double) : UInt64 :=
  let remainder := integral.rem (.ofNat (2 ^ 64))
  if (Double.zero false).le remainder then remainder.toUInt64 else -remainder.neg.toUInt64

/-- The value of the type that has the low bits of a word. -/
def ofWord (t : IntegerType) (word : UInt64) : Int :=
  let low := word.toBitVec.setWidth t.bits
  if t.isSigned then low.toInt else low.toNat

/-- The value of the type that a number within its bounds is. -/
def ofInRange (t : IntegerType) (x : Double) : Int := x.saturate t.least t.greatest

def ofDouble (t : IntegerType) (mode : IntegerMode) (x : Double) : Except Fault Int :=
  let (lower, upper) := t.bounds
  let number := x.dropZeroSign
  match mode with
  | .enforceRange =>
    if number.isFinite then
      let integral := number.integerPart
      if integral.lt lower || upper.lt integral then .error (.outsideRangeOf t.name)
      else .ok (t.ofInRange integral)
    else .error (.notFiniteFor t.name)
  | .clamp =>
    if number.isNaN then .ok (t.ofInRange (.zero false))
    else .ok (t.ofInRange (number.clamp lower upper).roundTiesEven.dropZeroSign)
  | .modulo =>
    if number.isFinite then .ok (t.ofWord (toWord number.integerPart))
    else .ok (t.ofInRange (.zero false))

end IntegerType

def toInteger (t : IntegerType) (mode : IntegerMode) (value : Value) : Script σ Int := do
  settle (t.ofDouble mode (← toNumber value))

end WebBindings
