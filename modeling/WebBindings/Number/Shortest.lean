import WebBindings.Number.Double
/-!
# Shortest decimal digits

The fewest decimal digits that read back as a given number. Every number owns the reals that round
to it, an interval whose ends belong to it when its significand is even. For one digit, two digits
and so on, the two decimal neighbours of the number on that grid are tried; of two neighbours inside
the interval the nearer one is taken, and the larger one when both are equally near.
-/

namespace WebBindings

/-- The number `0.d₁d₂… * 10 ^ point`. -/
structure Digits where
  digits : List Char
  point : Int
deriving DecidableEq

namespace Shortest

/-- A magnitude and the ends of its interval, in quarters of a unit. -/
structure Interval where
  low : Nat
  value : Nat
  high : Nat
  closed : Bool

/-- The reals that round to a magnitude. Below a power of two the neighbours are closer. -/
def interval (m : Magnitude) : Interval :=
  let step := 2 ^ m.exponent
  let below := if m.significand = 2 ^ 52 ∧ m.exponent ≠ 0 then 1 else 2
  { low := (4 * m.significand - below) * step
    value := 4 * m.significand * step
    high := (4 * m.significand + 2) * step
    closed := m.significand % 2 = 0 }

def quarters : Nat := 4 * Double.one

/-- The power of ten above a positive magnitude: `10 ^ (p - 1) ≤ value < 10 ^ p`. -/
def pointOf (value : Nat) : Int :=
  (Nat.toDigits 10 (value * 10 ^ 400 / quarters)).length - 400

/-- Whether `candidate * scale` lies in an interval magnified by `grow`. -/
def inside (i : Interval) (grow scale candidate : Nat) : Bool :=
  let c := candidate * scale
  if i.closed then i.low * grow ≤ c && c ≤ i.high * grow
  else i.low * grow < c && c < i.high * grow

/-- The best decimal of `count` digits in the interval, in units of `10 ^ (point - count)`. -/
def candidate? (i : Interval) (point : Int) (count : Nat) : Option Nat :=
  let shift := (count : Int) - point
  let grow := 10 ^ shift.toNat
  let scale := quarters * 10 ^ (-shift).toNat
  let value := i.value * grow
  let down := value / scale
  let up := down + 1
  match inside i grow scale down, inside i grow scale up with
  | true, true => some (if up * scale - value ≤ value - down * scale then up else down)
  | true, false => some down
  | false, true => some up
  | false, false => none

def search (i : Interval) (point : Int) : (tries count : Nat) → Nat × Nat
  | 0, count => (0, count)
  | tries + 1, count =>
    match candidate? i point count with
    | some c => (c, count)
    | none => search i point tries (count + 1)

def trimZeros (digits : List Char) : List Char :=
  (digits.reverse.dropWhile (· = '0')).reverse

/-- The shortest digits of a positive magnitude; seventeen always suffice. -/
def ofMagnitude (m : Magnitude) : Digits :=
  let i := interval m
  let point := pointOf i.value
  let (c, count) := search i point 17 1
  let digits := Nat.toDigits 10 c
  ⟨trimZeros digits, point + (digits.length - count)⟩

end Shortest

end WebBindings
