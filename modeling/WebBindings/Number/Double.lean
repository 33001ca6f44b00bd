import WebBindings.Number.Rounding
/-!
# Binary64 numbers

The numbers of scripts, as exact values. A finite number is a sign and a magnitude, and a magnitude
is counted in units of the least positive number, `2 ^ (-1074)`. Sums and conversions are computed
exactly and then rounded to nearest.
-/

namespace WebBindings

/-- A finite magnitude of `significand * 2 ^ exponent` units, in the one form with the smallest
possible exponent. -/
structure Magnitude where
  significand : Nat
  exponent : Nat
  significand_lt : significand < 2 ^ 53
  normal : exponent = 0 ∨ 2 ^ 52 ≤ significand
  exponent_le : exponent ≤ 2045
deriving DecidableEq

/-- A binary64 number. There is one `nan`. -/
inductive Double
  | nan
  | infinite (negative : Bool)
  | finite (negative : Bool) (magnitude : Magnitude)
deriving DecidableEq

namespace Magnitude

def zero : Magnitude := ⟨0, 0, by decide, .inl rfl, by decide⟩

/-- The magnitude in units of `2 ^ (-1074)`. -/
def units (m : Magnitude) : Nat := m.significand * 2 ^ m.exponent

/-- The place of a magnitude in increasing order, which is also its bit pattern. -/
def rank (m : Magnitude) : Nat := m.exponent * 2 ^ 52 + m.significand

def ofRank (r : Nat) (h : r < 2047 * 2 ^ 52) : Magnitude :=
  if hsmall : r < 2 ^ 53 then ⟨r, 0, hsmall, .inl rfl, by decide⟩
  else ⟨2 ^ 52 + r % 2 ^ 52, r / 2 ^ 52 - 1, by omega, .inr (by omega), by omega⟩

theorem rank_lt (m : Magnitude) : m.rank < 2047 * 2 ^ 52 := by
  have hs := m.significand_lt
  have he := m.exponent_le
  unfold rank
  omega

theorem ofRank_rank (m : Magnitude) : ofRank m.rank m.rank_lt = m := by
  obtain ⟨s, e, hs, hn, he⟩ := m
  unfold ofRank rank
  rcases hn with hzero | hbig
  · subst hzero
    simp only [Nat.zero_mul, Nat.zero_add]
    rw [dif_pos hs]
  · by_cases hzero : e = 0
    · subst hzero
      simp only [Nat.zero_mul, Nat.zero_add]
      rw [dif_pos hs]
    · rw [dif_neg (by simp only; omega)]
      simp only [Magnitude.mk.injEq]
      omega

end Magnitude

namespace Double

/-- The number of units below which nothing is left of one: `1` is `2 ^ 1074` units. -/
def one : Nat := 2 ^ 1074

def zero (negative : Bool) : Double := .finite negative .zero

instance : Inhabited Double := ⟨zero false⟩

/-- The number nearest to `num / den` units, infinite when that exceeds every finite number. -/
def round (negative : Bool) (num den : Nat) : Double :=
  let (m, e) := Rounding.toPrecision 53 num den
  if h : m < 2 ^ 53 ∧ (e = 0 ∨ 2 ^ 52 ≤ m) ∧ e ≤ 2045 then
    .finite negative ⟨m, e, h.1, h.2.1, h.2.2⟩
  else .infinite negative

def ofInt (n : Int) : Double := round (n < 0) (n.natAbs * one) 1

def ofNat (n : Nat) : Double := ofInt n

/-- The number nearest to `coefficient * 10 ^ exponent`. Exponents far outside the range of finite
numbers are settled by the count of digits. -/
def ofDecimal (negative : Bool) (coefficient : Nat) (exponent : Int) : Double :=
  let point := (Nat.toDigits 10 coefficient).length + exponent
  if coefficient = 0 then zero negative
  else if 310 < point then .infinite negative
  else if point < -330 then zero negative
  else if 0 ≤ exponent then round negative (coefficient * 10 ^ exponent.toNat * one) 1
  else round negative (coefficient * one) (10 ^ (-exponent).toNat)

def signed (negative : Bool) (n : Nat) : Int := if negative then -n else n

def isNaN : Double → Bool
  | .nan => true
  | _ => false

def isFinite : Double → Bool
  | .finite .. => true
  | _ => false

def isZero : Double → Bool
  | .finite _ m => m.significand = 0
  | _ => false

def isPositive : Double → Bool
  | .finite negative m => !negative && m.significand ≠ 0
  | .infinite negative => !negative
  | .nan => false

/-- Numeric equality: the zeros are equal, and nothing equals `nan`. -/
def equals : Double → Double → Bool
  | .finite a m, .finite b n => signed a m.units = signed b n.units
  | .infinite a, .infinite b => a = b
  | _, _ => false

def neg : Double → Double
  | .nan => .nan
  | .infinite negative => .infinite !negative
  | .finite negative m => .finite (!negative) m

/-- The rounded sum. An exact zero is negative only if both terms are. -/
def add : Double → Double → Double
  | .finite a m, .finite b n =>
    let total := signed a m.units + signed b n.units
    if total = 0 then zero (a && b) else round (total < 0) total.natAbs 1
  | .infinite a, .infinite b => if a = b then .infinite a else .nan
  | .infinite a, .finite .. => .infinite a
  | .finite .., .infinite b => .infinite b
  | _, _ => .nan

def sub (x y : Double) : Double := add x (neg y)

/-- `x * factor + summand`, rounded once. -/
def mulAdd (x : Double) (factor summand : Nat) : Double :=
  match x with
  | .finite a m =>
    let total := signed a m.units * factor + summand * one
    round (total < 0) total.natAbs 1
  | _ => x

/-- Numeric order: neither is `nan` less than anything, nor anything less than `nan`. -/
def lt : Double → Double → Bool
  | .finite a m, .finite b n => signed a m.units < signed b n.units
  | .finite .., .infinite negative => !negative
  | .infinite negative, .finite .. => negative
  | .infinite a, .infinite b => a && !b
  | _, _ => false

def le (x y : Double) : Bool := x.lt y || x.equals y

/-- The rounded product. -/
def mul : Double → Double → Double
  | .finite a m, .finite b n => round (a ^^ b) (m.units * n.units) one
  | .infinite a, .infinite b => .infinite (a ^^ b)
  | .infinite a, .finite b m | .finite a m, .infinite b =>
    if m.significand = 0 then .nan else .infinite (a ^^ b)
  | _, _ => .nan

/-- A power as a product of factors, rounded after each of them. -/
def powi (x : Double) : Nat → Double
  | 0 => ofNat 1
  | n + 1 => (x.powi n).mul x

/-- The remainder of the division by an integral quotient, of the sign of the dividend. -/
def rem : Double → Double → Double
  | .finite a m, .finite _ n => if n.significand = 0 then .nan else round a (m.units % n.units) 1
  | .finite a m, .infinite _ => .finite a m
  | _, _ => .nan

/-- Drop the fraction and keep the sign. -/
def trunc : Double → Double
  | .finite negative m => round negative (m.units / one * one) 1
  | x => x

/-- The nearest number without a fraction, the even one of two, of the same sign. -/
def roundTiesEven : Double → Double
  | .finite negative m => round negative (Rounding.nearest m.units one * one) 1
  | x => x

/-- The nearest number within bounds; `nan` stays what it is. -/
def clamp (x lower upper : Double) : Double :=
  let raised := if x.lt lower then lower else x
  if upper.lt raised then upper else raised

/-- The integer without the fraction, or else the bound that is passed; `nan` counts as zero. -/
def saturate (x : Double) (least greatest : Int) : Int :=
  match x with
  | .nan => 0
  | .infinite negative => if negative then least else greatest
  | .finite negative m => max least (min greatest (signed negative (m.units / one)))

def toUInt64 (x : Double) : UInt64 := .ofInt (x.saturate 0 (2 ^ 64 - 1))

def truncate? : Double → Option Int
  | .finite negative m => some (signed negative (m.units / one))
  | _ => none

def dropZeroSign (x : Double) : Double := if x.isZero then zero false else x

/-- Drop the fraction; a zero result is positive. -/
def integerPart (x : Double) : Double := x.trunc.dropZeroSign

/-- The bit pattern; `nan` has the quiet one without a sign. -/
def toBits : Double → Nat
  | .nan => 0x7FF8000000000000
  | .infinite negative => signBit negative + 2047 * 2 ^ 52
  | .finite negative m => signBit negative + m.rank
where
  signBit (negative : Bool) : Nat := if negative then 2 ^ 63 else 0

def ofBits (bits : Nat) : Double :=
  let negative := bits / 2 ^ 63 % 2 = 1
  let r := bits % 2 ^ 63
  if h : r < 2047 * 2 ^ 52 then .finite negative (.ofRank r h)
  else if r = 2047 * 2 ^ 52 then .infinite negative
  else .nan

end Double

end WebBindings
