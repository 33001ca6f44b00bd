import WebBindings.Number.Double
/-!
# Binary32 numbers

Single precision, as the target of conversions from binary64 only.
-/

namespace WebBindings

/-- A binary32 number; a finite one is given by its sign and its place among the magnitudes. -/
inductive Single
  | nan
  | infinite (negative : Bool)
  | finite (negative : Bool) (rank : Nat)
deriving DecidableEq

namespace Single

/-- The single-precision number nearest to a binary64 number. -/
def ofDouble : Double → Single
  | .nan => .nan
  | .infinite negative => .infinite negative
  | .finite negative m =>
    let (significand, exponent) := Rounding.toPrecision 24 m.units (2 ^ 925)
    let rank := exponent * 2 ^ 23 + significand
    if rank < 255 * 2 ^ 23 then .finite negative rank else .infinite negative

def isInfinite : Single → Bool
  | .infinite _ => true
  | _ => false

def toDouble : Single → Double
  | .nan => .nan
  | .infinite negative => .infinite negative
  | .finite negative rank =>
    let significand := if rank < 2 ^ 24 then rank else 2 ^ 23 + rank % 2 ^ 23
    let exponent := rank / 2 ^ 23 - 1
    Double.round negative (significand * 2 ^ (exponent + 925)) 1

/-- The bit pattern; `nan` has the quiet one without a sign. -/
def toBits : Single → Nat
  | .nan => 0x7FC00000
  | .infinite negative => signBit negative + 255 * 2 ^ 23
  | .finite negative rank => signBit negative + rank
where
  signBit (negative : Bool) : Nat := if negative then 2 ^ 31 else 0

end Single

end WebBindings
