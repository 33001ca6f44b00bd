import WebBindings.Conversion
import WebBindings.Number.Single
/-!
# Floating-point types

The restricted types refuse numbers that are not finite, before or after rounding.
-/

namespace WebBindings

variable {σ : Type}

namespace Single

/-- The number in single precision, unless one of the two is not finite. -/
def ofFinite? (x : Double) : Except Fault Single :=
  if x.isFinite then
    let rounded := ofDouble x
    if rounded.isInfinite then .error .outsideFloat else .ok rounded
  else .error .notFinite

end Single

def toFloat (value : Value) : Script σ Single := do
  settle (Single.ofFinite? (← toNumber value))

def toUnrestrictedFloat (value : Value) : Script σ Single := do
  return .ofDouble (← toNumber value)

namespace Double

/-- The number, unless it is not finite. -/
def finite? (x : Double) : Except Fault Double := if x.isFinite then .ok x else .error .notFinite

end Double

def toDouble (value : Value) : Script σ Double := do
  settle (← toNumber value).finite?

end WebBindings
