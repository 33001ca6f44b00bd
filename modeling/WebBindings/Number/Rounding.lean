/-!
# Rounding to nearest

Quotients of natural numbers rounded to an integer, or to an integer of limited precision times a
power of two. Of two integers equally near, the even one is taken.
-/

-- Powers of numbers are the same whether or not a library of algebra is at hand.
attribute [default_instance 20000, instance(2000)] instPowNat

namespace WebBindings.Rounding

/-- The integer nearest to `num / den`, the even one of two. -/
def nearest (num den : Nat) : Nat :=
  let floor := num / den
  let excess := 2 * (num % den)
  if excess < den then floor
  else if den < excess then floor + 1
  else if floor % 2 = 0 then floor else floor + 1

/-- The product `m * 2 ^ e`, with `m` of at most `precision` bits and `e` as small as that allows,
nearest to `num / den`. -/
def toPrecision (precision num den : Nat) : Nat × Nat :=
  let e := (num / den).log2 + 1 - precision
  let m := nearest num (den * 2 ^ e)
  if m = 2 ^ precision then (2 ^ (precision - 1), e + 1) else (m, e)

/-- A nearest integer is at most half a unit away. -/
theorem nearest_le (num den : Nat) (hden : 0 < den) :
    2 * (nearest num den * den) ≤ 2 * num + den ∧ 2 * num ≤ 2 * (nearest num den * den) + den := by
  have hsplit : den * (num / den) + num % den = num := Nat.div_add_mod num den
  have hmod : num % den < den := Nat.mod_lt num hden
  have hcomm : num / den * den = den * (num / den) := Nat.mul_comm _ _
  have hsucc : (num / den + 1) * den = den * (num / den) + den := by
    rw [Nat.add_mul, Nat.one_mul, hcomm]
  simp only [nearest]
  split
  · rw [hcomm]; omega
  · split
    · rw [hsucc]; omega
    · split
      · rw [hcomm]; omega
      · rw [hsucc]; omega

end WebBindings.Rounding
