import WebBindings.Proofs.Number.Nearest
/-!
# Differences of numbers

The difference of two numbers by the rules of binary64 arithmetic: what infinities and `nan` give, the
sign of a zero, and else the number nearest to the exact difference. It is one alone, and the rounded
sum with the negated number is it.
-/

namespace WebBindings.Double

/-- Whether a number has the negative sign; `nan` has none. -/
def negative? : Double → Option Bool
  | nan => none
  | infinite negative => some negative
  | finite negative _ => some negative

/-- A number is the difference of two others. An exact zero is negative only for a negative zero less a
positive one; the nearest number to any other difference has the sign of that difference. -/
inductive IsDifference : Double → Double → Double → Prop
  | nanLeft (y : Double) : IsDifference nan y nan
  | nanRight (x : Double) : IsDifference x nan nan
  | sameInfinity (negative : Bool) : IsDifference (infinite negative) (infinite negative) nan
  | otherInfinity {a b : Bool} (differ : a ≠ b) : IsDifference (infinite a) (infinite b) (infinite a)
  | infiniteLeft (negative a : Bool) (m : Magnitude) :
    IsDifference (infinite negative) (finite a m) (infinite negative)
  | infiniteRight (a negative : Bool) (m : Magnitude) :
    IsDifference (finite a m) (infinite negative) (infinite !negative)
  | equal {a b : Bool} {m n : Magnitude} (same : signedRat a m.toRat = signedRat b n.toRat) :
    IsDifference (finite a m) (finite b n) (zero (a && !b))
  | apart {a b : Bool} {m n : Magnitude} {z : Double}
    (differ : signedRat a m.toRat ≠ signedRat b n.toRat)
    (near : z.IsNearestTo (signedRat a m.toRat - signedRat b n.toRat))
    (sign : z.negative? = some (decide (signedRat a m.toRat < signedRat b n.toRat))) :
    IsDifference (finite a m) (finite b n) z

variable {x y z : Double}

theorem signedRat_toRat (negative : Bool) (m : Magnitude) :
    signedRat negative m.toRat = (signed negative m.units : ℤ) / (one : ℚ) :=
  Option.some.inj (toRat?_finite negative m)

theorem signedRat_div (negative : Bool) (q r : ℚ) :
    signedRat negative (q / r) = signedRat negative q / r := by
  cases negative with
  | false => rfl
  | true => exact (neg_div r q).symm

theorem negative?_round (negative : Bool) (num den : ℕ) :
    (round negative num den).negative? = some negative := by
  unfold round
  simp only
  split <;> rfl

/-- The sign is all that is lost with the sign of zero. -/
theorem eq_of_negative? (same : x.dropZeroSign = y.dropZeroSign) (sign : x.negative? = y.negative?) :
    x = y := by
  cases zero : x.isZero with
  | false =>
    rw [dropZeroSign_of_nonzero zero] at same
    exact (eq_of_dropZeroSign same.symm zero).symm
  | true =>
    obtain ⟨a, rfl⟩ := eq_zero_of_isZero zero
    have zero' : y.isZero = true := by
      cases nonzero : y.isZero with
      | true => rfl
      | false =>
        rw [dropZeroSign_of_nonzero nonzero] at same
        rw [← nonzero, ← same]
        rfl
    obtain ⟨b, rfl⟩ := eq_zero_of_isZero zero'
    rw [Option.some.inj sign]

theorem signedRat_sub_toRat (a b : Bool) (m n : Magnitude) :
    signedRat a m.toRat - signedRat b n.toRat =
      ((signed a m.units + signed (!b) n.units : ℤ) : ℚ) / one := by
  rw [signedRat_toRat, signedRat_toRat, signed_not, ← sub_div]
  push_cast
  rw [← sub_eq_add_neg]

theorem sub_isDifference (x y : Double) : IsDifference x y (x.sub y) := by
  cases x with
  | nan => exact .nanLeft y
  | infinite a =>
    cases y with
    | nan => exact .nanRight _
    | infinite b =>
      cases a <;> cases b
      · exact .sameInfinity false
      · exact .otherInfinity (by decide)
      · exact .otherInfinity (by decide)
      · exact .sameInfinity true
    | finite b n => exact .infiniteLeft a b n
  | finite a m =>
    cases y with
    | nan => exact .nanRight _
    | infinite b => exact .infiniteRight a b m
    | finite b n =>
      have hone := cast_one_pos
      have hexact := signedRat_sub_toRat a b m n
      have hsub : (finite a m).sub (finite b n) =
          let total := signed a m.units + signed (!b) n.units
          if total = 0 then zero (a && !b) else round (total < 0) total.natAbs 1 := rfl
      rw [hsub]
      simp only
      generalize signed a m.units + signed (!b) n.units = total at hexact
      by_cases none : total = 0
      · rw [if_pos none]
        apply IsDifference.equal
        rw [← sub_eq_zero, hexact, none, Int.cast_zero, zero_div]
      · rw [if_neg none]
        have hless : decide (signedRat a m.toRat < signedRat b n.toRat) = decide (total < 0) := by
          rw [decide_eq_decide, ← sub_neg, hexact, div_lt_iff₀ hone, zero_mul, Int.cast_lt_zero]
        apply IsDifference.apart
        · rw [ne_eq, ← sub_eq_zero, hexact, div_eq_zero_iff]
          exact not_or.2 ⟨Int.cast_ne_zero.2 none, hone.ne'⟩
        · have near := round_isNearestTo (decide (total < 0)) total.natAbs Nat.one_pos
          rwa [Nat.cast_one, div_one, signedRat_div, signedRat_natAbs, ← hexact] at near
        · rw [hless]
          exact negative?_round _ _ _

theorem IsDifference.unique {z' : Double} (first : IsDifference x y z) (second : IsDifference x y z') :
    z = z' := by
  cases first with
  | apart differ near sign =>
    cases second with
    | equal same => exact absurd same differ
    | apart differ near' sign' => exact eq_of_negative? (near.unique near') (sign.trans sign'.symm)
  | equal same =>
    cases second with
    | equal same => rfl
    | apart differ near' sign' => exact absurd same differ
  | sameInfinity =>
    cases second with
    | sameInfinity => rfl
    | otherInfinity differ => exact absurd rfl differ
  | otherInfinity differ =>
    cases second with
    | sameInfinity => exact absurd rfl differ
    | otherInfinity differ => rfl
  | _ => cases second <;> rfl

/-- There is one difference, the rounded sum with the negated number. -/
theorem isDifference_iff : IsDifference x y z ↔ x.sub y = z := by
  constructor
  · exact fun difference => (sub_isDifference x y).unique difference
  · rintro rfl
    exact sub_isDifference x y

end WebBindings.Double
