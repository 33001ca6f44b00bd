import WebBindings.Proofs.Number.Rounding
/-!
# Nearest numbers

The number that is nearest to a rational number, the even one of two that are as near, and an infinity
beyond the range. It is one alone but for the sign of zero, and rounding gives it, as do the conversions
from integers and from decimals.
-/

namespace WebBindings

namespace Double

/-- A rational number with a sign. -/
def signedRat (negative : Bool) (q : ℚ) : ℚ := if negative then -q else q

/-- Halfway from the greatest number to `2 ^ 1024`. What is not below it is nearest to infinity. -/
def limit : ℚ := 2 ^ 1024 - 2 ^ 970

/-- A number is the one nearest to a rational number: all others are further away, or as far while this
one has the even significand. The sign of a zero is left open. -/
def IsNearestTo : Double → ℚ → Prop
  | nan, _ => False
  | infinite negative, q => limit ≤ signedRat negative q
  | finite negative m, q => |q| < limit ∧
    ∀ (y : Double) (w : ℚ), y.toRat? = some w → w ≠ signedRat negative m.toRat →
      |q - signedRat negative m.toRat| < |q - w| ∨
        |q - signedRat negative m.toRat| = |q - w| ∧ Even m.significand

theorem IsNearestTo.ne_nan {x : Double} {q : ℚ} (near : x.IsNearestTo q) : x ≠ nan := by
  rintro rfl
  exact near

@[simp] theorem abs_signedRat (negative : Bool) (q : ℚ) : |signedRat negative q| = |q| := by
  cases negative <;> simp [signedRat]

theorem signedRat_signedRat (negative : Bool) (q : ℚ) : signedRat negative (signedRat negative q) = q := by
  cases negative <;> simp [signedRat]

theorem limit_mul_one : limit * one = (2 ^ 53 - 1 / 2) * 2 ^ 2045 := by
  have hscale (a b : ℕ) : ((2 : ℚ) ^ (a + 54) - 2 ^ a) * (2 ^ b : ℕ) =
      (2 ^ 53 - 1 / 2) * 2 ^ (a + b + 1) := by
    push_cast
    ring
  rw [limit, one]
  exact hscale 970 1074

end Double

namespace Magnitude

variable (m : Magnitude)

theorem isNormal : Rounding.Normal m.significand m.exponent := ⟨m.significand_lt, m.normal⟩

theorem toRat_mul_one : m.toRat * Double.one = m.significand * 2 ^ m.exponent := by
  rw [m.toRat_eq, div_mul_cancel₀ _ Double.cast_one_pos.ne', units]
  push_cast
  rfl

theorem abs_sub_toRat (q : ℚ) :
    |q - m.toRat| * Double.one = |q * Double.one - m.significand * 2 ^ m.exponent| := by
  have hone := Double.cast_one_pos
  rw [← m.toRat_mul_one, ← sub_mul, abs_mul, abs_of_pos hone]

theorem toRat_nonneg : 0 ≤ m.toRat := by
  rw [toRat_eq]
  exact div_nonneg (Nat.cast_nonneg _) Double.cast_one_pos.le

theorem toRat_eq_zero : m.toRat = 0 ↔ m.significand = 0 := by
  have hscale : (2 : ℚ) ^ ((m.exponent : ℤ) - 1074) ≠ 0 := zpow_ne_zero _ (by norm_num)
  rw [toRat, mul_eq_zero_iff_right hscale, Nat.cast_eq_zero]

theorem toRat_injective : Function.Injective toRat := by
  intro m m' same
  have hscaled := congrArg (· * (Double.one : ℚ)) same
  simp only [toRat_mul_one] at hscaled
  by_contra apart
  have different : ¬ (m.significand = m'.significand ∧ m.exponent = m'.exponent) := by
    rintro ⟨hs, he⟩
    exact apart (by cases m; cases m'; simp_all)
  have hpos : (0 : ℚ) < 2 ^ m.exponent := by positivity
  have hpos' : (0 : ℚ) < 2 ^ m'.exponent := by positivity
  rcases Rounding.Normal.less_or_greater different with less | greater
  · have := (m.isNormal.step_up m'.isNormal less).1
    linarith
  · have := (m'.isNormal.step_up m.isNormal greater).1
    linarith

end Magnitude

namespace Double

theorem signedRat_sides (negative negative' : Bool) (m : Magnitude) :
    signedRat negative' m.toRat = signedRat negative m.toRat ∨
      signedRat negative' m.toRat = -signedRat negative m.toRat ∧ 0 < m.toRat := by
  rcases m.toRat_nonneg.eq_or_lt with hzero | hpos
  · left
    rw [← hzero]
    cases negative <;> cases negative' <;> simp [signedRat]
  · cases negative <;> cases negative' <;> simp [signedRat, hpos]

theorem signedRat_sub (negative : Bool) (a b : ℚ) :
    signedRat negative a - signedRat negative b = signedRat negative (a - b) := by
  cases negative with
  | false => rfl
  | true =>
    simp only [signedRat, if_true]
    ring

theorem signedRat_add (negative : Bool) (a b : ℚ) :
    signedRat negative a + signedRat negative b = signedRat negative (a + b) := by
  cases negative with
  | false => rfl
  | true =>
    simp only [signedRat, if_true]
    ring

/-- Where a number rounds to a magnitude, another one is further away, or it is as far and its significand
is odd. -/
theorem nearer_of_owns (negative negative' : Bool) {m m' : Magnitude} {q : ℚ} (nonneg : 0 ≤ q)
    (owns : Rounding.Owns m.significand m.exponent (q * one))
    (apart : signedRat negative' m'.toRat ≠ signedRat negative m.toRat) :
    |signedRat negative q - signedRat negative m.toRat| <
        |signedRat negative q - signedRat negative' m'.toRat| ∨
      |signedRat negative q - signedRat negative m.toRat| =
        |signedRat negative q - signedRat negative' m'.toRat| ∧
      Even m.significand ∧ ¬ Even m'.significand := by
  have hone := cast_one_pos
  rcases signedRat_sides negative negative' m' with hside | ⟨hside, hpos⟩
  · rw [hside] at apart ⊢
    have different : ¬ (m.significand = m'.significand ∧ m.exponent = m'.exponent) := by
      rintro ⟨hs, he⟩
      rw [Magnitude.toRat, Magnitude.toRat, hs, he] at apart
      exact apart rfl
    have hnearer := owns.nearer m.isNormal m'.isNormal different
    rw [← m.abs_sub_toRat, ← m'.abs_sub_toRat, mul_lt_mul_iff_of_pos_right hone,
      mul_left_inj' hone.ne'] at hnearer
    rw [signedRat_sub, signedRat_sub, abs_signedRat, abs_signedRat]
    exact hnearer
  · have hnonzero : 0 < (m'.significand : ℚ) * 2 ^ m'.exponent := by
      rw [← m'.toRat_mul_one]
      exact mul_pos hpos hone
    have hmirrored := owns.nearer_mirrored m.isNormal m'.isNormal (mul_nonneg nonneg hone.le) hnonzero
    rw [← m.abs_sub_toRat, ← m'.toRat_mul_one, ← add_mul, abs_mul, abs_of_pos hone,
      mul_lt_mul_iff_of_pos_right hone] at hmirrored
    rw [hside, signedRat_sub, sub_neg_eq_add, signedRat_add, abs_signedRat, abs_signedRat]
    exact .inl hmirrored

theorem isNearestTo_of_owns (negative : Bool) {m : Magnitude} {q : ℚ} (nonneg : 0 ≤ q)
    (owns : Rounding.Owns m.significand m.exponent (q * one)) :
    (finite negative m).IsNearestTo (signedRat negative q) := by
  refine ⟨?_, fun y w value apart => ?_⟩
  · rw [abs_signedRat, abs_of_nonneg nonneg, ← mul_lt_mul_iff_of_pos_right cast_one_pos, limit_mul_one]
    exact (owns.lt_iff m.isNormal 2045).2 m.exponent_le
  · cases y with
    | nan => cases value
    | infinite negative' => cases value
    | finite negative' m' =>
      obtain rfl := Option.some.inj value
      exact (nearer_of_owns negative negative' nonneg owns apart).imp id fun tie => ⟨tie.1, tie.2.1⟩

/-- Rounding a quotient of units gives the number of which the quotient is owned, if there is one. -/
theorem round_eq (negative : Bool) {num den s e : ℕ} (hden : 0 < den) (normal : Rounding.Normal s e)
    (owns : Rounding.Owns s e (num / den)) :
    round negative num den =
      if small : e ≤ 2045 then finite negative ⟨s, e, normal.1, normal.2, small⟩
      else infinite negative := by
  obtain ⟨normal', owns'⟩ := Rounding.toPrecision_owns num hden
  obtain ⟨hs, he⟩ := owns'.unique normal' owns normal
  simp only [round, hs, he]
  by_cases small : e ≤ 2045
  · rw [dif_pos small]
    exact dif_pos ⟨normal.1, normal.2, small⟩
  · rw [dif_neg small]
    exact dif_neg fun proper => small proper.2.2

theorem round_isNearestTo (negative : Bool) (num : ℕ) {den : ℕ} (hden : 0 < den) :
    (round negative num den).IsNearestTo (signedRat negative (num / den / one)) := by
  have hone := cast_one_pos
  have nonneg : (0 : ℚ) ≤ num / den / one :=
    div_nonneg (div_nonneg num.cast_nonneg den.cast_nonneg) hone.le
  have hscaled : (num : ℚ) / den / one * one = num / den := by rw [div_mul_cancel₀ _ hone.ne']
  obtain ⟨normal, owns⟩ := Rounding.toPrecision_owns num hden
  rw [round_eq negative hden normal owns]
  split
  · exact isNearestTo_of_owns negative nonneg (by rwa [hscaled])
  · rename_i small
    have hlarge := mt (owns.lt_iff normal 2045).1 small
    change limit ≤ signedRat negative (signedRat negative (num / den / one))
    rw [signedRat_signedRat, ← mul_le_mul_iff_of_pos_right hone, hscaled, limit_mul_one]
    exact not_lt.1 hlarge

theorem round_true (num den : ℕ) : round true num den = (round false num den).neg := by
  unfold round
  simp only
  split <;> rfl

theorem limit_pos : 0 < limit := by
  have hscaled : 0 < limit * one := by
    rw [limit_mul_one]
    exact mul_pos (by norm_num) (pow_pos (by norm_num) _)
  exact pos_of_mul_pos_left hscaled cast_one_pos.le

theorem exists_nearest {q : ℚ} (nonneg : 0 ≤ q) :
    limit ≤ q ∨ ∃ m : Magnitude, q < limit ∧
      Rounding.Owns m.significand m.exponent (q * one) := by
  have hone := cast_one_pos
  have hscaled : 0 ≤ q * one := mul_nonneg nonneg hone.le
  have hquotient : ((q * one).num.toNat : ℚ) / (q * one).den = q * one := by
    have hnum : ((q * one).num.toNat : ℤ) = (q * one).num :=
      Int.toNat_of_nonneg (Rat.num_nonneg.2 hscaled)
    have hcast : ((q * one).num.toNat : ℚ) = (q * one).num := by exact_mod_cast hnum
    rw [hcast, Rat.num_div_den]
  obtain ⟨normal, owns⟩ := Rounding.toPrecision_owns (q * one).num.toNat (q * one).den_pos
  rw [hquotient] at owns
  have hlimit := owns.lt_iff normal 2045
  rw [← limit_mul_one, mul_lt_mul_iff_of_pos_right hone] at hlimit
  by_cases small : (Rounding.toPrecision 53 (q * one).num.toNat (q * one).den).2 ≤ 2045
  · exact .inr ⟨⟨_, _, normal.1, normal.2, small⟩, hlimit.2 small, owns⟩
  · exact .inl (not_lt.1 (mt hlimit.1 small))

/-- A number that is nearest to a rational number is the one that owns it. -/
theorem IsNearestTo.value_eq {negative negative' : Bool} {m m' : Magnitude} {q : ℚ} (nonneg : 0 ≤ q)
    (owns : Rounding.Owns m'.significand m'.exponent (q * one))
    (near : (finite negative m).IsNearestTo (signedRat negative' q)) :
    signedRat negative m.toRat = signedRat negative' m'.toRat := by
  by_contra apart
  have hother := near.2 (finite negative' m') _ rfl (Ne.symm apart)
  rcases nearer_of_owns negative' negative nonneg owns apart with hless | ⟨htie, -, odd⟩
  · rcases hother with hmore | ⟨htie, -⟩
    · exact absurd hless (not_lt.2 hmore.le)
    · exact absurd htie.symm hless.ne
  · rcases hother with hmore | ⟨-, even⟩
    · exact absurd htie.symm hmore.ne
    · exact odd even

theorem signedRat_injective (negative : Bool) : Function.Injective (signedRat negative) := by
  intro a b same
  cases negative with
  | false => exact same
  | true => exact neg_injective same

theorem isNearestTo_iff_owns {negative : Bool} {m : Magnitude} {q : ℚ} (nonneg : 0 ≤ q) :
    (finite negative m).IsNearestTo (signedRat negative q) ↔
      Rounding.Owns m.significand m.exponent (q * one) := by
  refine ⟨fun near => ?_, isNearestTo_of_owns negative nonneg⟩
  have hsmall : q < limit := by
    have := near.1
    rwa [abs_signedRat, abs_of_nonneg nonneg] at this
  obtain ⟨m', -, owns⟩ := (exists_nearest nonneg).resolve_left (not_le.2 hsmall)
  have hvalue := signedRat_injective negative (near.value_eq nonneg owns)
  rwa [m.toRat_injective hvalue]

theorem eq_zero_of_isZero {x : Double} (zero : x.isZero = true) : ∃ negative, x = .zero negative := by
  cases x with
  | nan => cases zero
  | infinite negative => cases zero
  | finite negative m =>
    obtain ⟨significand, exponent, small, normal, bound⟩ := m
    simp only [isZero, decide_eq_true_eq] at zero
    obtain rfl : exponent = 0 := by omega
    subst zero
    exact ⟨negative, rfl⟩

theorem dropZeroSign_of_nonzero {x : Double} (nonzero : x.isZero = false) : x.dropZeroSign = x := by
  rw [dropZeroSign, nonzero]
  rfl

theorem isFinite_dropZeroSign (x : Double) : x.dropZeroSign.isFinite = x.isFinite := by
  cases zero : x.isZero with
  | false => rw [dropZeroSign_of_nonzero zero]
  | true =>
    obtain ⟨negative, rfl⟩ := eq_zero_of_isZero zero
    rfl

theorem eq_of_dropZeroSign {x y : Double} (same : y.dropZeroSign = x) (nonzero : x.isZero = false) :
    y = x := by
  rw [dropZeroSign] at same
  split at same
  · subst same
    cases nonzero
  · exact same

theorem dropZeroSign_eq {negative negative' : Bool} {m m' : Magnitude}
    (same : signedRat negative m.toRat = signedRat negative' m'.toRat) :
    (finite negative m).dropZeroSign = (finite negative' m').dropZeroSign := by
  by_cases sign : negative = negative'
  · subst sign
    rw [Magnitude.toRat_injective (signedRat_injective negative same)]
  · have hnonneg := m.toRat_nonneg
    have hnonneg' := m'.toRat_nonneg
    have hopposite : m.toRat = -m'.toRat := by
      cases negative <;> cases negative' <;> simp [signedRat] at sign same <;> linarith
    have hzero := m.toRat_eq_zero.1 (by linarith)
    have hzero' := m'.toRat_eq_zero.1 (by linarith)
    simp [dropZeroSign, isZero, hzero, hzero']

/-- The number nearest to a rational number is one alone, but for the sign of zero. -/
theorem IsNearestTo.unique {x y : Double} {q : ℚ} (hx : x.IsNearestTo q) (hy : y.IsNearestTo q) :
    x.dropZeroSign = y.dropZeroSign := by
  obtain ⟨negative, a, nonneg, rfl⟩ : ∃ negative a, 0 ≤ a ∧ q = signedRat negative a := by
    rcases le_total 0 q with hq | hq
    · exact ⟨false, q, hq, rfl⟩
    · exact ⟨true, -q, neg_nonneg.2 hq, (neg_neg q).symm⟩
  have hsign {negative' : Bool} (large : limit ≤ signedRat negative' (signedRat negative a)) :
      negative' = negative ∧ limit ≤ a := by
    have hpos := limit_pos
    cases negative <;> cases negative' <;> simp [signedRat] at large ⊢ <;> linarith
  have hsmall {negative' : Bool} {m : Magnitude}
      (near : (finite negative' m).IsNearestTo (signedRat negative a)) : a < limit := by
    have := near.1
    rwa [abs_signedRat, abs_of_nonneg nonneg] at this
  cases x with
  | nan => cases hx
  | infinite negative' =>
    obtain ⟨rfl, hlarge⟩ := hsign hx
    cases y with
    | nan => cases hy
    | infinite negative'' => rw [(hsign hy).1]
    | finite negative'' m => exact absurd (hsmall hy) (not_lt.2 hlarge)
  | finite negative' m =>
    have hsmaller := hsmall hx
    cases y with
    | nan => cases hy
    | infinite negative'' => exact absurd hsmaller (not_lt.2 (hsign hy).2)
    | finite negative'' m'' =>
      obtain ⟨m', -, owns⟩ := (exists_nearest nonneg).resolve_left (not_le.2 hsmaller)
      exact dropZeroSign_eq ((hx.value_eq nonneg owns).trans (hy.value_eq nonneg owns).symm)

theorem signedRat_natAbs (n : ℤ) : signedRat (decide (n < 0)) n.natAbs = n := by
  have habs : ((n.natAbs : ℕ) : ℚ) = |(n : ℚ)| := by
    rw [← Int.cast_natCast, Int.natCast_natAbs, Int.cast_abs]
  rw [habs]
  by_cases negative : n < 0
  · have hcast : (n : ℚ) < 0 := by exact_mod_cast negative
    rw [abs_of_neg hcast]
    simp [signedRat, negative]
  · have hcast : (0 : ℚ) ≤ n := by exact_mod_cast not_lt.1 negative
    rw [abs_of_nonneg hcast]
    simp [signedRat, negative]

theorem ofInt_isNearestTo (n : ℤ) : (ofInt n).IsNearestTo n := by
  have hone := cast_one_pos
  have hround := round_isNearestTo (decide (n < 0)) (n.natAbs * one) Nat.one_pos
  rwa [Nat.cast_one, div_one, Nat.cast_mul, mul_div_cancel_right₀ _ hone.ne', signedRat_natAbs] at hround

end Double

theorem length_toDigits_bounds {n : ℕ} (hn : n ≠ 0) :
    (10 : ℚ) ^ (((Nat.toDigits 10 n).length : ℤ) - 1) ≤ n ∧
      (n : ℚ) < 10 ^ ((Nat.toDigits 10 n).length : ℤ) := by
  have hpos : 0 < (Nat.toDigits 10 n).length := Nat.length_toDigits_pos
  obtain ⟨k, hk⟩ : ∃ k, (Nat.toDigits 10 n).length = k + 1 := ⟨_, (Nat.succ_pred hpos.ne').symm⟩
  have hhigh : n < 10 ^ (k + 1) := (Nat.length_toDigits_le_iff (by decide) k.succ_pos).1 hk.le
  have hlow : 10 ^ k ≤ n := by
    rcases k.eq_zero_or_pos with rfl | hk'
    · simpa using Nat.one_le_iff_ne_zero.2 hn
    · refine not_lt.1 fun hless => ?_
      have := (Nat.length_toDigits_le_iff (b := 10) (by decide) hk').2 hless
      omega
  rw [hk]
  constructor
  · have hexp : ((k + 1 : ℕ) : ℤ) - 1 = k := by omega
    rw [hexp, zpow_natCast]
    exact_mod_cast hlow
  · rw [zpow_natCast]
    exact_mod_cast hhigh

namespace Double

theorem limit_le : limit ≤ 10 ^ 310 := by
  have hcast {a b : ℕ} (h : 2 ^ a ≤ 10 ^ b) : (2 : ℚ) ^ a ≤ 10 ^ b := by exact_mod_cast h
  have hpos (a : ℕ) : (0 : ℚ) ≤ 2 ^ a := pow_nonneg (by norm_num) a
  exact (sub_le_self _ (hpos 970)).trans (hcast (by decide +kernel))

theorem two_mul_one_lt : 2 * (one : ℚ) < 10 ^ 331 := by
  have hcast {a b : ℕ} (h : 2 * a < 10 ^ b) : 2 * (a : ℚ) < 10 ^ b := by exact_mod_cast h
  exact hcast (by decide +kernel)

theorem owns_zero {q : ℚ} (nonneg : 0 ≤ q) (small : q < 1 / 2) : Rounding.Owns 0 0 q := by
  have hdown : Rounding.halfStepDown 0 0 = 1 / 2 := by norm_num [Rounding.halfStepDown]
  refine ⟨?_, ?_, ?_⟩
  · rw [hdown]
    norm_num
    linarith
  · norm_num
    linarith
  · rw [hdown]
    norm_num

theorem zero_isNearestTo (negative : Bool) : (zero negative).IsNearestTo (signedRat negative 0) := by
  refine isNearestTo_of_owns negative le_rfl ?_
  rw [zero_mul]
  exact owns_zero le_rfl (by norm_num)

theorem ofDecimal_isNearestTo (negative : Bool) (c : ℕ) (e : ℤ) :
    (ofDecimal negative c e).IsNearestTo (signedRat negative (c * 10 ^ e)) := by
  have hone := cast_one_pos
  have hten : (0 : ℚ) < 10 ^ e := zpow_pos (by norm_num) e
  simp only [ofDecimal]
  by_cases hc : c = 0
  · rw [if_pos hc, hc, Nat.cast_zero, zero_mul]
    exact zero_isNearestTo negative
  rw [if_neg hc]
  obtain ⟨hlow, hhigh⟩ := length_toDigits_bounds hc
  have hpos : (0 : ℚ) < c * 10 ^ e := mul_pos (Nat.cast_pos.2 (Nat.pos_of_ne_zero hc)) hten
  split_ifs with hlarge hsmall hwhole
  · -- More digits before the point than the greatest number has.
    have hbound : (10 : ℚ) ^ (310 : ℤ) ≤ c * 10 ^ e := by
      calc (10 : ℚ) ^ (310 : ℤ) ≤ 10 ^ (((Nat.toDigits 10 c).length : ℤ) - 1 + e) :=
            zpow_le_zpow_right₀ (by norm_num) (by omega)
        _ = 10 ^ (((Nat.toDigits 10 c).length : ℤ) - 1) * 10 ^ e := zpow_add₀ (by norm_num) _ _
        _ ≤ c * 10 ^ e := by gcongr
    have htwice : signedRat negative (signedRat negative (c * 10 ^ e)) = c * 10 ^ e := by
      cases negative <;> simp [signedRat]
    change limit ≤ signedRat negative (signedRat negative (c * 10 ^ e))
    rw [htwice]
    exact limit_le.trans hbound
  · -- More zeros behind the point than the least number has.
    refine isNearestTo_of_owns negative hpos.le (owns_zero (mul_nonneg hpos.le hone.le) ?_)
    have hbound : (c : ℚ) * 10 ^ e < 10 ^ (-331 : ℤ) := by
      calc (c : ℚ) * 10 ^ e < 10 ^ ((Nat.toDigits 10 c).length : ℤ) * 10 ^ e := by gcongr
        _ = 10 ^ (((Nat.toDigits 10 c).length : ℤ) + e) := (zpow_add₀ (by norm_num) _ _).symm
        _ ≤ 10 ^ (-331 : ℤ) := zpow_le_zpow_right₀ (by norm_num) (by omega)
    have hten' : (0 : ℚ) < 10 ^ (331 : ℤ) := zpow_pos (by norm_num) _
    calc (c : ℚ) * 10 ^ e * one < 10 ^ (-331 : ℤ) * one := mul_lt_mul_of_pos_right hbound hone
      _ = one / 10 ^ (331 : ℤ) := by rw [zpow_neg, inv_mul_eq_div]
      _ < 1 / 2 := by
        rw [div_lt_div_iff₀ hten' two_pos, mul_comm, one_mul]
        exact two_mul_one_lt
  · obtain ⟨k, rfl⟩ := Int.eq_ofNat_of_zero_le hwhole
    have hround := round_isNearestTo negative (c * 10 ^ k * one) Nat.one_pos
    rw [Nat.cast_one, div_one, Nat.cast_mul, mul_div_cancel_right₀ _ hone.ne'] at hround
    simpa using hround
  · obtain ⟨k, hk⟩ := Int.eq_ofNat_of_zero_le (show 0 ≤ -e by omega)
    have hden : 0 < 10 ^ k := Nat.pow_pos (by decide)
    have hround := round_isNearestTo negative (c * one) hden
    have hvalue : ((c * one : ℕ) : ℚ) / (10 ^ k : ℕ) / one = c * 10 ^ e := by
      rw [Nat.cast_mul, div_right_comm, mul_div_cancel_right₀ _ hone.ne', ← neg_neg e, hk, zpow_neg,
        zpow_natCast, div_eq_mul_inv]
      push_cast
      rfl
    rw [hvalue] at hround
    rwa [hk]

theorem ofDecimal_true (c : ℕ) (e : ℤ) : ofDecimal true c e = (ofDecimal false c e).neg := by
  simp only [ofDecimal]
  split_ifs
  · rfl
  · rfl
  · rfl
  · exact round_true _ _
  · exact round_true _ _

end Double

end WebBindings
