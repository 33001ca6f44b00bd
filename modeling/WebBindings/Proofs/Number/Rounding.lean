import Mathlib.Algebra.Order.Ring.Abs
import Mathlib.Data.Nat.Log
import Mathlib.Tactic.NormNum
import WebBindings.Proofs.Number.Value
/-!
# Rounding to 53 bits

The rational numbers that round to a significand with an exponent lie around it, up to halfway to the
numbers beside it. They have it as the nearest one, and every number is rounded to the one that owns it.
-/

namespace WebBindings

namespace Rounding

/-- A significand and an exponent in the one form with the smallest possible exponent. -/
def Normal (s e : ℕ) : Prop := s < 2 ^ 53 ∧ (e = 0 ∨ 2 ^ 52 ≤ s)

/-- Half of the way down to the next number. Below a power of two numbers are closer. -/
def halfStepDown (s e : ℕ) : ℚ := if s = 2 ^ 52 ∧ e ≠ 0 then 2 ^ e / 4 else 2 ^ e / 2

/-- The rational numbers that round to `s * 2 ^ e`. Both ends are among them if the significand is
even. -/
structure Owns (s e : ℕ) (q : ℚ) : Prop where
  low : s * 2 ^ e - halfStepDown s e ≤ q
  high : q ≤ s * 2 ^ e + 2 ^ e / 2
  even : q = s * 2 ^ e - halfStepDown s e ∨ q = s * 2 ^ e + 2 ^ e / 2 → Even s

variable {s e s' e' : ℕ} {q : ℚ}

theorem halfStepDown_le (s e : ℕ) : halfStepDown s e ≤ 2 ^ e / 2 := by
  have hpos : (0 : ℚ) < 2 ^ e := by positivity
  rw [halfStepDown]
  split <;> linarith

theorem le_halfStepDown (s e : ℕ) : 2 ^ e / 4 ≤ halfStepDown s e := by
  have hpos : (0 : ℚ) < 2 ^ e := by positivity
  rw [halfStepDown]
  split <;> linarith

theorem halfStepDown_pos (s e : ℕ) : 0 < halfStepDown s e := by
  have hpos : (0 : ℚ) < 2 ^ e := by positivity
  rw [halfStepDown]
  split <;> linarith

namespace Normal

theorem less_or_greater (apart : ¬ (s = s' ∧ e = e')) :
    (e < e' ∨ e = e' ∧ s < s') ∨ (e' < e ∨ e' = e ∧ s' < s) := by
  omega

theorem scaled_le (normal' : Normal s' e') (less : e < e') : (2 : ℚ) ^ 53 * 2 ^ e ≤ s' * 2 ^ e' := by
  obtain ⟨k, rfl⟩ := Nat.exists_eq_add_of_lt less
  have hlarge : 2 ^ 52 ≤ s' := normal'.2.resolve_left (by omega)
  have hlarge' : (2 : ℚ) ^ 52 ≤ s' := by exact_mod_cast hlarge
  have hscale : (1 : ℚ) ≤ 2 ^ k := one_le_pow₀ (by norm_num)
  calc (2 : ℚ) ^ 53 * 2 ^ e = 2 ^ 52 * (2 ^ e * 1 * 2) := by ring
    _ ≤ (s' : ℚ) * (2 ^ e * 2 ^ k * 2) := by gcongr
    _ = (s' : ℚ) * 2 ^ (e + k + 1) := by rw [pow_succ, pow_add]

/-- A greater number is a whole step away, and more than that if both are even. -/
theorem step_up (normal : Normal s e) (normal' : Normal s' e') (less : e < e' ∨ e = e' ∧ s < s') :
    (s : ℚ) * 2 ^ e + 2 ^ e ≤ s' * 2 ^ e' ∧
      (Even s → Even s' → (s : ℚ) * 2 ^ e + 2 ^ e < s' * 2 ^ e') := by
  have hpos : (0 : ℚ) < 2 ^ e := by positivity
  obtain ⟨t, hbound, hle, heven⟩ : ∃ t : ℕ, (t : ℚ) * 2 ^ e ≤ s' * 2 ^ e' ∧ s + 1 ≤ t ∧
      (Even s → Even s' → s + 2 ≤ t) := by
    rcases less with hexp | ⟨rfl, hsig⟩
    · have hsmall := normal.1
      refine ⟨2 ^ 53, ?_, hsmall, ?_⟩
      · push_cast
        exact normal'.scaled_le hexp
      · rintro ⟨k, rfl⟩ -
        omega
    · refine ⟨s', le_rfl, hsig, ?_⟩
      rintro ⟨k, rfl⟩ ⟨k', rfl⟩
      omega
  have hle' : (s : ℚ) + 1 ≤ t := by exact_mod_cast hle
  refine ⟨by nlinarith, fun even even' => ?_⟩
  have heven' : (s : ℚ) + 2 ≤ t := by exact_mod_cast heven even even'
  nlinarith

/-- A smaller number is two of the half steps away, and more than that if both are even. -/
theorem step_down (normal : Normal s e) (normal' : Normal s' e') (less : e' < e ∨ e' = e ∧ s' < s) :
    (s' : ℚ) * 2 ^ e' ≤ s * 2 ^ e - 2 * halfStepDown s e ∧
      (Even s → Even s' → (s' : ℚ) * 2 ^ e' < s * 2 ^ e - 2 * halfStepDown s e) := by
  rw [halfStepDown]
  split
  · rename_i power
    obtain ⟨rfl, hzero⟩ := power
    -- All numbers of the same exponent are greater, so the smaller one has a smaller exponent.
    obtain ⟨k, hk⟩ : ∃ k, e = e' + k + 1 := by
      refine Nat.exists_eq_add_of_lt (less.resolve_right ?_)
      rintro ⟨rfl, hsig⟩
      have := normal'.2
      omega
    have hscale : (2 : ℚ) ^ e' ≤ 2 ^ (e' + k) := pow_le_pow_right₀ (by norm_num) (by omega)
    have hpos : (0 : ℚ) < 2 ^ e' := by positivity
    have hsame : ((2 ^ 52 : ℕ) : ℚ) * 2 ^ e - 2 * (2 ^ e / 4) = (2 ^ 53 - 1) * 2 ^ (e' + k) := by
      rw [hk, pow_succ]
      push_cast
      ring
    rw [hsame]
    have hsmall : (s' : ℚ) ≤ 2 ^ 53 - 1 := by
      have : s' + 1 ≤ 2 ^ 53 := normal'.1
      have : (s' : ℚ) + 1 ≤ 2 ^ 53 := by exact_mod_cast this
      linarith
    refine ⟨by gcongr, fun _ even' => ?_⟩
    have hodd : (s' : ℚ) < 2 ^ 53 - 1 := by
      obtain ⟨j, rfl⟩ := even'
      have : j + j + 1 < 2 ^ 53 := by
        have := normal'.1
        omega
      have : ((j + j + 1 : ℕ) : ℚ) < 2 ^ 53 := by exact_mod_cast this
      push_cast at this ⊢
      linarith
    calc (s' : ℚ) * 2 ^ e' < (2 ^ 53 - 1) * 2 ^ e' := by gcongr
      _ ≤ (2 ^ 53 - 1) * 2 ^ (e' + k) := by gcongr
  · rename_i power
    rcases less with hexp | ⟨rfl, hsig⟩
    · -- The significand is more than `2 ^ 52`, so a step down does not lead to smaller exponents.
      have hlarge : 2 ^ 52 + 1 ≤ s := by
        have := normal.2
        omega
      have hlarge' : (2 : ℚ) ^ 52 + 1 ≤ s := by exact_mod_cast hlarge
      have hpos : (0 : ℚ) < 2 ^ e := by positivity
      have hpos' : (0 : ℚ) < 2 ^ e' := by positivity
      have hleast : Normal (2 ^ 52) e := ⟨by norm_num, .inr le_rfl⟩
      have hbound : (2 : ℚ) ^ 53 * 2 ^ e' ≤ (2 ^ 52 : ℕ) * 2 ^ e := scaled_le hleast hexp
      push_cast at hbound
      have hsmall : (s' : ℚ) < 2 ^ 53 := by exact_mod_cast normal'.1
      have hstrict : (s' : ℚ) * 2 ^ e' < s * 2 ^ e - 2 * (2 ^ e / 2) := by nlinarith
      exact ⟨hstrict.le, fun _ _ => hstrict⟩
    · have hpos : (0 : ℚ) < 2 ^ e' := by positivity
      have hle : (s' : ℚ) + 1 ≤ s := by exact_mod_cast hsig
      refine ⟨by nlinarith, fun even even' => ?_⟩
      have hle : (s' : ℚ) + 2 ≤ s := by
        obtain ⟨k, rfl⟩ := even
        obtain ⟨k', rfl⟩ := even'
        have : k' + k' + 2 ≤ k + k := by omega
        exact_mod_cast this
      nlinarith

end Normal

namespace Owns

theorem close (owns : Owns s e q) : |q - s * 2 ^ e| ≤ 2 ^ e / 2 := by
  have hlow := owns.low
  have hhigh := owns.high
  have hdown := halfStepDown_le s e
  rw [abs_le]
  constructor <;> linarith

theorem nearer (owns : Owns s e q) (normal : Normal s e) (normal' : Normal s' e')
    (apart : ¬ (s = s' ∧ e = e')) :
    |q - s * 2 ^ e| < |q - s' * 2 ^ e'| ∨
      |q - s * 2 ^ e| = |q - s' * 2 ^ e'| ∧ Even s ∧ ¬ Even s' := by
  have hpos : (0 : ℚ) < 2 ^ e := by positivity
  have hclose := abs_le.1 owns.close
  rcases Normal.less_or_greater apart with less | greater
  · obtain ⟨hstep, hstrict⟩ := normal.step_up normal' less
    have hhigh := owns.high
    have hother : |q - s' * 2 ^ e'| = s' * 2 ^ e' - q := by
      rw [abs_sub_comm, abs_of_nonneg (by linarith)]
    rw [hother]
    refine (lt_or_eq_of_le (owns.close.trans (by linarith))).imp id fun tie => ⟨tie, ?_⟩
    have hend : q = s * 2 ^ e + 2 ^ e / 2 := by
      have := owns.close
      linarith
    have even := owns.even (.inr hend)
    refine ⟨even, fun even' => ?_⟩
    have := hstrict even even'
    have := owns.close
    linarith
  · obtain ⟨hstep, hstrict⟩ := normal.step_down normal' greater
    have hlow := owns.low
    have hdown := halfStepDown_pos s e
    have hother : |q - s' * 2 ^ e'| = q - s' * 2 ^ e' := abs_of_nonneg (by linarith)
    rw [hother]
    rcases le_or_gt ((s : ℚ) * 2 ^ e) q with habove | hbelow
    · left
      rw [abs_of_nonneg (by linarith)]
      linarith
    · rw [abs_sub_comm, abs_of_nonneg (by linarith)]
      refine (lt_or_eq_of_le (by linarith)).imp id fun tie => ⟨tie, ?_⟩
      have even := owns.even (.inl (by linarith))
      refine ⟨even, fun even' => ?_⟩
      have := hstrict even even'
      linarith

theorem nearest (owns : Owns s e q) (normal : Normal s e) (normal' : Normal s' e') :
    |q - s * 2 ^ e| ≤ |q - s' * 2 ^ e'| := by
  by_cases same : s = s' ∧ e = e'
  · rw [same.1, same.2]
  · rcases owns.nearer normal normal' same with hless | htie
    · exact hless.le
    · exact htie.1.le

theorem nearer_mirrored (owns : Owns s e q) (normal : Normal s e) (normal' : Normal s' e')
    (nonneg : 0 ≤ q) (nonzero : 0 < (s' : ℚ) * 2 ^ e') :
    |q - s * 2 ^ e| < |q + s' * 2 ^ e'| := by
  rcases nonneg.eq_or_lt with hzero | hpos
  · have hzero' : Normal 0 0 := ⟨by norm_num, .inl rfl⟩
    have hnearest := owns.nearest normal hzero'
    have hnothing : |q - (0 : ℕ) * 2 ^ 0| = 0 := by simp [← hzero]
    rw [hnothing] at hnearest
    exact hnearest.trans_lt (abs_pos.2 (by linarith))
  · have hnearest := owns.nearest normal normal'
    have hsum : |q + s' * 2 ^ e'| = q + s' * 2 ^ e' := abs_of_pos (by linarith)
    have hless : |q - s' * 2 ^ e'| < q + s' * 2 ^ e' := by
      rw [abs_lt]
      constructor <;> linarith
    rw [hsum]
    exact hnearest.trans_lt hless

theorem unique (owns : Owns s e q) (normal : Normal s e) (owns' : Owns s' e' q)
    (normal' : Normal s' e') : s = s' ∧ e = e' := by
  by_contra apart
  rcases owns.nearer normal normal' apart with hless | ⟨-, even, odd⟩
  · exact absurd hless (not_lt.2 (owns'.nearest normal' normal))
  · rcases owns'.nearer normal' normal fun same => apart ⟨same.1.symm, same.2.symm⟩ with
      hless | ⟨-, even', -⟩
    · exact absurd hless (not_lt.2 (owns.nearest normal normal'))
    · exact odd even'

end Owns

/-- The exponent that rounding begins with leaves no more than 53 bits of a quotient, and not less
unless it is zero. -/
theorem scaled_between (num : ℕ) {den e : ℕ} (hden : 0 < den)
    (he : (num / den).log2 + 1 - 53 = e) :
    (num : ℚ) / (den * 2 ^ e : ℕ) < 2 ^ 53 ∧ (e ≠ 0 → 2 ^ 52 ≤ (num : ℚ) / (den * 2 ^ e : ℕ)) := by
  have hpos : (0 : ℚ) < (den * 2 ^ e : ℕ) := by positivity
  constructor
  · have hfloor : num / den + 1 ≤ 2 ^ (53 + e) :=
      Nat.lt_log2_self.trans_le (Nat.pow_le_pow_right (by decide) (by omega))
    have hnum : num < 2 ^ 53 * (den * 2 ^ e) := by
      calc num < (num / den + 1) * den := Nat.lt_mul_of_div_lt (Nat.lt_succ_self _) hden
        _ ≤ 2 ^ (53 + e) * den := Nat.mul_le_mul_right den hfloor
        _ = 2 ^ 53 * (den * 2 ^ e) := by ring
    rw [div_lt_iff₀ hpos]
    exact_mod_cast hnum
  · intro hzero
    have hfloor : 2 ^ (52 + e) ≤ num / den := by
      have hnonzero : num / den ≠ 0 := by
        rintro hnone
        rw [hnone] at he
        exact hzero (he.symm.trans (by decide))
      exact (Nat.pow_le_pow_right (by decide) (by omega)).trans (Nat.log2_self_le hnonzero)
    have hnum : 2 ^ 52 * (den * 2 ^ e) ≤ num := by
      calc 2 ^ 52 * (den * 2 ^ e) = 2 ^ (52 + e) * den := by ring
        _ ≤ num / den * den := Nat.mul_le_mul_right den hfloor
        _ ≤ num := Nat.div_mul_le_self num den
    rw [le_div_iff₀ hpos]
    exact_mod_cast hnum

/-- A significand that was rounded up to 54 bits makes a step to the next exponent. -/
theorem Owns.carry (low : (2 : ℚ) ^ 53 * 2 ^ e - 2 ^ e / 2 ≤ q)
    (high : q ≤ (2 : ℚ) ^ 53 * 2 ^ e + 2 ^ e / 2) : Owns (2 ^ 52) (e + 1) q := by
  have hpos : (0 : ℚ) < 2 ^ e := by positivity
  refine ⟨?_, ?_, fun _ => ⟨2 ^ 51, by norm_num⟩⟩
  · rw [halfStepDown, if_pos ⟨rfl, by omega⟩, pow_succ 2 e]
    push_cast
    linarith
  · rw [pow_succ 2 e]
    push_cast
    linarith

theorem toPrecision_owns (num : ℕ) {den : ℕ} (hden : 0 < den) :
    Normal (toPrecision 53 num den).1 (toPrecision 53 num den).2 ∧
      Owns (toPrecision 53 num den).1 (toPrecision 53 num den).2 (num / den) := by
  obtain ⟨e, he⟩ : ∃ e, (num / den).log2 + 1 - 53 = e := ⟨_, rfl⟩
  obtain ⟨hless, hmore⟩ := scaled_between num hden he
  have hscaled : 0 < den * 2 ^ e := by positivity
  have hnear := abs_le.1 (nearest_near num hscaled)
  have heven := nearest_even num hscaled
  simp only [toPrecision, he]
  obtain ⟨m, hm⟩ : ∃ m, nearest num (den * 2 ^ e) = m := ⟨_, rfl⟩
  have hquotient : (num : ℚ) / den = (num : ℚ) / (den * 2 ^ e : ℕ) * 2 ^ e := by
    push_cast
    field_simp
  rw [hquotient, hm]
  rw [hm] at hnear heven
  obtain ⟨q, hq⟩ : ∃ q : ℚ, (num : ℚ) / (den * 2 ^ e : ℕ) = q := ⟨_, rfl⟩
  rw [hq] at hless hmore hnear heven ⊢
  have hpos : (0 : ℚ) < 2 ^ e := by positivity
  have hlow : (m : ℚ) * 2 ^ e - 2 ^ e / 2 ≤ q * 2 ^ e := by nlinarith
  have hhigh : q * 2 ^ e ≤ (m : ℚ) * 2 ^ e + 2 ^ e / 2 := by nlinarith
  split_ifs with hcarry
  · rw [hcarry] at hlow hhigh
    push_cast at hlow hhigh
    exact ⟨⟨by norm_num, .inr le_rfl⟩, .carry hlow hhigh⟩
  · have hbelow : m ≤ 2 ^ 53 := by
      have : (m : ℚ) < (2 ^ 53 + 1 : ℕ) := by
        push_cast
        linarith
      have : m < 2 ^ 53 + 1 := by exact_mod_cast this
      omega
    have habove : e ≠ 0 → 2 ^ 52 ≤ m := by
      intro hzero
      have := hmore hzero
      have : ((2 ^ 52 : ℕ) : ℚ) < (m + 1 : ℕ) := by
        push_cast
        linarith
      have : 2 ^ 52 < m + 1 := by exact_mod_cast this
      omega
    refine ⟨⟨by omega, (Decidable.em (e = 0)).imp id habove⟩, ?_⟩
    -- A power of two was not rounded up to, since all numbers of its exponent are greater.
    have hdown : halfStepDown m e = 2 ^ e / 2 ∨ (m : ℚ) * 2 ^ e ≤ q * 2 ^ e := by
      by_cases power : m = 2 ^ 52 ∧ e ≠ 0
      · right
        have := hmore power.2
        rw [power.1]
        push_cast
        nlinarith
      · exact .inl (if_neg power)
    refine ⟨?_, hhigh, ?_⟩
    · rcases hdown with hsame | hmore'
      · rwa [hsame]
      · have := halfStepDown_pos m e
        linarith
    · intro hend
      have htie : (q - m) * 2 ^ e = 1 / 2 * 2 ^ e ∨ (q - m) * 2 ^ e = -(1 / 2) * 2 ^ e := by
        have hpositive := halfStepDown_pos m e
        rcases hend with hend | hend
        · rcases hdown with hsame | hmore'
          · rw [hsame] at hend
            right
            linarith
          · linarith
        · left
          linarith
      refine heven ((abs_eq (by norm_num)).2 ?_)
      exact htie.imp (mul_right_cancel₀ hpos.ne') (mul_right_cancel₀ hpos.ne')

theorem Owns.lt_iff (owns : Owns s e q) (normal : Normal s e) (greatest : ℕ) :
    q < (2 ^ 53 - 1 / 2) * 2 ^ greatest ↔ e ≤ greatest := by
  constructor
  · intro hless
    by_contra hlarge
    have hlast : Normal (2 ^ 53 - 1) greatest := ⟨by norm_num, .inr (by norm_num)⟩
    obtain ⟨hstep, -⟩ := normal.step_down hlast (.inl (by omega))
    have hcast : ((2 ^ 53 - 1 : ℕ) : ℚ) = 2 ^ 53 - 1 := by norm_num
    rw [hcast] at hstep
    have hlow := owns.low
    have hdown := le_halfStepDown s e
    have hscale : (2 : ℚ) ^ (greatest + 1) ≤ 2 ^ e := pow_le_pow_right₀ (by norm_num) (by omega)
    rw [pow_succ] at hscale
    linarith
  · intro hsmall
    have hscale : (2 : ℚ) ^ e ≤ 2 ^ greatest := pow_le_pow_right₀ (by norm_num) hsmall
    have hpos : (0 : ℚ) < 2 ^ e := by positivity
    have hhigh := owns.high
    -- The greatest number is odd, so what is halfway to the next one does not round to it.
    by_cases even : Even s
    · have hsig : s + 2 ≤ 2 ^ 53 := by
        obtain ⟨k, rfl⟩ := even
        have := normal.1
        omega
      have hsig' : (s : ℚ) + 2 ≤ 2 ^ 53 := by exact_mod_cast hsig
      nlinarith
    · have hend : q < s * 2 ^ e + 2 ^ e / 2 :=
        lt_of_le_of_ne hhigh fun hend => even (owns.even (.inr hend))
      have hsig : s + 1 ≤ 2 ^ 53 := normal.1
      have hsig' : (s : ℚ) + 1 ≤ 2 ^ 53 := by exact_mod_cast hsig
      nlinarith

theorem Owns.between {a b : ℚ} (owns : Owns s e a) (owns' : Owns s e b) (low : a ≤ q) (high : q ≤ b) :
    Owns s e q := by
  have hlow := owns.low
  have hhigh := owns'.high
  refine ⟨hlow.trans low, high.trans hhigh, ?_⟩
  rintro (hend | hend)
  · exact owns.even (.inl (le_antisymm (low.trans hend.le) hlow))
  · exact owns'.even (.inr (le_antisymm hhigh (hend.ge.trans high)))

theorem Owns.of_below (le : q ≤ s * 2 ^ e) (near : s * 2 ^ e - halfStepDown s e < q) : Owns s e q := by
  have hpos : (0 : ℚ) < 2 ^ e := by positivity
  refine ⟨near.le, by linarith, ?_⟩
  rintro (hend | hend) <;> linarith

theorem Owns.of_above (le : s * 2 ^ e ≤ q) (near : q < s * 2 ^ e + 2 ^ e / 2) : Owns s e q := by
  have hdown := halfStepDown_pos s e
  refine ⟨by linarith, near.le, ?_⟩
  rintro (hend | hend) <;> linarith

/-- What is added behind the scaled number of what a number owns does not matter, as long as it does not
lead to half a step above the number. -/
theorem Owns.scaled (owns : Owns s e q) (large : e ≠ 0) (k : ℕ) {t : ℚ} (nonneg : 0 ≤ t)
    (inside : t ≠ 0 → q * 2 ^ k + t < (s * 2 ^ e + 2 ^ e / 2) * 2 ^ k) :
    Owns s (e + k) (q * 2 ^ k + t) := by
  have hpos : (0 : ℚ) < 2 ^ k := by positivity
  have hdown : halfStepDown s (e + k) = halfStepDown s e * 2 ^ k := by
    by_cases power : s = 2 ^ 52
    · rw [halfStepDown, halfStepDown, if_pos ⟨power, by omega⟩, if_pos ⟨power, large⟩, pow_add]
      ring
    · rw [halfStepDown, halfStepDown, if_neg (by tauto), if_neg (by tauto), pow_add]
      ring
  have hlow : (s * 2 ^ e - halfStepDown s e) * 2 ^ k ≤ q * 2 ^ k :=
    mul_le_mul_of_nonneg_right owns.low hpos.le
  have hhigh : q * 2 ^ k ≤ (s * 2 ^ e + 2 ^ e / 2) * 2 ^ k :=
    mul_le_mul_of_nonneg_right owns.high hpos.le
  have hlowEnd : (s : ℚ) * 2 ^ (e + k) - halfStepDown s (e + k) =
      (s * 2 ^ e - halfStepDown s e) * 2 ^ k := by
    rw [hdown, pow_add]
    ring
  have hhighEnd : (s : ℚ) * 2 ^ (e + k) + 2 ^ (e + k) / 2 = (s * 2 ^ e + 2 ^ e / 2) * 2 ^ k := by
    rw [pow_add]
    ring
  refine ⟨?_, ?_, ?_⟩
  · rw [hlowEnd]
    linarith
  · rw [hhighEnd]
    by_cases none : t = 0
    · linarith
    · exact (inside none).le
  · rw [hlowEnd, hhighEnd]
    rintro (hend | hend)
    · exact owns.even (.inl (mul_right_cancel₀ hpos.ne' (by linarith)))
    · have none : t = 0 := by_contra fun some => absurd hend (inside some).ne
      exact owns.even (.inr (mul_right_cancel₀ hpos.ne' (by linarith)))

theorem Owns.self (s e : ℕ) : Owns s e (s * 2 ^ e) :=
  .of_below le_rfl (by linarith [halfStepDown_pos s e])

theorem Owns.exact {n greatest : ℕ} (owns : Owns s e (n * 2 ^ greatest)) (le : e ≤ greatest) :
    n * 2 ^ greatest = s * 2 ^ e := by
  obtain ⟨k, rfl⟩ := Nat.exists_eq_add_of_le le
  have hpos : (0 : ℚ) < 2 ^ e := by positivity
  have hclose : |((n * 2 ^ k : ℕ) : ℤ) - (s : ℤ)| < 1 := by
    have hdistance : ((n * 2 ^ k : ℕ) - (s : ℚ)) * 2 ^ e = n * 2 ^ (e + k) - s * 2 ^ e := by
      rw [pow_add]
      push_cast
      ring
    have hscaled : |((n * 2 ^ k : ℕ) : ℚ) - s| * 2 ^ e ≤ 1 / 2 * 2 ^ e := by
      rw [← abs_of_pos hpos, ← abs_mul, abs_of_pos hpos, hdistance, one_div_mul_eq_div]
      exact owns.close
    have hhalf : |((n * 2 ^ k : ℕ) : ℚ) - s| < 1 :=
      (le_of_mul_le_mul_right hscaled hpos).trans_lt (by norm_num)
    exact_mod_cast hhalf
  have hsame : n * 2 ^ k = s := by
    have := Int.abs_lt_one_iff.1 hclose
    omega
  rw [pow_add, ← hsame]
  ring

end Rounding

end WebBindings
