import WebBindings.Proofs.Number.Nearest
/-!
# Numbers without a fraction

The operations that lead from numbers to integers: a fraction is dropped or rounded, and a number is
divided with remainder, compared, limited and cast. The results that are numbers again need no rounding,
since they have no more digits than what they are got from.
-/

namespace WebBindings

theorem Magnitude.exists_units {s e : ℕ} (hs : s < 2 ^ 53) (he : e ≤ 2045) :
    ∃ m : Magnitude, m.units = s * 2 ^ e := by
  induction e generalizing s with
  | zero => exact ⟨⟨s, 0, hs, .inl rfl, Nat.zero_le _⟩, rfl⟩
  | succ e ih =>
    by_cases large : 2 ^ 52 ≤ s
    · exact ⟨⟨s, e + 1, hs, .inr large, he⟩, rfl⟩
    · have hdouble : s * 2 < 2 ^ 53 := by omega
      obtain ⟨m, hm⟩ := ih hdouble (by omega)
      refine ⟨m, ?_⟩
      rw [hm, pow_succ]
      ring

namespace Rounding

variable {s s' e e' : ℕ}

theorem exists_floor (s e : ℕ) {k den : ℕ} (hden : den = 2 ^ k) :
    ∃ t f, s * 2 ^ e / den * den = t * 2 ^ f ∧ t ≤ s ∧ f ≤ max e k := by
  subst hden
  obtain le | less := Nat.le_total k e
  · obtain ⟨d, rfl⟩ := Nat.exists_eq_add_of_le le
    refine ⟨s, k + d, ?_, le_rfl, by omega⟩
    rw [pow_add, mul_left_comm, Nat.mul_div_cancel_left _ (by positivity)]
    ring
  · obtain ⟨d, rfl⟩ := Nat.exists_eq_add_of_le less
    refine ⟨s / 2 ^ d, e + d, ?_, Nat.div_le_self _ _, by omega⟩
    have hquotient : s * 2 ^ e / 2 ^ (e + d) = s / 2 ^ d := by
      rw [pow_add, mul_comm s, Nat.mul_div_mul_left _ _ (by positivity)]
    rw [hquotient]

theorem nearest_le_succ (num den : ℕ) : nearest num den ≤ num / den + 1 := by
  simp only [nearest]
  split_ifs <;> omega

theorem nearest_mul (n : ℕ) {den : ℕ} (hden : 0 < den) : nearest (n * den) den = n := by
  simp only [nearest]
  rw [Nat.mul_mod_left, Nat.mul_div_cancel _ hden, if_pos (by omega)]

theorem exists_nearest_units (hs : s < 2 ^ 53) (e : ℕ) {k den : ℕ} (hden : den = 2 ^ k) :
    ∃ t f, nearest (s * 2 ^ e) den * den = t * 2 ^ f ∧ t < 2 ^ 53 ∧ f ≤ max e k := by
  subst hden
  obtain le | less := Nat.lt_or_ge e k
  · obtain ⟨d, rfl⟩ := Nat.exists_eq_add_of_lt le
    refine ⟨nearest (s * 2 ^ e) (2 ^ (e + d + 1)), e + d + 1, rfl, ?_, by omega⟩
    have hquotient : s * 2 ^ e / 2 ^ (e + d + 1) = s / 2 ^ (d + 1) := by
      rw [add_assoc, pow_add 2 e, mul_comm s, Nat.mul_div_mul_left _ _ (by positivity)]
    have hhalf : s / 2 ^ (d + 1) ≤ s / 2 := by
      apply Nat.div_le_div_left _ two_pos
      exact Nat.le_self_pow (Nat.succ_ne_zero d) 2
    have hup := nearest_le_succ (s * 2 ^ e) (2 ^ (e + d + 1))
    rw [hquotient] at hup
    omega
  · obtain ⟨d, rfl⟩ := Nat.exists_eq_add_of_le less
    refine ⟨s, k + d, ?_, hs, by omega⟩
    have hmultiple : s * 2 ^ (k + d) = s * 2 ^ d * 2 ^ k := by ring
    rw [hmultiple, nearest_mul _ (by positivity)]

theorem exists_mod (hs : s < 2 ^ 53) (hs' : s' < 2 ^ 53) (nonzero : s' ≠ 0) (e e' : ℕ) :
    ∃ t f, s * 2 ^ e % (s' * 2 ^ e') = t * 2 ^ f ∧ t < 2 ^ 53 ∧ f ≤ max e e' := by
  obtain le | le := Nat.le_total e e'
  · obtain ⟨d, rfl⟩ := Nat.exists_eq_add_of_le le
    refine ⟨s % (s' * 2 ^ d), e, ?_, (Nat.mod_le _ _).trans_lt hs, by omega⟩
    rw [pow_add, mul_left_comm s', mul_comm (2 ^ e) (s' * 2 ^ d), Nat.mul_mod_mul_right]
  · obtain ⟨d, rfl⟩ := Nat.exists_eq_add_of_le le
    have hless : s * 2 ^ d % s' < s' := Nat.mod_lt _ (Nat.pos_of_ne_zero nonzero)
    refine ⟨s * 2 ^ d % s', e', ?_, hless.trans hs', by omega⟩
    rw [pow_add, mul_left_comm s, mul_comm (2 ^ e') (s * 2 ^ d), Nat.mul_mod_mul_right]

end Rounding

namespace Double

variable {x y : Double} {q r : ℚ}

theorem exists_round_eq (negative : Bool) {s e : ℕ} (hs : s < 2 ^ 53) (he : e ≤ 2045) :
    ∃ m, round negative (s * 2 ^ e) 1 = finite negative m ∧ m.units = s * 2 ^ e := by
  obtain ⟨m, hm⟩ := Magnitude.exists_units hs he
  have hvalue : ((m.units : ℕ) : ℚ) / (1 : ℕ) = m.significand * 2 ^ m.exponent := by
    rw [Nat.cast_one, div_one, Magnitude.units]
    push_cast
    rfl
  have owns := Rounding.Owns.self m.significand m.exponent
  rw [← hvalue] at owns
  refine ⟨m, ?_, hm⟩
  rw [← hm, round_eq negative Nat.one_pos m.isNormal owns, dif_pos m.exponent_le]

theorem exists_one : ∃ k, k + 971 = 2045 ∧ one = 2 ^ k := ⟨1074, rfl, by rw [one]⟩

theorem trunc_finite (negative : Bool) (m : Magnitude) :
    ∃ k, (finite negative m).trunc = finite negative k ∧ k.units = m.units / one * one := by
  obtain ⟨d, hd, hone⟩ := exists_one
  obtain ⟨t, f, same, ht, hf⟩ := Rounding.exists_floor m.significand m.exponent hone
  have he : f ≤ 2045 := hf.trans (max_le m.exponent_le (by omega))
  obtain ⟨k, hround, hunits⟩ := exists_round_eq negative (ht.trans_lt m.significand_lt) he
  rw [← same] at hround hunits
  exact ⟨k, hround, hunits⟩

theorem roundTiesEven_finite (negative : Bool) (m : Magnitude) :
    ∃ k, (finite negative m).roundTiesEven = finite negative k ∧
      k.units = Rounding.nearest m.units one * one := by
  obtain ⟨d, hd, hone⟩ := exists_one
  obtain ⟨t, f, same, ht, hf⟩ := Rounding.exists_nearest_units m.significand_lt m.exponent hone
  have he : f ≤ 2045 := hf.trans (max_le m.exponent_le (by omega))
  obtain ⟨k, hround, hunits⟩ := exists_round_eq negative ht he
  rw [← same] at hround hunits
  exact ⟨k, hround, hunits⟩

theorem rem_finite (a b : Bool) (m : Magnitude) {n : Magnitude} (nonzero : n.significand ≠ 0) :
    ∃ k, (finite a m).rem (finite b n) = finite a k ∧ k.units = m.units % n.units := by
  obtain ⟨t, f, same, ht, hf⟩ :=
    Rounding.exists_mod m.significand_lt n.significand_lt nonzero m.exponent n.exponent
  have he : f ≤ 2045 := hf.trans (max_le m.exponent_le n.exponent_le)
  obtain ⟨k, hround, hunits⟩ := exists_round_eq a ht he
  rw [← same] at hround hunits
  refine ⟨k, ?_, hunits⟩
  rw [rem, if_neg nonzero]
  exact hround

theorem signed_mul (negative : Bool) (n c : ℕ) : signed negative (n * c) = signed negative n * c := by
  cases negative <;> simp [signed]

theorem toRat?_of_units {negative : Bool} {m : Magnitude} {n : ℕ} (hunits : m.units = n * one) :
    (finite negative m).toRat? = some (signed negative n : ℚ) := by
  have hone := cast_one_pos
  rw [toRat?_finite, hunits, signed_mul]
  push_cast
  rw [mul_div_cancel_right₀ _ hone.ne']

theorem exists_of_toRat? (value : x.toRat? = some q) :
    ∃ negative m, x = finite negative m ∧ q = (signed negative m.units : ℤ) / (one : ℚ) := by
  cases x with
  | nan => cases value
  | infinite negative => cases value
  | finite negative m =>
    rw [toRat?_finite] at value
    exact ⟨negative, m, rfl, (Option.some.inj value).symm⟩

theorem isFinite_of_toRat? (value : x.toRat? = some q) : x.isFinite = true := by
  obtain ⟨negative, m, rfl, -⟩ := exists_of_toRat? value
  rfl

theorem isFinite_of_none (absent : x.toRat? = none) : x.isFinite = false := by
  cases x with
  | finite negative m => cases absent
  | _ => rfl

theorem isNaN_of_toRat? (value : x.toRat? = some q) : x.isNaN = false := by
  obtain ⟨negative, m, rfl, -⟩ := exists_of_toRat? value
  rfl

@[simp] theorem toRat?_zero (negative : Bool) : (zero negative).toRat? = some 0 := by
  cases negative <;> simp [zero, toRat?, Magnitude.zero, Magnitude.toRat]

@[simp] theorem toRat?_dropZeroSign (x : Double) : x.dropZeroSign.toRat? = x.toRat? := by
  cases zero : x.isZero with
  | false => rw [dropZeroSign_of_nonzero zero]
  | true =>
    obtain ⟨negative, rfl⟩ := eq_zero_of_isZero zero
    rw [dropZeroSign, zero, if_pos rfl, toRat?_zero, toRat?_zero]

theorem toRat?_neg (value : x.toRat? = some q) : x.neg.toRat? = some (-q) := by
  obtain ⟨negative, m, rfl, rfl⟩ := exists_of_toRat? value
  rw [neg, toRat?_finite, signed_not, Int.cast_neg, neg_div]

theorem toRat?_trunc (value : x.toRat? = some q) : x.trunc.toRat? = some (wholePart q : ℚ) := by
  obtain ⟨negative, m, rfl, rfl⟩ := exists_of_toRat? value
  obtain ⟨k, htrunc, hunits⟩ := trunc_finite negative m
  rw [htrunc, toRat?_of_units hunits, wholePart_signed]

theorem toRat?_integerPart (value : x.toRat? = some q) :
    x.integerPart.toRat? = some (wholePart q : ℚ) := by
  rw [integerPart, toRat?_dropZeroSign, toRat?_trunc value]

theorem toRat?_roundTiesEven (value : x.toRat? = some q) : ∃ n : ℤ,
    x.roundTiesEven.toRat? = some (n : ℚ) ∧ |q - n| ≤ 1 / 2 ∧ (|q - n| = 1 / 2 → Even n) := by
  obtain ⟨negative, m, rfl, rfl⟩ := exists_of_toRat? value
  obtain ⟨k, hround, hunits⟩ := roundTiesEven_finite negative m
  have hnear := Rounding.nearest_near m.units one_pos
  have heven := Rounding.nearest_even m.units one_pos
  rw [← abs_signed_sub negative] at hnear heven
  refine ⟨signed negative (Rounding.nearest m.units one), ?_, hnear, ?_⟩
  · rw [hround, toRat?_of_units hunits]
  · intro tie
    exact even_signed (heven tie)

theorem signed_tmod (negative : Bool) (a : ℕ) (d : ℤ) :
    (signed negative a).tmod d = signed negative (a % d.natAbs) := by
  have hpositive : ((a : ℤ)).tmod d = ((a % d.natAbs : ℕ) : ℤ) := by
    rw [Int.ofNat_tmod]
    rcases Int.natAbs_eq d with hd | hd
    · rw [← hd]
    · rw [hd, Int.tmod_neg, Int.natAbs_neg, Int.natAbs_natCast]
  cases negative with
  | false => exact hpositive
  | true =>
    change (-(a : ℤ)).tmod d = -((a % d.natAbs : ℕ) : ℤ)
    rw [Int.neg_tmod, hpositive]

theorem units_of_integer {negative : Bool} {m : Magnitude} {n : ℤ}
    (value : (n : ℚ) = (signed negative m.units : ℤ) / (one : ℚ)) :
    m.units = n.natAbs * one ∧ n = signed negative n.natAbs := by
  have hone := cast_one_pos
  have hpos := one_pos
  have hscaled : (n * one : ℤ) = signed negative m.units := by
    rw [eq_div_iff hone.ne'] at value
    exact_mod_cast value
  have hunits : m.units = n.natAbs * one := by
    have habs := congrArg Int.natAbs hscaled
    rw [Int.natAbs_mul, Int.natAbs_natCast] at habs
    cases negative <;> simpa [signed] using habs.symm
  refine ⟨hunits, ?_⟩
  cases negative with
  | false =>
    have hnonneg : 0 ≤ n * (one : ℤ) := hscaled ▸ Int.natCast_nonneg _
    have : 0 ≤ n := nonneg_of_mul_nonneg_left hnonneg (by exact_mod_cast hpos)
    simp only [signed, Bool.false_eq_true, if_false]
    omega
  | true =>
    have hnonpos : n * (one : ℤ) ≤ 0 := by
      rw [hscaled]
      simp [signed]
    have : n ≤ 0 := nonpos_of_mul_nonpos_left hnonpos (by exact_mod_cast hpos)
    simp only [signed, if_true]
    omega

theorem toRat?_rem {n d : ℤ} (value : x.toRat? = some (n : ℚ)) (divisor : y.toRat? = some (d : ℚ))
    (nonzero : d ≠ 0) : (x.rem y).toRat? = some ((n.tmod d : ℤ) : ℚ) := by
  obtain ⟨a, m, rfl, hn⟩ := exists_of_toRat? value
  obtain ⟨b, k, rfl, hd⟩ := exists_of_toRat? divisor
  obtain ⟨hm, hsign⟩ := units_of_integer hn
  obtain ⟨hk, -⟩ := units_of_integer hd
  have hsignificand : k.significand ≠ 0 := by
    intro hzero
    rw [Magnitude.units, hzero, Nat.zero_mul] at hk
    have := Nat.mul_pos (Int.natAbs_pos.2 nonzero) one_pos
    omega
  obtain ⟨l, hrem, hl⟩ := rem_finite a b m hsignificand
  have hunits : l.units = n.natAbs % d.natAbs * one := by
    rw [hl, hm, hk, Nat.mul_mod_mul_right]
  rw [hrem, toRat?_of_units hunits, hsign, signed_tmod, ← hsign]

theorem lt_iff (hx : x.toRat? = some q) (hy : y.toRat? = some r) : x.lt y = true ↔ q < r := by
  obtain ⟨a, m, rfl, rfl⟩ := exists_of_toRat? hx
  obtain ⟨b, k, rfl, rfl⟩ := exists_of_toRat? hy
  rw [lt, decide_eq_true_eq, div_lt_div_iff_of_pos_right cast_one_pos, Int.cast_lt]

theorem le_iff (hx : x.toRat? = some q) (hy : y.toRat? = some r) : x.le y = true ↔ q ≤ r := by
  have hless := lt_iff hx hy
  obtain ⟨a, m, rfl, rfl⟩ := exists_of_toRat? hx
  obtain ⟨b, k, rfl, rfl⟩ := exists_of_toRat? hy
  have hone := cast_one_pos
  rw [le, Bool.or_eq_true, hless, le_iff_lt_or_eq, equals, decide_eq_true_eq, div_left_inj' hone.ne',
    Int.cast_inj]

theorem toRat?_clamp {lower upper : Double} {l u : ℚ} (hx : x.toRat? = some q)
    (hlower : lower.toRat? = some l) (hupper : upper.toRat? = some u) :
    (x.clamp lower upper).toRat? = some (min u (max l q)) := by
  have hraised : (if x.lt lower then lower else x).toRat? = some (max l q) := by
    by_cases hless : q < l
    · rw [if_pos ((lt_iff hx hlower).2 hless), hlower, max_eq_left hless.le]
    · rw [if_neg (mt (lt_iff hx hlower).1 hless), hx, max_eq_right (not_lt.1 hless)]
  rw [clamp]
  by_cases hless : u < max l q
  · rw [if_pos ((lt_iff hupper hraised).2 hless), hupper, min_eq_left hless.le]
  · rw [if_neg (mt (lt_iff hupper hraised).1 hless), hraised, min_eq_right (not_lt.1 hless)]

theorem clamp_infinite {lower upper : Double} (hlower : lower.isFinite = true)
    (hupper : upper.isFinite = true) (proper : upper.lt lower = false) (negative : Bool) :
    (infinite negative).clamp lower upper = if negative then lower else upper := by
  cases lower with
  | nan => cases hlower
  | infinite a => cases hlower
  | finite a m =>
    cases upper with
    | nan => cases hupper
    | infinite b => cases hupper
    | finite b k =>
      cases negative with
      | false => simp [clamp, lt]
      | true =>
        have hlow : (infinite true).lt (finite a m) = true := rfl
        rw [clamp, if_pos hlow, if_neg (by simp [proper]), if_pos rfl]

theorem saturate_eq (value : x.toRat? = some q) (least greatest : ℤ) :
    x.saturate least greatest = max least (min greatest (wholePart q)) := by
  obtain ⟨negative, m, rfl, rfl⟩ := exists_of_toRat? value
  rw [saturate, wholePart_signed]

theorem saturate_of_within {n least greatest : ℤ} (value : x.toRat? = some (n : ℚ)) (low : least ≤ n)
    (high : n ≤ greatest) : x.saturate least greatest = n := by
  rw [saturate_eq value, wholePart_intCast, min_eq_right high, max_eq_right low]

theorem signed_natAbs (n : ℤ) : signed (decide (n < 0)) n.natAbs = n := by
  by_cases negative : n < 0
  · rw [decide_eq_true negative]
    simp only [signed, if_true]
    omega
  · rw [decide_eq_false negative]
    simp only [signed, Bool.false_eq_true, if_false]
    omega

/-- Integers of at most 53 binary digits in front of zeros are numbers. -/
theorem toRat?_ofInt {n : ℤ} {s e : ℕ} (hn : n.natAbs = s * 2 ^ e) (hs : s < 2 ^ 53) (he : e ≤ 971) :
    (ofInt n).toRat? = some (n : ℚ) := by
  obtain ⟨d, hd, hone⟩ := exists_one
  obtain ⟨m, hround, hunits⟩ := exists_round_eq (decide (n < 0)) hs (by omega : e + d ≤ 2045)
  have hscaled : s * 2 ^ (e + d) = n.natAbs * one := by rw [hone, hn, pow_add, mul_assoc]
  rw [hscaled] at hround hunits
  rw [ofInt, hround, toRat?_of_units hunits, signed_natAbs]

theorem toRat?_ofInt_of_lt {n : ℤ} (hn : n.natAbs < 2 ^ 53) : (ofInt n).toRat? = some (n : ℚ) := by
  have hunscaled : n.natAbs = n.natAbs * 2 ^ 0 := by rw [pow_zero, Nat.mul_one]
  exact toRat?_ofInt hunscaled hn (Nat.zero_le _)

end Double

end WebBindings
