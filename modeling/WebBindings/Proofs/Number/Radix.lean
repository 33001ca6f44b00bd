import WebBindings.Number.Words
import WebBindings.Proofs.Number.Literal
/-!
# Integers in script strings

A script string that spells an integer denotes the number nearest to it, if the integer is decimal. An
integer with an announced radix is rounded after each digit. This gives the nearest number too, but where
the digits so far are halfway between two numbers and those that follow would lead beyond.
-/

namespace WebBindings

namespace Double

variable {n m b d : ℕ}

theorem ofNat_eq_round (n : ℕ) : ofNat n = round false (n * one) 1 := by
  have nonneg : ¬ ((n : ℤ) < 0) := by omega
  rw [ofNat, ofInt, decide_eq_false nonneg, Int.natAbs_natCast]

theorem cast_one : (one : ℚ) = 2 ^ 1074 := by
  have hcast (k : ℕ) : ((2 ^ k : ℕ) : ℚ) = 2 ^ k := by
    push_cast
    rfl
  rw [one]
  exact hcast 1074

theorem exists_owns (n : ℕ) :
    ∃ s e, Rounding.Normal s e ∧ Rounding.Owns s e (n * 2 ^ 1074) := by
  obtain ⟨normal, owns⟩ := Rounding.toPrecision_owns (n * one) Nat.one_pos
  refine ⟨_, _, normal, ?_⟩
  rwa [Nat.cast_one, div_one, Nat.cast_mul, cast_one] at owns

variable {s e : ℕ} (normal : Rounding.Normal s e)
include normal

theorem round_units_eq {units : ℕ} {q : ℚ} (value : (units : ℚ) = q) (owns : Rounding.Owns s e q) :
    round false units 1 =
      if small : e ≤ 2045 then finite false ⟨s, e, normal.1, normal.2, small⟩
      else infinite false :=
  round_eq false Nat.one_pos normal (by rwa [Nat.cast_one, div_one, value])

theorem ofNat_eq (owns : Rounding.Owns s e (n * 2 ^ 1074)) :
    ofNat n =
      if small : e ≤ 2045 then finite false ⟨s, e, normal.1, normal.2, small⟩
      else infinite false := by
  rw [ofNat_eq_round]
  exact round_units_eq normal (by rw [Nat.cast_mul, cast_one]) owns

theorem large_iff (owns : Rounding.Owns s e (n * 2 ^ 1074)) : 2 ^ 53 ≤ n ↔ 1074 < e := by
  have hless := owns.lt_iff normal 1074
  have hpos : (0 : ℚ) < 2 ^ 1074 := pow_pos two_pos _
  rw [mul_lt_mul_iff_of_pos_right hpos] at hless
  have hnat : (n : ℚ) < 2 ^ 53 - 1 / 2 ↔ ¬ 2 ^ 53 ≤ n := by
    rw [not_le]
    constructor
    · intro small
      have hlt : (n : ℚ) < 2 ^ 53 := by linarith
      exact_mod_cast hlt
    · intro small
      have hle : (n : ℚ) + 1 ≤ 2 ^ 53 := by exact_mod_cast small
      linarith
  rw [← not_le, ← hless, hnat, not_not]

omit normal

theorem finite_mulAdd (m : Magnitude) (factor summand : ℕ) :
    (finite false m).mulAdd factor summand = round false (m.units * factor + summand * one) 1 := by
  have htotal : signed false m.units * factor + summand * (one : ℤ) =
      (m.units * factor + summand * one : ℕ) := by
    simp only [signed, Bool.false_eq_true, if_false, Nat.cast_add, Nat.cast_mul]
  have hround {total : ℤ} {k : ℕ} (same : total = k) :
      round (total < 0) total.natAbs 1 = round false k 1 := by
    have nonneg : ¬ (k : ℤ) < 0 := by omega
    rw [same, decide_eq_false nonneg, Int.natAbs_natCast]
  exact hround htotal

theorem mulAdd_small (small : n < 2 ^ 53) (factor summand : ℕ) :
    (ofNat n).mulAdd factor summand = ofNat (n * factor + summand) := by
  obtain ⟨s, e, normal, owns⟩ := exists_owns n
  have le : e ≤ 1074 := not_lt.1 (mt (large_iff normal owns).2 (not_le.2 small))
  have same := owns.exact le
  have hunits : s * 2 ^ e = n * one := by rw [one, same]
  rw [ofNat_eq normal owns, dif_pos (by omega), finite_mulAdd, ofNat_eq_round, Magnitude.units, hunits,
    add_mul, mul_right_comm]

/-- A number of more bits stays as it is when another digit is added. -/
theorem mulAdd_large (large : 2 ^ 53 ≤ n) (digit : d < 2 ^ b) :
    (ofNat n).mulAdd (2 ^ b) d = ofNat (n * 2 ^ b) := by
  obtain ⟨s, e, normal, owns⟩ := exists_owns n
  have more : 1074 < e := (large_iff normal owns).1 large
  have normal' : Rounding.Normal s (e + b) := ⟨normal.1, .inr (normal.2.resolve_left (by omega))⟩
  have howns : Rounding.Owns s (e + b) ((n * 2 ^ b : ℕ) * 2 ^ 1074) := by
    have hscaled := owns.scaled (by omega) b le_rfl fun none => absurd rfl none
    rw [add_zero, mul_right_comm] at hscaled
    rwa [Nat.cast_mul, Nat.cast_pow, Nat.cast_ofNat]
  rw [ofNat_eq normal owns, ofNat_eq normal' howns]
  by_cases finite : e ≤ 2045
  · rw [dif_pos finite, finite_mulAdd]
    have inside {k : ℕ} (hk : k < e) :
        ((s : ℚ) * 2 ^ e) * 2 ^ b + d * 2 ^ k < (s * 2 ^ e + 2 ^ e / 2) * 2 ^ b := by
      have hdigit : (d : ℚ) < 2 ^ b := by exact_mod_cast digit
      have hscale : (2 : ℚ) ^ (k + 1) ≤ 2 ^ e := pow_le_pow_right₀ (by norm_num) hk
      have hpos : (0 : ℚ) < 2 ^ k := by positivity
      have hpos' : (0 : ℚ) < 2 ^ b := by positivity
      have hstep : (d : ℚ) * 2 ^ k < 2 ^ e / 2 * 2 ^ b := by
        calc (d : ℚ) * 2 ^ k < 2 ^ b * 2 ^ k := by gcongr
          _ = 2 ^ (k + 1) / 2 * 2 ^ b := by rw [pow_succ]; ring
          _ ≤ 2 ^ e / 2 * 2 ^ b := by gcongr
      linarith
    have hadded := (Rounding.Owns.self s e).scaled (by omega) b
      (mul_nonneg d.cast_nonneg (pow_nonneg two_pos.le 1074)) fun _ => inside more
    refine round_units_eq normal' ?_ hadded
    rw [Nat.cast_add, Nat.cast_mul, Nat.cast_mul, cast_one, Magnitude.units]
    push_cast
    rfl
  · rw [dif_neg finite, dif_neg (by omega)]
    rfl

/-- The first digits of a number that need more than 53 bits are followed by this many, or the number has
no such digits and none follow. -/
def Follow (radix n last : ℕ) : Prop :=
  n / radix ^ last < 2 ^ 53 * radix ∧ (last = 0 ∨ 2 ^ 53 ≤ n / radix ^ last)

/-- Where zeros stand for the digits that follow, they also do with one more digit. -/
theorem Follow.step {last : ℕ} (follow : Follow (2 ^ b) n last) (digit : d < 2 ^ b) :
    ∃ last', Follow (2 ^ b) (n * 2 ^ b + d) last' ∧
      (ofNat (n / (2 ^ b) ^ last * (2 ^ b) ^ last)).mulAdd (2 ^ b) d =
        ofNat ((n * 2 ^ b + d) / (2 ^ b) ^ last' * (2 ^ b) ^ last') := by
  have hpos : 0 < 2 ^ b := Nat.two_pow_pos b
  obtain ⟨less, more⟩ := follow
  by_cases large : 2 ^ 53 ≤ n / (2 ^ b) ^ last
  · have hfirst : (n * 2 ^ b + d) / 2 ^ b = n := by
      rw [mul_comm, Nat.mul_add_div hpos, Nat.div_eq_of_lt digit, add_zero]
    have hshift : (n * 2 ^ b + d) / (2 ^ b) ^ (last + 1) = n / (2 ^ b) ^ last := by
      rw [pow_succ', ← Nat.div_div_eq_div_mul, hfirst]
    have hgreat : 2 ^ 53 ≤ n / (2 ^ b) ^ last * (2 ^ b) ^ last :=
      large.trans (Nat.le_mul_of_pos_right _ (Nat.pow_pos hpos))
    refine ⟨last + 1, ⟨hshift ▸ less, .inr (hshift ▸ large)⟩, ?_⟩
    rw [hshift, mulAdd_large hgreat digit, pow_succ, mul_assoc]
  · obtain rfl := more.resolve_right large
    simp only [pow_zero, Nat.div_one, mul_one] at large ⊢
    refine ⟨0, ⟨?_, .inl rfl⟩, ?_⟩
    · rw [pow_zero, Nat.div_one]
      nlinarith
    · rw [pow_zero, Nat.div_one, mul_one, mulAdd_small (not_le.1 large)]

end Double

/-- With a radix that is a power of two, the number is that of the first digits that need more than 53
bits, followed by zeros. -/
theorem Literal.radixNumber_eq_ofNat {digits : List Char} {b : ℕ}
    (all : ∀ c ∈ digits, (Ascii.digit? (2 ^ b) c).isSome = true) :
    ∃ last, Double.Follow (2 ^ b) (Ascii.natOf (2 ^ b) digits) last ∧
      radixNumber (2 ^ b) digits =
        .ofNat (Ascii.natOf (2 ^ b) digits / (2 ^ b) ^ last * (2 ^ b) ^ last) := by
  rw [radixNumber_eq all]
  induction digits using List.reverseRecOn with
  | nil =>
    have zero : Double.zero false = Double.ofNat 0 := by decide +kernel
    refine ⟨0, ⟨by simp [Ascii.natOf], .inl rfl⟩, ?_⟩
    · simpa [Ascii.natOf] using zero
  | append_singleton digits c ih =>
    rw [List.forall_mem_append, List.forall_mem_singleton] at all
    obtain ⟨last, follow, same⟩ := ih all.1
    obtain ⟨d, hd⟩ := Option.isSome_iff_exists.1 all.2
    have hvalue : Ascii.natOf (2 ^ b) (digits ++ [c]) = Ascii.natOf (2 ^ b) digits * 2 ^ b + d := by
      rw [Ascii.natOf_append]
      simp [Ascii.natOf, hd]
    rw [List.foldl_append, same, List.foldl_cons, List.foldl_nil, hd, Option.getD_some, hvalue]
    exact follow.step (Ascii.digit?_lt hd)

namespace Rounding

variable {s g t n k c : ℕ}

theorem highEnd_eq (s g t : ℕ) :
    (s : ℚ) * 2 ^ (g + 1 + t) + 2 ^ (g + 1 + t) / 2 = ((2 * s + 1) * 2 ^ g : ℕ) * 2 ^ t := by
  push_cast
  rw [pow_add, pow_succ]
  ring

theorem Owns.le_halfway (owns : Owns s (g + 1 + t) (n * 2 ^ t)) :
    n ≤ (2 * s + 1) * 2 ^ g ∧ (n = (2 * s + 1) * 2 ^ g → Even s) := by
  have hpos : (0 : ℚ) < 2 ^ t := by positivity
  have hhigh := owns.high
  have heven := owns.even
  rw [highEnd_eq] at hhigh heven
  refine ⟨?_, fun tie => heven (.inr (by rw [tie]))⟩
  exact_mod_cast le_of_mul_le_mul_right hhigh hpos

/-- When digits are added to an integer, its number with as many zeros stays the nearest one, but if the
integer is halfway to the next number. -/
theorem Owns.followed_iff {m r : ℕ} (owns : Owns s (g + 1 + t) (m * 2 ^ t)) (less : r < 2 ^ k) :
    Owns s (g + 1 + t + k) ((m * 2 ^ k + r : ℕ) * 2 ^ t) ↔ (r ≠ 0 → m ≠ (2 * s + 1) * 2 ^ g) := by
  constructor
  · intro owns' nonzero tie
    have hexp : g + 1 + t + k = g + k + 1 + t := by omega
    rw [hexp] at owns'
    have hle := owns'.le_halfway.1
    rw [pow_add, ← mul_assoc, ← tie] at hle
    omega
  · intro apart
    have hvalue : ((m * 2 ^ k + r : ℕ) : ℚ) * 2 ^ t = m * 2 ^ t * 2 ^ k + r * 2 ^ t := by
      push_cast
      ring
    rw [hvalue]
    refine owns.scaled (by omega) k (by positivity) fun nonzero => ?_
    have nonzero' : r ≠ 0 := by
      rintro rfl
      simp at nonzero
    have hnext : m + 1 ≤ (2 * s + 1) * 2 ^ g := lt_of_le_of_ne owns.le_halfway.1 (apart nonzero')
    have hnext' : (m : ℚ) + 1 ≤ ((2 * s + 1) * 2 ^ g : ℕ) := by exact_mod_cast hnext
    have hless : (r : ℚ) < 2 ^ k := by exact_mod_cast less
    rw [highEnd_eq]
    calc (m : ℚ) * 2 ^ t * 2 ^ k + r * 2 ^ t < m * 2 ^ t * 2 ^ k + 2 ^ k * 2 ^ t := by gcongr
      _ = (m + 1) * 2 ^ t * 2 ^ k := by ring
      _ ≤ ((2 * s + 1) * 2 ^ g : ℕ) * 2 ^ t * 2 ^ k := by gcongr

theorem owns_halfway (low : 2 ^ 53 ≤ 4 * k + 1) (high : 4 * k + 1 < 2 ^ 54) :
    Normal (2 * k) (c + 1 + t) ∧ Owns (2 * k) (c + 1 + t) (((4 * k + 1) * 2 ^ c : ℕ) * 2 ^ t) := by
  have hsame : ((4 * k + 1) * 2 ^ c : ℕ) * (2 : ℚ) ^ t =
      (2 * k : ℕ) * 2 ^ (c + 1 + t) + 2 ^ (c + 1 + t) / 2 := by
    rw [highEnd_eq]
    congr 3
    omega
  have hpos : (0 : ℚ) < 2 ^ (c + 1 + t) := by positivity
  have hdown := halfStepDown_pos (2 * k) (c + 1 + t)
  refine ⟨⟨by omega, .inr (by omega)⟩, ?_⟩
  rw [hsame]
  exact ⟨by linarith, le_rfl, fun _ => even_two_mul k⟩

end Rounding

namespace Double

/-- All but the last digits of a number are halfway from a number with an even significand to the next
one, and the last ones are not all zero. -/
def LosesTie (radix n : ℕ) : Prop :=
  n < 2 ^ 1024 ∧ ∃ k c last, 2 ^ 53 ≤ 4 * k + 1 ∧ 4 * k + 1 < 2 ^ 54 ∧
    n / radix ^ last = (4 * k + 1) * 2 ^ c ∧ n % radix ^ last ≠ 0

variable {n b last : ℕ}

theorem LosesTie.of_follow (loses : LosesTie (2 ^ b) n) (follow : Follow (2 ^ b) n last) :
    ∃ k c, 2 ^ 53 ≤ 4 * k + 1 ∧ 4 * k + 1 < 2 ^ 54 ∧ n / (2 ^ b) ^ last = (4 * k + 1) * 2 ^ c ∧
      n % (2 ^ b) ^ last ≠ 0 := by
  obtain ⟨-, k, c, fewer, low, high, tie, nonzero⟩ := loses
  obtain ⟨less, more⟩ := follow
  have hlarge : 2 ^ 53 ≤ (4 * k + 1) * 2 ^ c := low.trans (Nat.le_mul_of_pos_right _ (Nat.two_pow_pos c))
  have hfewer : fewer ≤ last := by
    by_contra hmore
    obtain ⟨i, rfl⟩ := Nat.exists_eq_add_of_lt (not_le.1 hmore)
    have hsplit : (2 ^ b) ^ (last + i + 1) = (2 ^ b) ^ last * 2 ^ b * (2 ^ b) ^ i := by ring
    rw [hsplit, ← Nat.div_div_eq_div_mul, ← Nat.div_div_eq_div_mul] at tie
    have hless : n / (2 ^ b) ^ last / 2 ^ b < 2 ^ 53 := Nat.div_lt_of_lt_mul (by rwa [mul_comm])
    have := Nat.div_le_self (n / (2 ^ b) ^ last / 2 ^ b) ((2 ^ b) ^ i)
    omega
  obtain ⟨i, rfl⟩ := Nat.exists_eq_add_of_le hfewer
  have hdiv : n / (2 ^ b) ^ (fewer + i) = (4 * k + 1) * 2 ^ c / 2 ^ (b * i) := by
    rw [pow_add, ← Nat.div_div_eq_div_mul, tie, pow_mul]
  have hbits : b * i ≤ c := by
    rcases more with none | large
    · obtain rfl : i = 0 := by omega
      exact Nat.zero_le c
    · rw [hdiv, Nat.le_div_iff_mul_le (Nat.two_pow_pos _), ← pow_add] at large
      have hless : 2 ^ (53 + b * i) < 2 ^ (54 + c) := by
        calc 2 ^ (53 + b * i) ≤ (4 * k + 1) * 2 ^ c := large
          _ < 2 ^ 54 * 2 ^ c := Nat.mul_lt_mul_of_pos_right high (Nat.two_pow_pos c)
          _ = 2 ^ (54 + c) := (pow_add 2 54 c).symm
      have := (Nat.pow_lt_pow_iff_right (by decide)).1 hless
      omega
  refine ⟨k, c - b * i, low, high, ?_, fun none => nonzero ?_⟩
  · rw [hdiv, Nat.mul_div_assoc _ (pow_dvd_pow 2 hbits), Nat.pow_div hbits two_pos]
  · exact Nat.mod_eq_zero_of_dvd ((pow_dvd_pow _ hfewer).trans (Nat.dvd_of_mod_eq_zero none))

theorem ofNat_isNearestTo (n : ℕ) : (ofNat n).IsNearestTo n := by
  have near := ofInt_isNearestTo n
  rwa [Int.cast_natCast] at near

/-- The halfway points above an even significand are odd numbers of 54 bits, scaled. -/
theorem halfway_iff {m s g : ℕ} (normal : Rounding.Normal s (g + 1 + 1074))
    (owns : Rounding.Owns s (g + 1 + 1074) (m * 2 ^ 1074)) :
    (∃ k c, 2 ^ 53 ≤ 4 * k + 1 ∧ 4 * k + 1 < 2 ^ 54 ∧ m = (4 * k + 1) * 2 ^ c) ↔
      m = (2 * s + 1) * 2 ^ g := by
  constructor
  · rintro ⟨k, c, low, high, rfl⟩
    obtain ⟨normal', owns'⟩ := Rounding.owns_halfway (t := 1074) (c := c) low high
    obtain ⟨rfl, hexp⟩ := owns.unique normal owns' normal'
    obtain rfl : g = c := by omega
    ring
  · intro tie
    obtain ⟨k, rfl⟩ := owns.le_halfway.2 tie
    have hlow : 2 ^ 52 ≤ k + k := normal.2.resolve_left (by omega)
    have hhigh := normal.1
    exact ⟨k, g, by omega, by omega, tie.trans (by ring)⟩

theorem halfway_lt_iff {m r s g k : ℕ} (normal : Rounding.Normal s (g + 1 + 1074)) (less : r < 2 ^ k)
    (tie : m = (2 * s + 1) * 2 ^ g) : m * 2 ^ k + r < 2 ^ 1024 ↔ g + 1 + 1074 + k ≤ 2045 := by
  have hlow : 2 ^ 52 ≤ s := normal.2.resolve_left (by omega)
  have hhigh := normal.1
  have hsplit : m * 2 ^ k = (2 * s + 1) * 2 ^ (g + k) := by rw [tie, pow_add, mul_assoc]
  constructor
  · intro small
    have hless : 2 ^ (53 + (g + k)) < 2 ^ 1024 := by
      calc 2 ^ (53 + (g + k)) = 2 ^ 53 * 2 ^ (g + k) := pow_add 2 53 _
        _ ≤ (2 * s + 1) * 2 ^ (g + k) := Nat.mul_le_mul_right _ (by omega)
        _ ≤ m * 2 ^ k + r := hsplit ▸ Nat.le_add_right _ _
        _ < 2 ^ 1024 := small
    have := (Nat.pow_lt_pow_iff_right (by decide)).1 hless
    omega
  · intro small
    have hpow : 2 ^ k ≤ 2 ^ (g + k) := Nat.pow_le_pow_right two_pos (by omega)
    calc m * 2 ^ k + r < (2 * s + 1) * 2 ^ (g + k) + 2 ^ (g + k) := by omega
      _ = (2 * s + 2) * 2 ^ (g + k) := by ring
      _ ≤ 2 ^ 54 * 2 ^ (g + k) := Nat.mul_le_mul_right _ (by omega)
      _ = 2 ^ (54 + (g + k)) := (pow_add 2 54 _).symm
      _ ≤ 2 ^ 1024 := Nat.pow_le_pow_right two_pos (by omega)

/-- With zeros for the digits behind a number of more than 53 bits, the nearest number is missed where
the number is halfway above an even significand and the digits are not all zero. -/
theorem ofNat_followed_iff {m r k : ℕ} (large : 2 ^ 53 ≤ m) (less : r < 2 ^ k) :
    (ofNat (m * 2 ^ k)).IsNearestTo (m * 2 ^ k + r : ℕ) ↔
      ¬ (m * 2 ^ k + r < 2 ^ 1024 ∧
        (∃ k c, 2 ^ 53 ≤ 4 * k + 1 ∧ 4 * k + 1 < 2 ^ 54 ∧ m = (4 * k + 1) * 2 ^ c) ∧ r ≠ 0) := by
  obtain ⟨s, e, normal, owns⟩ := exists_owns m
  have more : 1074 < e := (large_iff normal owns).1 large
  obtain ⟨g, rfl⟩ : ∃ g, e = g + 1 + 1074 := ⟨e - 1075, by omega⟩
  have normal' : Rounding.Normal s (g + 1 + 1074 + k) :=
    ⟨normal.1, .inr (normal.2.resolve_left (by omega))⟩
  have howns : Rounding.Owns s (g + 1 + 1074 + k) ((m * 2 ^ k : ℕ) * 2 ^ 1074) :=
    (owns.followed_iff (Nat.two_pow_pos k)).2 fun none => absurd rfl none
  rw [halfway_iff normal owns]
  by_cases small : g + 1 + 1074 + k ≤ 2045
  · have nonneg : (0 : ℚ) ≤ (m * 2 ^ k + r : ℕ) := Nat.cast_nonneg _
    have hnear : (finite false ⟨s, g + 1 + 1074 + k, normal'.1, normal'.2, small⟩).IsNearestTo _ ↔ _ :=
      isNearestTo_iff_owns nonneg
    rw [cast_one] at hnear
    rw [ofNat_eq normal' howns, dif_pos small]
    refine hnear.trans ((owns.followed_iff less).trans ?_)
    constructor
    · exact fun apart ⟨_, tie, nonzero⟩ => apart nonzero tie
    · exact fun kept nonzero tie => kept ⟨(halfway_lt_iff normal less tie).2 small, tie, nonzero⟩
  · have hinfinite := ofNat_isNearestTo (m * 2 ^ k)
    rw [ofNat_eq normal' howns, dif_neg small] at hinfinite ⊢
    refine iff_of_true ?_ fun ⟨inRange, tie, _⟩ => small ((halfway_lt_iff normal less tie).1 inRange)
    have hle : ((m * 2 ^ k : ℕ) : ℚ) ≤ (m * 2 ^ k + r : ℕ) := Nat.cast_le.2 (Nat.le_add_right _ _)
    exact le_trans hinfinite hle

theorem ofNat_isNearestTo_iff (follow : Follow (2 ^ b) n last) :
    (ofNat (n / (2 ^ b) ^ last * (2 ^ b) ^ last)).IsNearestTo n ↔ ¬ LosesTie (2 ^ b) n := by
  by_cases large : 2 ^ 53 ≤ n / (2 ^ b) ^ last
  · have hsplit := Nat.div_add_mod' n ((2 ^ b) ^ last)
    have hless : n % (2 ^ b) ^ last < (2 ^ b) ^ last := Nat.mod_lt _ (Nat.pow_pos (Nat.two_pow_pos b))
    have hloses : LosesTie (2 ^ b) n ↔ n < 2 ^ 1024 ∧
        (∃ k c, 2 ^ 53 ≤ 4 * k + 1 ∧ 4 * k + 1 < 2 ^ 54 ∧ n / (2 ^ b) ^ last = (4 * k + 1) * 2 ^ c) ∧
          n % (2 ^ b) ^ last ≠ 0 := by
      constructor
      · intro loses
        obtain ⟨k, c, low, high, tie, nonzero⟩ := loses.of_follow follow
        exact ⟨loses.1, ⟨k, c, low, high, tie⟩, nonzero⟩
      · rintro ⟨inRange, ⟨k, c, low, high, tie⟩, nonzero⟩
        exact ⟨inRange, k, c, last, low, high, tie, nonzero⟩
    have hfollowed := ofNat_followed_iff large (r := n % (2 ^ b) ^ last) (k := b * last)
      (by rwa [pow_mul])
    rw [pow_mul, hsplit] at hfollowed
    rw [hloses, hfollowed]
  · have none : last = 0 := follow.2.resolve_right large
    subst none
    rw [pow_zero, Nat.div_one, mul_one]
    refine iff_of_true (ofNat_isNearestTo n) fun loses => large ?_
    obtain ⟨k, c, low, -, tie, -⟩ := loses.of_follow follow
    rw [tie]
    exact low.trans (Nat.le_mul_of_pos_right _ (Nat.two_pow_pos c))

end Double

namespace Literal

/-- The integer of a text without blanks around it. -/
def integerOf : List Char → Option ℤ
  | [] => some 0
  | cs =>
    match radixParts? cs with
    | some (radix, digits) =>
      if digits.all fun c => (Ascii.digit? radix c).isSome then some (Ascii.natOf radix digits)
      else none
    | none =>
      let (negative, digits) := unsigned cs
      if !digits.isEmpty && digits.all Ascii.isDigit then
        some (Double.signed negative (Ascii.natOf 10 digits))
      else none

theorem toInteger?_eq (s : DOMString) : toInteger? s = (trim s).chars?.bind integerOf := by
  rw [toInteger?, trimmed?_eq]
  match (trim s).chars? with
  | none => rfl
  | some [] => rfl
  | some (c :: cs) => rfl

/-- The text is digits of an announced radix, and their number loses a tie. -/
def LosesTie (cs : List Char) : Prop :=
  ∃ letter radix digits, Announces letter radix ∧ cs = '0' :: letter :: digits ∧
    Double.LosesTie radix (Ascii.natOf radix digits)

variable {letter : Char} {radix : ℕ} {cs digits : List Char} {n : ℤ}

theorem Announces.exists_bits (announces : Announces letter radix) : ∃ b, radix = 2 ^ b := by
  cases announces
  exacts [⟨4, rfl⟩, ⟨4, rfl⟩, ⟨3, rfl⟩, ⟨3, rfl⟩, ⟨1, rfl⟩, ⟨1, rfl⟩]

theorem radixNumber_isNearestTo_iff (announces : Announces letter radix)
    (all : ∀ c ∈ digits, (Ascii.digit? radix c).isSome = true) :
    (radixNumber radix digits).IsNearestTo (Ascii.natOf radix digits) ↔
      ¬ Double.LosesTie radix (Ascii.natOf radix digits) := by
  obtain ⟨b, rfl⟩ := announces.exists_bits
  obtain ⟨last, follow, same⟩ := radixNumber_eq_ofNat all
  rw [same]
  exact Double.ofNat_isNearestTo_iff follow

theorem numberOf_decimal {negative : Bool} {sign : List Char} (signed : Sign negative sign)
    (nonempty : digits ≠ []) (decimal : Decimal digits) :
    (numberOf (sign ++ digits)).IsNearestTo (Double.signed negative (Ascii.natOf 10 digits) : ℤ) := by
  have numeral : Numeral true (digits ++ []) ⟨digits, [], false, []⟩ := .whole nonempty decimal .absent
  rw [List.append_nil] at numeral
  have hvalue : Double.signedRat negative (DecimalLiteral.toRat ⟨digits, [], false, []⟩) =
      (Double.signed negative (Ascii.natOf 10 digits) : ℤ) := by
    have hwhole : DecimalLiteral.toRat ⟨digits, [], false, []⟩ = Ascii.natOf 10 digits := by
      simp [DecimalLiteral.toRat, Ascii.natOf, Double.signed]
    rw [hwhole]
    cases negative <;> simp [Double.signedRat, Double.signed]
  rw [numberOf_numeral signed numeral, ← hvalue]
  exact DecimalLiteral.value_isNearestTo _ _

theorem not_losesTie_decimal {negative : Bool} {sign : List Char} (signed : Sign negative sign)
    (decimal : Decimal digits) : ¬ LosesTie (sign ++ digits) := by
  rintro ⟨letter, radix, rest, announces, split, -⟩
  cases signed with
  | absent =>
    obtain rfl : digits = _ := split
    have digit := decimal letter (by simp)
    cases announces <;> cases digit
  | plus => cases split
  | minus => cases split

theorem numberOf_isNearestTo_iff (integer : integerOf cs = some n) :
    (numberOf cs).IsNearestTo n ↔ ¬ LosesTie cs := by
  unfold integerOf at integer
  split at integer
  · obtain rfl := Option.some.inj integer
    have hnear := Double.zero_isNearestTo false
    rw [Double.signedRat, if_neg Bool.false_ne_true, ← Int.cast_zero] at hnear
    refine iff_of_true hnear ?_
    rintro ⟨letter, radix, digits, -, split, -⟩
    cases split
  · split at integer
    · rename_i radix digits parts
      rw [Option.ite_none_right_eq_some, List.all_eq_true] at integer
      obtain ⟨all, same⟩ := integer
      obtain rfl := Option.some.inj same
      obtain ⟨letter, announces, nonempty, rfl⟩ := radixParts?_eq_some_iff.1 parts
      rw [numberOf_radix announces nonempty, Int.cast_natCast, radixNumber_isNearestTo_iff announces all]
      refine not_congr ⟨fun loses => ⟨letter, radix, digits, announces, rfl, loses⟩, ?_⟩
      rintro ⟨letter', radix', digits', announces', split, loses⟩
      obtain ⟨rfl, rfl⟩ : letter = letter' ∧ digits = digits' := by simpa using split
      obtain rfl := Option.some.inj
        ((radix?_eq_some_iff.2 announces).symm.trans (radix?_eq_some_iff.2 announces'))
      exact loses
    · obtain ⟨sign, signed, split⟩ := exists_sign cs
      obtain ⟨⟨negative, digits⟩, hparts⟩ : ∃ parts, unsigned cs = parts := ⟨_, rfl⟩
      rw [hparts] at signed split integer
      subst split
      simp only [Option.ite_none_right_eq_some, Bool.and_eq_true, List.all_eq_true] at integer
      obtain ⟨⟨nonempty, decimal⟩, same⟩ := integer
      obtain rfl := Option.some.inj same
      exact iff_of_true (numberOf_decimal signed (by simpa using nonempty) decimal)
        (not_losesTie_decimal signed decimal)

/-- A script string that spells an integer denotes the number nearest to it, and so the one that the
integer converts to if this conversion gives the nearest number, but for the sign of zero. Only where a
tie is lost does it denote another number. -/
theorem toNumber_of_integer {s : DOMString} (integer : toInteger? s = some n) :
    ∃ core cs, TrimsTo s core ∧ core.units = cs.flatMap Units.ofChar ∧
      ((toNumber s).IsNearestTo n ↔ ¬ LosesTie cs) ∧
      ((Double.ofBigInt n).IsNearestTo n → ¬ LosesTie cs →
        (toNumber s).dropZeroSign = (Double.ofBigInt n).dropZeroSign) := by
  rw [toInteger?_eq, Option.bind_eq_some_iff] at integer
  obtain ⟨cs, spelled, integer⟩ := integer
  have hnear : (toNumber s).IsNearestTo n ↔ ¬ LosesTie cs := by
    rw [toNumber_eq, spelled]
    exact numberOf_isNearestTo_iff integer
  exact ⟨trim s, cs, trimsTo_trim s, DOMString.chars?_eq_some_iff.1 spelled, hnear,
    fun converts kept => (hnear.2 kept).unique converts⟩

/-- With `2 ^ 53 + 1` the digits are halfway, and the last one leads beyond. It is without effect, and a
number comes out that is not the nearest one. -/
theorem hexadecimal_integer_loses_tie :
    let s := DOMString.ofString "0x200000000000011"
    toInteger? s = some (2 ^ 57 + 17) ∧ toNumber s = .ofInt (2 ^ 57) ∧
      Double.ofInt (2 ^ 57 + 17) = .ofInt (2 ^ 57 + 32) ∧ toNumber s ≠ .ofInt (2 ^ 57 + 17) ∧
      ¬ (toNumber s).IsNearestTo ((2 ^ 57 + 17 : ℤ) : ℚ) := by
  intro s
  have integer : toInteger? s = some (2 ^ 57 + 17) := by decide +kernel
  refine ⟨integer, by decide +kernel, by decide +kernel, by decide +kernel, ?_⟩
  have spelled : (trim s).chars? = some "0x200000000000011".toList := by decide +kernel
  have loses : LosesTie "0x200000000000011".toList :=
    ⟨'x', 16, _, .lowerHex, rfl, by decide +kernel, 2 ^ 51, 0, 1, by decide, by decide,
      by decide +kernel, by decide +kernel⟩
  clear_value s
  intro nearest
  obtain ⟨core, cs, trims, units, near, -⟩ := toNumber_of_integer integer
  rw [trim_eq trims, DOMString.chars?_eq_some_iff.2 units] at spelled
  obtain rfl := Option.some.inj spelled
  exact near.1 nearest loses

/-- Not every integer that is spelled with a radix is read as the nearest number. -/
theorem integers_miss_nearest :
    ¬ ∀ (s : DOMString) (n : ℤ), toInteger? s = some n → (toNumber s).IsNearestTo n := by
  obtain ⟨s, n, integer, apart⟩ : ∃ s n, toInteger? s = some n ∧
      (toNumber s).dropZeroSign ≠ (Double.ofInt n).dropZeroSign :=
    ⟨DOMString.ofString "0x200000000000011", 2 ^ 57 + 17, by decide +kernel, by decide +kernel⟩
  exact fun nearest => apart ((nearest s n integer).unique (Double.ofInt_isNearestTo n))

end Literal

end WebBindings
