import WebBindings.Number.Shortest
import WebBindings.Proofs.Number.Nearest
/-!
# Shortest digits

The digits that are printed for a number read back as this number, and no decimal with fewer digits does.
They are found after seventeen attempts at most.
-/

namespace WebBindings

/-- The rational numbers that round to a magnitude. -/
def Magnitude.Owns (m : Magnitude) (q : ℚ) : Prop :=
  Rounding.Owns m.significand m.exponent (q * Double.one)

namespace Shortest

variable {m : Magnitude} {q : ℚ}

theorem cast_quarters : (quarters : ℚ) = 4 * Double.one := by
  rw [quarters, Nat.cast_mul, Nat.cast_ofNat]

theorem cast_value (m : Magnitude) : ((interval m).value : ℚ) = m.toRat * quarters := by
  rw [cast_quarters, mul_left_comm, m.toRat_mul_one]
  simp only [interval]
  push_cast
  ring

theorem cast_low (positive : m.significand ≠ 0) :
    ((interval m).low : ℚ) =
      4 * (m.significand * 2 ^ m.exponent - Rounding.halfStepDown m.significand m.exponent) := by
  simp only [interval, Rounding.halfStepDown]
  split
  · rw [Nat.cast_mul, Nat.cast_sub (by omega)]
    push_cast
    ring
  · rw [Nat.cast_mul, Nat.cast_sub (by omega)]
    push_cast
    ring

theorem cast_high (m : Magnitude) :
    ((interval m).high : ℚ) = 4 * (m.significand * 2 ^ m.exponent + 2 ^ m.exponent / 2) := by
  simp only [interval]
  push_cast
  ring

theorem closed_iff : (interval m).closed = true ↔ Even m.significand := by
  rw [Nat.even_iff]
  simp [interval]

theorem owns_iff_interval (positive : m.significand ≠ 0) :
    m.Owns q ↔ (interval m).low ≤ q * quarters ∧ q * quarters ≤ (interval m).high ∧
      (q * quarters = (interval m).low ∨ q * quarters = (interval m).high →
        (interval m).closed = true) := by
  have hscaled : q * quarters = 4 * (q * Double.one) := by
    rw [cast_quarters]
    ring
  have hle {a b : ℚ} : 4 * a ≤ 4 * b ↔ a ≤ b := mul_le_mul_iff_of_pos_left (by norm_num)
  have heq {a b : ℚ} : 4 * a = 4 * b ↔ a = b := mul_right_inj' (by norm_num)
  rw [cast_low positive, cast_high, closed_iff, hscaled, hle, hle, heq, heq]
  exact ⟨fun owns => ⟨owns.low, owns.high, owns.even⟩, fun ⟨low, high, even⟩ => ⟨low, high, even⟩⟩

theorem ten_zpow_neg (k : ℤ) : (10 : ℚ) ^ (-k) = 10 ^ (-k).toNat / 10 ^ k.toNat := by
  rcases le_total 0 k with nonneg | nonpos
  · obtain ⟨n, rfl⟩ := Int.eq_ofNat_of_zero_le nonneg
    simp
  · obtain ⟨n, hn⟩ := Int.eq_ofNat_of_zero_le (neg_nonneg.2 nonpos)
    have hk : k.toNat = 0 := by omega
    rw [hn, hk]
    simp

theorem inside_eq_true_iff (i : Interval) {grow : ℕ} (scale c : ℕ) (hgrow : 0 < grow) :
    inside i grow scale c = true ↔ (i.low : ℚ) ≤ (c * scale : ℕ) / (grow : ℕ) ∧
      ((c * scale : ℕ) : ℚ) / (grow : ℕ) ≤ i.high ∧
      (((c * scale : ℕ) : ℚ) / (grow : ℕ) = i.low ∨ ((c * scale : ℕ) : ℚ) / (grow : ℕ) = i.high →
        i.closed = true) := by
  have hpos : (0 : ℚ) < grow := Nat.cast_pos.2 hgrow
  have hlow : (i.low : ℚ) ≤ (c * scale : ℕ) / (grow : ℕ) ↔ i.low * grow ≤ c * scale := by
    rw [le_div_iff₀ hpos]
    exact_mod_cast Iff.rfl
  have hhigh : ((c * scale : ℕ) : ℚ) / (grow : ℕ) ≤ i.high ↔ c * scale ≤ i.high * grow := by
    rw [div_le_iff₀ hpos]
    exact_mod_cast Iff.rfl
  have hends (n : ℕ) : ((c * scale : ℕ) : ℚ) / (grow : ℕ) = n ↔ c * scale = n * grow := by
    rw [div_eq_iff hpos.ne']
    exact_mod_cast Iff.rfl
  rw [hlow, hhigh, hends, hends]
  cases hclosed : i.closed with
  | true => simp [inside, hclosed]
  | false =>
    simp only [inside, hclosed, Bool.false_eq_true, if_false, Bool.and_eq_true, decide_eq_true_eq,
      imp_false, not_or]
    omega

variable {point : ℤ} {count : ℕ}

theorem grid_eq (point : ℤ) (count c : ℕ) :
    (c : ℚ) * 10 ^ (point - count) * quarters =
      (c * (quarters * 10 ^ (-((count : ℤ) - point)).toNat) : ℕ) /
        (10 ^ ((count : ℤ) - point).toNat : ℕ) := by
  rw [← neg_sub, ten_zpow_neg, Nat.cast_mul, Nat.cast_mul]
  push_cast
  ring

theorem inside_iff (positive : m.significand ≠ 0) (point : ℤ) (count c : ℕ) :
    inside (interval m) (10 ^ ((count : ℤ) - point).toNat)
        (quarters * 10 ^ (-((count : ℤ) - point)).toNat) c = true ↔
      m.Owns (c * 10 ^ (point - count)) := by
  rw [inside_eq_true_iff _ _ _ (by positivity), owns_iff_interval positive, grid_eq]

/-- The decimal of `count` digits below a magnitude, in units of the last digit. -/
def floorAt (m : Magnitude) (point : ℤ) (count : ℕ) : ℕ :=
  (interval m).value * 10 ^ ((count : ℤ) - point).toNat /
    (quarters * 10 ^ (-((count : ℤ) - point)).toNat)

theorem quarters_pos : 0 < quarters := Nat.mul_pos (by decide) Double.one_pos

theorem floorAt_bounds (m : Magnitude) (point : ℤ) (count : ℕ) :
    (floorAt m point count : ℚ) * 10 ^ (point - count) ≤ m.toRat ∧
      m.toRat < (floorAt m point count + 1 : ℕ) * 10 ^ (point - count) := by
  obtain ⟨grow, hgrow⟩ : ∃ grow, 10 ^ ((count : ℤ) - point).toNat = grow := ⟨_, rfl⟩
  obtain ⟨scale, hscale⟩ : ∃ scale, quarters * 10 ^ (-((count : ℤ) - point)).toNat = scale := ⟨_, rfl⟩
  have hpos : (0 : ℚ) < grow := by
    rw [← hgrow]
    positivity
  have hpos' : 0 < scale := by
    rw [← hscale]
    exact Nat.mul_pos quarters_pos (by positivity)
  have hunit : (0 : ℚ) < quarters := Nat.cast_pos.2 quarters_pos
  have hfloor : floorAt m point count = (interval m).value * grow / scale := by
    rw [floorAt, hgrow, hscale]
  rw [← mul_le_mul_iff_of_pos_right hunit, ← mul_lt_mul_iff_of_pos_right hunit, grid_eq, grid_eq, hgrow,
    hscale, ← cast_value, div_le_iff₀ hpos, lt_div_iff₀ hpos, hfloor]
  constructor
  · exact_mod_cast Nat.div_mul_le_self _ _
  · exact_mod_cast Nat.lt_mul_of_div_lt (Nat.lt_succ_self _) hpos'

/-- A candidate is one of the two decimals beside the magnitude and reads back as it. If there is none,
neither of them does. -/
theorem candidate?_cases (positive : m.significand ≠ 0) (point : ℤ) (count : ℕ) :
    (∀ c, candidate? (interval m) point count = some c →
      (c = floorAt m point count ∨ c = floorAt m point count + 1) ∧ m.Owns (c * 10 ^ (point - count))) ∧
    (candidate? (interval m) point count = none →
      ¬ m.Owns (floorAt m point count * 10 ^ (point - count)) ∧
        ¬ m.Owns ((floorAt m point count + 1 : ℕ) * 10 ^ (point - count))) := by
  have hdown := inside_iff positive point count (floorAt m point count)
  have hup := inside_iff positive point count (floorAt m point count + 1)
  rw [← hdown, ← hup]
  simp only [candidate?]
  split
  · rename_i down up
    refine ⟨?_, nofun⟩
    rintro c ⟨⟩
    split
    · exact ⟨.inr rfl, hup.1 up⟩
    · exact ⟨.inl rfl, hdown.1 down⟩
  · rename_i down up
    refine ⟨?_, nofun⟩
    rintro c ⟨⟩
    exact ⟨.inl rfl, hdown.1 down⟩
  · rename_i down up
    refine ⟨?_, nofun⟩
    rintro c ⟨⟩
    exact ⟨.inr rfl, hup.1 up⟩
  · rename_i down up
    refine ⟨nofun, fun _ => ⟨?_, ?_⟩⟩
    · exact fun inside => Bool.false_ne_true (down.symm.trans inside)
    · exact fun inside => Bool.false_ne_true (up.symm.trans inside)

theorem between_powers {n k : ℕ} (hn : n ≠ 0) (low : n ≤ q * 10 ^ k) (high : q * 10 ^ k < n + 1) :
    (10 : ℚ) ^ (((Nat.toDigits 10 n).length : ℤ) - k - 1) ≤ q ∧
      q < 10 ^ (((Nat.toDigits 10 n).length : ℤ) - k) := by
  have hten : (10 : ℚ) ≠ 0 := by norm_num
  have hpos : (0 : ℚ) < 10 ^ k := by positivity
  obtain ⟨hlow, hhigh⟩ := length_toDigits_bounds hn
  have hnext : (n : ℚ) + 1 ≤ 10 ^ (Nat.toDigits 10 n).length := by
    rw [zpow_natCast] at hhigh
    exact_mod_cast hhigh
  rw [sub_right_comm, zpow_sub₀ hten _ (k : ℤ), zpow_sub₀ hten _ (k : ℤ), zpow_natCast, div_le_iff₀ hpos,
    lt_div_iff₀ hpos]
  refine ⟨hlow.trans low, high.trans_le ?_⟩
  rwa [zpow_natCast]

theorem pointOf_bounds (positive : m.significand ≠ 0) :
    (10 : ℚ) ^ (pointOf (interval m).value - 1) ≤ m.toRat ∧
      m.toRat < 10 ^ pointOf (interval m).value := by
  have hunit : (0 : ℚ) < quarters := Nat.cast_pos.2 quarters_pos
  have hleast : quarters ≤ (interval m).value * 10 ^ 400 := by
    have hone : Double.one ≤ 10 ^ 400 := by decide +kernel
    have hunits : 0 < m.significand * 2 ^ m.exponent :=
      Nat.mul_pos (Nat.pos_of_ne_zero positive) (Nat.two_pow_pos _)
    have hvalue : 4 ≤ (interval m).value := by
      rw [interval, mul_assoc]
      exact Nat.le_mul_of_pos_right 4 hunits
    exact Nat.mul_le_mul hvalue hone
  obtain ⟨k, hk⟩ : ∃ k, k = 400 := ⟨_, rfl⟩
  rw [← hk] at hleast
  have hpoint : pointOf (interval m).value =
      (Nat.toDigits 10 ((interval m).value * 10 ^ k / quarters)).length - k := by
    rw [pointOf, hk]
    rfl
  have hscaled : m.toRat * 10 ^ k = ((interval m).value * 10 ^ k : ℕ) / quarters := by
    rw [Nat.cast_mul, cast_value, Nat.cast_pow, Nat.cast_ofNat, mul_right_comm,
      mul_div_cancel_right₀ _ hunit.ne']
  rw [hpoint]
  refine between_powers ?_ ?_ ?_
  · exact (Nat.div_pos hleast quarters_pos).ne'
  · rw [hscaled, le_div_iff₀ hunit]
    exact_mod_cast Nat.div_mul_le_self _ _
  · rw [hscaled, div_lt_iff₀ hunit]
    exact_mod_cast Nat.lt_mul_of_div_lt (Nat.lt_succ_self _) quarters_pos

theorem owns_toRat (m : Magnitude) : m.Owns m.toRat := by
  rw [Magnitude.Owns, m.toRat_mul_one]
  exact .self _ _

/-- The interval of a magnitude is wider than a unit in the seventeenth digit. -/
theorem lt_width {s e : ℕ} (normal : Rounding.Normal s e) {unit : ℚ} (small : unit * 10 ^ 16 ≤ s * 2 ^ e) :
    unit < Rounding.halfStepDown s e + 2 ^ e / 2 := by
  have hpos : (0 : ℚ) < 2 ^ e := by positivity
  rw [Rounding.halfStepDown]
  split
  · rename_i power
    rw [power.1] at small
    push_cast at small
    linarith
  · have hsig : (s : ℚ) < 2 ^ 53 := by exact_mod_cast normal.1
    nlinarith

theorem candidate?_seventeen (positive : m.significand ≠ 0) :
    candidate? (interval m) (pointOf (interval m).value) 17 ≠ none := by
  intro none
  obtain ⟨point, hpoint⟩ : ∃ point, pointOf (interval m).value = point := ⟨_, rfl⟩
  have hleast := (pointOf_bounds positive).1
  rw [hpoint] at none hleast
  obtain ⟨hdown, hup⟩ := (candidate?_cases positive point 17).2 none
  obtain ⟨hlow, hhigh⟩ := floorAt_bounds m point 17
  have hone := Double.cast_one_pos
  obtain ⟨unit, hunit⟩ : ∃ unit : ℚ, 10 ^ (point - (17 : ℕ)) * Double.one = unit := ⟨_, rfl⟩
  rw [Magnitude.Owns, mul_assoc, hunit] at hdown hup
  rw [← mul_le_mul_iff_of_pos_right hone, m.toRat_mul_one, mul_assoc, hunit] at hlow
  rw [← mul_lt_mul_iff_of_pos_right hone, m.toRat_mul_one, mul_assoc, hunit] at hhigh
  have hnext : ((floorAt m point 17 + 1 : ℕ) : ℚ) * unit = floorAt m point 17 * unit + unit := by
    rw [Nat.cast_succ, add_one_mul]
  rw [hnext] at hup hhigh
  have hten : (10 : ℚ) ^ (point - (17 : ℕ)) * 10 ^ 16 = 10 ^ (point - 1) := by
    have hexp : point - (17 : ℕ) + (16 : ℕ) = point - 1 := by omega
    rw [← zpow_natCast, ← zpow_add₀ (by norm_num), hexp]
  have hsmall : unit * 10 ^ 16 ≤ m.significand * 2 ^ m.exponent := by
    rw [← hunit, mul_right_comm, hten, ← m.toRat_mul_one]
    exact mul_le_mul_of_nonneg_right hleast hone.le
  have hwidth := lt_width m.isNormal hsmall
  by_cases near : m.significand * 2 ^ m.exponent - Rounding.halfStepDown m.significand m.exponent <
      floorAt m point 17 * unit
  · exact hdown (.of_below hlow near)
  · exact hup (.of_above hhigh.le (by linarith))

/-- Where a decimal with no more than a count of digits reads back as a magnitude, one of the two
decimals of that count beside it does. -/
theorem candidate?_of_owns (positive : m.significand ≠ 0) {c : ℕ} {j : ℤ} (nonzero : 0 < count)
    (few : c < 10 ^ count) (owns : m.Owns (c * 10 ^ j)) :
    candidate? (interval m) (pointOf (interval m).value) count ≠ none := by
  intro none
  obtain ⟨point, hpoint⟩ : ∃ point, pointOf (interval m).value = point := ⟨_, rfl⟩
  have hleast := (pointOf_bounds positive).1
  rw [hpoint] at none hleast
  obtain ⟨hdown, hup⟩ := (candidate?_cases positive point count).2 none
  obtain ⟨hlow, hhigh⟩ := floorAt_bounds m point count
  have hone := Double.cast_one_pos
  have hten : (10 : ℚ) ≠ 0 := by norm_num
  have between {a b x : ℚ} (owns : m.Owns a) (owns' : m.Owns b) (low : a ≤ x) (high : x ≤ b) :
      m.Owns x :=
    Rounding.Owns.between owns owns' (mul_le_mul_of_nonneg_right low hone.le)
      (mul_le_mul_of_nonneg_right high hone.le)
  have hunit : (0 : ℚ) < 10 ^ (point - count) := zpow_pos (by norm_num) _
  have hself := owns_toRat m
  have beside {k : ℕ} (start : (c : ℚ) * 10 ^ j ≤ k * 10 ^ (point - count))
      (fits : (k : ℚ) * 10 ^ (point - count) ≤ m.toRat) : False := by
    have hk : (k : ℚ) < (floorAt m point count + 1 : ℕ) :=
      lt_of_mul_lt_mul_right (fits.trans_lt hhigh) hunit.le
    have hk' : (k : ℚ) ≤ floorAt m point count := by
      exact_mod_cast Nat.lt_succ_iff.1 (Nat.cast_lt.1 hk)
    exact hdown (between owns hself (start.trans (mul_le_mul_of_nonneg_right hk' hunit.le)) hlow)
  rcases le_or_gt (point - count) j with coarse | fine
  · -- The decimal is on the grid.
    obtain ⟨i, hi⟩ := Int.eq_ofNat_of_zero_le (sub_nonneg.2 coarse)
    have hgrid : (c : ℚ) * 10 ^ j = (c * 10 ^ i : ℕ) * 10 ^ (point - count) := by
      have hexp : j = i + (point - count) := by omega
      rw [hexp, zpow_add₀ hten, zpow_natCast, ← mul_assoc]
      push_cast
      rfl
    rcases le_or_gt ((c : ℚ) * 10 ^ j) m.toRat with below | above
    · exact beside hgrid.le (hgrid ▸ below)
    · rw [hgrid] at above owns
      have hk : (floorAt m point count : ℚ) < (c * 10 ^ i : ℕ) :=
        lt_of_mul_lt_mul_right (hlow.trans_lt above) hunit.le
      have hk' : ((floorAt m point count + 1 : ℕ) : ℚ) ≤ (c * 10 ^ i : ℕ) :=
        Nat.cast_le.2 (Nat.cast_lt.1 hk)
      exact hup (between hself owns hhigh.le (mul_le_mul_of_nonneg_right hk' hunit.le))
  · -- The decimal is finer, and so small that the power of ten below the magnitude is between them.
    obtain ⟨k, rfl⟩ : ∃ k, count = k + 1 := ⟨count - 1, by omega⟩
    have hpower : ((10 ^ k : ℕ) : ℚ) * 10 ^ (point - (k + 1 : ℕ)) = 10 ^ (point - 1) := by
      have hexp : (k : ℤ) + (point - (k + 1 : ℕ)) = point - 1 := by omega
      rw [← hexp, zpow_add₀ hten, zpow_natCast]
      push_cast
      rfl
    refine beside (k := 10 ^ k) ?_ (hpower ▸ hleast)
    have hfew : (c : ℚ) ≤ 10 ^ ((k + 1 : ℕ) : ℤ) := by
      rw [zpow_natCast]
      exact_mod_cast few.le
    calc (c : ℚ) * 10 ^ j ≤ 10 ^ ((k + 1 : ℕ) : ℤ) * 10 ^ j :=
          mul_le_mul_of_nonneg_right hfew (zpow_pos (by norm_num) j).le
      _ = 10 ^ (((k + 1 : ℕ) : ℤ) + j) := (zpow_add₀ hten _ _).symm
      _ ≤ 10 ^ (point - 1) := zpow_le_zpow_right₀ (by norm_num) (by omega)
      _ = (10 ^ k : ℕ) * 10 ^ (point - (k + 1 : ℕ)) := hpower.symm

theorem search_spec {i : Interval} {n : ℕ} (found : candidate? i point n ≠ none) {tries : ℕ}
    (start : count ≤ n) (stop : n < count + tries) :
    ∃ c k, search i point tries count = (c, k) ∧ count ≤ k ∧ candidate? i point k = some c ∧
      ∀ k', count ≤ k' → k' < k → candidate? i point k' = none := by
  induction tries generalizing count with
  | zero => omega
  | succ tries ih =>
    cases here : candidate? i point count with
    | some c =>
      refine ⟨c, count, ?_, le_rfl, here, fun k' hle hlt => by omega⟩
      rw [search, here]
    | none =>
      have later : count + 1 ≤ n := by
        refine Nat.lt_of_le_of_ne start ?_
        rintro rfl
        exact found here
      obtain ⟨c, k, same, hle, hsome, hnone⟩ := ih later (by omega)
      refine ⟨c, k, ?_, by omega, hsome, fun k' hle' hlt => ?_⟩
      · rw [search, here]
        exact same
      · rcases hle'.eq_or_lt with rfl | hlt'
        · exact here
        · exact hnone k' hlt' hlt

theorem trimZeros_append_zero (digits : List Char) : trimZeros (digits ++ ['0']) = trimZeros digits := by
  simp [trimZeros]

theorem trimZeros_append_of_ne {c : Char} (digits : List Char) (nonzero : c ≠ '0') :
    trimZeros (digits ++ [c]) = digits ++ [c] := by
  simp [trimZeros, nonzero]

theorem trimZeros_toDigits {c : ℕ} (positive : 0 < c) :
    ∃ d zeros, c = d * 10 ^ zeros ∧ d % 10 ≠ 0 ∧ trimZeros (Nat.toDigits 10 c) = Nat.toDigits 10 d ∧
      (Nat.toDigits 10 c).length = (Nat.toDigits 10 d).length + zeros := by
  induction c using Nat.strong_induction_on with
  | _ c ih =>
    have hsplit := Nat.div_add_mod c 10
    have last {k d : ℕ} (hk : 0 < k) (hd : d < 10) :
        Nat.toDigits 10 (10 * k + d) = Nat.toDigits 10 k ++ [Nat.digitChar d] := by
      rw [← Nat.toDigits_append_toDigits (by decide) hk hd, Nat.toDigits_of_lt_base hd]
    by_cases zero : c % 10 = 0
    · obtain ⟨d, zeros, hc, hd, htrim, hlength⟩ := ih (c / 10) (by omega) (by omega)
      rw [← hsplit, zero, last (by omega) (by decide)]
      refine ⟨d, zeros + 1, ?_, hd, ?_, ?_⟩
      · rw [pow_succ, ← mul_assoc, ← hc]
        omega
      · exact (trimZeros_append_zero _).trans htrim
      · rw [List.length_append, hlength]
        rfl
    · refine ⟨c, 0, (mul_one c).symm, zero, ?_, rfl⟩
      have digit : Nat.digitChar (c % 10) ≠ '0' := by
        have table : ∀ d < 10, d ≠ 0 → Nat.digitChar d ≠ '0' := by decide
        exact table _ (Nat.mod_lt _ (by decide)) zero
      obtain ⟨front, hfront⟩ : ∃ front, Nat.toDigits 10 c = front ++ [Nat.digitChar (c % 10)] := by
        rcases (c / 10).eq_zero_or_pos with none | some
        · refine ⟨[], ?_⟩
          rw [List.nil_append, Nat.toDigits_of_lt_base (by omega), Nat.mod_eq_of_lt (by omega)]
        · exact ⟨_, hsplit ▸ last some (Nat.mod_lt _ (by decide))⟩
      rw [hfront, trimZeros_append_of_ne front digit]

theorem not_owns_zero (positive : m.significand ≠ 0) : ¬ m.Owns 0 := by
  intro owns
  have hlow := owns.low
  have hdown := Rounding.halfStepDown_le m.significand m.exponent
  have hpos : (0 : ℚ) < 2 ^ m.exponent := by positivity
  have hone : (1 : ℚ) ≤ m.significand := by exact_mod_cast Nat.one_le_iff_ne_zero.2 positive
  rw [zero_mul] at hlow
  nlinarith

theorem lt_pow_length_toDigits (n : ℕ) : n < 10 ^ (Nat.toDigits 10 n).length :=
  (Nat.length_toDigits_le_iff (by decide) Nat.length_toDigits_pos).1 le_rfl

theorem floorAt_lt (positive : m.significand ≠ 0) (count : ℕ) :
    floorAt m (pointOf (interval m).value) count < 10 ^ count := by
  have hlow := (floorAt_bounds m (pointOf (interval m).value) count).1
  have hhigh := (pointOf_bounds positive).2
  generalize pointOf (interval m).value = point at *
  have hunit : (0 : ℚ) < 10 ^ (point - count) := zpow_pos (by norm_num) _
  have hpower : (10 : ℚ) ^ point = (10 ^ count : ℕ) * 10 ^ (point - count) := by
    have hexp : point = count + (point - count) := by omega
    nth_rewrite 1 [hexp]
    rw [zpow_add₀ (by norm_num), zpow_natCast]
    push_cast
    rfl
  rw [hpower] at hhigh
  exact Nat.cast_lt.1 (lt_of_mul_lt_mul_right (hlow.trans_lt hhigh) hunit.le)

/-- The digits of a positive magnitude are those of an integer. With the point in its position the integer
reads back as the magnitude, and none with fewer digits does so with the point anywhere. -/
theorem ofMagnitude_spec (positive : m.significand ≠ 0) :
    ∃ d : ℕ, d ≠ 0 ∧ (ofMagnitude m).digits = Nat.toDigits 10 d ∧
      m.Owns (d * 10 ^ ((ofMagnitude m).point - (Nat.toDigits 10 d).length)) ∧
      ∀ (c : ℕ) (j : ℤ), m.Owns (c * 10 ^ j) →
        (Nat.toDigits 10 d).length ≤ (Nat.toDigits 10 c).length := by
  have start : 1 ≤ 17 := by decide
  have stop : 17 < 1 + 17 := by decide
  obtain ⟨c, k, same, hle, hsome, hnone⟩ := search_spec (candidate?_seventeen positive) start stop
  obtain ⟨beside, owns⟩ := (candidate?_cases positive _ k).1 c hsome
  have hfloor := floorAt_lt positive k
  have hc : c ≠ 0 := by
    rintro rfl
    rw [Nat.cast_zero, zero_mul] at owns
    exact not_owns_zero positive owns
  obtain ⟨d, zeros, rfl, hd, htrim, hlength⟩ := trimZeros_toDigits (Nat.pos_of_ne_zero hc)
  have hfew : (Nat.toDigits 10 d).length ≤ k := by
    rw [Nat.length_toDigits_le_iff (by decide) (by omega)]
    refine lt_of_le_of_ne ?_ ?_
    · calc d ≤ d * 10 ^ zeros := Nat.le_mul_of_pos_right d (by positivity)
        _ ≤ 10 ^ k := by omega
    · rintro rfl
      exact hd (Nat.mod_eq_zero_of_dvd (dvd_pow_self 10 (by omega)))
  have hresult : ofMagnitude m = ⟨Nat.toDigits 10 d, pointOf (interval m).value +
      (((Nat.toDigits 10 d).length + zeros : ℕ) - k)⟩ := by
    simp only [ofMagnitude, same, htrim, hlength]
  rw [hresult]
  refine ⟨d, fun none => hc (by rw [none, zero_mul]), rfl, ?_, fun c' j owns' => ?_⟩
  · have hvalue : (d : ℚ) * 10 ^ (pointOf (interval m).value +
        (((Nat.toDigits 10 d).length + zeros : ℕ) - k) - (Nat.toDigits 10 d).length) =
          (d * 10 ^ zeros : ℕ) * 10 ^ (pointOf (interval m).value - k) := by
      generalize pointOf (interval m).value = point
      have hexp : point + (((Nat.toDigits 10 d).length + zeros : ℕ) - k) - (Nat.toDigits 10 d).length =
          zeros + (point - k) := by omega
      rw [hexp, zpow_add₀ (by norm_num), zpow_natCast, ← mul_assoc]
      push_cast
      rfl
    rwa [hvalue]
  · refine hfew.trans (not_lt.1 fun fewer => ?_)
    exact candidate?_of_owns positive Nat.length_toDigits_pos (lt_pow_length_toDigits c') owns'
      (hnone _ Nat.length_toDigits_pos fewer)

end Shortest

end WebBindings
