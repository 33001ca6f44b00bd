import Mathlib.Data.Rat.Floor
import Mathlib.Tactic.Linarith
import Mathlib.Tactic.Positivity
import Mathlib.Tactic.Ring
import WebBindings.Number.Double
/-!
# Values of numbers

The rational number that a finite number is, and the integers that are got from it: its whole part, and
the integer nearest to it among those of a range.
-/

namespace WebBindings

theorem Double.one_pos : 0 < one := by
  unfold one
  positivity

theorem Double.cast_one_pos : (0 : ℚ) < one := Nat.cast_pos.2 one_pos

/-- The rational number of a magnitude. -/
def Magnitude.toRat (m : Magnitude) : ℚ := m.significand * 2 ^ ((m.exponent : ℤ) - 1074)

theorem Magnitude.toRat_eq (m : Magnitude) : m.toRat = m.units / Double.one := by
  have hscale (k : ℕ) : (m.significand : ℚ) * 2 ^ ((m.exponent : ℤ) - k) =
      (m.significand * 2 ^ m.exponent : ℕ) / (2 ^ k : ℕ) := by
    rw [zpow_sub₀ two_ne_zero, zpow_natCast, zpow_natCast, ← mul_div_assoc]
    push_cast
    rfl
  rw [toRat, units, Double.one]
  exact hscale 1074

namespace Double

/-- The rational number that a finite number is. -/
def toRat? : Double → Option ℚ
  | .finite negative m => some (if negative then -m.toRat else m.toRat)
  | _ => none

theorem toRat?_finite (negative : Bool) (m : Magnitude) :
    (finite negative m).toRat? = some ((signed negative m.units : ℤ) / (one : ℚ)) := by
  cases negative with
  | false =>
    change some m.toRat = some (((m.units : ℤ) : ℚ) / one)
    rw [m.toRat_eq, Int.cast_natCast]
  | true =>
    change some (-m.toRat) = some (((-m.units : ℤ) : ℚ) / one)
    rw [m.toRat_eq, Int.cast_neg, Int.cast_natCast, neg_div]

end Double

/-- A rational number without its fraction. -/
def wholePart (q : ℚ) : ℤ := if 0 ≤ q then ⌊q⌋ else ⌈q⌉

theorem wholePart_intCast (n : ℤ) : wholePart n = n := by
  simp [wholePart]

theorem wholePart_signed (negative : Bool) (a b : ℕ) :
    wholePart ((Double.signed negative a : ℤ) / (b : ℚ)) = Double.signed negative (a / b) := by
  have hquotient : (0 : ℚ) ≤ a / b := by positivity
  have hfloor : ⌊(a : ℚ) / b⌋ = ((a / b : ℕ) : ℤ) := by
    rw [Rat.floor_natCast_div_natCast]
    rfl
  cases negative with
  | false =>
    simp only [Double.signed, Bool.false_eq_true, if_false, Int.cast_natCast]
    rw [wholePart, if_pos hquotient, hfloor]
  | true =>
    simp only [Double.signed, if_true, Int.cast_neg, Int.cast_natCast, neg_div]
    rw [wholePart]
    split
    · have hzero : (a : ℚ) / b = 0 := by linarith
      have hnothing : ((a / b : ℕ) : ℤ) = 0 := by rw [← hfloor, hzero, Int.floor_zero]
      rw [hzero, hnothing]
      simp
    · rw [Int.ceil_neg, hfloor]

theorem Double.truncate?_eq (x : Double) : x.truncate? = x.toRat?.map wholePart := by
  cases x with
  | nan => rfl
  | infinite negative => rfl
  | finite negative m =>
    rw [toRat?_finite, Option.map_some, wholePart_signed]
    rfl

/-- An integer of a range is nearest to a rational number: no other of the range is nearer, and if one is
as near, it is the even one of the two. -/
structure IsNearest (range : ℤ → Prop) (q : ℚ) (n : ℤ) : Prop where
  mem : range n
  nearest : ∀ m, range m → |q - n| ≤ |q - m|
  even : ∀ m, range m → m ≠ n → |q - m| = |q - n| → Even n

namespace IsNearest

variable {range : ℤ → Prop} {q : ℚ} {m n : ℤ}

private theorem not_lt (convex : ∀ k, m ≤ k → k ≤ n → range k) (hm : IsNearest range q m)
    (hn : IsNearest range q n) : ¬ m < n := by
  intro hlt
  have hequal : |q - m| = |q - n| := le_antisymm (hm.nearest n hn.mem) (hn.nearest m hm.mem)
  have hmiddle : 2 * q = m + n := by
    have hcast : (m : ℚ) < n := by exact_mod_cast hlt
    rcases abs_eq_abs.1 hequal with h | h <;> linarith
  obtain ⟨a, ha⟩ := hm.even n hn.mem (ne_of_gt hlt) hequal.symm
  obtain ⟨b, hb⟩ := hn.even m hm.mem (ne_of_lt hlt) hequal
  -- Two even numbers have another one between them, which is nearer.
  have hnext : |q - m| ≤ |q - (m + 1 : ℤ)| := hm.nearest _ (convex _ (by omega) (by omega))
  have hgap : (m : ℚ) + 2 ≤ n := by
    have : m + 2 ≤ n := by omega
    exact_mod_cast this
  rw [abs_of_nonneg (by linarith), abs_of_nonneg (by push_cast; linarith)] at hnext
  push_cast at hnext
  linarith

theorem unique (convex : ∀ k l, range k → range l → ∀ j, k ≤ j → j ≤ l → range j)
    (hm : IsNearest range q m) (hn : IsNearest range q n) : m = n := by
  have hmn := not_lt (convex m n hm.mem hn.mem) hm hn
  have hnm := not_lt (convex n m hn.mem hm.mem) hn hm
  omega

/-- Rounding does not lead out of bounds that are integers. -/
theorem between {lower upper : ℤ} (near : |q - n| ≤ 1 / 2) (low : lower < q) (high : q < upper) :
    lower ≤ n ∧ n ≤ upper := by
  obtain ⟨hlow, hhigh⟩ := abs_le.1 near
  have habove : (lower : ℚ) < (n + 1 : ℤ) := by
    push_cast
    linarith
  have hbelow : (n : ℚ) < (upper + 1 : ℤ) := by
    push_cast
    linarith
  have habove' : lower < n + 1 := by exact_mod_cast habove
  have hbelow' : n < upper + 1 := by exact_mod_cast hbelow
  omega

theorem of_near (mem : range n) (near : |q - n| ≤ 1 / 2) (even : |q - n| = 1 / 2 → Even n) :
    IsNearest range q n := by
  have hother : ∀ k : ℤ, k ≠ n → 1 ≤ |q - k| + |q - n| := by
    intro k hne
    have happart : (1 : ℚ) ≤ |(n : ℚ) - k| := by
      exact_mod_cast Int.one_le_abs (sub_ne_zero.2 hne.symm)
    have htriangle := abs_sub_le (n : ℚ) q k
    rw [abs_sub_comm (n : ℚ) q] at htriangle
    linarith
  refine ⟨mem, ?_, ?_⟩
  · intro k _
    by_cases hne : k = n
    · rw [hne]
    · have := hother k hne
      linarith
  · intro k _ hne htie
    have := hother k hne
    exact even (by linarith)

theorem of_nearer (mem : range n) (nearer : ∀ k, range k → k ≠ n → |q - n| < |q - k|) :
    IsNearest range q n := by
  refine ⟨mem, ?_, ?_⟩
  · intro k hk
    by_cases hne : k = n
    · rw [hne]
    · exact (nearer k hk hne).le
  · intro k hk hne htie
    exact absurd htie (nearer k hk hne).ne'

theorem of_le (mem : range n) (least : ∀ k, range k → n ≤ k) (le : q ≤ n) : IsNearest range q n := by
  apply of_nearer mem
  intro k hk hne
  have hcast : (n : ℚ) < k := by exact_mod_cast lt_of_le_of_ne (least k hk) hne.symm
  rw [abs_of_nonpos (by linarith), abs_of_nonpos (by linarith)]
  linarith

theorem of_ge (mem : range n) (greatest : ∀ k, range k → k ≤ n) (ge : n ≤ q) :
    IsNearest range q n := by
  apply of_nearer mem
  intro k hk hne
  have hcast : (k : ℚ) < n := by exact_mod_cast lt_of_le_of_ne (greatest k hk) hne
  rw [abs_of_nonneg (by linarith), abs_of_nonneg (by linarith)]
  linarith

end IsNearest

namespace Rounding

variable (num : ℕ) {den : ℕ}

theorem nearest_near (hden : 0 < den) : |(num : ℚ) / den - nearest num den| ≤ 1 / 2 := by
  obtain ⟨hlow, hhigh⟩ := nearest_le num den hden
  have hlow' : (2 : ℚ) * (nearest num den * den) ≤ 2 * num + den := by exact_mod_cast hlow
  have hhigh' : (2 : ℚ) * num ≤ 2 * (nearest num den * den) + den := by exact_mod_cast hhigh
  have hpos : (0 : ℚ) < den := by exact_mod_cast hden
  rw [abs_le, neg_le_sub_iff_le_add, sub_le_iff_le_add', div_le_iff₀ hpos, ← sub_le_iff_le_add,
    le_div_iff₀ hpos]
  constructor <;> linarith

theorem nearest_even (hden : 0 < den) (tie : |(num : ℚ) / den - nearest num den| = 1 / 2) :
    Even (nearest num den) := by
  have hpos : (0 : ℚ) < den := by exact_mod_cast hden
  have htie : (2 : ℚ) * num = 2 * (nearest num den * den) + den ∨
      2 * (nearest num den * den) = (2 : ℚ) * num + den := by
    rcases (abs_eq (by norm_num)).1 tie with h | h <;>
      rw [sub_eq_iff_eq_add, div_eq_iff hpos.ne'] at h
    · left
      linarith
    · right
      linarith
  replace htie : 2 * num = 2 * (nearest num den * den) + den ∨
      2 * (nearest num den * den) = 2 * num + den := by exact_mod_cast htie
  have hsplit : den * (num / den) + num % den = num := Nat.div_add_mod num den
  have hmod : num % den < den := Nat.mod_lt num hden
  have hcomm : num / den * den = den * (num / den) := Nat.mul_comm _ _
  have hsucc : (num / den + 1) * den = den * (num / den) + den := by
    rw [Nat.add_mul, Nat.one_mul, hcomm]
  rw [Nat.even_iff]
  simp only [nearest] at htie ⊢
  split_ifs at htie ⊢ with hless hmore heven
  · rw [hcomm] at htie
    omega
  · rw [hsucc] at htie
    omega
  · exact heven
  · omega

end Rounding

namespace Double

theorem abs_signed_sub (negative : Bool) (a b c : ℕ) :
    |(signed negative a : ℤ) / (b : ℚ) - (signed negative c : ℤ)| = |(a : ℚ) / b - c| := by
  cases negative with
  | false => simp [signed]
  | true =>
    have hflip : (signed true a : ℤ) / (b : ℚ) - (signed true c : ℤ) = -((a : ℚ) / b - c) := by
      simp only [signed, if_true]
      push_cast
      ring
    rw [hflip, abs_neg]

theorem signed_not (negative : Bool) (n : ℕ) : signed (!negative) n = -signed negative n := by
  cases negative <;> simp [signed]

theorem even_signed {negative : Bool} {n : ℕ} (even : Even n) : Even (signed negative n) := by
  obtain ⟨k, rfl⟩ := even
  exact ⟨signed negative k, by cases negative <;> simp [signed]⟩

end Double

end WebBindings
