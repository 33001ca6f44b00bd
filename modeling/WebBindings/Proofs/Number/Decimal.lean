import WebBindings.Attribute.Number
/-!
# Decimal digits

The numbers of decimal digits, the digits of numbers, and what is kept of digits that attributes read one
by one.
-/

namespace WebBindings

theorem Ascii.isDigit_eq (c : Char) : isDigit c = c.isDigit := by
  rw [isDigit, Char.isDigit, Bool.and_comm, Bool.and_comm (c.val ≥ '0'.val)]
  rfl

theorem Ascii.digit?_of_isDigit {c : Char} (digit : isDigit c = true) :
    digit? 10 c = some (c.toNat - '0'.toNat) := by
  have range := Char.isDigit_iff_toNat.1 (isDigit_eq c ▸ digit)
  have small : c.toNat - '0'.toNat < 10 := by
    have : '0'.toNat = 48 := rfl
    have : '9'.toNat = 57 := rfl
    omega
  rw [digit?, if_pos digit, if_pos small]

theorem Ascii.natOf_eq_ofDigitChars {digits : List Char} (decimal : ∀ c ∈ digits, isDigit c = true) :
    natOf 10 digits = Nat.ofDigitChars 10 digits 0 := by
  suffices from_start : ∀ start, digits.foldl (fun n c => n * 10 + (digit? 10 c).getD 0) start =
      Nat.ofDigitChars 10 digits start from from_start 0
  induction digits with
  | nil => exact fun start => rfl
  | cons c cs ih =>
    intro start
    rw [List.forall_mem_cons] at decimal
    rw [List.foldl_cons, digit?_of_isDigit decimal.1, Nat.ofDigitChars_cons, Nat.mul_comm start]
    exact ih decimal.2 _

theorem Ascii.isDigit_of_mem_toDigits {n : Nat} {c : Char} (mem : c ∈ Nat.toDigits 10 n) :
    isDigit c = true := by
  rw [isDigit_eq]
  exact Nat.isDigit_of_mem_toDigits (by decide) (by decide) mem

theorem Ascii.natOf_toDigits (n : Nat) : natOf 10 (Nat.toDigits 10 n) = n := by
  rw [natOf_eq_ofDigitChars fun _ => isDigit_of_mem_toDigits, Nat.ofDigitChars_ten_toDigits]

namespace AttributeNumber

/-- Digits that are read one by one give their number, as far as it is kept. -/
theorem magnitudeOf_eq (digits : List Char) :
    magnitudeOf digits = min (Ascii.natOf 10 digits) maxMagnitude := by
  suffices from_kept : ∀ n, digits.foldl pushDigit (min n maxMagnitude) =
      min (digits.foldl (fun n c => n * 10 + (Ascii.digit? 10 c).getD 0) n) maxMagnitude by
    have start := from_kept 0
    rwa [Nat.zero_min] at start
  induction digits with
  | nil =>
    intro n
    rfl
  | cons c cs ih =>
    intro n
    have step : pushDigit (min n maxMagnitude) c =
        min (n * 10 + (Ascii.digit? 10 c).getD 0) maxMagnitude := by
      rw [pushDigit]
      omega
    rw [List.foldl_cons, step, ih, List.foldl_cons]

theorem toString_toList (n : Int) :
    (toString n).toList = (if n < 0 then ['-'] else []) ++ Nat.toDigits 10 n.natAbs := by
  rw [Int.toString_eq_repr, Int.repr_eq_if]
  by_cases negative : n < 0
  · rw [if_neg (by omega), if_pos negative, String.toList_append, Nat.toList_repr]
    congr
    omega
  · rw [if_pos (by omega), if_neg negative, Nat.toList_repr, List.nil_append]
    congr
    omega

end AttributeNumber

end WebBindings
