import WebBindings.Proofs.Number.Prefix
/-!
# Integers in front of a text

The integer that a text begins with, however many digits it has, and how it is read. One that is too great to
be kept counts as the greatest one of its sign. Hence the decimal text of an integer is read back as far as
this is kept.
-/

namespace WebBindings

namespace AttributeNumber

variable {text : String} {negative : Bool} {digits rest sign : List Char} {d e : ℤ}

/-- A digit follows in a text behind white space and an optional sign. -/
def DigitFollows (text : String) : Prop :=
  ∃ negative sign c rest, Opens text negative sign (c :: rest) ∧ Ascii.isDigit c = true

/-- The integer of the sign and of all digits that follow in a text behind white space. -/
def BeginsWith (text : String) (d : ℤ) : Prop :=
  ∃ negative sign digits rest, Opens text negative sign (digits ++ rest) ∧ digits ≠ [] ∧ Decimal digits ∧
    NoDigit rest ∧ d = Double.signed negative (Nat.ofDigitChars 10 digits 0)

/-- An integer as far as it is kept: otherwise the greatest one of its sign. -/
def kept (d : ℤ) : ℤ :=
  if d.natAbs ≤ 2 ^ 63 - 1 then d else if d < 0 then -(2 ^ 63 - 1) else 2 ^ 63 - 1

theorem signed_magnitudeOf (decimal : Decimal digits) (negative : Bool) :
    Double.signed negative (magnitudeOf digits) =
      kept (Double.signed negative (Nat.ofDigitChars 10 digits 0)) := by
  have greatest : maxMagnitude = 2 ^ 63 - 1 := rfl
  rw [magnitudeOf_eq, Ascii.natOf_eq_ofDigitChars decimal, greatest]
  cases negative with
  | false =>
    simp only [Double.signed, kept, Bool.false_eq_true, if_false]
    omega
  | true =>
    simp only [Double.signed, kept, if_true]
    omega

theorem integer?_of_beginsWith (begins : BeginsWith text d) : integer? text = some (kept d) := by
  obtain ⟨negative, sign, digits, rest, opens, nonempty, decimal, stop, rfl⟩ := begins
  rw [integer?, opens.unsigned_digits nonempty decimal]
  simp only [takeWhile_digits decimal stop]
  rw [if_neg (by simpa using nonempty), signed_magnitudeOf decimal]

theorem BeginsWith.unique (begins : BeginsWith text d) (begins' : BeginsWith text e) : d = e := by
  obtain ⟨negative, sign, digits, rest, opens, nonempty, decimal, stop, rfl⟩ := begins
  obtain ⟨negative', sign', digits', rest', opens', nonempty', decimal', stop', rfl⟩ := begins'
  have same := (opens.unsigned_digits nonempty decimal).symm.trans (opens'.unsigned_digits nonempty' decimal')
  obtain ⟨rfl, split⟩ := Prod.mk.inj same
  have read := takeWhile_digits decimal stop
  rw [split, takeWhile_digits decimal' stop'] at read
  rw [read]

theorem exists_beginsWith (follows : DigitFollows text) : ∃ d, BeginsWith text d := by
  obtain ⟨negative, sign, c, after, opens, digit⟩ := follows
  obtain ⟨digits, rest, split, nonempty, decimal, stop⟩ := exists_digits_of_first digit after
  rw [split] at opens
  exact ⟨_, negative, sign, digits, rest, opens, nonempty, decimal, stop, rfl⟩

theorem digitFollows_of_integer? (read : integer? text = some d) : DigitFollows text := by
  obtain ⟨sign, opens⟩ := exists_opens text
  obtain ⟨⟨negative, rest⟩, hparts⟩ : ∃ parts, Literal.unsigned (skipWhitespace text) = parts :=
    ⟨_, rfl⟩
  rw [integer?] at read
  rw [hparts] at opens read
  simp only [Option.ite_none_left_eq_some, List.isEmpty_iff] at read
  cases rest with
  | nil => exact absurd rfl read.1
  | cons c rest =>
    refine ⟨negative, sign, c, rest, opens, ?_⟩
    by_contra other
    exact read.1 (List.takeWhile_cons_of_neg other)

theorem integer?_eq_none_iff : integer? text = none ↔ ¬ DigitFollows text := by
  constructor
  · intro none follows
    obtain ⟨d, begins⟩ := exists_beginsWith follows
    rw [integer?_of_beginsWith begins] at none
    cases none
  · intro nothing
    rw [Option.eq_none_iff_forall_ne_some]
    intro d read
    exact nothing (digitFollows_of_integer? read)

theorem beginsWith_toString (n : ℤ) : BeginsWith (toString n) n := by
  obtain ⟨negative, sign, signed, split, value⟩ := exists_sign_toString n
  have opens : Opens (toString n) negative sign (Nat.toDigits 10 n.natAbs ++ []) :=
    ⟨signed, [], by simpa using split, List.forall_mem_nil _⟩
  have decimal : Decimal (Nat.toDigits 10 n.natAbs) := fun _ => Ascii.isDigit_of_mem_toDigits
  refine ⟨negative, sign, _, [], opens, Nat.toDigits_ne_nil, decimal, noDigit_nil, ?_⟩
  rw [Nat.ofDigitChars_ten_toDigits]
  exact value

theorem integer?_toString {n : ℤ} (small : n.natAbs ≤ maxMagnitude) : integer? (toString n) = some n := by
  rw [integer?_of_beginsWith (beginsWith_toString n), kept]
  exact congrArg some (if_pos small)

theorem nonNegative?_toString {n : ℤ} (small : n.natAbs ≤ maxMagnitude) :
    nonNegative? (toString n) = if 0 ≤ n then some n else none := by
  rw [nonNegative?, integer?_toString small, Option.filter_some]
  simp

end AttributeNumber

end WebBindings
