import Mathlib.Data.Nat.Digits.Lemmas
import WebBindings.Conversion
import WebBindings.Proofs.Motion
import WebBindings.Proofs.Number.Printed
import WebBindings.Proofs.Number.Radix
import WebBindings.Proofs.Script.Freezing
/-!
# Integer literals

The script strings that denote an integer: those that are an integer literal when the blanks around it are
taken away. The text of an integer and its digits in an announced radix denote it, and all other strings
are refused with a syntax error.
-/

namespace WebBindings

namespace Literal

/-- The place of a digit among the sixteen, letters in either case. -/
def digitValue (c : Char) : ℕ := "0123456789abcdef".toList.idxOf c.toLower

/-- The number that digits denote in a radix, the last digit counting once. -/
def denoted (radix : ℕ) (digits : List Char) : ℕ := Nat.ofDigits radix (digits.map digitValue).reverse

theorem denoted_append_singleton (radix : ℕ) (digits : List Char) (c : Char) :
    denoted radix (digits ++ [c]) = denoted radix digits * radix + digitValue c := by
  rw [denoted, List.map_append, List.map_singleton, List.reverse_concat', Nat.ofDigits_cons, mul_comm,
    add_comm]
  rfl

variable {letter c : Char} {radix : ℕ} {cs digits : List Char} {n : ℤ}

theorem digit?_eq_digitValue (known : radix ∈ [16, 10, 8, 2])
    (digit : (Ascii.digit? radix c).isSome = true) : Ascii.digit? radix c = some (digitValue c) := by
  have table : ∀ r ∈ [16, 10, 8, 2], ∀ n < 128, (Ascii.digit? r (Char.ofNat n)).isSome = true →
      Ascii.digit? r (Char.ofNat n) = some (digitValue (Char.ofNat n)) := by
    decide +kernel
  have small : c.toNat < 128 := lt_of_isSome_digit? digit
  have same : (Ascii.digit? radix c).isSome = true → Ascii.digit? radix c = some (digitValue c) :=
    Ascii.of_table c small (table radix known)
  exact same digit

theorem natOf_eq_denoted (known : radix ∈ [16, 10, 8, 2])
    (all : ∀ c ∈ digits, (Ascii.digit? radix c).isSome = true) :
    Ascii.natOf radix digits = denoted radix digits := by
  induction digits using List.reverseRecOn with
  | nil => rfl
  | append_singleton digits c ih =>
    rw [List.forall_mem_append, List.forall_mem_singleton] at all
    have digit := digit?_eq_digitValue known all.2
    rw [Ascii.natOf_append, ih all.1, denoted_append_singleton]
    simp [Ascii.natOf, digit]

theorem Announces.known (announces : Announces letter radix) : radix ∈ [16, 10, 8, 2] := by
  cases announces <;> decide

theorem isSome_digit?_of_isDigit (digit : Ascii.isDigit c = true) :
    (Ascii.digit? 10 c).isSome = true := by
  rw [Ascii.digit?_of_isDigit digit]
  rfl

end Literal

/-- The texts that denote an integer, without blanks around them: nothing at all, decimal digits with an
optional sign, and digits of an announced radix. -/
inductive IntegerLiteral : List Char → ℤ → Prop
  | empty : IntegerLiteral [] 0
  | decimal {negative : Bool} {sign digits : List Char} (signed : Sign negative sign)
      (nonempty : digits ≠ []) (decimal : Decimal digits) :
      IntegerLiteral (sign ++ digits) (Double.signed negative (Literal.denoted 10 digits))
  | radix {letter : Char} {radix : ℕ} {digits : List Char} (announces : Literal.Announces letter radix)
      (nonempty : digits ≠ []) (all : ∀ c ∈ digits, c ∈ Literal.digitsOf radix) :
      IntegerLiteral ('0' :: letter :: digits) (Literal.denoted radix digits)

namespace Literal

theorem integerOf_decimal {negative : Bool} {sign : List Char} (signed : Sign negative sign)
    (nonempty : digits ≠ []) (decimal : Decimal digits) :
    integerOf (sign ++ digits) = some (Double.signed negative (denoted 10 digits)) := by
  have numeral : Numeral true (digits ++ []) ⟨digits, [], false, []⟩ := .whole nonempty decimal .absent
  rw [List.append_nil] at numeral
  obtain ⟨c, rest, rfl⟩ := List.exists_cons_of_ne_nil nonempty
  have first : Ascii.isDigit c = true := decimal c List.mem_cons_self
  have value : Ascii.natOf 10 (c :: rest) = denoted 10 (c :: rest) := by
    apply natOf_eq_denoted (by decide)
    intro c mem
    exact isSome_digit?_of_isDigit (decimal c mem)
  have all : (c :: rest).all Ascii.isDigit = true := List.all_eq_true.2 decimal
  unfold integerOf
  split
  · rename_i none
    simp at none
  · rw [radixParts?_numeral signed numeral, unsigned_of_first (.inl first) signed]
    simp [all, value]

theorem integerOf_radix (announces : Announces letter radix) (nonempty : digits ≠ [])
    (all : ∀ c ∈ digits, c ∈ digitsOf radix) :
    integerOf ('0' :: letter :: digits) = some (denoted radix digits : ℤ) := by
  simp only [← isSome_digit?_iff announces] at all
  rw [integerOf, radixParts?_eq_some_iff.2 ⟨letter, announces, nonempty, rfl⟩]
  · simp only [List.all_eq_true.2 all, if_true, natOf_eq_denoted announces.known all]
  · exact List.cons_ne_nil _ _

theorem integerLiteral_of_integerOf (read : integerOf cs = some n) : IntegerLiteral cs n := by
  unfold integerOf at read
  split at read
  · obtain rfl := Option.some.inj read
    exact .empty
  · split at read
    · rename_i radix digits parts
      obtain ⟨letter, announces, nonempty, rfl⟩ := radixParts?_eq_some_iff.1 parts
      rw [Option.ite_none_right_eq_some, List.all_eq_true] at read
      obtain ⟨all, same⟩ := read
      obtain rfl := Option.some.inj same
      rw [natOf_eq_denoted announces.known all]
      simp only [isSome_digit?_iff announces] at all
      exact .radix announces nonempty all
    · obtain ⟨sign, signed, split⟩ := exists_sign cs
      obtain ⟨⟨negative, digits⟩, hparts⟩ : ∃ parts, unsigned cs = parts := ⟨_, rfl⟩
      rw [hparts] at signed split read
      subst split
      simp only [Option.ite_none_right_eq_some, Bool.and_eq_true, List.all_eq_true] at read
      obtain ⟨⟨nonempty, decimal⟩, same⟩ := read
      obtain rfl := Option.some.inj same
      rw [natOf_eq_denoted (by decide) fun c mem => isSome_digit?_of_isDigit (decimal c mem)]
      exact .decimal signed (by simpa using nonempty) decimal

/-- The texts that are read as integers are the integer literals. -/
theorem integerOf_eq_some_iff : integerOf cs = some n ↔ IntegerLiteral cs n := by
  refine ⟨integerLiteral_of_integerOf, fun literal => ?_⟩
  cases literal with
  | empty => rfl
  | decimal signed nonempty decimal => exact integerOf_decimal signed nonempty decimal
  | radix announces nonempty all => exact integerOf_radix announces nonempty all

end Literal

theorem IntegerLiteral.visible {cs : List Char} {n : ℤ} (literal : IntegerLiteral cs n) :
    Literal.Visible cs := by
  cases literal with
  | empty => nofun
  | decimal signed nonempty decimal => exact .append (.of_sign signed) (.of_decimal decimal)
  | radix announces nonempty all => exact .of_literal (.radix announces nonempty all)

namespace Literal

theorem toInteger?_eq_some_iff {s : DOMString} {n : ℤ} :
    toInteger? s = some n ↔ ∃ cs, Surrounds s cs ∧ IntegerLiteral cs n := by
  rw [toInteger?_eq, Option.bind_eq_some_iff]
  constructor
  · rintro ⟨cs, spelled, read⟩
    obtain ⟨front, back, split, hfront, hback, -⟩ := trimsTo_trim s
    rw [DOMString.chars?_eq_some_iff.1 spelled] at split
    exact ⟨cs, ⟨front, back, split, hfront, hback⟩, integerOf_eq_some_iff.1 read⟩
  · rintro ⟨cs, around, literal⟩
    refine ⟨cs, ?_, integerOf_eq_some_iff.2 literal⟩
    rw [trim_of_surrounds literal.visible around]
    exact DOMString.chars?_eq_some_iff.2 rfl

/-- Of the texts that denote nothing: a signed radix, a radix without digits, separators, a fraction and
an exponent. -/
example : ["-0x1", "0x", "1_0", "1.0", "1e3"].map (fun text => toInteger? (.ofString text)) =
    List.replicate 5 none := by
  decide +kernel

theorem digitValue_digitChar {d : ℕ} (small : d < 16) : digitValue d.digitChar = d := by
  have table : ∀ d < 16, digitValue (Nat.digitChar d) = d := by decide +kernel
  exact table d small

theorem denoted_toDigits (proper : 1 < radix) (small : radix ≤ 16) (n : ℕ) :
    denoted radix (Nat.toDigits radix n) = n := by
  induction n using Nat.strongRecOn with
  | ind n ih =>
    rw [Nat.toDigits_eq_if proper]
    split
    · rename_i single
      have value := denoted_append_singleton radix [] n.digitChar
      rw [List.nil_append, digitValue_digitChar (by omega)] at value
      rw [value]
      simp [denoted]
    · rename_i several
      have less : n / radix < n := Nat.div_lt_self (by omega) proper
      have digit : n % radix < 16 := (Nat.mod_lt n (by omega)).trans_le small
      rw [denoted_append_singleton, ih _ less, digitValue_digitChar digit, Nat.div_add_mod']

theorem denoted_zeros_append (radix zeros : ℕ) (digits : List Char) :
    denoted radix (List.replicate zeros '0' ++ digits) = denoted radix digits := by
  have zero : digitValue '0' = 0 := by decide
  rw [denoted, List.map_append, List.map_replicate, zero, List.reverse_append, List.reverse_replicate,
    Nat.ofDigits_append_replicate_zero]
  rfl

theorem denoted_map_toLower (radix : ℕ) (digits : List Char) :
    denoted radix (digits.map Char.toLower) = denoted radix digits := by
  have same : digitValue ∘ Char.toLower = digitValue := by
    funext c
    rw [Function.comp_apply, digitValue, Ascii.toLower_toLower]
    rfl
  rw [denoted, List.map_map, same]
  rfl

theorem exists_digitChar_of_mem_toDigits (proper : 1 < radix) {n : ℕ}
    (mem : c ∈ Nat.toDigits radix n) : ∃ d < radix, c = d.digitChar := by
  induction n using Nat.strongRecOn with
  | ind n ih =>
    rw [Nat.toDigits_eq_if proper] at mem
    split at mem
    · rename_i single
      exact ⟨n, single, List.mem_singleton.1 mem⟩
    · rename_i several
      rcases List.mem_append.1 mem with front | last
      · exact ih _ (Nat.div_lt_self (by omega) proper) front
      · exact ⟨n % radix, Nat.mod_lt n (by omega), List.mem_singleton.1 last⟩

theorem isSome_digit?_of_toLower {d : ℕ} (announces : Announces letter radix) (small : d < radix)
    (same : c.toLower = d.digitChar) : (Ascii.digit? radix c).isSome = true := by
  have table : ∀ r ∈ [16, 10, 8, 2], ∀ d < r, (Ascii.digit? r d.digitChar).isSome = true := by
    decide +kernel
  have fold : ∀ r ∈ [16, 10, 8, 2], ∀ pair ∈ Ascii.letters,
      Ascii.digit? r pair.1 = Ascii.digit? r pair.2 := by
    decide +kernel
  have digit : (Ascii.digit? radix c.toLower).isSome = true := same ▸ table radix announces.known d small
  rcases Ascii.mem_letters_or_toLower_eq c with pair | lower
  · rw [fold radix announces.known _ pair]
    exact digit
  · rwa [lower] at digit

end Literal

namespace IntegerLiteral

open Literal

variable {letter : Char} {radix : ℕ} {digits : List Char}

theorem of_toString (n : ℤ) : IntegerLiteral (toString n).toList n := by
  obtain ⟨negative, sign, signed, split, value⟩ := exists_sign_toString n
  have literal := IntegerLiteral.decimal signed Nat.toDigits_ne_nil (.toDigits n.natAbs)
  rw [denoted_toDigits (by decide) (by decide), ← value, ← split] at literal
  exact literal

/-- The digits of a number in an announced radix denote it, in any letter case and behind any zeros. -/
theorem of_toDigits (announces : Announces letter radix) {n : ℕ}
    (letters : digits.map Char.toLower = Nat.toDigits radix n) (zeros : ℕ) :
    IntegerLiteral ('0' :: letter :: (List.replicate zeros '0' ++ digits)) n := by
  have proper : 1 < radix ∧ radix ≤ 16 := by cases announces <;> decide
  have nonempty : digits ≠ [] := by
    rintro rfl
    exact Nat.toDigits_ne_nil letters.symm
  have all : ∀ c ∈ List.replicate zeros '0' ++ digits, c ∈ digitsOf radix := by
    intro c mem
    rw [← isSome_digit?_iff announces]
    rcases List.mem_append.1 mem with zero | digit
    · obtain rfl := List.eq_of_mem_replicate zero
      exact isSome_digit?_of_toLower (d := 0) announces (by omega) rfl
    · have lower : c.toLower ∈ Nat.toDigits radix n := letters ▸ List.mem_map_of_mem digit
      obtain ⟨d, small, same⟩ := exists_digitChar_of_mem_toDigits proper.1 lower
      exact isSome_digit?_of_toLower announces small same
  have literal := IntegerLiteral.radix announces (by simp [nonempty]) all
  rwa [denoted_zeros_append, ← denoted_map_toLower, letters,
    denoted_toDigits proper.1 proper.2] at literal

end IntegerLiteral

section Conversion

variable {σ : Type} (host : Host σ) (w : World σ)

theorem outcome_toBigInt_string (s : DOMString) :
    outcome host (toBigInt (.string s)).run w =
      ((match Literal.toInteger? s with
        | some n => .ok n
        | none => .error (.fault (.noIntegerLiteral s.text))), w) := by
  have settled : outcome host (toBigInt (.string s)).run w =
      outcome host (settle (Value.string s).integer?).run w := rfl
  rw [settled, outcome_settle, Value.integer?]
  cases Literal.toInteger? s <;> rfl

theorem outcome_toBigInt_of_literal {s : DOMString} {cs : List Char} {n : ℤ}
    (around : Literal.Surrounds s cs) (literal : IntegerLiteral cs n) :
    outcome host (toBigInt (.string s)).run w = (.ok n, w) := by
  rw [outcome_toBigInt_string, Literal.toInteger?_eq_some_iff.2 ⟨cs, around, literal⟩]

end Conversion

/-- Blanks are characters, so a string that spells characters between blanks is well-formed. -/
theorem Literal.Surrounds.isWellFormed {s : DOMString} {cs : List Char} (around : Surrounds s cs) :
    s.isWellFormed = true := by
  obtain ⟨front, back, split, hfront, hback⟩ := around
  have spelled {us : List UInt16} (blank : ∀ u ∈ us, Blank u) :
      (us.map fun u => Char.ofNat u.toNat).flatMap Units.ofChar = us := by
    induction us with
    | nil => rfl
    | cons u us ih =>
      rw [List.forall_mem_cons] at blank
      have range := isBlank_iff.2 blank.1
      simp only [isBlank, Bool.or_eq_true, Bool.and_eq_true, decide_eq_true_eq] at range
      have value : (Char.ofNat u.toNat).toNat = u.toNat :=
        Units.toNat_ofNat (by unfold Nat.isValidChar; omega)
      have unit : Units.ofChar (Char.ofNat u.toNat) = [u] := by
        rw [Units.ofChar, value, if_pos u.toNat_lt]
        exact congrArg (List.cons · []) UInt16.ofNat_toNat
      rw [List.map_cons, List.flatMap_cons, unit, ih blank.2, List.singleton_append]
  have chars : s.units = ((front.map fun u => Char.ofNat u.toNat) ++ cs ++
      back.map fun u => Char.ofNat u.toNat).flatMap Units.ofChar := by
    rw [split, List.flatMap_append, List.flatMap_append, spelled hfront, spelled hback]
  exact DOMString.isWellFormed_of_spelled chars

/-- The text of an integer is converted back to it, and so are its digits in an announced radix, in any
letter case, behind any zeros and between any blanks. A script string is converted to an integer just if,
but for blanks around it, it spells an integer literal that denotes the integer; otherwise, and where a
surrogate is alone, it is refused with a syntax error. -/
theorem integer_texts_convert {σ : Type} (host : Host σ) (w : World σ) :
    (∀ n : ℤ, ∃ text : String, outcome host (toText (.bigInt n)).run w = (.ok (.ofString text), w) ∧
      ∀ s, Literal.Surrounds s text.toList →
        outcome host (toBigInt (.string s)).run w = (.ok n, w)) ∧
    (∀ (n zeros : ℕ) (letter : Char) (radix : ℕ) (digits : List Char) (s : DOMString),
      Literal.Announces letter radix → digits.map Char.toLower = Nat.toDigits radix n →
      Literal.Surrounds s ('0' :: letter :: (List.replicate zeros '0' ++ digits)) →
        outcome host (toBigInt (.string s)).run w = (.ok (n : ℤ), w)) ∧
    (∀ (s : DOMString) (n : ℤ),
      Literal.toInteger? s = some n ↔ ∃ cs, Literal.Surrounds s cs ∧ IntegerLiteral cs n) ∧
    (∀ (s : DOMString) (n : ℤ), Literal.toInteger? s = some n →
      outcome host (toBigInt (.string s)).run w = (.ok n, w)) ∧
    (∀ s : DOMString, Literal.toInteger? s = none →
      ∃ error : ScriptError, error.category? = some (.native .syntactic) ∧
        outcome host (toBigInt (.string s)).run w = (.error error, w)) ∧
    ∀ s : DOMString, s.isWellFormed = false → Literal.toInteger? s = none := by
  refine ⟨?_, ?_, ?_, ?_, ?_, ?_⟩
  · intro n
    refine ⟨toString n, rfl, ?_⟩
    intro s around
    exact outcome_toBigInt_of_literal host w around (.of_toString n)
  · intro n zeros letter radix digits s announces letters around
    exact outcome_toBigInt_of_literal host w around (.of_toDigits announces letters zeros)
  · intro s n
    exact Literal.toInteger?_eq_some_iff
  · intro s n read
    rw [outcome_toBigInt_string, read]
  · intro s unread
    refine ⟨.fault (.noIntegerLiteral s.text), rfl, ?_⟩
    rw [outcome_toBigInt_string, unread]
  · intro s illFormed
    rw [Option.eq_none_iff_forall_ne_some]
    intro n read
    obtain ⟨cs, around, -⟩ := Literal.toInteger?_eq_some_iff.1 read
    rw [around.isWellFormed] at illFormed
    cases illFormed

/-- Hexadecimal digits of both letter cases, behind zeros and between blanks that are not in ASCII, denote
255. A sign before them is a syntax error. -/
theorem hexadecimal_text_converts :
    let w : World Unit := World.initial ⟨⟩
    outcome Embedder.mute.host
        (toBigInt (.string ⟨[0xA0, 0x30, 0x58, 0x30, 0x30, 0x66, 0x46, 0x2029]⟩)).run w = (.ok 255, w) ∧
      ∃ error : ScriptError, error.category? = some (.native .syntactic) ∧
        outcome Embedder.mute.host (toBigInt (.string (.ofString "+0xFF"))).run w = (.error error, w) := by
  intro w
  obtain ⟨-, converted, -, -, refused, -⟩ := integer_texts_convert Embedder.mute.host w
  constructor
  · have space : Literal.Blank 0xA0 := .inl (by decide)
    have line : Literal.Blank 0x2029 := .inr (by decide)
    have around : Literal.Surrounds ⟨[0xA0, 0x30, 0x58, 0x30, 0x30, 0x66, 0x46, 0x2029]⟩
        ('0' :: 'X' :: (List.replicate 2 '0' ++ ['f', 'F'])) :=
      ⟨[0xA0], [0x2029], by decide, List.forall_mem_singleton.2 space, List.forall_mem_singleton.2 line⟩
    exact converted 255 2 'X' 16 ['f', 'F'] _ .upperHex (by decide +kernel) around
  · exact refused _ (by decide +kernel)

end WebBindings
