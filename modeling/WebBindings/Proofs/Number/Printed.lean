import WebBindings.Number.Printed
import WebBindings.Proofs.Number.Literal
import WebBindings.Proofs.Number.Prefix
import WebBindings.Proofs.Number.Shortest
/-!
# Numbers as text and back

The text of a finite number is a decimal numeral that denotes its shortest digits in their position.
Scripts and attributes read the number back from it, but for the sign of zero.
-/

namespace WebBindings

namespace Ascii

theorem natOf_zero_cons (digits : List Char) : natOf 10 ('0' :: digits) = natOf 10 digits := rfl

theorem natOf_zeros_append (k : ℕ) (digits : List Char) :
    natOf 10 (List.replicate k '0' ++ digits) = natOf 10 digits := by
  induction k with
  | zero => rfl
  | succ k ih => exact (natOf_zero_cons _).trans ih

theorem natOf_append_zeros (digits : List Char) (k : ℕ) :
    natOf 10 (digits ++ List.replicate k '0') = natOf 10 digits * 10 ^ k := by
  have hzeros := natOf_zeros_append k []
  rw [List.append_nil] at hzeros
  rw [natOf_append, hzeros, List.length_replicate]
  rfl

end Ascii

namespace Decimal

variable {a b : List Char}

theorem append (front : Decimal a) (back : Decimal b) : Decimal (a ++ b) := by
  intro c mem
  exact (List.mem_append.1 mem).elim (front c) (back c)

theorem zeros (k : ℕ) : Decimal (List.replicate k '0') := by
  intro c mem
  rw [List.eq_of_mem_replicate mem]
  rfl

theorem toDigits (n : ℕ) : Decimal (Nat.toDigits 10 n) := fun _ => Ascii.isDigit_of_mem_toDigits

theorem not_mem {c : Char} (other : Ascii.isDigit c = false) (decimal : Decimal a) : c ∉ a :=
  fun mem => Bool.false_ne_true (other.symm.trans (decimal c mem))

end Decimal

namespace Digits

/-- A text spells digits with the point in a position. -/
def SpelledBy (d : Digits) (text : List Char) : Prop :=
  ∃ l, Numeral false text l ∧ l.toRat = Ascii.natOf 10 d.digits * 10 ^ (d.point - d.digits.length)

variable {d : Digits} (nonempty : d.digits ≠ []) (decimal : Decimal d.digits)
include nonempty decimal

theorem spelled_whole (beyond : d.digits.length ≤ d.point) :
    d.SpelledBy (d.digits ++ List.replicate (d.point - d.digits.length).toNat '0') := by
  obtain ⟨k, hk⟩ := Int.eq_ofNat_of_zero_le (sub_nonneg.2 beyond)
  have hcount : (d.point - d.digits.length).toNat = k := by omega
  rw [hcount, ← List.append_nil (d.digits ++ _)]
  refine ⟨_, .whole (by simp [nonempty]) (decimal.append (.zeros k)) .absent, ?_⟩
  rw [DecimalLiteral.toRat_eq, List.append_nil, Ascii.natOf_append_zeros, hk]
  simp [Double.signed, Ascii.natOf]

theorem spelled_inside (first : 0 < d.point) (last : d.point < d.digits.length) :
    d.SpelledBy (d.digits.take d.point.toNat ++ '.' :: d.digits.drop d.point.toNat) := by
  obtain ⟨k, hk⟩ := Int.eq_ofNat_of_zero_le first.le
  have hcount : d.point.toNat = k := by omega
  rw [hcount, ← List.append_nil (List.take k _ ++ _)]
  refine ⟨_, .mixed ?_ (fun c mem => decimal c (List.mem_of_mem_take mem)) (.inl ?_)
    (fun c mem => decimal c (List.mem_of_mem_drop mem)) .absent, ?_⟩
  · simp [nonempty]
    omega
  · simp
    omega
  · have hexp : (0 : ℤ) - (d.digits.drop k).length = d.point - d.digits.length := by
      rw [List.length_drop]
      omega
    rw [DecimalLiteral.toRat_eq, List.take_append_drop]
    simp only [Double.signed, Bool.false_eq_true, if_false]
    exact congrArg _ (congrArg _ hexp)

theorem spelled_behind (last : d.point ≤ 0) :
    d.SpelledBy ('0' :: '.' :: List.replicate (-d.point).toNat '0' ++ d.digits) := by
  obtain ⟨k, hk⟩ := Int.eq_ofNat_of_zero_le (neg_nonneg.2 last)
  have hcount : (-d.point).toNat = k := by omega
  have hzero : ['0'] ≠ [] := List.cons_ne_nil _ _
  have hsome : List.replicate k '0' ++ d.digits ≠ [] := by simp [nonempty]
  rw [hcount, ← List.append_nil (_ ++ d.digits)]
  refine ⟨⟨['0'], List.replicate k '0' ++ d.digits, false, []⟩,
    .mixed hzero (.zeros 1) (.inl hsome) (.append (.zeros k) decimal) .absent, ?_⟩
  have hexp : (0 : ℤ) - (List.replicate k '0' ++ d.digits).length = d.point - d.digits.length := by
    rw [List.length_append, List.length_replicate]
    omega
  have hdigits : Ascii.natOf 10 (['0'] ++ (List.replicate k '0' ++ d.digits)) =
      Ascii.natOf 10 d.digits := (Ascii.natOf_zero_cons _).trans (Ascii.natOf_zeros_append k _)
  rw [DecimalLiteral.toRat_eq, hdigits]
  simp only [Double.signed, Bool.false_eq_true, if_false]
  exact congrArg _ (congrArg _ hexp)

/-- The text of an exponent. -/
def exponentText (e : ℤ) : List Char :=
  'e' :: (if e < 0 then '-' else '+') :: Nat.toDigits 10 e.natAbs

omit nonempty decimal in
theorem exponentPart_exponentText (e : ℤ) :
    ∃ negative, ExponentPart negative (Nat.toDigits 10 e.natAbs) (exponentText e) ∧
      Double.signed negative (Ascii.natOf 10 (Nat.toDigits 10 e.natAbs)) = e := by
  rw [Ascii.natOf_toDigits, exponentText]
  split
  · refine ⟨true, .present (.inl rfl) .minus Nat.toDigits_ne_nil (.toDigits _), ?_⟩
    rw [Double.signed, if_pos rfl]
    omega
  · refine ⟨false, .present (.inl rfl) .plus Nat.toDigits_ne_nil (.toDigits _), ?_⟩
    rw [Double.signed, if_neg Bool.false_ne_true]
    omega

omit nonempty in
theorem spelled_scientific {first : Char} {rest : List Char} (split : d.digits = first :: rest) :
    d.SpelledBy ((if rest = [] then [first] else first :: '.' :: rest) ++ exponentText (d.point - 1)) := by
  obtain ⟨negative, scale, value⟩ := exponentPart_exponentText (d.point - 1)
  rw [split] at decimal
  rw [SpelledBy, split]
  obtain ⟨hfirst, hrest⟩ := List.forall_mem_cons.1 decimal
  have hfirst' : Decimal [first] := List.forall_mem_singleton.2 hfirst
  split_ifs with single
  · subst single
    refine ⟨_, .whole (by simp) hfirst' scale, ?_⟩
    rw [DecimalLiteral.toRat_eq, value]
    simp
  · have hone : [first] ≠ [] := List.cons_ne_nil _ _
    refine ⟨_, .mixed hone hfirst' (.inl single) hrest scale, ?_⟩
    have hexp : d.point - 1 - rest.length = d.point - (first :: rest).length := by
      rw [List.length_cons]
      omega
    rw [DecimalLiteral.toRat_eq, value]
    exact congrArg _ (congrArg _ hexp)

omit nonempty decimal in
theorem layout_toList (d : Digits) :
    d.layout.toList =
      if d.digits.length ≤ d.point ∧ d.point ≤ 21 then
        d.digits ++ List.replicate (d.point - d.digits.length).toNat '0'
      else if 0 < d.point ∧ d.point ≤ 21 then
        d.digits.take d.point.toNat ++ '.' :: d.digits.drop d.point.toNat
      else if -6 < d.point ∧ d.point ≤ 0 then
        '0' :: '.' :: List.replicate (-d.point).toNat '0' ++ d.digits
      else
        (match d.digits with
          | [] => []
          | first :: rest => if rest = [] then [first] else first :: '.' :: rest) ++
            exponentText (d.point - 1) := by
  have htail (e : ℤ) : ("e" ++ (if e < 0 then "-" else "+") ++ toString e.natAbs).toList =
      exponentText e := by
    rw [exponentText]
    split <;> simp [Nat.toList_repr]
  rw [layout]
  split_ifs
  · exact String.toList_ofList
  · exact String.toList_ofList
  · exact String.toList_ofList
  · obtain ⟨digits, point⟩ := d
    rw [← htail]
    match digits with
    | [] => simp
    | [first] => simp
    | first :: second :: rest => simp

/-- The layout of digits spells them with the point in its position. It has an exponent just where the
point is not from the sixth zero after it to the twenty-first digit. -/
theorem layout_spelled :
    d.SpelledBy d.layout.toList ∧ ('e' ∈ d.layout.toList ↔ ¬ (-6 < d.point ∧ d.point ≤ 21)) := by
  have noExponent {a : List Char} (h : Decimal a) : 'e' ∉ a := h.not_mem rfl
  have hdigits := noExponent decimal
  have hzeros (k : ℕ) := noExponent (.zeros k)
  rw [layout_toList]
  split_ifs with whole inside behind
  · refine ⟨spelled_whole nonempty decimal whole.1, ?_⟩
    simp [hdigits]
    omega
  · refine ⟨spelled_inside nonempty decimal inside.1 (by omega), ?_⟩
    have htake : 'e' ∉ d.digits.take d.point.toNat := fun mem => hdigits (List.mem_of_mem_take mem)
    have hdrop : 'e' ∉ d.digits.drop d.point.toNat := fun mem => hdigits (List.mem_of_mem_drop mem)
    simp [htake, hdrop]
    omega
  · refine ⟨spelled_behind nonempty decimal behind.2, ?_⟩
    simp [hdigits]
    omega
  · obtain ⟨first, rest, split⟩ := List.exists_cons_of_ne_nil nonempty
    rw [split]
    refine ⟨spelled_scientific decimal split, iff_of_true ?_ (by omega)⟩
    exact List.mem_append_right _ List.mem_cons_self

end Digits

/-- The sign of a printed number. -/
def signText (negative : Bool) : List Char := if negative then ['-'] else []

theorem signed_signText (negative : Bool) : Sign negative (signText negative) := by
  cases negative
  exacts [.absent, .minus]

namespace Double

variable {negative : Bool} {m : Magnitude}

theorem toText_toList (positive : m.significand ≠ 0) :
    (finite negative m).toText.toList = signText negative ++ (Shortest.ofMagnitude m).layout.toList := by
  rw [toText, if_neg positive, String.toList_append]
  cases negative <;> rfl

theorem toText_zero (zero : m.significand = 0) : (finite negative m).toText = "0" := if_pos zero

theorem isNearestTo_owned {q : ℚ} (nonneg : 0 ≤ q) :
    (finite negative m).IsNearestTo (signedRat negative q) ↔ m.Owns q := isNearestTo_iff_owns nonneg

theorem decimal_nonneg (c : ℕ) (j : ℤ) : (0 : ℚ) ≤ c * 10 ^ j :=
  mul_nonneg c.cast_nonneg (zpow_pos (by norm_num) j).le

/-- A text denotes a number by its shortest digits: behind a minus if the number is negative, it is a
numeral that denotes an integer with the point in some position. It has an exponent just where the point is
not from the sixth zero after it to the twenty-first digit. The integer reads back as the number, and none
with fewer digits does. -/
def DenotesShortest (negative : Bool) (m : Magnitude) (text : String) : Prop :=
  ∃ (d : ℕ) (point : ℤ) (cs : List Char) (l : DecimalLiteral), d ≠ 0 ∧
    text.toList = signText negative ++ cs ∧ Numeral false cs l ∧
    l.toRat = d * 10 ^ (point - (Nat.toDigits 10 d).length) ∧
    ('e' ∈ cs ↔ ¬ (-6 < point ∧ point ≤ 21)) ∧
    (finite negative m).IsNearestTo (signedRat negative l.toRat) ∧
    ∀ (c : ℕ) (j : ℤ), (finite negative m).IsNearestTo (signedRat negative (c * 10 ^ j)) →
      (Nat.toDigits 10 d).length ≤ (Nat.toDigits 10 c).length

theorem toText_denotesShortest (negative : Bool) (positive : m.significand ≠ 0) :
    DenotesShortest negative m (finite negative m).toText := by
  obtain ⟨d, nonzero, hdigits, owns, shortest⟩ := Shortest.ofMagnitude_spec positive
  have decimal : Decimal (Shortest.ofMagnitude m).digits := hdigits ▸ .toDigits d
  have nonempty : (Shortest.ofMagnitude m).digits ≠ [] := hdigits ▸ Nat.toDigits_ne_nil
  obtain ⟨⟨l, numeral, value⟩, exponent⟩ := Digits.layout_spelled nonempty decimal
  rw [hdigits, Ascii.natOf_toDigits] at value
  refine ⟨d, _, _, l, nonzero, toText_toList positive, numeral, value, exponent, ?_, fun c j near => ?_⟩
  · rw [value, isNearestTo_owned (decimal_nonneg _ _)]
    exact owns
  · exact shortest c j ((isNearestTo_owned (decimal_nonneg _ _)).1 near)

/-- The text of a finite number is a numeral with a sign, and the number is the value of it. -/
theorem toText_numeral (negative : Bool) (m : Magnitude) :
    ∃ negative' sign cs l, Sign negative' sign ∧ Numeral false cs l ∧
      (finite negative m).toText.toList = sign ++ cs ∧
      l.value negative' = (finite negative m).dropZeroSign := by
  by_cases zero : m.significand = 0
  · have numeral : Numeral false "0".toList ⟨['0'], [], false, []⟩ :=
      .whole (by decide) (.zeros 1) .absent
    refine ⟨false, [], _, _, .absent, numeral, by rw [toText_zero zero]; rfl, ?_⟩
    rw [dropZeroSign, if_pos (by simpa [isZero] using zero)]
    decide +kernel
  · obtain ⟨-, -, cs, l, -, text, numeral, -, -, near, -⟩ := toText_denotesShortest negative zero
    refine ⟨negative, _, cs, l, signed_signText negative, numeral, text, ?_⟩
    have nonzero : (finite negative m).isZero = false := by simpa [isZero] using zero
    have same : (finite negative m).dropZeroSign = finite negative m := dropZeroSign_of_nonzero nonzero
    have read := (l.value_isNearestTo negative).unique near
    rw [same] at read ⊢
    exact eq_of_dropZeroSign read nonzero

end Double

theorem Literal.toNumber_numeral {negative : Bool} {sign cs : List Char} {l : DecimalLiteral} {text : String}
    (split : text.toList = sign ++ cs) (signed : Sign negative sign) (numeral : Numeral true cs l) :
    toNumber (.ofString text) = l.value negative := by
  have visible : Visible (sign ++ cs) := .append (.of_sign signed) (.of_numeral numeral)
  rw [DOMString.ofString, split, toNumber_visible visible, numberOf_numeral signed numeral]

theorem AttributeNumber.double?_numeral {negative : Bool} {sign cs : List Char} {l : DecimalLiteral}
    {text : String} (split : text.toList = sign ++ cs) (signed : Sign negative sign)
    (numeral : Numeral false cs l) (finite : (l.value negative).isFinite = true) :
    double? text = some (l.value negative).dropZeroSign := by
  obtain ⟨c, rest, rfl, first⟩ := numeral.exists_first
  have opens : Opens text negative sign (c :: rest) := ⟨signed, [], split, List.forall_mem_nil _⟩
  obtain ⟨literal, read, rewrites⟩ := literalText?_of_numeral numeral
  rw [double?_eq (opens.unsigned_eq first) read rewrites, if_pos finite]

namespace Double

theorem dropZeroSign_dropZeroSign (x : Double) : x.dropZeroSign.dropZeroSign = x.dropZeroSign := by
  by_cases zero : x.isZero = true
  · rw [dropZeroSign.eq_1 x, if_pos zero]
    decide +kernel
  · rw [dropZeroSign.eq_1 x, if_neg zero, dropZeroSign, if_neg zero]

theorem double?_toText (negative : Bool) (m : Magnitude) :
    AttributeNumber.double? (finite negative m).toText = some (finite negative m).dropZeroSign := by
  obtain ⟨negative', sign, cs, l, signed, numeral, text, value⟩ := toText_numeral negative m
  have finite : (finite negative m).dropZeroSign.isFinite = true := isFinite_dropZeroSign _
  rw [← value] at finite
  rw [AttributeNumber.double?_numeral text signed numeral finite, value, dropZeroSign_dropZeroSign]

/-- The text of a finite number is a numeral with an optional sign, which scripts and attributes read. It
denotes the number by its shortest digits, if it is not zero. Both read the number from it, but for the sign
of zero. -/
structure RoundTrips (negative : Bool) (m : Magnitude) : Prop where
  numeral : ∃ negative' sign cs l, Sign negative' sign ∧ Numeral false cs l ∧
    (finite negative m).toText.toList = sign ++ cs
  shortest : m.significand ≠ 0 → DenotesShortest negative m (finite negative m).toText
  fromScript : Literal.toNumber (.ofString (finite negative m).toText) = (finite negative m).dropZeroSign
  fromAttribute : AttributeNumber.double? (finite negative m).toText = some (finite negative m).dropZeroSign

theorem roundTrips (negative : Bool) (m : Magnitude) : RoundTrips negative m := by
  obtain ⟨negative', sign, cs, l, signed, numeral, text, value⟩ := toText_numeral negative m
  refine ⟨⟨negative', sign, cs, l, signed, numeral, text⟩, toText_denotesShortest negative, ?_,
    double?_toText negative m⟩
  rw [Literal.toNumber_numeral text signed numeral.allowing, value]

end Double

end WebBindings
