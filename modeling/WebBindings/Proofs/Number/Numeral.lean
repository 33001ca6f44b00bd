import Mathlib.Data.List.TakeWhile
import WebBindings.Proofs.Number.Decimal
import WebBindings.Proofs.Number.Nearest
/-!
# Decimal numerals

The texts that are decimal numerals and the rational numbers that they denote. The same texts are read
from scripts and written to attributes, but that a script lets a numeral end in a point.
-/

namespace WebBindings

namespace Ascii

theorem natOf_append (radix : ℕ) (a b : List Char) :
    natOf radix (a ++ b) = natOf radix a * radix ^ b.length + natOf radix b := by
  suffices from_start : ∀ start,
      b.foldl (fun n c => n * radix + (digit? radix c).getD 0) start =
        start * radix ^ b.length + natOf radix b by
    rw [natOf, List.foldl_append, from_start]
    rfl
  induction b with
  | nil => exact fun start => by simp [natOf]
  | cons c cs ih =>
    intro start
    have hfirst : natOf radix (c :: cs) =
        (digit? radix c).getD 0 * radix ^ cs.length + natOf radix cs := by
      rw [natOf, List.foldl_cons, Nat.zero_mul, Nat.zero_add]
      exact ih _
    rw [List.foldl_cons, ih, hfirst, List.length_cons, pow_succ]
    ring

end Ascii

/-- The number that a decimal literal denotes. -/
def DecimalLiteral.toRat (l : DecimalLiteral) : ℚ :=
  (Ascii.natOf 10 l.whole + Ascii.natOf 10 l.fraction / 10 ^ l.fraction.length) *
    10 ^ Double.signed l.exponentNegative (Ascii.natOf 10 l.exponent)

/-- The digits of a literal as one integer, which the exponent and the length of the fraction scale. -/
theorem DecimalLiteral.toRat_eq (l : DecimalLiteral) :
    l.toRat = Ascii.natOf 10 (l.whole ++ l.fraction) *
      10 ^ (Double.signed l.exponentNegative (Ascii.natOf 10 l.exponent) - l.fraction.length) := by
  rw [Ascii.natOf_append, toRat, zpow_sub₀ (by norm_num), zpow_natCast]
  push_cast
  field_simp

theorem DecimalLiteral.value_isNearestTo (l : DecimalLiteral) (negative : Bool) :
    (l.value negative).IsNearestTo (Double.signedRat negative l.toRat) := by
  rw [toRat_eq]
  exact Double.ofDecimal_isNearestTo negative _ _

/-- Nothing but decimal digits. -/
def Decimal (cs : List Char) : Prop := ∀ c ∈ cs, Ascii.isDigit c = true

/-- An optional sign; the flag tells a minus. -/
inductive Sign : Bool → List Char → Prop
  | absent : Sign false []
  | plus : Sign false ['+']
  | minus : Sign true ['-']

theorem exists_sign_toString (n : ℤ) :
    ∃ negative sign, Sign negative sign ∧ (toString n).toList = sign ++ Nat.toDigits 10 n.natAbs ∧
      n = Double.signed negative n.natAbs := by
  rw [AttributeNumber.toString_toList]
  by_cases below : n < 0
  · refine ⟨true, ['-'], .minus, by rw [if_pos below], ?_⟩
    rw [Double.signed, if_pos rfl]
    omega
  · refine ⟨false, [], .absent, by rw [if_neg below], ?_⟩
    rw [Double.signed, if_neg Bool.false_ne_true]
    omega

/-- An optional exponent, with its sign and its digits. -/
inductive ExponentPart : Bool → List Char → List Char → Prop
  | absent : ExponentPart false [] []
  | present {e : Char} {negative : Bool} {sign digits : List Char} (letter : e = 'e' ∨ e = 'E')
      (signed : Sign negative sign) (nonempty : digits ≠ []) (decimal : Decimal digits) :
      ExponentPart negative digits (e :: sign ++ digits)

/-- The texts of decimal literals without a sign. There are digits before the point or behind it. Only
where a bare point is allowed may there be none behind it. -/
inductive Numeral (barePoint : Bool) : List Char → DecimalLiteral → Prop
  | whole {whole exponent part : List Char} {negative : Bool} (nonempty : whole ≠ [])
      (decimal : Decimal whole) (scale : ExponentPart negative exponent part) :
      Numeral barePoint (whole ++ part) ⟨whole, [], negative, exponent⟩
  | mixed {whole fraction exponent part : List Char} {negative : Bool} (nonempty : whole ≠ [])
      (decimal : Decimal whole) (nonempty' : fraction ≠ [] ∨ barePoint = true)
      (decimal' : Decimal fraction) (scale : ExponentPart negative exponent part) :
      Numeral barePoint (whole ++ '.' :: fraction ++ part) ⟨whole, fraction, negative, exponent⟩
  | fraction {fraction exponent part : List Char} {negative : Bool} (nonempty : fraction ≠ [])
      (decimal : Decimal fraction) (scale : ExponentPart negative exponent part) :
      Numeral barePoint ('.' :: fraction ++ part) ⟨[], fraction, negative, exponent⟩

variable {cs digits part rest sign : List Char} {negative barePoint : Bool} {l : DecimalLiteral}

theorem Numeral.allowing (numeral : Numeral barePoint cs l) : Numeral true cs l := by
  cases numeral with
  | whole nonempty decimal scale => exact .whole nonempty decimal scale
  | mixed nonempty decimal nonempty' decimal' scale => exact .mixed nonempty decimal (.inr rfl) decimal' scale
  | fraction nonempty decimal scale => exact .fraction nonempty decimal scale

theorem Numeral.exists_first (numeral : Numeral barePoint cs l) :
    ∃ c rest, cs = c :: rest ∧ (Ascii.isDigit c = true ∨ c = '.') := by
  have digit {digits : List Char} (rest : List Char) (nonempty : digits ≠ [])
      (decimal : Decimal digits) :
      ∃ c tail, digits ++ rest = c :: tail ∧ (Ascii.isDigit c = true ∨ c = '.') := by
    obtain ⟨c, tail, rfl⟩ := List.exists_cons_of_ne_nil nonempty
    exact ⟨c, tail ++ rest, rfl, .inl (decimal c List.mem_cons_self)⟩
  cases numeral with
  | whole nonempty decimal scale => exact digit _ nonempty decimal
  | mixed nonempty decimal nonempty' decimal' scale =>
    rw [List.append_assoc]
    exact digit _ nonempty decimal
  | fraction nonempty decimal scale => exact ⟨_, _, rfl, .inr rfl⟩

/-- The text does not begin with a digit. -/
def NoDigit (cs : List Char) : Prop := ∀ c rest, cs = c :: rest → Ascii.isDigit c = false

theorem span_isDigit_eq_iff :
    cs.span Ascii.isDigit = (digits, rest) ↔ cs = digits ++ rest ∧ Decimal digits ∧ NoDigit rest := by
  rw [List.span_eq_takeWhile_dropWhile, Prod.mk.injEq]
  constructor
  · rintro ⟨rfl, rfl⟩
    refine ⟨List.takeWhile_append_dropWhile.symm, fun c mem => List.mem_takeWhile_imp mem, ?_⟩
    intro c rest first
    have hhead := List.head?_dropWhile_not Ascii.isDigit cs
    rw [first] at hhead
    simpa using hhead
  · rintro ⟨rfl, decimal, stop⟩
    rw [List.takeWhile_append_of_pos decimal, List.dropWhile_append_of_pos decimal]
    cases rest with
    | nil => simp
    | cons c rest =>
      have hstop : ¬ Ascii.isDigit c = true := by simp [stop c rest rfl]
      rw [List.takeWhile_cons_of_neg hstop, List.dropWhile_cons_of_neg hstop, List.append_nil]
      exact ⟨rfl, rfl⟩

theorem noDigit_nil : NoDigit [] := nofun

theorem Literal.unsigned_sign (signed : Sign negative sign)
    (plain : ∀ c rest, cs = c :: rest → c ≠ '-' ∧ c ≠ '+') :
    unsigned (sign ++ cs) = (negative, cs) := by
  cases signed with
  | absent =>
    rw [List.nil_append, unsigned]
    · rintro rest rfl
      exact (plain _ _ rfl).1 rfl
    · rintro rest rfl
      exact (plain _ _ rfl).2 rfl
  | plus => rfl
  | minus => rfl

theorem Literal.exists_sign (cs : List Char) :
    ∃ sign, Sign (unsigned cs).1 sign ∧ cs = sign ++ (unsigned cs).2 := by
  fun_cases unsigned cs with
  | case1 rest => exact ⟨_, .minus, rfl⟩
  | case2 rest => exact ⟨_, .plus, rfl⟩
  | case3 cs => exact ⟨_, .absent, rfl⟩

theorem ExponentPart.noDigit (scale : ExponentPart negative digits part) : NoDigit part := by
  cases scale with
  | absent => exact noDigit_nil
  | present letter signed nonempty decimal =>
    rintro c rest first
    obtain rfl := (List.cons.inj first).1
    rcases letter with rfl | rfl <;> rfl

theorem noDigit_point : NoDigit ('.' :: cs) := by
  rintro c rest first
  obtain rfl := (List.cons.inj first).1
  rfl

theorem DecimalLiteral.takeExponent?_cons (e : Char) (cs : List Char) :
    takeExponent? (e :: cs) =
      if e = 'e' ∨ e = 'E' then
        if ((Literal.unsigned cs).2.takeWhile Ascii.isDigit).isEmpty then none
        else some (((Literal.unsigned cs).1, (Literal.unsigned cs).2.takeWhile Ascii.isDigit),
          (Literal.unsigned cs).2.dropWhile Ascii.isDigit)
      else none := by
  simp only [takeExponent?, List.span_eq_takeWhile_dropWhile, Bool.or_eq_true,
    decide_eq_true_eq]
  rfl

theorem DecimalLiteral.exponentPart_of_takeExponent?
    (taken : takeExponent? cs = some ((negative, digits), rest)) :
    ∃ part, ExponentPart negative digits part ∧ cs = part ++ rest := by
  cases cs with
  | nil => cases taken
  | cons e cs =>
    rw [takeExponent?_cons, Option.ite_none_right_eq_some] at taken
    obtain ⟨letter, taken⟩ := taken
    split at taken
    · cases taken
    · rename_i nonempty
      obtain ⟨hsigned, rfl⟩ := Prod.mk.inj (Option.some.inj taken)
      obtain ⟨rfl, rfl⟩ := Prod.mk.inj hsigned
      obtain ⟨sign, signed, split⟩ := Literal.exists_sign cs
      refine ⟨_, .present letter signed (by simpa using nonempty) fun c mem => List.mem_takeWhile_imp mem, ?_⟩
      rw [List.cons_append, List.cons_append, List.append_assoc, List.takeWhile_append_dropWhile,
        ← split]

theorem Literal.unsigned_of_first {c : Char} (first : Ascii.isDigit c = true ∨ c = '.')
    (signed : Sign negative sign) : unsigned (sign ++ c :: rest) = (negative, c :: rest) := by
  refine unsigned_sign signed fun c' rest' same => ?_
  obtain rfl := (List.cons.inj same).1
  constructor <;> rintro rfl <;> simp [Ascii.isDigit] at first

theorem Literal.unsigned_of_digits (nonempty : digits ≠ []) (decimal : Decimal digits)
    (signed : Sign negative sign) (rest : List Char) :
    unsigned (sign ++ (digits ++ rest)) = (negative, digits ++ rest) := by
  obtain ⟨c, cs, rfl⟩ := List.exists_cons_of_ne_nil nonempty
  have first : Ascii.isDigit c = true := decimal c List.mem_cons_self
  exact unsigned_of_first (.inl first) signed

theorem ExponentPart.takeExponent? (scale : ExponentPart negative digits part) (nonempty : part ≠ []) :
    DecimalLiteral.takeExponent? part = some ((negative, digits), []) := by
  cases scale with
  | absent => exact absurd rfl nonempty
  | present letter signed nonempty' decimal =>
    obtain ⟨c, rest, rfl⟩ := List.exists_cons_of_ne_nil nonempty'
    rw [List.cons_append, DecimalLiteral.takeExponent?_cons, if_pos letter,
      Literal.unsigned_of_first (.inl (decimal c List.mem_cons_self)) signed, List.takeWhile_eq_self_iff.2 decimal,
      List.dropWhile_eq_nil_iff.2 decimal, if_neg (by simp)]

namespace Literal

/-- The digits behind a point, and what follows them. -/
def afterPoint : List Char → List Char × List Char
  | '.' :: rest => rest.span Ascii.isDigit
  | rest => ([], rest)

/-- The literal of some digits and of what is behind them, which has to be an exponent. -/
def withExponent? (whole fraction : List Char) : List Char → Option DecimalLiteral
  | [] => some ⟨whole, fraction, false, []⟩
  | rest =>
    match DecimalLiteral.takeExponent? rest with
    | some ((negative, digits), []) => some ⟨whole, fraction, negative, digits⟩
    | _ => none

theorem unsignedDecimal?_eq (cs : List Char) :
    unsignedDecimal? cs =
      let (whole, after) := cs.span Ascii.isDigit
      let (fraction, rest) := afterPoint after
      if whole.isEmpty && fraction.isEmpty then none else withExponent? whole fraction rest := rfl

theorem withExponent?_eq_some_iff {whole fraction : List Char} :
    withExponent? whole fraction rest = some l ↔
      ∃ negative digits, ExponentPart negative digits rest ∧ l = ⟨whole, fraction, negative, digits⟩ := by
  constructor
  · intro read
    unfold withExponent? at read
    split at read
    · exact ⟨_, _, .absent, (Option.some.inj read).symm⟩
    · split at read
      · rename_i taken
        obtain ⟨part, scale, rfl⟩ := DecimalLiteral.exponentPart_of_takeExponent? taken
        exact ⟨_, _, by rwa [List.append_nil], (Option.some.inj read).symm⟩
      · cases read
  · rintro ⟨negative, digits, scale, rfl⟩
    unfold withExponent?
    split
    · cases scale
      rfl
    · rw [scale.takeExponent? ‹_›]

theorem numeral_of_unsignedDecimal? (read : unsignedDecimal? cs = some l) : Numeral true cs l := by
  obtain ⟨whole, after, hsplit⟩ : ∃ whole after, cs.span Ascii.isDigit = (whole, after) := ⟨_, _, rfl⟩
  obtain ⟨fraction, rest, hfraction⟩ : ∃ fraction rest, afterPoint after = (fraction, rest) :=
    ⟨_, _, rfl⟩
  obtain ⟨rfl, decimal, stop⟩ := span_isDigit_eq_iff.1 hsplit
  simp only [unsignedDecimal?_eq, hsplit, hfraction] at read
  rw [Option.ite_none_left_eq_some, withExponent?_eq_some_iff] at read
  obtain ⟨nonempty, negative, exponent, scale, rfl⟩ := read
  rw [Bool.and_eq_true, List.isEmpty_iff, List.isEmpty_iff] at nonempty
  unfold afterPoint at hfraction
  split at hfraction
  · obtain ⟨rfl, decimal', stop'⟩ := span_isDigit_eq_iff.1 hfraction
    by_cases none : whole = []
    · subst none
      exact .fraction (fun none => nonempty ⟨rfl, none⟩) decimal' scale
    · rw [← List.cons_append, ← List.append_assoc]
      exact .mixed none decimal (.inr rfl) decimal' scale
  · obtain ⟨rfl, rfl⟩ := Prod.mk.inj hfraction
    exact .whole (fun none => nonempty ⟨none, rfl⟩) decimal scale

theorem afterPoint_exponent (scale : ExponentPart negative digits part) : afterPoint part = ([], part) := by
  cases scale with
  | absent => rfl
  | present letter signed nonempty decimal => rcases letter with rfl | rfl <;> rfl

theorem unsignedDecimal?_of_numeral (numeral : Numeral true cs l) : unsignedDecimal? cs = some l := by
  rw [unsignedDecimal?_eq]
  cases numeral with
  | whole nonempty decimal scale =>
    simp only [span_isDigit_eq_iff.2 ⟨rfl, decimal, scale.noDigit⟩, afterPoint_exponent scale]
    rw [if_neg (by simpa using nonempty)]
    exact withExponent?_eq_some_iff.2 ⟨_, _, scale, rfl⟩
  | mixed nonempty decimal nonempty' decimal' scale =>
    rw [List.append_assoc, List.cons_append]
    simp only [span_isDigit_eq_iff.2 ⟨rfl, decimal, noDigit_point⟩, afterPoint,
      span_isDigit_eq_iff.2 ⟨rfl, decimal', scale.noDigit⟩]
    rw [if_neg (by simp [nonempty])]
    exact withExponent?_eq_some_iff.2 ⟨_, _, scale, rfl⟩
  | fraction nonempty decimal scale =>
    rw [List.cons_append]
    simp only [span_isDigit_eq_iff.2 ⟨(List.nil_append _).symm, nofun, noDigit_point⟩, afterPoint,
      span_isDigit_eq_iff.2 ⟨rfl, decimal, scale.noDigit⟩]
    rw [if_neg (by simp [nonempty])]
    exact withExponent?_eq_some_iff.2 ⟨_, _, scale, rfl⟩

/-- Scripts read as decimals just the numerals, where a bare point is allowed. -/
theorem unsignedDecimal?_eq_some_iff : unsignedDecimal? cs = some l ↔ Numeral true cs l :=
  ⟨numeral_of_unsignedDecimal?, unsignedDecimal?_of_numeral⟩

end Literal

end WebBindings
