import Mathlib.Data.List.DropRight
import WebBindings.Proofs.Number.Numeral
import WebBindings.Proofs.Text.Letters
import WebBindings.Proofs.Text.Units
/-!
# Numeric literals

The script strings that denote a number: those that are a numeric literal when the blanks around it are
taken away. All others denote no number.
-/

namespace WebBindings

namespace Literal

/-- Tab, vertical tab, form feed, the byte order mark and all space separators. -/
def whiteSpace : List UInt16 :=
  [0x9, 0xB, 0xC, 0xFEFF, 0x20, 0xA0, 0x1680, 0x2000, 0x2001, 0x2002, 0x2003, 0x2004, 0x2005, 0x2006,
    0x2007, 0x2008, 0x2009, 0x200A, 0x202F, 0x205F, 0x3000]

/-- Line feed, carriage return, line separator and paragraph separator. -/
def lineTerminators : List UInt16 := [0xA, 0xD, 0x2028, 0x2029]

/-- White space or a line terminator. -/
def Blank (u : UInt16) : Prop := u ∈ whiteSpace ∨ u ∈ lineTerminators

/-- The first string has blanks before the second one and behind it, and this one neither begins nor ends
with a blank. -/
def TrimsTo (s core : DOMString) : Prop :=
  ∃ front back, s.units = front ++ core.units ++ back ∧ (∀ u ∈ front, Blank u) ∧ (∀ u ∈ back, Blank u) ∧
    (∀ u, core.units.head? = some u → ¬ Blank u) ∧ ∀ u, core.units.getLast? = some u → ¬ Blank u

theorem isBlank_iff {u : UInt16} : isBlank u = true ↔ Blank u := by
  simp only [isBlank, Blank, whiteSpace, lineTerminators, List.mem_cons, List.not_mem_nil, or_false,
    ← UInt16.toNat_inj, UInt16.reduceToNat, Bool.or_eq_true, Bool.and_eq_true, decide_eq_true_eq]
  omega

/-- A script string without the blanks at its front and at its end. -/
def trim (s : DOMString) : DOMString := ⟨(s.units.dropWhile isBlank).rdropWhile isBlank⟩

theorem trimmed?_eq (s : DOMString) : trimmed? s = (trim s).chars? := rfl

theorem trimsTo_trim (s : DOMString) : TrimsTo s (trim s) := by
  refine ⟨s.units.takeWhile isBlank, (s.units.dropWhile isBlank).rtakeWhile isBlank, ?_, ?_, ?_, ?_, ?_⟩
  · rw [List.append_assoc, trim, List.rdropWhile_append_rtakeWhile, List.takeWhile_append_dropWhile]
  · exact fun u mem => isBlank_iff.1 (List.mem_takeWhile_imp mem)
  · exact fun u mem => isBlank_iff.1 (List.mem_rtakeWhile_imp mem)
  · intro u first blank
    obtain ⟨rest, hrest⟩ := List.rdropWhile_prefix isBlank (s.units.dropWhile isBlank)
    have hfirst : (s.units.dropWhile isBlank).head? = some u := by
      rw [← hrest]
      exact (List.head?_append).trans (congrArg (Option.or · rest.head?) first)
    have hstop := List.head?_dropWhile_not isBlank s.units
    rw [hfirst] at hstop
    simp [isBlank_iff.2 blank] at hstop
  · intro u last blank
    obtain ⟨units, hunits⟩ := List.getLast?_eq_some_iff.1 last
    change (s.units.dropWhile isBlank).rdropWhile isBlank = units ++ [u] at hunits
    have hstop := List.rdropWhile_last_not isBlank (s.units.dropWhile isBlank) (by simp [hunits])
    simp [hunits, isBlank_iff.2 blank] at hstop

theorem trim_eq {s core : DOMString} (trims : TrimsTo s core) : trim s = core := by
  obtain ⟨front, back, split, hfront, hback, hfirst, hlast⟩ := trims
  rw [trim, split, List.append_assoc,
    List.dropWhile_append_of_pos fun u mem => isBlank_iff.2 (hfront u mem)]
  obtain ⟨units⟩ := core
  rcases List.eq_nil_or_concat' units with rfl | ⟨units, last, rfl⟩
  · have hnothing : back.dropWhile isBlank = [] :=
      List.dropWhile_eq_nil_iff.2 fun u mem => isBlank_iff.2 (hback u mem)
    simp [hnothing]
  · have hlast' : ¬ isBlank last = true := fun blank => hlast last (by simp) (isBlank_iff.1 blank)
    have hkept : (units ++ [last] ++ back).dropWhile isBlank = units ++ [last] ++ back := by
      cases units with
      | nil => exact List.dropWhile_cons_of_neg hlast'
      | cons first units =>
        exact List.dropWhile_cons_of_neg fun blank => hfirst first rfl (isBlank_iff.1 blank)
    rw [hkept, List.rdropWhile, List.reverse_append, List.dropWhile_append_of_pos, List.reverse_concat',
      List.dropWhile_cons_of_neg hlast', ← List.reverse_concat', List.reverse_reverse]
    exact fun u mem => isBlank_iff.2 (hback u (List.mem_reverse.1 mem))

/-- A letter that announces a radix behind a zero. -/
inductive Announces : Char → ℕ → Prop
  | lowerHex : Announces 'x' 16
  | upperHex : Announces 'X' 16
  | lowerOctal : Announces 'o' 8
  | upperOctal : Announces 'O' 8
  | lowerBinary : Announces 'b' 2
  | upperBinary : Announces 'B' 2

/-- Characters that stand in the units of a script string as themselves, and are not blank. -/
def Visible (cs : List Char) : Prop := ∀ c ∈ cs, 0x20 < c.toNat ∧ c.toNat < 0x7F

instance (cs : List Char) : Decidable (Visible cs) :=
  List.decidableBAll (fun c : Char => 0x20 < c.toNat ∧ c.toNat < 0x7F) cs

/-- The digits of a radix that can be announced. -/
def digitsOf (radix : ℕ) : List Char :=
  if radix = 16 then "0123456789abcdefABCDEF".toList
  else if radix = 8 then "01234567".toList
  else "01".toList

variable {letter c : Char} {radix : ℕ} {cs digits sign : List Char} {negative : Bool}
  {l : DecimalLiteral}

theorem radix?_eq_some_iff : radix? letter = some radix ↔ Announces letter radix := by
  constructor
  · intro announced
    unfold radix? at announced
    split_ifs at announced with hex octal binary
    · obtain rfl := Option.some.inj announced
      rw [Bool.or_eq_true, decide_eq_true_eq, decide_eq_true_eq] at hex
      rcases hex with rfl | rfl
      exacts [.lowerHex, .upperHex]
    · obtain rfl := Option.some.inj announced
      rw [Bool.or_eq_true, decide_eq_true_eq, decide_eq_true_eq] at octal
      rcases octal with rfl | rfl
      exacts [.lowerOctal, .upperOctal]
    · obtain rfl := Option.some.inj announced
      rw [Bool.or_eq_true, decide_eq_true_eq, decide_eq_true_eq] at binary
      rcases binary with rfl | rfl
      exacts [.lowerBinary, .upperBinary]
  · intro announces
    cases announces <;> rfl

theorem radixParts?_eq_some_iff :
    radixParts? cs = some (radix, digits) ↔
      ∃ letter, Announces letter radix ∧ digits ≠ [] ∧ cs = '0' :: letter :: digits := by
  constructor
  · intro parts
    unfold radixParts? at parts
    split at parts
    · rw [Option.map_eq_some_iff] at parts
      obtain ⟨r, announced, same⟩ := parts
      obtain ⟨rfl, rfl⟩ := Prod.mk.inj same
      exact ⟨_, radix?_eq_some_iff.1 announced, List.cons_ne_nil _ _, rfl⟩
    · cases parts
  · rintro ⟨letter, announces, nonempty, rfl⟩
    obtain ⟨c, rest, rfl⟩ := List.exists_cons_of_ne_nil nonempty
    rw [radixParts?, radix?_eq_some_iff.2 announces]
    rfl

theorem lt_of_isSome_digit? (digit : (Ascii.digit? radix c).isSome = true) : c.toNat < 128 := by
  by_contra large
  have beyond (first last : Char) (small : last.toNat < 128) : ¬ (first ≤ c ∧ c ≤ last) :=
    fun range => large ((UInt32.le_iff_toNat_le.1 range.2).trans_lt small)
  simp [Ascii.digit?, Ascii.isDigit, beyond '0' '9' (by decide), beyond 'a' 'z' (by decide),
    beyond 'A' 'Z' (by decide)] at digit

theorem Announces.visible (announces : Announces letter radix) : Visible (letter :: digitsOf radix) := by
  cases announces <;> decide +kernel

theorem isSome_digit?_iff (announces : Announces letter radix) :
    (Ascii.digit? radix c).isSome = true ↔ c ∈ digitsOf radix := by
  have table : ∀ r ∈ [16, 8, 2], ∀ n < 128,
      ((Ascii.digit? r (Char.ofNat n)).isSome = true ↔ Char.ofNat n ∈ digitsOf r) := by
    decide +kernel
  have known : radix ∈ [16, 8, 2] := by cases announces <;> decide
  have same (small : c.toNat < 128) : (Ascii.digit? radix c).isSome = true ↔ c ∈ digitsOf radix :=
    Ascii.of_table c small (table radix known)
  refine ⟨fun digit => (same (lt_of_isSome_digit? digit)).1 digit, fun mem => (same ?_).2 mem⟩
  exact (announces.visible c (List.mem_cons_of_mem letter mem)).2.trans (by decide)

end Literal

/-- The texts that denote a number, without blanks around them: nothing at all, infinity or a decimal
numeral with an optional sign, and digits of an announced radix. -/
inductive NumericLiteral : List Char → Prop
  | empty : NumericLiteral []
  | infinity {negative : Bool} {sign : List Char} (signed : Sign negative sign) :
      NumericLiteral (sign ++ "Infinity".toList)
  | decimal {negative : Bool} {sign cs : List Char} {l : DecimalLiteral} (signed : Sign negative sign)
      (numeral : Numeral true cs l) : NumericLiteral (sign ++ cs)
  | radix {letter : Char} {radix : ℕ} {digits : List Char} (announces : Literal.Announces letter radix)
      (nonempty : digits ≠ []) (all : ∀ c ∈ digits, c ∈ Literal.digitsOf radix) :
      NumericLiteral ('0' :: letter :: digits)

namespace Literal

/-- The number of a text without blanks around it. -/
def numberOf : List Char → Double
  | [] => Double.zero false
  | cs =>
    match radixParts? cs with
    | some (radix, digits) => radixNumber radix digits
    | none =>
      let (negative, magnitude) := unsigned cs
      if magnitude = "Infinity".toList then .infinite negative
      else
        match unsignedDecimal? magnitude with
        | some literal => literal.value negative
        | none => .nan

theorem toNumber_eq (s : DOMString) : toNumber s = ((trim s).chars?.map numberOf).getD .nan := by
  rw [toNumber, trimmed?_eq]
  match (trim s).chars? with
  | none => rfl
  | some [] => rfl
  | some (c :: cs) => rfl

theorem mulAdd_ne_nan {x : Double} (number : x ≠ .nan) (factor summand : ℕ) :
    x.mulAdd factor summand ≠ .nan := by
  cases x with
  | nan => exact absurd rfl number
  | infinite negative => exact number
  | finite negative m => exact (Double.round_isNearestTo _ _ Nat.one_pos).ne_nan

theorem radixNumber_eq (all : ∀ c ∈ digits, (Ascii.digit? radix c).isSome = true) :
    radixNumber radix digits =
      digits.foldl (fun x c => x.mulAdd radix ((Ascii.digit? radix c).getD 0)) (Double.zero false) := by
  suffices from_start : ∀ x : Double, digits.foldl
      (fun acc c => acc.bind fun x => (Ascii.digit? radix c).map fun d => x.mulAdd radix d) (some x) =
        some (digits.foldl (fun x c => x.mulAdd radix ((Ascii.digit? radix c).getD 0)) x) by
    rw [radixNumber, from_start, Option.getD_some]
  induction digits with
  | nil => exact fun x => rfl
  | cons c cs ih =>
    intro x
    rw [List.forall_mem_cons] at all
    obtain ⟨d, hd⟩ := Option.isSome_iff_exists.1 all.1
    rw [List.foldl_cons, List.foldl_cons, ← ih all.2, hd]
    rfl

theorem radixNumber_eq_nan (other : ¬ ∀ c ∈ digits, (Ascii.digit? radix c).isSome = true) :
    radixNumber radix digits = .nan := by
  suffices from_start : ∀ acc, digits.foldl
      (fun acc c => acc.bind fun x => (Ascii.digit? radix c).map fun d => x.mulAdd radix d) acc =
        (none : Option Double) by
    rw [radixNumber, from_start, Option.getD_none]
  induction digits with
  | nil => exact absurd (by simp) other
  | cons c cs ih =>
    intro acc
    rw [List.foldl_cons]
    by_cases digit : (Ascii.digit? radix c).isSome = true
    · exact ih (fun all => other (List.forall_mem_cons.2 ⟨digit, all⟩)) _
    · -- Once a character is no digit, nothing is left to go on from.
      have lost (rest : List Char) : rest.foldl (fun acc c => acc.bind fun x =>
          (Ascii.digit? radix c).map fun d => x.mulAdd radix d) (none : Option Double) = none := by
        induction rest with
        | nil => rfl
        | cons c cs ih => exact ih
      have none : Ascii.digit? radix c = none := by simpa using digit
      rw [none]
      cases acc <;> exact lost cs

theorem radixNumber_eq_nan_iff (announces : Announces letter radix) :
    radixNumber radix digits = .nan ↔ ¬ ∀ c ∈ digits, c ∈ digitsOf radix := by
  simp only [← isSome_digit?_iff announces]
  refine ⟨fun lost all => ?_, radixNumber_eq_nan⟩
  rw [radixNumber_eq all] at lost
  exact List.foldlRecOn (motive := fun x => x ≠ Double.nan) digits _
    (Double.zero_isNearestTo false).ne_nan (fun x number c _ => mulAdd_ne_nan number _ _) lost

theorem numberOf_infinity (signed : Sign negative sign) :
    numberOf (sign ++ "Infinity".toList) = .infinite negative := by
  cases signed <;> rfl

theorem radixParts?_numeral (signed : Sign negative sign) (numeral : Numeral true cs l) :
    radixParts? (sign ++ cs) = none := by
  rw [Option.eq_none_iff_forall_ne_some]
  rintro ⟨radix, digits⟩ parts
  obtain ⟨letter, announces, -, split⟩ := radixParts?_eq_some_iff.1 parts
  cases signed with
  | absent =>
    obtain rfl : cs = _ := split
    have read := unsignedDecimal?_of_numeral numeral
    cases announces <;> cases read
  | plus => cases split
  | minus => cases split

theorem numberOf_numeral (signed : Sign negative sign) (numeral : Numeral true cs l) :
    numberOf (sign ++ cs) = l.value negative := by
  obtain ⟨c, rest, rfl, first⟩ := numeral.exists_first
  have nonempty : sign ++ c :: rest ≠ [] := by simp
  have finite : c :: rest ≠ "Infinity".toList := by
    intro same
    obtain rfl : c = 'I' := (List.cons.inj same).1
    simp [Ascii.isDigit] at first
  unfold numberOf
  split
  · contradiction
  · rw [radixParts?_numeral signed numeral, unsigned_of_first first signed]
    simp only [if_neg finite, unsignedDecimal?_of_numeral numeral]

theorem numberOf_radix (announces : Announces letter radix) (nonempty : digits ≠ []) :
    numberOf ('0' :: letter :: digits) = radixNumber radix digits := by
  rw [numberOf, radixParts?_eq_some_iff.2 ⟨letter, announces, nonempty, rfl⟩]
  exact List.cons_ne_nil _ _

theorem numberOf_eq_nan_iff : numberOf cs = .nan ↔ ¬ NumericLiteral cs := by
  constructor
  · intro lost literal
    cases literal with
    | empty => cases lost
    | infinity signed => cases (numberOf_infinity signed).symm.trans lost
    | decimal signed numeral =>
      rw [numberOf_numeral signed numeral] at lost
      exact (DecimalLiteral.value_isNearestTo _ _).ne_nan lost
    | radix announces nonempty all =>
      rw [numberOf_radix announces nonempty] at lost
      exact (radixNumber_eq_nan_iff announces).1 lost all
  · intro other
    unfold numberOf
    split
    · exact absurd .empty other
    · split
      · rename_i radix digits parts
        obtain ⟨letter, announces, nonempty, rfl⟩ := radixParts?_eq_some_iff.1 parts
        exact (radixNumber_eq_nan_iff announces).2 fun all => other (.radix announces nonempty all)
      · obtain ⟨sign, signed, split⟩ := exists_sign cs
        obtain ⟨⟨negative, magnitude⟩, hparts⟩ : ∃ parts, unsigned cs = parts := ⟨_, rfl⟩
        rw [hparts] at signed split ⊢
        subst split
        simp only
        have finite : magnitude ≠ "Infinity".toList := fun same => other (same ▸ .infinity signed)
        have unread : unsignedDecimal? magnitude = none := by
          refine Option.eq_none_iff_forall_ne_some.2 fun l read => other ?_
          exact .decimal signed (unsignedDecimal?_eq_some_iff.1 read)
        rw [if_neg finite, unread]

theorem numberOf_minus (literal : NumericLiteral ('-' :: cs)) :
    numberOf ('-' :: cs) = (numberOf cs).neg := by
  obtain ⟨text, htext⟩ : ∃ text, text = '-' :: cs := ⟨_, rfl⟩
  rw [← htext] at literal
  cases literal with
  | empty => cases htext
  | infinity signed =>
    cases signed with
    | absent => cases htext
    | plus => cases htext
    | minus =>
      obtain rfl : "Infinity".toList = cs := (List.cons.inj htext).2
      exact (numberOf_infinity .minus).trans (congrArg Double.neg (numberOf_infinity .absent)).symm
  | decimal signed numeral =>
    cases signed with
    | absent =>
      obtain ⟨c, rest, rfl, first⟩ := numeral.exists_first
      obtain rfl : c = '-' := (List.cons.inj htext).1
      simp [Ascii.isDigit] at first
    | plus => cases htext
    | minus =>
      obtain rfl := (List.cons.inj htext).2
      exact (numberOf_numeral .minus numeral).trans ((Double.ofDecimal_true _ _).trans
        (congrArg Double.neg (numberOf_numeral .absent numeral)).symm)
  | radix => cases htext

theorem Visible.unblank (visible : Visible cs) : ∀ u ∈ cs.flatMap Units.ofChar, ¬ Blank u := by
  intro u mem blank
  obtain ⟨c, hc, hu⟩ := List.mem_flatMap.1 mem
  obtain ⟨low, high⟩ := visible c hc
  rw [Units.ofChar, if_pos (by omega), List.mem_singleton] at hu
  have value : u.toNat = c.toNat := by rw [hu, Units.toNat_toUInt16 (by omega)]
  have range := isBlank_iff.2 blank
  simp only [isBlank, Bool.or_eq_true, Bool.and_eq_true, decide_eq_true_eq] at range
  omega

/-- A script string spells some characters with blanks before and behind them. -/
def Surrounds (s : DOMString) (cs : List Char) : Prop :=
  ∃ front back, s.units = front ++ cs.flatMap Units.ofChar ++ back ∧ (∀ u ∈ front, Blank u) ∧
    ∀ u ∈ back, Blank u

theorem trim_of_surrounds {s : DOMString} (visible : Visible cs) (around : Surrounds s cs) :
    trim s = ⟨cs.flatMap Units.ofChar⟩ := by
  obtain ⟨front, back, split, hfront, hback⟩ := around
  refine trim_eq ⟨front, back, split, hfront, hback, ?_, ?_⟩
  · intro u first
    exact visible.unblank u (List.mem_of_mem_head? first)
  · intro u last
    exact visible.unblank u (List.mem_of_mem_getLast? last)

theorem surrounds_self (cs : List Char) : Surrounds ⟨cs.flatMap Units.ofChar⟩ cs :=
  ⟨[], [], by simp, List.forall_mem_nil _, List.forall_mem_nil _⟩

theorem toNumber_visible (visible : Visible cs) : toNumber ⟨cs.flatMap Units.ofChar⟩ = numberOf cs := by
  have read : (⟨cs.flatMap Units.ofChar⟩ : DOMString).chars? = some cs :=
    DOMString.chars?_eq_some_iff.2 rfl
  rw [toNumber_eq, trim_of_surrounds visible (surrounds_self cs), read]
  rfl

namespace Visible

theorem append (front : Visible cs) (back : Visible digits) : Visible (cs ++ digits) := by
  intro c mem
  exact (List.mem_append.1 mem).elim (front c) (back c)

theorem cons (first : 0x20 < c.toNat ∧ c.toNat < 0x7F) (rest : Visible cs) : Visible (c :: cs) :=
  List.forall_mem_cons.2 ⟨first, rest⟩

theorem of_decimal (decimal : Decimal cs) : Visible cs := by
  intro c mem
  have range := Char.isDigit_iff_toNat.1 (Ascii.isDigit_eq c ▸ decimal c mem)
  have : '0'.toNat = 48 := rfl
  have : '9'.toNat = 57 := rfl
  omega

theorem of_sign (signed : Sign negative sign) : Visible sign := by
  cases signed <;> decide

theorem of_exponent (scale : ExponentPart negative digits cs) : Visible cs := by
  cases scale with
  | absent => nofun
  | present letter signed nonempty decimal =>
    refine append (cons ?_ (of_sign signed)) (of_decimal decimal)
    rcases letter with rfl | rfl <;> decide

theorem of_numeral (numeral : Numeral true cs l) : Visible cs := by
  cases numeral with
  | whole nonempty decimal scale => exact append (of_decimal decimal) (of_exponent scale)
  | mixed nonempty decimal nonempty' decimal' scale =>
    exact append (append (of_decimal decimal) (cons (by decide) (of_decimal decimal')))
      (of_exponent scale)
  | fraction nonempty decimal scale =>
    exact append (cons (by decide) (of_decimal decimal)) (of_exponent scale)

theorem of_literal (literal : NumericLiteral cs) : Visible cs := by
  cases literal with
  | empty => nofun
  | infinity signed => exact append (of_sign signed) (by decide)
  | decimal signed numeral => exact append (of_sign signed) (of_numeral numeral)
  | @radix letter radix digits announces nonempty all =>
    obtain ⟨hletter, hdigits⟩ := List.forall_mem_cons.1 announces.visible
    exact cons (by decide) (cons hletter fun c mem => hdigits c (all c mem))

end Visible

/-- A script string denotes a number if, without the blanks around it, it spells a numeric literal. An
empty one is zero, one with a minus is the negative of the rest, and one that spells no characters denotes
no number. -/
theorem toNumber_of_literals (s : DOMString) :
    ∃ core, (∀ t, TrimsTo s t ↔ t = core) ∧
      (toNumber s = .nan ↔ ¬ ∃ cs, core.units = cs.flatMap Units.ofChar ∧ NumericLiteral cs) ∧
      (core.units = [] → toNumber s = .zero false) ∧
      (core.isWellFormed = false → toNumber s = .nan) ∧
      ∀ rest, core.units = ('-' :: rest).flatMap Units.ofChar → NumericLiteral ('-' :: rest) →
        toNumber s = (toNumber ⟨rest.flatMap Units.ofChar⟩).neg := by
  have spelled {cs : List Char} (units : (trim s).units = cs.flatMap Units.ofChar) :
      toNumber s = numberOf cs := by
    rw [toNumber_eq, DOMString.chars?_eq_some_iff.2 units]
    rfl
  have unspelled (none : (trim s).chars? = none) : toNumber s = .nan := by
    rw [toNumber_eq, none]
    rfl
  refine ⟨trim s, fun t => ⟨fun trims => (trim_eq trims).symm, fun same => same ▸ trimsTo_trim s⟩,
    ⟨?_, ?_⟩, ?_, ?_, ?_⟩
  · rintro lost ⟨cs, units, literal⟩
    exact numberOf_eq_nan_iff.1 ((spelled units).symm.trans lost) literal
  · intro other
    cases read : (trim s).chars? with
    | none => exact unspelled read
    | some cs =>
      have units := DOMString.chars?_eq_some_iff.1 read
      rw [spelled units, numberOf_eq_nan_iff]
      exact fun literal => other ⟨cs, units, literal⟩
  · exact fun empty => @spelled [] empty
  · intro illFormed
    refine unspelled ?_
    rw [DOMString.chars?, illFormed]
    rfl
  · intro rest units literal
    have visible : Visible rest := (List.forall_mem_cons.1 (Visible.of_literal literal)).2
    rw [spelled units, toNumber_visible visible, numberOf_minus literal]

end Literal

end WebBindings
