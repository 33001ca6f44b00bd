import WebBindings.Proofs.Number.Printed
/-!
# Numbers in the text of attributes

A text is read as the number nearest to what its longest part spells, if this number is finite. What
follows this part does not matter.
-/

namespace WebBindings

namespace Double

variable {x y : Double} {q : ℚ}

theorem IsNearestTo.dropZeroSign (near : x.IsNearestTo q) : x.dropZeroSign.IsNearestTo q := by
  cases zero : x.isZero with
  | false => rwa [dropZeroSign_of_nonzero zero]
  | true =>
    obtain ⟨negative, rfl⟩ := eq_zero_of_isZero zero
    have value (negative : Bool) : signedRat negative Magnitude.zero.toRat = 0 := by
      rw [(Magnitude.toRat_eq_zero _).2 rfl]
      cases negative <;> simp [signedRat]
    obtain ⟨small, nearest⟩ := near
    refine ⟨small, ?_⟩
    rw [value] at nearest ⊢
    exact nearest

theorem dropZeroSign_eq_self_iff : x.dropZeroSign = x ↔ x ≠ .zero true := by
  cases zero : x.isZero with
  | false =>
    refine iff_of_true (dropZeroSign_of_nonzero zero) ?_
    rintro rfl
    cases zero
  | true =>
    obtain ⟨negative, rfl⟩ := eq_zero_of_isZero zero
    cases negative <;> decide

theorem IsNearestTo.isFinite_eq_false_iff (near : x.IsNearestTo q) :
    x.isFinite = false ↔ ∃ negative, (infinite negative).IsNearestTo q := by
  constructor
  · intro unbounded
    cases x with
    | nan => cases near
    | infinite negative => exact ⟨negative, near⟩
    | finite negative m => cases unbounded
  · rintro ⟨negative, large⟩
    have same := near.unique large
    rw [← isFinite_dropZeroSign, same]
    rfl

theorem IsNearestTo.eq_dropZeroSign_iff (near : x.IsNearestTo q) :
    y = x.dropZeroSign ↔ y ≠ .zero true ∧ y.IsNearestTo q := by
  constructor
  · rintro rfl
    exact ⟨dropZeroSign_eq_self_iff.1 (dropZeroSign_dropZeroSign x), near.dropZeroSign⟩
  · rintro ⟨other, near'⟩
    rw [near.unique near', dropZeroSign_eq_self_iff.2 other]

end Double

namespace AttributeNumber

variable {text text' : String} {part part' : List Char} {q q' : ℚ}

/-- A text begins, behind white space, with a part that is an optional sign and an unsigned number. -/
def Spells (text : String) (part : List Char) (q : ℚ) : Prop :=
  ∃ negative sign front rest l, Opens text negative sign (front ++ rest) ∧ NumberFront rest front l ∧
    part = sign ++ front ∧ q = Double.signedRat negative l.toRat

/-- No part of a text that spells a number is longer than this one. -/
def SpellsLongest (text : String) (part : List Char) (q : ℚ) : Prop :=
  Spells text part q ∧ ∀ part' q', Spells text part' q' → part'.length ≤ part.length

theorem Spells.value_eq (spells : Spells text part q) (spells' : Spells text' part q') : q = q' := by
  obtain ⟨negative, sign, front, rest, l, opens, number, rfl, rfl⟩ := spells
  obtain ⟨negative', sign', front', rest', l', opens', number', same, rfl⟩ := spells'
  have unsigned : Literal.unsigned (sign ++ front) = (negative, front) := by
    obtain ⟨c, cs, rfl, first⟩ := number.numeral.exists_first
    exact Literal.unsigned_of_first first opens.signed
  have unsigned' : Literal.unsigned (sign' ++ front') = (negative', front') := by
    obtain ⟨c, cs, rfl, first⟩ := number'.numeral.exists_first
    exact Literal.unsigned_of_first first opens'.signed
  rw [same, unsigned'] at unsigned
  obtain ⟨rfl, rfl⟩ := Prod.mk.inj unsigned
  have read := Literal.unsignedDecimal?_of_numeral number.numeral
  rw [Literal.unsignedDecimal?_of_numeral number'.numeral] at read
  rw [Option.some.inj read]

theorem exists_spells_iff (text : String) :
    ∃ negative sign cs, Literal.unsigned (skipWhitespace text) = (negative, cs) ∧
      ∀ part q, Spells text part q ↔ ∃ front rest l, cs = front ++ rest ∧ NumberFront rest front l ∧
        part = sign ++ front ∧ q = Double.signedRat negative l.toRat := by
  obtain ⟨sign, opens⟩ := exists_opens text
  obtain ⟨⟨negative, cs⟩, hparts⟩ : ∃ parts, Literal.unsigned (skipWhitespace text) = parts :=
    ⟨_, rfl⟩
  rw [hparts] at opens
  refine ⟨negative, sign, cs, hparts, ?_⟩
  intro part q
  constructor
  · rintro ⟨negative', sign', front, rest, l, opens', number, hpart, hq⟩
    obtain ⟨c, more, hfront, first⟩ := number.numeral.exists_first
    rw [hfront, List.cons_append] at opens'
    have hparts' := opens'.unsigned_eq first
    rw [hparts] at hparts'
    obtain ⟨rfl, rfl⟩ := Prod.mk.inj hparts'
    have hsign := (opens.skipWhitespace first).symm.trans (opens'.skipWhitespace first)
    rw [List.append_cancel_right hsign]
    exact ⟨front, rest, l, by rw [hfront, List.cons_append], number, hpart, hq⟩
  · rintro ⟨front, rest, l, rfl, number, hpart, hq⟩
    exact ⟨negative, sign, front, rest, l, opens, number, hpart, hq⟩

theorem SpellsLongest.unique (longest : SpellsLongest text part q)
    (longest' : SpellsLongest text part' q') : part' = part ∧ q' = q := by
  have length : part.length = part'.length :=
    le_antisymm (longest'.2 part q longest.1) (longest.2 part' q' longest'.1)
  have same : part' = part := by
    obtain ⟨negative, sign, cs, -, spells_iff⟩ := exists_spells_iff text
    obtain ⟨front, rest, l, split, -, rfl, -⟩ := (spells_iff _ _).1 longest.1
    obtain ⟨front', rest', l', split', -, rfl, -⟩ := (spells_iff _ _).1 longest'.1
    rw [List.length_append, List.length_append, Nat.add_left_cancel_iff] at length
    rw [(List.append_inj (split.symm.trans split') length).1]
  subst same
  exact ⟨rfl, longest'.1.value_eq longest.1⟩

/-- A text is read as the number nearest to what its longest part spells, if this number is finite. -/
theorem double?_spec (text : String) :
    (double? text = none ∧ ∀ part q, ¬ Spells text part q) ∨
      ∃ (part : List Char) (q : ℚ) (x : Double), SpellsLongest text part q ∧ x.IsNearestTo q ∧
        double? text = if x.isFinite then some x.dropZeroSign else none := by
  obtain ⟨negative, sign, cs, unsigned, spells_iff⟩ := exists_spells_iff text
  rcases literalText?_spec cs with ⟨unread, none⟩ | ⟨front, rest, l, literal, longest, read, rewrites⟩
  · refine .inl ⟨?_, ?_⟩
    · rw [double?, unsigned]
      simp only [unread, Option.bind_none]
    · intro part q spells
      obtain ⟨front, rest, l, split, number, -⟩ := (spells_iff part q).1 spells
      exact none front rest l split number
  · have spells : Spells text (sign ++ front) (Double.signedRat negative l.toRat) :=
      (spells_iff _ _).2 ⟨front, rest, l, longest.split, longest.front, rfl, rfl⟩
    refine .inr ⟨_, _, l.value negative, ⟨spells, ?_⟩, l.value_isNearestTo negative,
      double?_eq unsigned read rewrites⟩
    intro part' q' spells'
    obtain ⟨front', rest', l', split', number', rfl, -⟩ := (spells_iff part' q').1 spells'
    simp only [List.length_append]
    exact Nat.add_le_add_left (longest.longest split' number') sign.length

section Longest

variable (longest : SpellsLongest text part q)
include longest

theorem SpellsLongest.exists_nearest :
    ∃ x : Double, x.IsNearestTo q ∧ double? text = if x.isFinite then some x.dropZeroSign else none := by
  rcases double?_spec text with ⟨-, none⟩ | ⟨part', q', x, longest', near, read⟩
  · exact absurd longest.1 (none part q)
  · obtain ⟨-, rfl⟩ := longest.unique longest'
    exact ⟨x, near, read⟩

theorem SpellsLongest.double?_eq_none_iff :
    double? text = none ↔ ∃ negative, (Double.infinite negative).IsNearestTo q := by
  obtain ⟨x, near, read⟩ := longest.exists_nearest
  rw [read, ← near.isFinite_eq_false_iff]
  cases x.isFinite <;> simp

theorem SpellsLongest.double?_eq_some_iff (x : Double) :
    double? text = some x ↔ x.isFinite = true ∧ x ≠ .zero true ∧ x.IsNearestTo q := by
  obtain ⟨y, near, read⟩ := longest.exists_nearest
  rw [read, ← near.eq_dropZeroSign_iff, Option.ite_none_right_eq_some]
  constructor
  · rintro ⟨finite, same⟩
    obtain rfl := Option.some.inj same
    exact ⟨(Double.isFinite_dropZeroSign y).trans finite, rfl⟩
  · rintro ⟨finite, rfl⟩
    exact ⟨(Double.isFinite_dropZeroSign y).symm.trans finite, rfl⟩

end Longest

theorem double?_congr (longest : SpellsLongest text part q) (longest' : SpellsLongest text' part q') :
    double? text' = double? text := by
  obtain rfl := longest.1.value_eq longest'.1
  apply Option.ext
  intro x
  rw [longest.double?_eq_some_iff, longest'.double?_eq_some_iff]

end AttributeNumber

/-- A text in which no part spells a number is read as none. Otherwise the longest part counts alone. The text
is read as the finite number nearest to what this part spells, which is never a negative zero, or as none if
infinity is nearest. -/
theorem texts_begin_with_nearest_doubles (text : String) :
    ((¬ ∃ part q, AttributeNumber.Spells text part q) ∧ AttributeNumber.double? text = none) ∨
      ∃ part q,
        (∀ part' q', AttributeNumber.SpellsLongest text part' q' ↔ part' = part ∧ q' = q) ∧
        (AttributeNumber.double? text = none ↔ ∃ negative, (Double.infinite negative).IsNearestTo q) ∧
        (∀ x, AttributeNumber.double? text = some x ↔
          x.isFinite = true ∧ x ≠ .zero true ∧ x.IsNearestTo q) ∧
        ∀ text' q', AttributeNumber.SpellsLongest text' part q' →
          q' = q ∧ AttributeNumber.double? text' = AttributeNumber.double? text := by
  rcases AttributeNumber.double?_spec text with ⟨unread, none⟩ | ⟨part, q, -, longest, -⟩
  · refine .inl ⟨?_, unread⟩
    rintro ⟨part, q, spells⟩
    exact none part q spells
  · refine .inr ⟨part, q, ?_, longest.double?_eq_none_iff, longest.double?_eq_some_iff, ?_⟩
    · intro part' q'
      constructor
      · intro longest'
        exact longest.unique longest'
      · rintro ⟨rfl, rfl⟩
        exact longest
    · intro text' q' longest'
      exact ⟨longest'.1.value_eq longest.1, AttributeNumber.double?_congr longest longest'⟩

/-- Behind a bare point no exponent counts, and neither does one without digits. -/
example : ["\t+12.e3", ".5e-", "-0e9", "1e309", "+-1"].map (fun text =>
    (AttributeNumber.double? text).map Double.toText) =
      [some "12", some "0.5", some "0", none, none] := by
  decide +kernel

end WebBindings
