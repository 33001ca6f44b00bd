import WebBindings.Proofs.Attribute.Integers
/-!
# Integers in the text of attributes

What integer properties give where an attribute has any text. One too great to be kept counts as the greatest
one of its sign, so they read no text as an integer in their range that it does not denote.
-/

namespace WebBindings

namespace AttributeNumber

theorem filter_kept {least greatest : ℤ} (low : -(2 ^ 63 - 1) < least) (high : greatest < 2 ^ 63 - 1)
    (d? : Option ℤ) :
    (d?.map kept).filter (fun n => least ≤ n ∧ n ≤ greatest) =
      d?.filter fun n => least ≤ n ∧ n ≤ greatest := by
  cases d? with
  | none => rfl
  | some d =>
    by_cases small : d.natAbs ≤ 2 ^ 63 - 1
    · rw [Option.map_some, kept, if_pos small]
    · have beyond : ¬ (least ≤ kept d ∧ kept d ≤ greatest) := by
        rw [kept, if_neg small]
        split <;> omega
      have beyond' : ¬ (least ≤ d ∧ d ≤ greatest) := by omega
      simp only [Option.map_some, Option.filter_some, beyond, beyond', decide_false, Bool.false_eq_true,
        if_false]

end AttributeNumber

namespace Reflector

/-- What a property gives wherever an attribute has a text. -/
def Reads (r : Reflector) (text : String) (content : r.Content) : Prop :=
  ∀ (σ : Type) (w : World σ) (id : ElementId) (name : String), w.attribute? id name = some text →
    r.get w id name = content

theorem Reads.of_ofText {r : Reflector} {text : String} {content : r.Content}
    (alone : ∀ resolver base, r ≠ .url resolver base) (reads : r.ofText (some text) = content) : r.Reads text content := by
  intro σ w id name present
  rw [get, read_eq_ofText alone, World.attributeView, present]
  exact reads

/-- An integer in a range up to the greatest one that is reflected, or a default. -/
def inRangeOr (default least : ℤ) : Option ℤ → ℤ
  | some d => if least ≤ d ∧ d ≤ 2 ^ 31 - 1 then d else default
  | none => default

/-- A nonnegative integer clamped to bounds, or a default. -/
def clampedOr (default lower upper : ℤ) : Option ℤ → ℤ
  | some d => if 0 ≤ d then max lower (min upper d) else default
  | none => default

/-- What the kinds of integer properties give where an attribute has a text that begins with an integer, or
with none. -/
structure ReadIntegers (text : String) (d? : Option ℤ) : Prop where
  int (default : ℤ) : (int default).Reads text (inRangeOr default (-2 ^ 31) d?)
  nonNegativeInt (default : ℤ) : (nonNegativeInt default).Reads text (inRangeOr default 0 d?)
  unsignedInt (default : ℤ) : (unsignedInt default).Reads text (inRangeOr default 0 d?)
  positiveInt (default : ℤ) : (positiveInt default).Reads text (inRangeOr default 1 d?)
  positiveIntOrDefault (default : ℤ) : (positiveIntOrDefault default).Reads text (inRangeOr default 1 d?)
  clampedInt {lower upper : ℤ} (default : ℤ) : lower ≤ upper → IntegerType.unsignedLong.Holds lower →
    IntegerType.unsignedLong.Holds upper →
      (clampedInt lower upper default).Reads text (clampedOr default lower upper d?)

open AttributeNumber

section Reading

variable {text : String} {d? : Option ℤ} (read : integer? text = d?.map kept)
include read

theorem getD_filter_integer? {least : ℤ} (low : -(2 ^ 63 - 1) < least) (default : ℤ) :
    ((integer? text).filter fun n => least ≤ n ∧ n ≤ 2 ^ 31 - 1).getD default =
      inRangeOr default least d? := by
  rw [read, filter_kept low (by decide)]
  cases d? with
  | none => rfl
  | some d =>
    simp only [Option.filter_some, inRangeOr, decide_eq_true_eq]
    split <;> rfl

theorem getD_intInRange?_text {least : ℤ} (nonneg : 0 ≤ least) (default : ℤ) :
    (intInRange? least (some text)).getD default = inRangeOr default least d? := by
  have same : intInRange? least (some text) =
      (integer? text).filter fun n => least ≤ n ∧ n ≤ 2 ^ 31 - 1 := by
    rw [intInRange?, Option.bind_some, nonNegative?, Option.filter_filter]
    congr 1
    funext n
    rw [← Bool.decide_and, decide_eq_decide]
    have greatest : maxInt = 2 ^ 31 - 1 := rfl
    omega
  rw [same]
  exact getD_filter_integer? read (by omega) default

theorem ofText_clampedInt {lower upper : ℤ} (proper : lower ≤ upper)
    (hlower : IntegerType.unsignedLong.Holds lower) (hupper : IntegerType.unsignedLong.Holds upper)
    (default : ℤ) :
    (clampedInt lower upper default).ofText (some text) = clampedOr default lower upper d? := by
  have bounds : 0 ≤ lower ∧ upper < 2 ^ 32 := ⟨hlower.1, hupper.2⟩
  simp only [ofText, Option.bind_some, nonNegative?, read]
  cases d? with
  | none => rfl
  | some d =>
    have sign : 0 ≤ kept d ↔ 0 ≤ d := by
      rw [kept]
      split_ifs <;> omega
    by_cases nonneg : 0 ≤ d
    · rw [Option.map_some, Option.filter_some, if_pos (by simpa [sign] using nonneg), clampedOr, if_pos nonneg]
      change (if kept d < lower then lower else if upper < kept d then upper else kept d : ℤ) =
        max lower (min upper d)
      rw [kept]
      split_ifs <;> omega
    · rw [Option.map_some, Option.filter_some, if_neg (by simpa [sign] using nonneg), clampedOr, if_neg nonneg]

theorem readIntegers : ReadIntegers text d? where
  int default := .of_ofText nofun (getD_filter_integer? read (by decide) default)
  nonNegativeInt default := .of_ofText nofun (getD_intInRange?_text read (by decide) default)
  unsignedInt default := .of_ofText nofun (getD_intInRange?_text read (by decide) default)
  positiveInt default := .of_ofText nofun (getD_intInRange?_text read (by decide) default)
  positiveIntOrDefault default := .of_ofText nofun (getD_intInRange?_text read (by decide) default)
  clampedInt default proper hlower hupper :=
    .of_ofText nofun (ofText_clampedInt read proper hlower hupper default)

end Reading

end Reflector

/-- A text is read as no integer just if no digit follows in it behind white space and a sign, and integer
properties then give their defaults. Otherwise it denotes one integer by all the digits that follow, and is
read as this one or, if it is too great to be kept, as the greatest one of its sign. Integer properties give
the integer that is denoted, if it is in their range, or clamped to their bounds. -/
theorem attribute_integers_do_not_alias (text : String) :
    (AttributeNumber.integer? text = none ↔ ¬ AttributeNumber.DigitFollows text) ∧
      (¬ AttributeNumber.DigitFollows text → Reflector.ReadIntegers text none) ∧
      (AttributeNumber.DigitFollows text →
        ∃ d, (∀ e, AttributeNumber.BeginsWith text e ↔ e = d) ∧
          AttributeNumber.integer? text = some (AttributeNumber.kept d) ∧
          Reflector.ReadIntegers text (some d)) := by
  refine ⟨AttributeNumber.integer?_eq_none_iff, ?_, ?_⟩
  · intro nothing
    exact Reflector.readIntegers (AttributeNumber.integer?_eq_none_iff.2 nothing)
  · intro follows
    obtain ⟨d, begins⟩ := AttributeNumber.exists_beginsWith follows
    have read := AttributeNumber.integer?_of_beginsWith begins
    refine ⟨d, ?_, read, Reflector.readIntegers read⟩
    intro e
    constructor
    · intro begins'
      exact begins'.unique begins
    · rintro rfl
      exact begins

/-- The number 2 ^ 64 + 1 is no positive integer of an attribute, and is clamped to the upper bound. -/
theorem overlong_integer_reads_default :
    let text := "\t+18446744073709551617px"
    (Reflector.positiveInt 7).Reads text (7 : ℤ) ∧ (Reflector.clampedInt 2 9 7).Reads text (9 : ℤ) := by
  intro text
  have opens : AttributeNumber.Opens text false ['+'] ("18446744073709551617".toList ++ ['p', 'x']) :=
    ⟨.plus, ['\t'], by decide +kernel, List.forall_mem_singleton.2 rfl⟩
  have follows : AttributeNumber.DigitFollows text := ⟨false, ['+'], _, _, opens, by decide +kernel⟩
  obtain ⟨d, denotes, -, reads⟩ := (attribute_integers_do_not_alias text).2.2 follows
  have stop : NoDigit ['p', 'x'] := by
    rintro c rest ⟨⟩
    decide
  have begins : AttributeNumber.BeginsWith text 18446744073709551617 :=
    ⟨false, ['+'], _, _, opens, by decide +kernel, List.all_eq_true.1 (by decide +kernel), stop,
      by decide +kernel⟩
  obtain rfl := (denotes _).1 begins
  exact ⟨reads.positiveInt 7, reads.clampedInt 7 (by decide) (by decide) (by decide)⟩

end WebBindings
