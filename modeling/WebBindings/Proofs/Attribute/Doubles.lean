import WebBindings.Proofs.Attribute.Integers
import WebBindings.Proofs.Number.Printed
/-!
# Floating-point properties

Floating-point properties are written as the text of a number and read back from it. A property of
positive numbers is not written for other ones.
-/

namespace WebBindings

variable {σ : Type} {host : Host σ}

theorem Double.isPositive_iff {negative : Bool} {m : Magnitude} :
    (finite negative m).isPositive = true ↔ 0 < signedRat negative m.toRat := by
  have nonneg := m.toRat_nonneg
  cases negative with
  | false => simp [isPositive, signedRat, nonneg.lt_iff_ne', m.toRat_eq_zero]
  | true => simp [isPositive, signedRat, nonneg]

namespace Reflector

variable {w w' : World σ} {id : ElementId} {name : String} {value : Value} {negative : Bool}
  {m : Magnitude}

/-- Setting the property comes to a good end and changes no element after the value was converted. -/
def Ignores (r : Reflector) (host : Host σ) (w w' : World σ) (id : ElementId) (name : String)
    (value : Value) : Prop :=
  ∃ w'', outcome host (r.set id name value).run w = (.ok ⟨⟩, w'') ∧ w''.elements = w'.elements

section Setting

variable (valid : Element.isValidAttributeName name = true) (housed : id.index < w'.elements.size)
  (coerced : outcome host (toDouble value).run w = (.ok (.finite negative m), w'))
include valid housed coerced

theorem double_setsTo (d : Double) :
    (double d).SetsTo host w id name value (Double.finite negative m).dropZeroSign := by
  refine .of_text coerced rfl rfl valid housed nofun ?_
  simp only [ofText, Option.bind_some, Double.double?_toText]
  rfl

theorem positiveDouble_setsTo (positive : (Double.finite negative m).isPositive = true) (d : Double) :
    (positiveDouble d).SetsTo host w id name value (Double.finite negative m) := by
  have nonzero : (Double.finite negative m).isZero = false := by
    simp only [Double.isPositive, Bool.and_eq_true, decide_eq_true_eq] at positive
    simpa [Double.isZero] using positive.2
  have same : (Double.finite negative m).dropZeroSign = Double.finite negative m :=
    Double.dropZeroSign_of_nonzero nonzero
  have writing : (positiveDouble d).writing name (Double.finite negative m : Double) =
      .ok (.ofText (Double.finite negative m).toText) :=
    congrArg Except.ok (if_pos (by rw [positive]; rfl))
  have alone : ∀ resolver base, positiveDouble d ≠ .url resolver base := fun _ _ => Reflector.noConfusion
  refine .of_text coerced writing rfl valid housed alone ?_
  simp only [ofText, Option.bind_some, Double.double?_toText, same, Option.filter_some, positive,
    if_true]
  rfl

end Setting

theorem Ignores.of_keep {r : Reflector} {content : r.Content} {note : String}
    (coerced : outcome host (r.coerce value).run w = (.ok content, w'))
    (writing : r.writing name content = .ok ⟨some note, .keep⟩) : r.Ignores host w w' id name value := by
  have kept : outcome host (AttributeWrite.apply ⟨some note, .keep⟩ id name).run w' =
      (.ok ⟨⟩, (outcome host (log .debug note) w').2) :=
    outcome_run_bind host _ (outcome_perform host w' _)
  refine ⟨(outcome host (log .debug note) w').2, ?_, rfl⟩
  rw [Reflector.set, outcome_run_bind host _ coerced, write, writing]
  exact kept

theorem positiveDouble_ignores
    (coerced : outcome host (toDouble value).run w = (.ok (.finite negative m), w'))
    (other : (Double.finite negative m).isPositive = false) (d : Double) :
    (positiveDouble d).Ignores host w w' id name value :=
  .of_keep coerced (congrArg Except.ok (if_neg (by rw [other]; exact Bool.false_ne_true)))

end Reflector

/-- Every finite number round trips as text. Hence a number that a value converts to comes back from a
floating-point property to which the value is set, but for the sign of zero. It comes back from a property of
positive numbers if it is positive; otherwise setting this property leaves all attributes as they are. -/
theorem doubles_read_back (negative : Bool) (m : Magnitude) :
    Double.RoundTrips negative m ∧
    ∀ {σ : Type} {host : Host σ} {w w' : World σ} {id : ElementId} {name : String} {value : Value},
      Element.isValidAttributeName name = true → id.index < w'.elements.size →
      outcome host (toDouble value).run w = (.ok (.finite negative m), w') → ∀ d : Double,
        (Reflector.double d).SetsTo host w id name value (Double.finite negative m).dropZeroSign ∧
        (0 < Double.signedRat negative m.toRat →
          (Reflector.positiveDouble d).SetsTo host w id name value (Double.finite negative m)) ∧
        (Double.signedRat negative m.toRat ≤ 0 →
          (Reflector.positiveDouble d).Ignores host w w' id name value) := by
  refine ⟨Double.roundTrips negative m, fun valid housed coerced d => ⟨?_, fun positive => ?_, fun other => ?_⟩⟩
  · exact Reflector.double_setsTo valid housed coerced d
  · exact Reflector.positiveDouble_setsTo valid housed coerced (Double.isPositive_iff.2 positive) d
  · refine Reflector.positiveDouble_ignores coerced ?_ d
    rw [Bool.eq_false_iff]
    exact fun positive => absurd (Double.isPositive_iff.1 positive) (not_lt.2 other)

/-- Minus one comes back from a floating-point property, and one of positive numbers ignores it. -/
theorem minus_one_reads_back :
    let one : Magnitude := ⟨2 ^ 52, 1022, by decide, .inr le_rfl, by decide⟩
    let host := (Embedder.answering "").host
    (Reflector.double (.zero false)).SetsTo host labeledWorld ⟨0⟩ "Value" (.number (.finite true one))
        (Double.finite true one) ∧
      (Reflector.positiveDouble (.zero false)).Ignores host labeledWorld labeledWorld ⟨0⟩ "Value"
        (.number (.finite true one)) := by
  intro one host
  have valid : Element.isValidAttributeName "Value" = true := by decide +kernel
  have housed : (⟨0⟩ : ElementId).index < labeledWorld.elements.size := by decide
  have coerced : outcome host (toDouble (.number (.finite true one))).run labeledWorld =
      (.ok (.finite true one), labeledWorld) := rfl
  obtain ⟨double, -, ignores⟩ := (doubles_read_back true one).2 valid housed coerced (.zero false)
  refine ⟨double, ignores ?_⟩
  have nonneg := one.toRat_nonneg
  simp only [Double.signedRat, if_true]
  linarith

end WebBindings
