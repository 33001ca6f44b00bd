import WebBindings.Proofs.Motion
import WebBindings.Proofs.Number.Difference
import WebBindings.Proofs.Script.Order
/-!
# Subtraction and negation

Differences of numbers are sums with the negated number. Integers are negated and added exactly, but a
subtraction makes numbers of its operands and so refuses them, the left one even before the right operand
is evaluated. A number and an integer go together in neither.
-/

namespace WebBindings.Script

variable {σ α β : Type}

section Evaluations

variable {host : Host σ} {parameter parameter' : Value} {w w' : World σ}

/-- How an evaluation ends: with a value and the parameter as it then is, or with an error. -/
def evaluated (host : Host σ) (f : Frame) (e : Expression) (parameter : Value) (w : World σ) :
    Except ScriptError (Value × Value) × World σ :=
  outcome host ((evaluate refuse f e).run parameter).run w

theorem outcome_evaluation_bind {m : Evaluation σ α} (k : α → Evaluation σ β) {a : α}
    (first : outcome host (m.run parameter).run w = (.ok (a, parameter'), w')) :
    outcome host ((m >>= k).run parameter).run w = outcome host ((k a).run parameter').run w' := by
  rw [StateT.run_bind]
  exact outcome_run_bind host _ first

theorem toNumber_number (x : Double) : (toNumber (.number x) : WebBindings.Script σ Double) = pure x :=
  rfl

theorem toNumber_bigInt (n : Int) :
    (toNumber (.bigInt n) : WebBindings.Script σ Double) = raise .bigIntAsNumber := rfl

theorem outcome_lift_raise (cause : Fault) (k : α → Evaluation σ β) :
    outcome host ((lift (raise cause) >>= k).run parameter).run w = (.error (.fault cause), w) := rfl

end Evaluations

section Operators

variable {host : Host σ} {f : Frame} {l r : Expression} {x y : Value}
variable {p p' p'' : Value} {w w' w'' : World σ}

theorem evaluated_negate (operand : evaluated host f r p w = (.ok (y, p'), w')) :
    evaluated host f (.unary .negate r) p w = outcome host ((lift (negateValue y)).run p').run w' := by
  rw [evaluated, evaluate]
  exact outcome_evaluation_bind _ operand

theorem evaluated_add (left : evaluated host f l p w = (.ok (x, p'), w'))
    (right : evaluated host f r p' w' = (.ok (y, p''), w'')) :
    evaluated host f (.binary .add l r) p w = outcome host ((lift (addValues x y)).run p'').run w'' := by
  rw [evaluated, evaluate, outcome_evaluation_bind _ left]
  exact outcome_evaluation_bind _ right

theorem evaluated_subtract_number {a : Double} (left : evaluated host f l p w = (.ok (.number a, p'), w'))
    (right : evaluated host f r p' w' = (.ok (y, p''), w'')) :
    evaluated host f (.binary .subtract l r) p w =
      outcome host ((lift (subtractValue a y)).run p'').run w'' := by
  rw [evaluated, evaluate, outcome_evaluation_bind _ left, toNumber_number, lift_pure, pure_bind]
  exact outcome_evaluation_bind _ right

/-- An integer on the left is refused before the right operand is evaluated. -/
theorem evaluated_subtract_bigInt {m : Int} (left : evaluated host f l p w = (.ok (.bigInt m, p'), w')) :
    evaluated host f (.binary .subtract l r) p w = (.error (.fault .bigIntAsNumber), w') := by
  rw [evaluated, evaluate, outcome_evaluation_bind _ left, toNumber_bigInt, outcome_lift_raise]

theorem evaluated_negate_number {b : Double} (operand : evaluated host f r p w = (.ok (.number b, p'), w')) :
    evaluated host f (.unary .negate r) p w = (.ok (.number b.neg, p'), w') := by
  rw [evaluated_negate operand]
  rfl

theorem evaluated_negate_bigInt {n : Int} (operand : evaluated host f r p w = (.ok (.bigInt n, p'), w')) :
    evaluated host f (.unary .negate r) p w = (.ok (.bigInt (-n), p'), w') := by
  rw [evaluated_negate operand]
  rfl

/-- A number and an integer, in one of the two orders. -/
def Mixed (x y : Value) : Prop :=
  (∃ a n, x = .number a ∧ y = .bigInt n) ∨ ∃ m b, x = .bigInt m ∧ y = .number b

theorem subtract_mixed (left : evaluated host f l p w = (.ok (x, p'), w'))
    (right : evaluated host f r p' w' = (.ok (y, p''), w'')) (mixed : Mixed x y) :
    (evaluated host f (.binary .subtract l r) p w).1 = .error (.fault .bigIntAsNumber) := by
  rcases mixed with ⟨a, n, rfl, rfl⟩ | ⟨m, b, rfl, rfl⟩
  · rw [evaluated_subtract_number left right]
    rfl
  · rw [evaluated_subtract_bigInt left]

theorem add_negated_mixed (left : evaluated host f l p w = (.ok (x, p'), w'))
    (right : evaluated host f r p' w' = (.ok (y, p''), w'')) (mixed : Mixed x y) :
    (evaluated host f (.binary .add l (.unary .negate r)) p w).1 = .error (.fault .mixedBigInt) := by
  rcases mixed with ⟨a, n, rfl, rfl⟩ | ⟨m, b, rfl, rfl⟩
  · rw [evaluated_add left (evaluated_negate_bigInt right)]
    rfl
  · rw [evaluated_add left (evaluated_negate_number right)]
    rfl

/-- Of two operands that have their values one after the other: for numbers, the subtraction and the sum
with the negated operand end alike, with the difference of the numbers; for integers, the sum with the
negated operand is their exact difference, while the subtraction raises a `TypeError` once the left one
has its value; and for a number and an integer both raise a `TypeError`. -/
theorem subtractions_and_negated_sums (left : evaluated host f l p w = (.ok (x, p'), w'))
    (right : evaluated host f r p' w' = (.ok (y, p''), w'')) :
    let difference := evaluated host f (.binary .subtract l r) p w
    let sum := evaluated host f (.binary .add l (.unary .negate r)) p w
    (∀ a b, x = .number a → y = .number b →
      ∃ c, a.IsDifference b c ∧ difference = (.ok (.number c, p''), w'') ∧ sum = difference) ∧
    (∀ m n, x = .bigInt m → y = .bigInt n →
      sum = (.ok (.bigInt (m - n), p''), w'') ∧ difference = (.error (.fault .bigIntAsNumber), w')) ∧
    (Mixed x y → difference.1 = .error (.fault .bigIntAsNumber) ∧ sum.1 = .error (.fault .mixedBigInt)) ∧
    (ScriptError.fault .bigIntAsNumber).isTypeError ∧ (ScriptError.fault .mixedBigInt).isTypeError := by
  refine ⟨?_, ?_, ?_, rfl, rfl⟩
  · rintro a b rfl rfl
    have subtracted : evaluated host f (.binary .subtract l r) p w = (.ok (.number (a.sub b), p''), w'') := by
      rw [evaluated_subtract_number left right]
      rfl
    have summed : evaluated host f (.binary .add l (.unary .negate r)) p w =
        (.ok (.number (a.add b.neg), p''), w'') := by
      rw [evaluated_add left (evaluated_negate_number right)]
      rfl
    exact ⟨a.sub b, Double.sub_isDifference a b, subtracted, summed.trans subtracted.symm⟩
  · rintro m n rfl rfl
    constructor
    · rw [evaluated_add left (evaluated_negate_bigInt right), Int.sub_eq_add_neg]
      rfl
    · exact evaluated_subtract_bigInt left
  · intro mixed
    exact ⟨subtract_mixed left right mixed, add_negated_mixed left right mixed⟩

end Operators

/-- One less three is minus two, and so is the sum of one and minus three. -/
theorem one_less_three :
    let f : Frame := ⟨⟨[], ⟨0⟩⟩, .undefined⟩
    let w : World (List Nat) := World.initial []
    let one := Expression.constant (.number (.ofNat 1))
    let three := Expression.constant (.number (.ofNat 3))
    evaluated noting.host f (.binary .subtract one three) .null w =
        (.ok (.number (.ofInt (-2)), .null), w) ∧
      evaluated noting.host f (.binary .add one (.unary .negate three)) .null w =
        (.ok (.number (.ofInt (-2)), .null), w) := by
  intro f w one three
  have left : evaluated noting.host f one .null w = (.ok (.number (.ofNat 1), .null), w) := rfl
  have right : evaluated noting.host f three .null w = (.ok (.number (.ofNat 3), .null), w) := rfl
  obtain ⟨numbers, -⟩ := subtractions_and_negated_sums left right
  obtain ⟨c, difference, subtracted, same⟩ := numbers _ _ rfl rfl
  have value : c = .ofInt (-2) := by
    rw [← Double.isDifference_iff.1 difference]
    decide +kernel
  rw [value] at subtracted
  exact ⟨subtracted, same.trans subtracted⟩

/-- A heap with one object, in which two names have integers. -/
def integers : Heap :=
  ⟨#[((Object.blank .ordinary none).define (.ofText "a") (.data (.bigInt 5))).define (.ofText "b")
    (.data (.bigInt 3))]⟩

/-- How a program ends where these names are in scope. -/
def ended (p : Program) : Except ScriptError Value :=
  (outcome noting.host (p.run ⟨[], ⟨0⟩⟩ .undefined .undefined).run
    { World.initial [] with heap := integers }).1

/-- The sum with a negated integer is the difference, which the subtraction does not give. -/
theorem integers_are_not_subtracted : ∃ p q, Program.ofText? "return a-b" = .ok p ∧
    Program.ofText? "return a+-b" = .ok q ∧ ended p = .error (.fault .bigIntAsNumber) ∧
      ended q = .ok (.bigInt 2) := by
  let start : List Lexeme := [⟨.identifier "return", 0, 6, false⟩, ⟨.identifier "a", 7, 8, false⟩]
  have lexed : lexemes "return a-b" = .ok (start ++ [⟨.punctuator .minus, 8, 9, false⟩,
      ⟨.identifier "b", 9, 10, false⟩, ⟨.endOfInput, 10, 10, false⟩]) := by decide +kernel
  have lexed' : lexemes "return a+-b" = .ok (start ++ [⟨.punctuator .plus, 8, 9, false⟩,
      ⟨.punctuator .minus, 9, 10, false⟩, ⟨.identifier "b", 10, 11, false⟩,
      ⟨.endOfInput, 11, 11, false⟩]) := by decide +kernel
  refine ⟨⟨[.ret (some (.binary .subtract (.identifier "a") (.identifier "b")))]⟩,
    ⟨[.ret (some (.binary .add (.identifier "a") (.unary .negate (.identifier "b"))))]⟩, ?_, ?_, rfl, rfl⟩
  · exact bind_eq_ok_iff.2 ⟨_, lexed, rfl⟩
  · exact bind_eq_ok_iff.2 ⟨_, lexed', rfl⟩

end WebBindings.Script
