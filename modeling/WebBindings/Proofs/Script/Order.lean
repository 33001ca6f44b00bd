import WebBindings.Invocation
import WebBindings.Proofs.Script.Parsing
/-!
# The order of evaluation

An expression should evaluate all its operands, from left to right, before it does anything with their
values: the base and the key of an assigned property before the assigned value, the callee before the
arguments, both operands of an operator before one of them is converted. Assignments to properties and
subtractions do not. Where that cannot be told, because what is moved does nothing, a program runs in
this order.
-/

namespace WebBindings.Script

variable {σ : Type}

/-- What an expression refers to before it is read, called or written. -/
inductive Reference
  | value (v : Value)
  | name (name : String)
  | property (base key : Value)

namespace Reference

/-- The function that a call through the reference calls, and its receiver. -/
def callee (f : Frame) : Reference → Evaluation σ (Value × Value)
  | .value v => return (v, .undefined)
  | .name n => readName f n
  | .property base key => lift do return (← readProperty base (← toPropertyKey key), base)

def read (f : Frame) (r : Reference) : Evaluation σ Value := do return (← r.callee f).1

def write (f : Frame) (v : Value) : Reference → Evaluation σ Unit
  | .value _ => lift (raise .invalidTarget)
  | .name n => writeName f n v
  | .property base key => lift do writeProperty base (← toPropertyKey key) v

/-- The type of what is referred to; a name that is not found has one, too. -/
def typeOf (f : Frame) : Reference → Evaluation σ Value
  | .name n => do
    if ← lift (isReadable f n) then
      let value ← (Reference.name n).read f
      lift (typeOfValue value)
    else return .ofText "undefined"
  | r => do
    let value ← r.read f
    lift (typeOfValue value)

end Reference

mutual

/-- Evaluate an expression, operands first. -/
def refer (f : Frame) : Expression → Evaluation σ Reference
  | .constant c => return .value c.value
  | .identifier name => return .name name
  | .this => return .value f.this
  | .member object name => do
    let base ← (← refer f object).read f
    return .property base (.ofText name)
  | .index object index => do
    let base ← (← refer f object).read f
    let key ← (← refer f index).read f
    return .property base key
  | .call callee arguments => do
    let (function, receiver) ← (← refer f callee).callee f
    let values ← referAll f arguments
    return .value (← lift (callValue function receiver values))
  | .unary .not operand => do
    let value ← (← refer f operand).read f
    return .value (.boolean !value.toBoolean)
  | .unary .negate operand => do
    let value ← (← refer f operand).read f
    return .value (← lift (negateValue value))
  | .unary .typeOf operand => do
    let operand ← refer f operand
    return .value (← operand.typeOf f)
  | .binary .and left right => do
    let value ← (← refer f left).read f
    if value.toBoolean then return .value (← (← refer f right).read f) else return .value value
  | .binary .or left right => do
    let value ← (← refer f left).read f
    if value.toBoolean then return .value value else return .value (← (← refer f right).read f)
  | .binary .add left right => do
    let a ← (← refer f left).read f
    let b ← (← refer f right).read f
    return .value (← lift (addValues a b))
  | .binary .subtract left right => do
    let a ← (← refer f left).read f
    let b ← (← refer f right).read f
    return .value (← lift do subtractValue (← toNumber a) b)
  | .binary .strictEqual left right => do
    let a ← (← refer f left).read f
    let b ← (← refer f right).read f
    return .value (.boolean (a.strictEquals b))
  | .binary .strictNotEqual left right => do
    let a ← (← refer f left).read f
    let b ← (← refer f right).read f
    return .value (.boolean !(a.strictEquals b))
  | .assign target source => do
    let target ← refer f target
    let value ← (← refer f source).read f
    target.write f value
    return .value value
termination_by structural e => e

def referAll (f : Frame) : List Expression → Evaluation σ (List Value)
  | [] => return []
  | e :: rest => do
    let value ← (← refer f e).read f
    return value :: (← referAll f rest)
termination_by structural es => es

end

/-- The value of an expression, operands first. -/
def Expression.valueInOrder (f : Frame) (e : Expression) : Evaluation σ Value := do
  (← refer f e).read f

/-- Run a program, the operands of every expression first. -/
def Program.runInOrder (p : Program) (chain : ScopeChain) (this event : Value) :
    WebBindings.Script σ Value :=
  p.runWith Expression.valueInOrder chain this event

/-- Whether an expression always has the same value and does nothing else. -/
def Expression.isInert : Expression → Bool
  | .constant _ | .this => true
  | _ => false

/-- Whether the value of an expression is always that of some constant, which becomes a number without
a call. -/
def Expression.isPlain : Expression → Bool
  | .constant _ | .unary .not _ | .unary .typeOf _ => true
  | .binary .subtract _ _ | .binary .strictEqual _ _ | .binary .strictNotEqual _ _ => true
  | _ => false

mutual

/-- Whether the order cannot be told in the subtractions and the assignments to properties of an
expression: the left operand of a subtraction is plain or its right operand is inert, and the base and
the key of an assigned property are inert or the assigned value is. -/
def Expression.keepsOrder : Expression → Bool
  | .constant _ | .identifier _ | .this => true
  | .member object _ => object.keepsOrder
  | .index object key => object.keepsOrder && key.keepsOrder
  | .call callee arguments => callee.keepsOrder && Expression.allKeepOrder arguments
  | .unary _ operand => operand.keepsOrder
  | .binary .subtract left right =>
    left.keepsOrder && right.isInert || left.keepsOrder && left.isPlain && right.keepsOrder
  | .binary _ left right => left.keepsOrder && right.keepsOrder
  | .assign (.identifier _) source => source.keepsOrder
  | .assign (.member object _) source =>
    object.isInert && source.keepsOrder || object.keepsOrder && source.isInert
  | .assign (.index object key) source =>
    object.isInert && key.isInert && source.keepsOrder ||
      object.keepsOrder && key.keepsOrder && source.isInert
  | .assign _ _ => false

def Expression.allKeepOrder : List Expression → Bool
  | [] => true
  | e :: rest => e.keepsOrder && Expression.allKeepOrder rest

end

mutual

/-- Whether all expressions of a statement pass a test. -/
def Statement.passes (test : Expression → Bool) : Statement → Bool
  | .empty | .ret none => true
  | .expression e | .ret (some e) | .throw e => test e
  | .ifThen condition consequent => test condition && consequent.passes test
  | .ifElse condition consequent alternate =>
    test condition && consequent.passes test && alternate.passes test
  | .block body => Statement.allPass test body

def Statement.allPass (test : Expression → Bool) : List Statement → Bool
  | [] => true
  | s :: rest => s.passes test && Statement.allPass test rest

end

/-- Whether all expressions of a program keep the order. -/
def Program.keepsOrder (p : Program) : Bool := Statement.allPass Expression.keepsOrder p.body

theorem toPropertyKey_ofText (name : String) :
    (toPropertyKey (.ofText name) : WebBindings.Script σ PropertyKey) = pure (.ofText name) := rfl

theorem lift_pure {α : Type} (a : α) : (lift (pure a) : Evaluation σ α) = pure a := rfl

theorem lift_bind {α β : Type} (s : WebBindings.Script σ α) (g : α → WebBindings.Script σ β) :
    (lift (s >>= g) : Evaluation σ β) = lift s >>= fun a => lift (g a) := by
  apply StateT.ext
  simp [lift]

section Frames

variable (f : Frame)

theorem Reference.callee_value (v : Value) :
    ((Reference.value v).callee f : Evaluation σ (Value × Value)) = pure (v, .undefined) := rfl

theorem Reference.read_value (v : Value) :
    ((Reference.value v).read f : Evaluation σ Value) = pure v := rfl

theorem Reference.read_name (n : String) :
    ((Reference.name n).read f : Evaluation σ Value) = (do return (← readName f n).1) := rfl

theorem Reference.callee_property (base key : Value) :
    ((Reference.property base key).callee f : Evaluation σ (Value × Value)) = (do
      let function ← lift (do readProperty base (← toPropertyKey key))
      return (function, base)) := by
  simp only [callee, lift_bind, lift_pure, bind_assoc]

theorem Reference.read_property (base key : Value) :
    ((Reference.property base key).read f : Evaluation σ Value) =
      lift (do readProperty base (← toPropertyKey key)) := by
  simp only [read, callee_property, bind_assoc, pure_bind, bind_pure]

variable (σ) in
theorem inert_value {e : Expression} (h : e.isInert = true) : ∃ v,
    (evaluate refuse f e : Evaluation σ Value) = pure v ∧
      (refer f e : Evaluation σ Reference) = pure (.value v) := by
  cases e with
  | constant | this => exact ⟨_, rfl, rfl⟩
  | _ => cases h

theorem refer_of_not_assignable {e : Expression} (h : e.isAssignable = false) :
    (refer f e : Evaluation σ Reference) = (do return .value (← e.valueInOrder f)) := by
  simp only [Expression.valueInOrder]
  cases e with
  | identifier | member | index => cases h
  | constant | this => rfl
  | call => simp only [refer, bind_assoc, pure_bind, Reference.read_value]
  | assign => simp only [refer, bind_assoc, pure_bind, Reference.read_value]
  | unary operator =>
    cases operator <;> simp only [refer, bind_assoc, pure_bind, Reference.read_value]
  | binary operator =>
    cases operator <;> simp only [refer, bind_assoc, pure_bind, Reference.read_value]
    all_goals
      refine bind_congr fun _ => bind_congr fun value => ?_
      split <;> simp only [bind_assoc, pure_bind, Reference.read_value]

theorem evaluate_call_of_not_assignable (refusal : Evaluation σ Value) {callee : Expression}
    (arguments : List Expression) (h : callee.isAssignable = false) :
    (evaluate refusal f (.call callee arguments) : Evaluation σ Value) = (do
      let function ← evaluate refusal f callee
      let values ← evaluateAll refusal f arguments
      lift (callValue function .undefined values)) := by
  cases callee with
  | identifier | member | index => cases h
  | _ => rfl

theorem evaluate_typeOf (refusal : Evaluation σ Value) {operand : Expression} (h : ∀ name, operand ≠ .identifier name) :
    (evaluate refusal f (.unary .typeOf operand) : Evaluation σ Value) = (do
      let value ← evaluate refusal f operand
      lift (typeOfValue value)) := by
  cases operand with
  | identifier name => exact absurd rfl (h name)
  | _ => rfl

theorem toNumber_constant (c : Constant) : ∃ x,
    (toNumber c.value : WebBindings.Script σ Double) = pure x := by
  cases c <;> exact ⟨_, rfl⟩

theorem lift_typeOfValue (v : Value) : (lift (typeOfValue v) : Evaluation σ Value) = (do
    let heap ← lift getHeap
    return (Constant.text (heap.typeOf v)).value) := by
  rw [typeOfValue, lift_bind]
  rfl

variable (σ) in
theorem exists_constant_of_isPlain {e : Expression} (h : e.isPlain = true) :
    ∃ g : Evaluation σ Constant, evaluate refuse f e = (do return (← g).value) := by
  cases e with
  | constant c => exact ⟨pure c, rfl⟩
  | unary operator operand =>
    cases operator with
    | not =>
      refine ⟨do return .boolean !(← evaluate refuse f operand).toBoolean, ?_⟩
      simp only [evaluate, bind_assoc, pure_bind, Constant.value]
    | negate => cases h
    | typeOf =>
      by_cases named : ∃ name, operand = .identifier name
      · obtain ⟨name, rfl⟩ := named
        refine ⟨do
          if ← lift (isReadable f name) then
            let (value, _) ← readName f name
            let heap ← lift getHeap
            return .text (heap.typeOf value)
          else return .text "undefined", ?_⟩
        simp only [evaluate, lift_typeOfValue, bind_assoc]
        refine bind_congr fun readable => ?_
        split
        · simp only [bind_assoc, pure_bind]
        · rfl
      · refine ⟨do
          let value ← evaluate refuse f operand
          let heap ← lift getHeap
          return .text (heap.typeOf value), ?_⟩
        rw [evaluate_typeOf f refuse fun name h => named ⟨name, h⟩]
        simp only [lift_typeOfValue, bind_assoc, pure_bind]
  | binary operator left right =>
    cases operator with
    | subtract =>
      refine ⟨do
        let minuend ← lift (toNumber (← evaluate refuse f left))
        let subtrahend ← lift (toNumber (← evaluate refuse f right))
        return .number (minuend.sub subtrahend), ?_⟩
      simp only [evaluate, subtractValue, lift_bind, lift_pure, bind_assoc, pure_bind, Constant.value]
    | strictEqual =>
      refine ⟨do
        let a ← evaluate refuse f left
        return .boolean (a.strictEquals (← evaluate refuse f right)), ?_⟩
      simp only [evaluate, bind_assoc, pure_bind, Constant.value]
    | strictNotEqual =>
      refine ⟨do
        let a ← evaluate refuse f left
        return .boolean !(a.strictEquals (← evaluate refuse f right)), ?_⟩
      simp only [evaluate, bind_assoc, pure_bind, Constant.value]
    | _ => cases h
  | _ => cases h

theorem refer_typeOf {operand : Expression} (h : ∀ name, operand ≠ .identifier name) :
    (do (← refer f operand).typeOf f : Evaluation σ Value) = (do
      let value ← operand.valueInOrder f
      lift (typeOfValue value)) := by
  cases operand with
  | identifier name => exact absurd rfl (h name)
  | member | index =>
    simp only [Expression.valueInOrder, refer, bind_assoc, pure_bind, Reference.typeOf]
  | _ =>
    rw [refer_of_not_assignable f rfl]
    simp only [bind_assoc, pure_bind, Reference.typeOf, Reference.read_value]

mutual

/-- What keeps the order is evaluated operands first. -/
theorem evaluate_eq_valueInOrder (e : Expression) (kept : e.keepsOrder = true) :
    (evaluate refuse f e : Evaluation σ Value) = e.valueInOrder f := by
  match e, kept with
  | .constant c, _ => rfl
  | .this, _ => rfl
  | .identifier name, _ => rfl
  | .member object name, kept =>
    have hobject := evaluate_eq_valueInOrder object kept
    simp only [evaluate, hobject, Expression.valueInOrder, refer, bind_assoc, pure_bind,
      Reference.read_property, toPropertyKey_ofText]
  | .index object key, kept =>
    obtain ⟨keptObject, keptKey⟩ := Bool.and_eq_true_iff.1 kept
    have hobject := evaluate_eq_valueInOrder object keptObject
    have hkey := evaluate_eq_valueInOrder key keptKey
    simp only [evaluate, hobject, hkey, Expression.valueInOrder, refer, bind_assoc, pure_bind,
      Reference.read_property]
  | .call callee arguments, kept =>
    obtain ⟨keptCallee, keptArguments⟩ := Bool.and_eq_true_iff.1 kept
    have hcallee := evaluate_eq_valueInOrder callee keptCallee
    have harguments := evaluateAll_eq_referAll arguments keptArguments
    cases hplace : callee.isAssignable with
    | false =>
      rw [evaluate_call_of_not_assignable f refuse arguments hplace, hcallee, harguments]
      change _ = (do (← refer f (.call callee arguments)).read f)
      rw [refer, refer_of_not_assignable f hplace]
      simp only [bind_assoc, pure_bind, Reference.callee_value, Reference.read_value, bind_pure]
    | true =>
      match callee, keptCallee, hplace with
      | .identifier name, _, _ =>
        simp only [evaluate, harguments, Expression.valueInOrder, refer, bind_assoc, pure_bind,
          Reference.callee, Reference.read_value, bind_pure]
      | .member object name, kept, _ =>
        have hobject := evaluate_eq_valueInOrder object kept
        simp only [evaluate, hobject, harguments, Expression.valueInOrder, refer, bind_assoc,
          pure_bind, Reference.callee_property, Reference.read_value, bind_pure,
          toPropertyKey_ofText]
      | .index object key, kept, _ =>
        obtain ⟨keptObject, keptKey⟩ := Bool.and_eq_true_iff.1 kept
        have hobject := evaluate_eq_valueInOrder object keptObject
        have hkey := evaluate_eq_valueInOrder key keptKey
        simp only [evaluate, hobject, hkey, harguments, Expression.valueInOrder, refer, bind_assoc,
          pure_bind, Reference.callee_property, Reference.read_value, bind_pure]
  | .unary .not operand, kept =>
    have hoperand := evaluate_eq_valueInOrder operand kept
    simp only [evaluate, hoperand, Expression.valueInOrder, refer, bind_assoc, pure_bind,
      Reference.read_value]
  | .unary .negate operand, kept =>
    have hoperand := evaluate_eq_valueInOrder operand kept
    simp only [evaluate, hoperand, Expression.valueInOrder, refer, bind_assoc, pure_bind,
      Reference.read_value, bind_pure]
  | .unary .typeOf operand, kept =>
    have hoperand := evaluate_eq_valueInOrder operand kept
    by_cases named : ∃ name, operand = .identifier name
    · obtain ⟨name, rfl⟩ := named
      simp only [evaluate, Expression.valueInOrder, refer, bind_assoc, pure_bind, Reference.typeOf,
        Reference.read_name, Reference.read_value, bind_pure]
    · have other := fun name h => named ⟨name, h⟩
      rw [evaluate_typeOf f refuse other, hoperand, ← refer_typeOf f other]
      simp only [Expression.valueInOrder, refer, bind_assoc, pure_bind, Reference.read_value,
        bind_pure]
  | .binary .subtract left right, kept =>
    obtain kept | kept := Bool.or_eq_true_iff.1 kept
    · obtain ⟨keptLeft, inert⟩ := Bool.and_eq_true_iff.1 kept
      have hleft := evaluate_eq_valueInOrder left keptLeft
      obtain ⟨v, hright, hrefer⟩ := inert_value σ f inert
      simp only [evaluate, hleft, hright, Expression.valueInOrder, refer, hrefer, lift_bind,
        bind_assoc, pure_bind, Reference.read_value, bind_pure]
    · obtain ⟨keptBoth, keptRight⟩ := Bool.and_eq_true_iff.1 kept
      obtain ⟨keptLeft, plain⟩ := Bool.and_eq_true_iff.1 keptBoth
      have hleft := evaluate_eq_valueInOrder left keptLeft
      have hright := evaluate_eq_valueInOrder right keptRight
      obtain ⟨g, hplain⟩ := exists_constant_of_isPlain σ f plain
      have hvalue := hleft.symm.trans hplain
      simp only [Expression.valueInOrder] at hright hvalue
      rw [Expression.valueInOrder]
      simp only [evaluate, hplain, hright, refer, bind_assoc, pure_bind, Reference.read_value,
        bind_pure]
      rw [← bind_assoc (x := refer f left), hvalue]
      simp only [bind_assoc, pure_bind]
      refine bind_congr fun c => ?_
      -- The conversion of a constant does nothing, so it may as well be done later.
      obtain ⟨x, hx⟩ := toNumber_constant (σ := σ) c
      simp only [hx, lift_pure, pure_bind]
  | .binary .and left right, kept =>
    obtain ⟨keptLeft, keptRight⟩ := Bool.and_eq_true_iff.1 kept
    have hleft := evaluate_eq_valueInOrder left keptLeft
    have hright := evaluate_eq_valueInOrder right keptRight
    simp only [evaluate, hleft, hright, Expression.valueInOrder, refer, bind_assoc]
    refine bind_congr fun _ => bind_congr fun value => ?_
    split <;> simp only [bind_assoc, pure_bind, Reference.read_value, bind_pure]
  | .binary .or left right, kept =>
    obtain ⟨keptLeft, keptRight⟩ := Bool.and_eq_true_iff.1 kept
    have hleft := evaluate_eq_valueInOrder left keptLeft
    have hright := evaluate_eq_valueInOrder right keptRight
    simp only [evaluate, hleft, hright, Expression.valueInOrder, refer, bind_assoc]
    refine bind_congr fun _ => bind_congr fun value => ?_
    split <;> simp only [bind_assoc, pure_bind, Reference.read_value, bind_pure]
  | .binary .add left right, kept =>
    obtain ⟨keptLeft, keptRight⟩ := Bool.and_eq_true_iff.1 kept
    have hleft := evaluate_eq_valueInOrder left keptLeft
    have hright := evaluate_eq_valueInOrder right keptRight
    simp only [evaluate, hleft, hright, Expression.valueInOrder, refer, bind_assoc, pure_bind,
      Reference.read_value, bind_pure]
  | .binary .strictEqual left right, kept | .binary .strictNotEqual left right, kept =>
    obtain ⟨keptLeft, keptRight⟩ := Bool.and_eq_true_iff.1 kept
    have hleft := evaluate_eq_valueInOrder left keptLeft
    have hright := evaluate_eq_valueInOrder right keptRight
    simp only [evaluate, hleft, hright, Expression.valueInOrder, refer, bind_assoc, pure_bind,
      Reference.read_value]
  | .assign (.identifier name) source, kept =>
    have hsource := evaluate_eq_valueInOrder source kept
    simp only [evaluate, hsource, Expression.valueInOrder, refer, bind_assoc, pure_bind,
      Reference.read_value, Reference.write]
  | .assign (.member object name) source, kept =>
    obtain kept | kept := Bool.or_eq_true_iff.1 kept
    · obtain ⟨inert, keptSource⟩ := Bool.and_eq_true_iff.1 kept
      have hsource := evaluate_eq_valueInOrder source keptSource
      obtain ⟨v, hobject, hrefer⟩ := inert_value σ f inert
      simp only [evaluate, hobject, hsource, Expression.valueInOrder, refer, hrefer, bind_assoc,
        pure_bind, Reference.read_value, Reference.write, toPropertyKey_ofText]
    · obtain ⟨keptObject, inert⟩ := Bool.and_eq_true_iff.1 kept
      have hobject := evaluate_eq_valueInOrder object keptObject
      obtain ⟨v, hsource, hrefer⟩ := inert_value σ f inert
      simp only [evaluate, hobject, hsource, Expression.valueInOrder, refer, hrefer, bind_assoc,
        pure_bind, Reference.read_value, Reference.write, toPropertyKey_ofText]
  | .assign (.index object key) source, kept =>
    obtain kept | kept := Bool.or_eq_true_iff.1 kept
    · obtain ⟨inert, keptSource⟩ := Bool.and_eq_true_iff.1 kept
      obtain ⟨inertObject, inertKey⟩ := Bool.and_eq_true_iff.1 inert
      have hsource := evaluate_eq_valueInOrder source keptSource
      obtain ⟨base, hobject, hreferObject⟩ := inert_value σ f inertObject
      obtain ⟨v, hkey, hreferKey⟩ := inert_value σ f inertKey
      simp only [evaluate, hobject, hkey, hsource, Expression.valueInOrder, refer, hreferObject,
        hreferKey, bind_assoc, pure_bind, Reference.read_value, Reference.write]
    · obtain ⟨keptBoth, inert⟩ := Bool.and_eq_true_iff.1 kept
      obtain ⟨keptObject, keptKey⟩ := Bool.and_eq_true_iff.1 keptBoth
      have hobject := evaluate_eq_valueInOrder object keptObject
      have hkey := evaluate_eq_valueInOrder key keptKey
      obtain ⟨v, hsource, hrefer⟩ := inert_value σ f inert
      simp only [evaluate, hobject, hkey, hsource, Expression.valueInOrder, refer, hrefer, bind_assoc,
        pure_bind, Reference.read_value, Reference.write]

theorem evaluateAll_eq_referAll (es : List Expression) (kept : Expression.allKeepOrder es = true) :
    (evaluateAll refuse f es : Evaluation σ (List Value)) = referAll f es := by
  match es, kept with
  | [], _ => rfl
  | e :: rest, kept =>
    obtain ⟨keptFirst, keptRest⟩ := Bool.and_eq_true_iff.1 kept
    have hfirst := evaluate_eq_valueInOrder e keptFirst
    have hrest := evaluateAll_eq_referAll rest keptRest
    simp only [evaluateAll, referAll, hfirst, hrest, Expression.valueInOrder, bind_assoc]

end

end Frames

section Meanings

variable {meaning meaning' : Expression → Evaluation σ Value} {test : Expression → Bool}

mutual

/-- A statement runs alike under meanings that agree on its expressions. -/
theorem execute_congr (same : ∀ e, test e = true → meaning e = meaning' e) (s : Statement)
    (pass : s.passes test = true) : execute meaning s = execute meaning' s := by
  match s, pass with
  | .empty, _ | .ret none, _ => rfl
  | .expression e, pass | .ret (some e), pass | .throw e, pass =>
    simp only [execute, same e pass]
  | .ifThen condition consequent, pass =>
    obtain ⟨passCondition, passConsequent⟩ := Bool.and_eq_true_iff.1 pass
    simp only [execute, same condition passCondition, execute_congr same consequent passConsequent]
  | .ifElse condition consequent alternate, pass =>
    obtain ⟨passBoth, passAlternate⟩ := Bool.and_eq_true_iff.1 pass
    obtain ⟨passCondition, passConsequent⟩ := Bool.and_eq_true_iff.1 passBoth
    simp only [execute, same condition passCondition, execute_congr same consequent passConsequent,
      execute_congr same alternate passAlternate]
  | .block body, pass => simp only [execute, executeAll_congr same body pass]

theorem executeAll_congr (same : ∀ e, test e = true → meaning e = meaning' e) (body : List Statement)
    (pass : Statement.allPass test body = true) : executeAll meaning body = executeAll meaning' body := by
  match body, pass with
  | [], _ => rfl
  | s :: rest, pass =>
    obtain ⟨passFirst, passRest⟩ := Bool.and_eq_true_iff.1 pass
    rw [executeAll, executeAll, execute_congr same s passFirst]
    refine bind_congr fun result => ?_
    cases result with
    | some value => rfl
    | none => exact executeAll_congr same rest passRest

end

end Meanings

theorem Program.runWith_congr {meaning meaning' : Frame → Expression → Evaluation σ Value}
    {test : Expression → Bool} (same : ∀ f e, test e = true → meaning f e = meaning' f e) {p : Program}
    (pass : Statement.allPass test p.body = true) (chain : ScopeChain) (this event : Value) :
    p.runWith meaning chain this event = p.runWith meaning' chain this event := by
  rw [runWith, runWith, executeAll_congr (same ⟨chain, this⟩) p.body pass]

/-- Whatever the environment does when it is called, everything happens operands first, from left to
right, in a program that keeps the order in its subtractions and assignments to properties. -/
theorem programs_run_operands_first (p : Program) (kept : p.keepsOrder = true) (chain : ScopeChain)
    (this event : Value) :
    (p.run chain this event : WebBindings.Script σ Value) = p.runInOrder chain this event :=
  Program.runWith_congr evaluate_eq_valueInOrder kept chain this event

/-- Nested calls, operators and an assignment to a name keep the order. -/
theorem calls_and_sums_run_operands_first :
    let p : Program := ⟨[.ret (some (.assign (.identifier "event") (.binary .add
      (.call (.index .this (.call .this [])) [.call (.identifier "event") []])
      (.binary .subtract (.constant .null) (.call .this [])))))]⟩
    p.keepsOrder = true ∧ ∀ chain this event,
      (p.run chain this event : WebBindings.Script Nat Value) = p.runInOrder chain this event :=
  ⟨rfl, programs_run_operands_first _ rfl⟩

/-- An embedder whose functions note that they were called, and answer with a primitive. -/
def noting : Embedder (List Nat) where
  record _ _ s := s
  hostLog _ _ _ s := s
  report _ _ _ s := s
  blocks _ _ s := (false, s)
  checkSyntax _ _ s := (.ok (), s)
  compile _ _ _ _ heap s := (.error (.reported .engine "no engine"), heap, s)
  callback _ s := (none, s)
  call index _ _ w := (.ok (.boolean true), { w with embedder := w.embedder ++ [index] })
  listen _ _ w := w

/-- A heap of two functions; the first one is also asked when its value is needed. -/
def functions : Heap :=
  let blank := Object.blank .function none
  ⟨#[{ blank with behavior := some (.external 0) }.define (.ofText "valueOf") (.data (.object ⟨0⟩)),
    { blank with behavior := some (.external 1) }]⟩

/-- The functions that are called, in this order, when a program runs with both functions at hand. -/
def called (run : ScopeChain → (this event : Value) → WebBindings.Script (List Nat) Value) : List Nat :=
  let world : World (List Nat) := { World.initial [] with heap := functions }
  ((run ⟨[], ⟨0⟩⟩ (.object ⟨0⟩) (.object ⟨1⟩)).run.run noting.host |>.run world).2.embedder

/-- The assigned value is computed before the base and the key of the assigned property. -/
theorem assignments_break_order : ∃ p, Program.ofText? "this()[this()]=event()" = .ok p ∧
    called p.run = [1, 0, 0] ∧ called p.runInOrder = [0, 0, 1] := by
  let ls : List Lexeme :=
    [⟨.identifier "this", 0, 4, false⟩, ⟨.punctuator .openParen, 4, 5, false⟩,
      ⟨.punctuator .closeParen, 5, 6, false⟩, ⟨.punctuator .openBracket, 6, 7, false⟩,
      ⟨.identifier "this", 7, 11, false⟩, ⟨.punctuator .openParen, 11, 12, false⟩,
      ⟨.punctuator .closeParen, 12, 13, false⟩, ⟨.punctuator .closeBracket, 13, 14, false⟩,
      ⟨.punctuator .assign, 14, 15, false⟩, ⟨.identifier "event", 15, 20, false⟩,
      ⟨.punctuator .openParen, 20, 21, false⟩, ⟨.punctuator .closeParen, 21, 22, false⟩,
      ⟨.endOfInput, 22, 22, false⟩]
  have lexed : lexemes "this()[this()]=event()" = .ok ls := by decide +kernel
  refine ⟨⟨[.expression (.assign (.index (.call .this []) (.call .this []))
    (.call (.identifier "event") []))]⟩, ?_, rfl, rfl⟩
  exact bind_eq_ok_iff.2 ⟨ls, lexed, rfl⟩

/-- The left operand of a subtraction is converted before the right one is evaluated. -/
theorem subtractions_break_order : ∃ p, Program.ofText? "this-event()" = .ok p ∧
    called p.run = [0, 1] ∧ called p.runInOrder = [1, 0] := by
  let ls : List Lexeme :=
    [⟨.identifier "this", 0, 4, false⟩, ⟨.punctuator .minus, 4, 5, false⟩,
      ⟨.identifier "event", 5, 10, false⟩, ⟨.punctuator .openParen, 10, 11, false⟩,
      ⟨.punctuator .closeParen, 11, 12, false⟩, ⟨.endOfInput, 12, 12, false⟩]
  have lexed : lexemes "this-event()" = .ok ls := by decide +kernel
  refine ⟨⟨[.expression (.binary .subtract .this (.call (.identifier "event") []))]⟩, ?_, rfl, rfl⟩
  exact bind_eq_ok_iff.2 ⟨ls, lexed, rfl⟩

end WebBindings.Script
