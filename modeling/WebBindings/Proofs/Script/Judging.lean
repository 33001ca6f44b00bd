import WebBindings.Script.Evaluation
/-!
# Judging evaluations

What is judged of an evaluation by the results that are wanted of it follows from rules: one for each
step that evaluation is made of, and one for putting steps together. So a statement about the runs of all
programs is shown by rules, and only here by the way in which expressions and statements are evaluated.
One name may be hidden: rules need not tell what comes of asking for it.
-/

namespace WebBindings.Script

variable {σ : Type}

mutual

/-- Whether a name occurs in an expression, or a key that is not known before it runs. -/
def Expression.mentions (name : String) : Expression → Bool
  | .constant _ => false
  | .identifier n => n = name
  | .this => false
  | .member object n => object.mentions name || n = name
  | .index _ _ => true
  | .call callee arguments => callee.mentions name || Expression.anyMentions name arguments
  | .unary _ operand => operand.mentions name
  | .binary _ left right => left.mentions name || right.mentions name
  | .assign target value => target.mentions name || value.mentions name

def Expression.anyMentions (name : String) : List Expression → Bool
  | [] => false
  | e :: rest => e.mentions name || Expression.anyMentions name rest

end

mutual

def Statement.mentions (name : String) : Statement → Bool
  | .empty => false
  | .expression e => e.mentions name
  | .ret none => false
  | .ret (some e) => e.mentions name
  | .throw e => e.mentions name
  | .ifThen test consequent => test.mentions name || consequent.mentions name
  | .ifElse test consequent alternate =>
    test.mentions name || consequent.mentions name || alternate.mentions name
  | .block body => Statement.anyMentions name body

def Statement.anyMentions (name : String) : List Statement → Bool
  | [] => false
  | s :: rest => s.mentions name || Statement.anyMentions name rest

end

/-- What the steps of evaluation give. -/
inductive ResultKind
  | value
  | found
  | values
  | returned
  | flag
  | number
  | nothing

namespace ResultKind

abbrev type : ResultKind → Type
  | value => Value
  | found => Value × Value
  | values => List Value
  | returned => Option Value
  | flag => Bool
  | number => Double
  | nothing => Unit

/-- All values in a result are as wanted. -/
def Within (good : Value → Prop) : (k : ResultKind) → k.type → Prop
  | value, v => good v
  | found, r => good r.1 ∧ good r.2
  | values, vs => ∀ v ∈ vs, good v
  | returned, r => ∀ v, r = some v → good v
  | flag, _ | number, _ | nothing, _ => True

theorem within_of_all {good : Value → Prop} (all : ∀ v, good v) (k : ResultKind) (a : k.type) :
    k.Within good a := by
  cases k with
  | value => exact all a
  | found => exact ⟨all a.1, all a.2⟩
  | values => exact fun v _ => all v
  | returned => exact fun v _ => all v
  | flag | number | nothing => trivial

end ResultKind

/-- The rules of a judgement on evaluations, for results in which all values are good. If nothing is
seen, one name is hidden. -/
structure Judging (f : Frame) (hidden : String) (seen : Prop) (good : Value → Prop)
    (judges : (k : ResultKind) → Evaluation σ k.type → Prop) : Prop where
  pure {k : ResultKind} {a : k.type} (within : k.Within good a) : judges k (pure a)
  bind {k l : ResultKind} {m : Evaluation σ k.type} {next : k.type → Evaluation σ l.type}
    (first : judges k m) (rest : ∀ a, k.Within good a → judges l (next a)) : judges l (m >>= next)
  throws (v : Value) : judges .returned (lift (throw (.exception v)))
  refuses : judges .value refuse
  plain {v : Value} (primitive : v.isObject = false) : good v
  this : good f.this
  readsName {name : String} (asked : seen ∨ name ≠ hidden) : judges .found (readName f name)
  writesName {name : String} (asked : seen ∨ name ≠ hidden) {v : Value} (hv : good v) :
    judges .nothing (writeName f name v)
  asksName {name : String} (asked : seen ∨ name ≠ hidden) : judges .flag (lift (isReadable f name))
  readsProperty {base : Value} (hbase : good base) {name : String} (asked : seen ∨ name ≠ hidden) :
    judges .value (lift (readProperty base (.ofText name)))
  readsIndex {base index : Value} (hbase : good base) (hindex : good index) (asked : seen) :
    judges .value (lift do readProperty base (← toPropertyKey index))
  writesProperty (base : Value) (name : String) {v : Value} (hv : good v) :
    judges .nothing (lift (writeProperty base (.ofText name) v))
  writesIndex (base : Value) {index v : Value} (hindex : good index) (hv : good v) :
    judges .nothing (lift do writeProperty base (← toPropertyKey index) v)
  calls {function receiver : Value} {arguments : List Value} (hfunction : good function)
    (hreceiver : good receiver) (harguments : ∀ a ∈ arguments, good a) :
    judges .value (lift (callValue function receiver arguments))
  adds {left right : Value} (hleft : good left) (hright : good right) :
    judges .value (lift (addValues left right))
  converts {operand : Value} (hoperand : good operand) : judges .number (lift (toNumber operand))
  subtracts (minuend : Double) {right : Value} (hright : good right) :
    judges .value (lift (subtractValue minuend right))
  negates {operand : Value} (hoperand : good operand) : judges .value (lift (negateValue operand))
  tellsType (operand : Value) : judges .value (lift (typeOfValue operand))

theorem Constant.isObject_value (c : Constant) : c.value.isObject = false := by
  cases c <;> rfl

section Asking

variable {seen : Prop}

theorem asked_parts {a b : Bool} (asked : seen ∨ (a || b) = false) :
    (seen ∨ a = false) ∧ (seen ∨ b = false) :=
  ⟨asked.imp_right fun no => (Bool.or_eq_false_iff.1 no).1,
    asked.imp_right fun no => (Bool.or_eq_false_iff.1 no).2⟩

theorem asked_name {name hidden : String} (asked : seen ∨ decide (name = hidden) = false) :
    seen ∨ name ≠ hidden :=
  asked.imp_right of_decide_eq_false

end Asking

namespace Judging

variable {f : Frame} {hidden : String} {seen : Prop} {good : Value → Prop}
  {judges : (k : ResultKind) → Evaluation σ k.type → Prop}
  (rules : Judging f hidden seen good judges)

include rules

/-- One case for each way in which `evaluate` goes through an expression. -/
private theorem expression_both :
    (∀ e, (seen ∨ e.mentions hidden = false) → judges .value (evaluate refuse f e)) ∧
      ∀ es, (seen ∨ Expression.anyMentions hidden es = false) →
        judges .values (evaluateAll refuse f es) := by
  apply evaluate.mutual_induct
    (fun e => (seen ∨ e.mentions hidden = false) → judges .value (evaluate refuse f e))
    (fun es => (seen ∨ Expression.anyMentions hidden es = false) →
      judges .values (evaluateAll refuse f es))
  case case1 =>
    intro c _
    exact rules.pure (rules.plain c.isObject_value)
  case case2 =>
    intro name asked
    refine rules.bind (rules.readsName (asked_name asked)) fun found hfound => ?_
    exact rules.pure hfound.1
  case case3 =>
    intro _
    exact rules.pure rules.this
  case case4 =>
    intro object name ih asked
    have parts := asked_parts asked
    refine rules.bind (ih parts.1) fun base hbase => ?_
    exact rules.readsProperty hbase (asked_name parts.2)
  case case5 =>
    intro object index ih ih' asked
    have all : seen := asked.resolve_right nofun
    refine rules.bind (ih (.inl all)) fun base hbase => ?_
    refine rules.bind (ih' (.inl all)) fun key hkey => ?_
    exact rules.readsIndex hbase hkey all
  case case6 =>
    intro name arguments ih asked
    have parts := asked_parts asked
    refine rules.bind (rules.readsName (asked_name parts.1)) fun found hfound => ?_
    refine rules.bind (ih parts.2) fun values hvalues => ?_
    exact rules.calls hfound.1 hfound.2 hvalues
  case case7 =>
    intro object name arguments ih ih' asked
    have parts := asked_parts asked
    have callee := asked_parts parts.1
    refine rules.bind (ih callee.1) fun base hbase => ?_
    refine rules.bind (rules.readsProperty hbase (asked_name callee.2)) fun function hfunction => ?_
    refine rules.bind (ih' parts.2) fun values hvalues => ?_
    exact rules.calls hfunction hbase hvalues
  case case8 =>
    intro object index arguments ih ih' ih'' asked
    have all : seen := (asked_parts asked).1.resolve_right nofun
    refine rules.bind (ih (.inl all)) fun base hbase => ?_
    refine rules.bind (ih' (.inl all)) fun key hkey => ?_
    refine rules.bind (rules.readsIndex hbase hkey all) fun function hfunction => ?_
    refine rules.bind (ih'' (.inl all)) fun values hvalues => ?_
    exact rules.calls hfunction hbase hvalues
  case case9 =>
    intro callee arguments h h' h'' ih ih' asked
    have parts := asked_parts asked
    rw [evaluate]
    · refine rules.bind (ih parts.1) fun function hfunction => ?_
      refine rules.bind (ih' parts.2) fun values hvalues => ?_
      exact rules.calls hfunction (rules.plain rfl) hvalues
    all_goals assumption
  case case10 =>
    intro operand ih asked
    refine rules.bind (ih asked) fun value _ => ?_
    exact rules.pure (rules.plain rfl)
  case case11 =>
    intro operand ih asked
    refine rules.bind (ih asked) fun value hvalue => ?_
    exact rules.negates hvalue
  case case12 =>
    intro name asked
    have other := asked_name asked
    rw [evaluate]
    refine rules.bind (rules.asksName other) fun readable _ => ?_
    split
    · refine rules.bind (rules.readsName other) fun found _ => ?_
      exact rules.tellsType found.1
    · exact rules.pure (rules.plain rfl)
  case case13 =>
    intro operand h ih asked
    rw [evaluate]
    · refine rules.bind (ih asked) fun value _ => ?_
      exact rules.tellsType value
    · assumption
  case case14 =>
    intro left right ih ih' asked
    have parts := asked_parts asked
    rw [evaluate]
    refine rules.bind (ih parts.1) fun value hvalue => ?_
    split
    · exact ih' parts.2
    · exact rules.pure hvalue
  case case15 =>
    intro left right ih ih' asked
    have parts := asked_parts asked
    rw [evaluate]
    refine rules.bind (ih parts.1) fun value hvalue => ?_
    split
    · exact rules.pure hvalue
    · exact ih' parts.2
  case case16 =>
    intro left right ih ih' asked
    have parts := asked_parts asked
    refine rules.bind (ih parts.1) fun a ha => ?_
    refine rules.bind (ih' parts.2) fun b hb => ?_
    exact rules.adds ha hb
  case case17 =>
    intro left right ih ih' asked
    have parts := asked_parts asked
    refine rules.bind (ih parts.1) fun a ha => ?_
    refine rules.bind (rules.converts ha) fun minuend _ => ?_
    refine rules.bind (ih' parts.2) fun b hb => ?_
    exact rules.subtracts minuend hb
  case case18 | case19 =>
    intro left right ih ih' asked
    have parts := asked_parts asked
    refine rules.bind (ih parts.1) fun a _ => ?_
    refine rules.bind (ih' parts.2) fun b _ => ?_
    exact rules.pure (rules.plain rfl)
  case case20 =>
    intro name source ih asked
    have parts := asked_parts asked
    refine rules.bind (ih parts.2) fun value hvalue => ?_
    refine rules.bind (rules.writesName (asked_name parts.1) hvalue) fun _ _ => ?_
    exact rules.pure hvalue
  case case21 =>
    intro object name source ih ih' asked
    have parts := asked_parts asked
    have target := asked_parts parts.1
    refine rules.bind (ih parts.2) fun value hvalue => ?_
    refine rules.bind (ih' target.1) fun base _ => ?_
    refine rules.bind (rules.writesProperty base name hvalue) fun _ _ => ?_
    exact rules.pure hvalue
  case case22 =>
    intro object index source ih ih' ih'' asked
    have all : seen := (asked_parts asked).1.resolve_right nofun
    refine rules.bind (ih (.inl all)) fun value hvalue => ?_
    refine rules.bind (ih' (.inl all)) fun base _ => ?_
    refine rules.bind (ih'' (.inl all)) fun key hkey => ?_
    refine rules.bind (rules.writesIndex base hkey hvalue) fun _ _ => ?_
    exact rules.pure hvalue
  case case23 =>
    intro target source h h' h'' ih asked
    have parts := asked_parts asked
    rw [evaluate]
    · refine rules.bind (ih parts.2) fun _ _ => ?_
      exact rules.refuses
    all_goals assumption
  case case24 =>
    intro _
    exact rules.pure nofun
  case case25 =>
    intro e rest ih ih' asked
    have parts := asked_parts asked
    refine rules.bind (ih parts.1) fun value hvalue => ?_
    refine rules.bind (ih' parts.2) fun values hvalues => ?_
    exact rules.pure (List.forall_mem_cons.2 ⟨hvalue, hvalues⟩)

theorem expression {e : Expression} (asked : seen ∨ e.mentions hidden = false) :
    judges .value (evaluate refuse f e) := rules.expression_both.1 e asked

private theorem statement_both :
    (∀ s, (seen ∨ s.mentions hidden = false) → judges .returned (execute (evaluate refuse f) s)) ∧
      ∀ ss, (seen ∨ Statement.anyMentions hidden ss = false) →
        judges .returned (executeAll (evaluate refuse f) ss) := by
  apply execute.mutual_induct
    (fun s => (seen ∨ s.mentions hidden = false) → judges .returned (execute (evaluate refuse f) s))
    (fun ss => (seen ∨ Statement.anyMentions hidden ss = false) →
      judges .returned (executeAll (evaluate refuse f) ss))
  case case1 =>
    intro _
    exact rules.pure nofun
  case case2 =>
    intro e asked
    refine rules.bind (rules.expression asked) fun value _ => ?_
    exact rules.pure nofun
  case case3 =>
    intro _
    refine rules.pure fun v hv => ?_
    cases hv
    exact rules.plain rfl
  case case4 =>
    intro e asked
    refine rules.bind (rules.expression asked) fun value hvalue => rules.pure fun v hv => ?_
    cases hv
    exact hvalue
  case case5 =>
    intro e asked
    refine rules.bind (rules.expression asked) fun value _ => ?_
    exact rules.throws value
  case case6 =>
    intro test consequent ih asked
    have parts := asked_parts asked
    rw [execute]
    refine rules.bind (rules.expression parts.1) fun value _ => ?_
    split
    · exact ih parts.2
    · exact rules.pure nofun
  case case7 =>
    intro test consequent alternate ih ih' asked
    have parts := asked_parts asked
    have early := asked_parts parts.1
    rw [execute]
    refine rules.bind (rules.expression early.1) fun value _ => ?_
    split
    · exact ih early.2
    · exact ih' parts.2
  case case8 =>
    intro body ih asked
    exact ih asked
  case case9 =>
    intro _
    exact rules.pure nofun
  case case10 =>
    intro s rest ih ih' asked
    have parts := asked_parts asked
    rw [executeAll]
    refine rules.bind (ih parts.1) fun result hresult => ?_
    cases result with
    | some value => exact rules.pure hresult
    | none => exact ih' parts.2

theorem statements {ss : List Statement} (asked : seen ∨ Statement.anyMentions hidden ss = false) :
    judges .returned (executeAll (evaluate refuse f) ss) := rules.statement_both.2 ss asked

end Judging

end WebBindings.Script
