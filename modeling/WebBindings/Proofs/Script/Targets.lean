import WebBindings.Proofs.Script.Depth
import WebBindings.Proofs.Script.Order
/-!
# The targets of assignments

Only names and properties can be assigned to. An assignment to anything else is refused where it is read,
so the programs that texts are accepted with have none, and the refusal that a running program would meet
with has no effect on them.
-/

namespace WebBindings.Script

variable {σ : Type}

mutual

/-- Whether every assignment in an expression has an assignable target. -/
def Expression.targetsAssignable : Expression → Bool
  | .constant _ | .identifier _ | .this => true
  | .member object _ => object.targetsAssignable
  | .index object key => object.targetsAssignable && key.targetsAssignable
  | .call callee arguments =>
    callee.targetsAssignable && Expression.allTargetsAssignable arguments
  | .unary _ operand => operand.targetsAssignable
  | .binary _ left right => left.targetsAssignable && right.targetsAssignable
  | .assign target source =>
    target.isAssignable && target.targetsAssignable && source.targetsAssignable

def Expression.allTargetsAssignable : List Expression → Bool
  | [] => true
  | e :: rest => e.targetsAssignable && Expression.allTargetsAssignable rest

end

/-- Whether every assignment in a program has an assignable target. -/
def Program.targetsAssignable (p : Program) : Bool :=
  Statement.allPass Expression.targetsAssignable p.body

/-- No phrase one level further inside has a target that is not assignable. -/
structure Grammar.TargetsAssignable (G : Grammar) : Prop where
  statement {xs following : List Lexeme} {s : Statement} (spelled : G.statement xs following s) :
    s.passes Expression.targetsAssignable = true
  expression {xs : List Lexeme} {e : Expression} (spelled : G.expression xs e) :
    e.targetsAssignable = true
  operand {xs : List Lexeme} {e : Expression} (spelled : G.operand xs e) :
    e.targetsAssignable = true

theorem IsLevel.targetsAssignable {operators : List (Punctuator × BinaryOperator)}
    {operand : Language Expression} (h : ∀ {xs e}, operand xs e → e.targetsAssignable = true)
    {xs : List Lexeme} {e : Expression} (spelled : IsLevel operators operand xs e) :
    e.targetsAssignable = true := by
  refine spelled.invariant (fun first => h first) fun linked before => ?_
  obtain ⟨-, -, right⟩ := linked
  exact Bool.and_eq_true_iff.2 ⟨before, h right⟩

section Levels

variable {G : Grammar} (inner : G.TargetsAssignable) {xs following : List Lexeme}

include inner

theorem IsPrimary.targetsAssignable {e : Expression} (spelled : IsPrimary G xs e) :
    e.targetsAssignable = true := by
  cases spelled with
  | number | text => rfl
  | word _ means => cases means <;> rfl
  | parenthesized _ spelled _ => exact inner.expression spelled

theorem IsArguments.targetsAssignable {es : List Expression} (spelled : IsArguments G xs es) :
    Expression.allTargetsAssignable es = true := by
  induction spelled with
  | last argument _ => exact Bool.and_eq_true_iff.2 ⟨inner.expression argument, rfl⟩
  | more argument _ _ ih => exact Bool.and_eq_true_iff.2 ⟨inner.expression argument, ih⟩

theorem IsAccess.targetsAssignable {e e' : Expression} (access : IsAccess G e xs e')
    (h : e.targetsAssignable = true) : e'.targetsAssignable = true := by
  cases access with
  | member => exact h
  | index _ key _ => exact Bool.and_eq_true_iff.2 ⟨h, inner.expression key⟩
  | call => exact Bool.and_eq_true_iff.2 ⟨h, rfl⟩
  | callWith _ arguments => exact Bool.and_eq_true_iff.2 ⟨h, arguments.targetsAssignable inner⟩

theorem IsUnary.targetsAssignable {e : Expression} (spelled : IsUnary G xs e) :
    e.targetsAssignable = true := by
  cases spelled with
  | not _ operand | negate _ operand | typeOf _ operand =>
    have kept := inner.operand operand
    exact kept
  | accessed accessed =>
    exact accessed.invariant (fun first => first.targetsAssignable inner)
      fun access => access.targetsAssignable inner

theorem IsDisjunction.targetsAssignable {e : Expression} (spelled : IsDisjunction G xs e) :
    e.targetsAssignable = true :=
  IsLevel.targetsAssignable (IsLevel.targetsAssignable (IsLevel.targetsAssignable
    (IsLevel.targetsAssignable (IsUnary.targetsAssignable inner)))) spelled

/-- The one rule that spells an assignment asks for an assignable target. -/
theorem IsAssignment.targetsAssignable {e : Expression} (spelled : IsAssignment G xs e) :
    e.targetsAssignable = true := by
  cases spelled with
  | value spelled => exact spelled.targetsAssignable inner
  | assign spelled assignable _ value =>
    have target := Bool.and_eq_true_iff.2 ⟨assignable, spelled.targetsAssignable inner⟩
    exact Bool.and_eq_true_iff.2 ⟨target, inner.expression value⟩

theorem IsClause.targetsAssignable {e : Expression} (clause : IsClause G xs following e) :
    e.targetsAssignable = true := by
  obtain ⟨spelled, -, -⟩ := clause
  exact inner.expression spelled

theorem IsSequence.targetsAssignable {body : List Statement}
    (spelled : IsSequence G xs following body) :
    Statement.allPass Expression.targetsAssignable body = true := by
  induction spelled with
  | nil => rfl
  | cons spelled _ ih => exact Bool.and_eq_true_iff.2 ⟨inner.statement spelled, ih⟩

theorem IsStatement.targetsAssignable {s : Statement} (spelled : IsStatement G xs following s) :
    s.passes Expression.targetsAssignable = true := by
  cases spelled with
  | empty | ret => rfl
  | expression clause | retWith _ clause _ | throw _ clause _ => exact clause.targetsAssignable inner
  | ifThen _ _ condition _ positive _ =>
    exact Bool.and_eq_true_iff.2 ⟨inner.expression condition, inner.statement positive⟩
  | ifElse _ _ condition _ positive _ negative =>
    have first := Bool.and_eq_true_iff.2 ⟨inner.expression condition, inner.statement positive⟩
    exact Bool.and_eq_true_iff.2 ⟨first, inner.statement negative⟩
  | block _ spelled _ => exact spelled.targetsAssignable inner

end Levels

theorem grammar_targetsAssignable (levels : Nat) : (grammar levels).TargetsAssignable := by
  induction levels with
  | zero => exact ⟨False.elim, False.elim, False.elim⟩
  | succ levels ih =>
    exact ⟨fun spelled => spelled.targetsAssignable ih, fun spelled => spelled.targetsAssignable ih,
      fun spelled => spelled.targetsAssignable ih⟩

section Refusals

variable (refusal refusal' : Evaluation σ Value) (f : Frame)

mutual

/-- What stands in the place of the refusal matters only to expressions that have a target that is not
assignable. -/
theorem evaluate_congr (e : Expression) (h : e.targetsAssignable = true) :
    evaluate refusal f e = evaluate refusal' f e := by
  match e, h with
  | .constant _, _ | .identifier _, _ | .this, _ => rfl
  | .member object name, h =>
    simp only [evaluate, evaluate_congr object h]
  | .index object key, h =>
    obtain ⟨hobject, hkey⟩ := Bool.and_eq_true_iff.1 h
    simp only [evaluate, evaluate_congr object hobject, evaluate_congr key hkey]
  | .call callee arguments, h =>
    obtain ⟨hcallee, harguments⟩ := Bool.and_eq_true_iff.1 h
    have hcallee' := evaluate_congr callee hcallee
    have harguments' := evaluateAll_congr arguments harguments
    cases hplace : callee.isAssignable with
    | false =>
      rw [evaluate_call_of_not_assignable f refusal arguments hplace, hcallee', harguments',
        evaluate_call_of_not_assignable f refusal' arguments hplace]
    | true =>
      match callee, hcallee, hplace with
      | .identifier name, _, _ => simp only [evaluate, harguments']
      | .member object name, h, _ => simp only [evaluate, evaluate_congr object h, harguments']
      | .index object key, h, _ =>
        obtain ⟨hobject, hkey⟩ := Bool.and_eq_true_iff.1 h
        simp only [evaluate, evaluate_congr object hobject, evaluate_congr key hkey, harguments']
  | .unary operator operand, h =>
    have hoperand := evaluate_congr operand h
    cases operator with
    | not | negate => simp only [evaluate, hoperand]
    | typeOf =>
      by_cases named : ∃ name, operand = .identifier name
      · obtain ⟨name, rfl⟩ := named
        simp only [evaluate]
      · have other := fun name h => named ⟨name, h⟩
        rw [evaluate_typeOf f refusal other, hoperand, evaluate_typeOf f refusal' other]
  | .binary operator left right, h =>
    obtain ⟨hleft, hright⟩ := Bool.and_eq_true_iff.1 h
    cases operator <;>
      simp only [evaluate, evaluate_congr left hleft, evaluate_congr right hright]
  | .assign target source, h =>
    obtain ⟨htargets, hsource⟩ := Bool.and_eq_true_iff.1 h
    have hsource' := evaluate_congr source hsource
    match target, Bool.and_eq_true_iff.1 htargets with
    | .identifier name, _ => simp only [evaluate, hsource']
    | .member object name, ⟨_, h⟩ => simp only [evaluate, hsource', evaluate_congr object h]
    | .index object key, ⟨_, h⟩ =>
      obtain ⟨hobject, hkey⟩ := Bool.and_eq_true_iff.1 h
      simp only [evaluate, hsource', evaluate_congr object hobject, evaluate_congr key hkey]

theorem evaluateAll_congr (es : List Expression) (h : Expression.allTargetsAssignable es = true) :
    evaluateAll refusal f es = evaluateAll refusal' f es := by
  match es, h with
  | [], _ => rfl
  | e :: rest, h =>
    obtain ⟨hfirst, hrest⟩ := Bool.and_eq_true_iff.1 h
    simp only [evaluateAll, evaluate_congr e hfirst, evaluateAll_congr rest hrest]

end

/-- A program that assigns to anything else comes to what stands there. -/
example (chain : ScopeChain) (this event : Value) :
    Program.runWith (evaluate refusal) ⟨[.ret (some (.assign .this .this))]⟩ chain this event =
      (do return (← refusal.run event).1) := by
  simp only [Program.runWith, executeAll, execute, evaluate, pure_bind, bind_assoc,
    StateT.run_bind, StateT.run_pure, Option.getD_some]

end Refusals

/-- Every assignment of an accepted program has an assignable target. So no run of it comes to the refusal
of an assignment: whatever is computed in that place, the program does the same in every environment. -/
theorem accepted_programs_assign_to_places (source : String) (p : Program)
    (accepted : Program.ofText? source = .ok p) :
    p.targetsAssignable = true ∧ ∀ (σ : Type) (refusal : Evaluation σ Value) (chain : ScopeChain)
      (this event : Value), p.runWith (evaluate refusal) chain this event = p.run chain this event := by
  have assignable : p.targetsAssignable = true := by
    obtain ⟨ls, -, ⟨spelled, -⟩⟩ := ofText?_eq_ok_iff.1 accepted
    exact spelled.targetsAssignable (grammar_targetsAssignable nestingLimit)
  refine ⟨assignable, fun σ refusal chain this event => ?_⟩
  exact Program.runWith_congr (evaluate_congr refusal refuse) assignable chain this event

theorem assigned_key_assigns_to_places :
    let p : Program := ⟨[.expression (.assign (.index .this (.assign (.identifier "event")
      (.constant (.text "k")))) (.identifier "event"))]⟩
    Program.ofText? "this[event='k']=event" = .ok p ∧ p.targetsAssignable = true ∧
      ∀ (σ : Type) (refusal : Evaluation σ Value) (chain : ScopeChain) (this event : Value),
        p.runWith (evaluate refusal) chain this event = p.run chain this event := by
  let ls : List Lexeme :=
    [⟨.identifier "this", 0, 4, false⟩, ⟨.punctuator .openBracket, 4, 5, false⟩,
      ⟨.identifier "event", 5, 10, false⟩, ⟨.punctuator .assign, 10, 11, false⟩,
      ⟨.string "k", 11, 14, false⟩, ⟨.punctuator .closeBracket, 14, 15, false⟩,
      ⟨.punctuator .assign, 15, 16, false⟩, ⟨.identifier "event", 16, 21, false⟩,
      ⟨.endOfInput, 21, 21, false⟩]
  have lexed : lexemes "this[event='k']=event" = .ok ls := by decide +kernel
  have accepted : Program.ofText? "this[event='k']=event" = .ok _ := bind_eq_ok_iff.2 ⟨ls, lexed, rfl⟩
  exact ⟨accepted, accepted_programs_assign_to_places _ _ accepted⟩

end WebBindings.Script
