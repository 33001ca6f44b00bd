import WebBindings.Proofs.Script.Parsing
/-!
# The depth of programs

The nesting limit bounds how deeply phrases are nested inside each other, but not how long a chain of
operators, member accesses and calls is. The syntax tree of a chain leans to the left and is as high as
the chain is long, so there are accepted programs of any height.
-/

namespace WebBindings.Script

mutual

/-- How deep the syntax tree of an expression is below its root, when one step along a chain, to the
left operand, the base or the callee, counts `step` and every other step counts one. -/
def Expression.depth (step : Nat) : Expression → Nat
  | .constant _ | .identifier _ | .this => 0
  | .member object _ => object.depth step + step
  | .index object key => max (object.depth step + step) (key.depth step + 1)
  | .call callee arguments => max (callee.depth step + step) (Expression.depthBelow step arguments)
  | .unary _ operand => operand.depth step + 1
  | .binary _ left right => max (left.depth step + step) (right.depth step + 1)
  | .assign target value => max (target.depth step) (value.depth step) + 1

/-- How far the arguments of a call reach below it. -/
def Expression.depthBelow (step : Nat) : List Expression → Nat
  | [] => 0
  | e :: rest => max (e.depth step + 1) (Expression.depthBelow step rest)

end

mutual

/-- How deep the syntax tree of a statement is below its root; only conditions and blocks count, and
what the expressions in it count. -/
def Statement.depth (step : Nat) : Statement → Nat
  | .empty | .ret none => 0
  | .expression e | .ret (some e) | .throw e => e.depth step
  | .ifThen test consequent => max (test.depth step) (consequent.depth step) + 1
  | .ifElse test consequent alternate =>
    max (test.depth step) (max (consequent.depth step) (alternate.depth step)) + 1
  | .block body => Statement.depthOfAll step body + 1

def Statement.depthOfAll (step : Nat) : List Statement → Nat
  | [] => 0
  | s :: rest => max (s.depth step) (Statement.depthOfAll step rest)

end

namespace Program

/-- The height of the syntax tree. -/
def height (p : Program) : Nat := Statement.depthOfAll 1 p.body

/-- The height of the syntax tree when steps along chains do not count. -/
def nesting (p : Program) : Nat := Statement.depthOfAll 0 p.body

end Program

theorem Chained.invariant {first : Language Expression} {link : Expression → Language Expression}
    {P : Expression → Prop} (hfirst : ∀ {xs e}, first xs e → P e)
    (hlink : ∀ {e xs e'}, link e xs e' → P e → P e') {xs : List Lexeme} {e : Expression}
    (chained : Chained first link xs e) : P e := by
  induction chained with
  | first operand => exact hfirst operand
  | link _ linked ih => exact hlink linked ih

theorem IsLevel.depth_le {operators : List (Punctuator × BinaryOperator)}
    {operand : Language Expression} {b : Nat} (h : ∀ {xs e}, operand xs e → e.depth 0 ≤ b)
    {xs : List Lexeme} {e : Expression} (spelled : IsLevel operators operand xs e) :
    e.depth 0 ≤ b + 1 := by
  refine spelled.invariant (fun first => Nat.le_succ_of_le (h first)) fun linked before => ?_
  obtain ⟨-, -, right⟩ := linked
  exact Nat.max_le.2 ⟨before, Nat.succ_le_succ (h right)⟩

/-- No phrase one level further inside is deeper than a bound, chains apart. -/
structure Grammar.DepthLe (G : Grammar) (b : Nat) : Prop where
  statement {xs following : List Lexeme} {s : Statement} (spelled : G.statement xs following s) :
    s.depth 0 ≤ b
  expression {xs : List Lexeme} {e : Expression} (spelled : G.expression xs e) : e.depth 0 ≤ b
  operand {xs : List Lexeme} {e : Expression} (spelled : G.operand xs e) : e.depth 0 ≤ b

section Levels

variable {G : Grammar} {b : Nat} (inner : G.DepthLe b) {xs following : List Lexeme}

include inner

theorem IsPrimary.depth_le {e : Expression} (spelled : IsPrimary G xs e) : e.depth 0 ≤ b := by
  cases spelled with
  | number | text => exact Nat.zero_le b
  | word _ means => cases means <;> exact Nat.zero_le b
  | parenthesized _ spelled _ => exact inner.expression spelled

theorem IsArguments.depth_le {es : List Expression} (spelled : IsArguments G xs es) :
    Expression.depthBelow 0 es ≤ b + 1 := by
  induction spelled with
  | last argument _ =>
    exact Nat.max_le.2 ⟨Nat.succ_le_succ (inner.expression argument), Nat.zero_le _⟩
  | more argument _ _ ih =>
    exact Nat.max_le.2 ⟨Nat.succ_le_succ (inner.expression argument), ih⟩

theorem IsAccess.depth_le {e e' : Expression} (access : IsAccess G e xs e') (h : e.depth 0 ≤ b + 1) :
    e'.depth 0 ≤ b + 1 := by
  cases access with
  | member => exact h
  | index _ key _ => exact Nat.max_le.2 ⟨h, Nat.succ_le_succ (inner.expression key)⟩
  | call => exact Nat.max_le.2 ⟨h, Nat.zero_le _⟩
  | callWith _ arguments => exact Nat.max_le.2 ⟨h, arguments.depth_le inner⟩

theorem IsUnary.depth_le {e : Expression} (spelled : IsUnary G xs e) : e.depth 0 ≤ b + 1 := by
  cases spelled with
  | not _ operand | negate _ operand | typeOf _ operand =>
    exact Nat.succ_le_succ (inner.operand operand)
  | accessed accessed =>
    exact accessed.invariant (fun first => Nat.le_succ_of_le (first.depth_le inner))
      fun access => access.depth_le inner

/-- Four levels of operators stand between an operand and a whole value. -/
theorem IsDisjunction.depth_le {e : Expression} (spelled : IsDisjunction G xs e) :
    e.depth 0 ≤ b + 5 :=
  IsLevel.depth_le (IsLevel.depth_le (IsLevel.depth_le (IsLevel.depth_le (IsUnary.depth_le inner))))
    spelled

theorem IsAssignment.depth_le {e : Expression} (spelled : IsAssignment G xs e) :
    e.depth 0 ≤ b + 6 := by
  cases spelled with
  | value spelled => exact Nat.le_succ_of_le (spelled.depth_le inner)
  | assign target _ _ value =>
    have htarget := target.depth_le inner
    have hvalue := inner.expression value
    exact Nat.succ_le_succ (Nat.max_le.2 ⟨htarget, by omega⟩)

theorem IsClause.depth_le {e : Expression} (clause : IsClause G xs following e) : e.depth 0 ≤ b := by
  obtain ⟨spelled, -, -⟩ := clause
  exact inner.expression spelled

theorem IsSequence.depth_le {body : List Statement} (spelled : IsSequence G xs following body) :
    Statement.depthOfAll 0 body ≤ b := by
  induction spelled with
  | nil => exact Nat.zero_le b
  | cons spelled _ ih => exact Nat.max_le.2 ⟨inner.statement spelled, ih⟩

theorem IsStatement.depth_le {s : Statement} (spelled : IsStatement G xs following s) :
    s.depth 0 ≤ b + 1 := by
  cases spelled with
  | empty | ret => exact Nat.zero_le _
  | expression clause | retWith _ clause _ | throw _ clause _ =>
    exact Nat.le_succ_of_le (clause.depth_le inner)
  | ifThen _ _ condition _ positive _ =>
    exact Nat.succ_le_succ (Nat.max_le.2 ⟨inner.expression condition, inner.statement positive⟩)
  | ifElse _ _ condition _ positive _ negative =>
    exact Nat.succ_le_succ (Nat.max_le.2 ⟨inner.expression condition,
      Nat.max_le.2 ⟨inner.statement positive, inner.statement negative⟩⟩)
  | block _ spelled _ => exact Nat.succ_le_succ (spelled.depth_le inner)

end Levels

theorem grammar_depthLe (levels : Nat) : (grammar levels).DepthLe (6 * levels) := by
  induction levels with
  | zero => exact ⟨False.elim, False.elim, False.elim⟩
  | succ levels ih =>
    refine ⟨fun spelled => ?_, fun spelled => spelled.depth_le ih, fun spelled => ?_⟩
    · exact Nat.le_trans (spelled.depth_le ih) (by omega)
    · exact Nat.le_trans (spelled.depth_le ih) (by omega)

/-- An expression that is called so many times in a row. -/
def calls : Nat → Expression → Expression
  | 0, e => e
  | n + 1, e => calls n (.call e [])

/-- How so many calls are written. -/
def callText : Nat → List Char
  | 0 => []
  | n + 1 => '(' :: ')' :: callText n

theorem calls_depth (step n : Nat) (e : Expression) :
    (calls n e).depth step = e.depth step + n * step := by
  induction n generalizing e with
  | zero => simp [calls]
  | succ n ih =>
    rw [calls, ih, Expression.depth, Expression.depthBelow, Nat.max_eq_left (Nat.zero_le _)]
    rw [Nat.succ_mul]
    omega

theorem scanLexemes_calls (n bound offset : Nat) (enough : (callText n).length < bound) :
    ∃ ls last, scanLexemes bound ⟨offset, callText n⟩ = .ok (ls ++ [last]) ∧
      last.token = .endOfInput ∧ ∀ G e, Links (IsAccess G) e ls (calls n e) := by
  induction n generalizing bound offset with
  | zero =>
    obtain ⟨bound, rfl⟩ := Nat.exists_eq_succ_of_ne_zero (Nat.ne_of_gt enough)
    exact ⟨[], ⟨.endOfInput, offset, offset, false⟩,
      scanLexemes_succ.2 ⟨false, ⟨offset, []⟩, .endOfInput, ⟨offset, []⟩, rfl, rfl, rfl⟩, rfl,
      fun _ _ => .nil⟩
  | succ n ih =>
    simp only [callText, List.length_cons] at enough
    obtain ⟨bound, rfl⟩ : ∃ b, bound = b + 2 := ⟨bound - 2, by omega⟩
    obtain ⟨ls, last, more, token, links⟩ := ih bound (offset + 2) (by omega)
    have closing := scanLexemes_succ (c := ⟨offset + 1, ')' :: callText n⟩).2
      ⟨false, _, .punctuator .closeParen, _, rfl, rfl, _, more, rfl⟩
    have opening := scanLexemes_succ (c := ⟨offset, '(' :: ')' :: callText n⟩).2
      ⟨false, _, .punctuator .openParen, _, rfl, rfl, _, closing, rfl⟩
    exact ⟨_ :: _ :: ls, last, opening, token, fun G e => .cons (.call rfl rfl) (links G _)⟩

theorem calls_accepted (n : Nat) : Program.ofText? (String.ofList ('f' :: callText n)) =
    .ok ⟨[.expression (calls n (.identifier "f"))]⟩ := by
  obtain ⟨ls, last, more, token, links⟩ :=
    scanLexemes_calls n ((callText n).length + 1) 1 (Nat.lt_succ_self _)
  have named : scanToken ⟨0, 'f' :: callText n⟩ = .ok (.identifier "f", ⟨1, callText n⟩) := by
    cases n <;> rfl
  have called : lexemes (String.ofList ('f' :: callText n)) =
      .ok (⟨.identifier "f", 0, 1, false⟩ :: ls ++ [last]) := by
    simp only [lexemes, String.toList_ofList]
    exact scanLexemes_succ.2 ⟨false, _, _, _, rfl, named, _, more, rfl⟩
  have primary : IsPrimary (grammar 126) [⟨.identifier "f", 0, 1, false⟩] (.identifier "f") :=
    .word rfl (.name (by decide) (by decide))
  have chained := (Chained.first primary).links (links (grammar 126) (.identifier "f"))
  have spelled : (grammar 127).expression _ _ :=
    .value (.first (.first (.first (.first (.accessed chained)))))
  have ended : IsEnd [] [last] := .implied (by rw [front_cons, token]; nofun) (.inr (.inl token))
  have whole : (front ([] ++ [last])).continuesExpression = false := by
    rw [List.nil_append, front_cons, token]
    rfl
  have statement : (grammar 128).statement _ [last] _ := .expression (.mk spelled ended whole)
  have sequence := IsSequence.cons statement .nil
  rw [List.append_nil, List.append_nil] at sequence
  exact ofText?_eq_ok_iff.2 ⟨_, called, .mk sequence token⟩

/-- Chains apart, an accepted program is nested at most six times as deeply as the nesting limit. -/
theorem accepted_programs_nest_boundedly (source : String) (p : Program)
    (accepted : Program.ofText? source = .ok p) : p.nesting ≤ 6 * nestingLimit := by
  obtain ⟨ls, -, ⟨spelled, -⟩⟩ := ofText?_eq_ok_iff.1 accepted
  exact spelled.depth_le (grammar_depthLe nestingLimit)

theorem called_twice_nests_boundedly :
    Program.ofText? (String.ofList ['f', '(', ')', '(', ')']) =
      .ok ⟨[.expression (.call (.call (.identifier "f") []) [])]⟩ ∧
    Program.nesting ⟨[.expression (.call (.call (.identifier "f") []) [])]⟩ ≤ 6 * nestingLimit :=
  ⟨calls_accepted 2, accepted_programs_nest_boundedly _ _ (calls_accepted 2)⟩

/-- No height is the greatest that an accepted program has. -/
theorem accepted_programs_have_any_height :
    ¬ ∃ bound, ∀ source p, Program.ofText? source = .ok p → p.height ≤ bound := by
  rintro ⟨bound, bounded⟩
  have h := bounded _ _ (calls_accepted (bound + 1))
  simp only [Program.height, Statement.depthOfAll, Statement.depth, calls_depth, Expression.depth] at h
  omega

end WebBindings.Script
