import WebBindings.Proofs.Script.Masking
import WebBindings.Proofs.Script.Parsing
/-!
# Adjacent minuses

There is no decrement operator, and the table of punctuators does not know its token either: two
adjacent minuses are two tokens. The second one can only be a negation, so a text without negations has
no adjacent minuses outside its string literals and comments.
-/

namespace WebBindings.Script

def isMinus (l : Lexeme) : Bool := l.token = .punctuator .minus

/-- Neighbouring minuses of a text are neighbouring lexemes, however they are spaced. -/
theorem scanLexemes_repeats {bound : Nat} {c : Cursor} {ls : List Lexeme}
    (enough : c.rest.length < bound) (h : scanLexemes bound c = .ok ls) (before : Bool) :
    repeats isDash before (mask .code c.rest) ≤ repeats isMinus before ls := by
  induction bound generalizing c ls before with
  | zero => exact absurd enough (Nat.not_lt_zero _)
  | succ bound ih =>
    obtain ⟨newline, front, token, after, hblanks, htoken, h⟩ := scanLexemes_succ.1 h
    have blanks := (skipBlanks_suffix hblanks).length_le
    refine Nat.le_trans (skipBlanks_repeats hblanks before) ?_
    have shorter : token ≠ .endOfInput → after.rest.length < bound := by
      intro other
      rcases scanToken_suffix htoken with ended | ⟨first, cs, hfront, -, suffix⟩
      · exact absurd ended other
      · have := suffix.length_le
        rw [hfront, List.length_cons] at blanks
        omega
    rcases scanToken_masks htoken with ⟨rfl, empty⟩ | ⟨rfl, masked⟩ |
      ⟨other, other', shown, spaced, masked⟩
    · rw [empty]
      exact Nat.zero_le _
    · rw [if_neg nofun] at h
      obtain ⟨more, hmore, rfl⟩ := h
      rw [masked]
      exact Nat.add_le_add (Nat.le_refl _) (ih (shorter nofun) hmore true)
    · rw [if_neg other] at h
      obtain ⟨more, hmore, rfl⟩ := h
      have few := Nat.le_trans (repeats_le before shown) spaced.few
      have rest := ih (shorter other) hmore false
      rw [masked, repeats_append, endsIn_of_ends spaced.ends, repeats]
      simp only [isMinus, other', decide_false, Bool.and_false]
      simp
      omega

mutual

/-- How many times an expression negates an operand. -/
def Expression.negations : Expression → Nat
  | .constant _ | .identifier _ | .this => 0
  | .member object _ => object.negations
  | .index object key => object.negations + key.negations
  | .call callee arguments => callee.negations + Expression.negationsOfAll arguments
  | .unary operator operand => operand.negations + if operator = .negate then 1 else 0
  | .binary _ left right => left.negations + right.negations
  | .assign target value => target.negations + value.negations

def Expression.negationsOfAll : List Expression → Nat
  | [] => 0
  | e :: rest => e.negations + Expression.negationsOfAll rest

end

mutual

def Statement.negations : Statement → Nat
  | .empty | .ret none => 0
  | .expression e | .ret (some e) | .throw e => e.negations
  | .ifThen test consequent => test.negations + consequent.negations
  | .ifElse test consequent alternate =>
    test.negations + (consequent.negations + alternate.negations)
  | .block body => Statement.negationsOfAll body

def Statement.negationsOfAll : List Statement → Nat
  | [] => 0
  | s :: rest => s.negations + Statement.negationsOfAll rest

end

def Program.negations (p : Program) : Nat := Statement.negationsOfAll p.body

/-- In the phrases one level further inside, each minus behind another one is a negation, also a minus
in front that stands behind one before the phrase; and no expression ends with a minus. -/
structure Grammar.Negates (G : Grammar) : Prop where
  statement {xs following : List Lexeme} {s : Statement} (spelled : G.statement xs following s) :
    repeats isMinus true xs ≤ s.negations
  expression {xs : List Lexeme} {e : Expression} (spelled : G.expression xs e) :
    Spaced isMinus xs e.negations
  operand {xs : List Lexeme} {e : Expression} (spelled : G.operand xs e) :
    Spaced isMinus xs e.negations

theorem isMinus_of_token {l : Lexeme} {t : Token} (token : l.token = t)
    (other : t ≠ .punctuator .minus) : isMinus l = false := by
  simp [isMinus, token, other]

section Levels

variable {G : Grammar} (inner : G.Negates) {xs following : List Lexeme}

include inner

theorem IsPrimary.negates {e : Expression} (spelled : IsPrimary G xs e) :
    Spaced isMinus xs e.negations := by
  cases spelled with
  | number token | text token => exact .single (isMinus_of_token token (by simp))
  | word token means => cases means <;> exact .single (isMinus_of_token token (by simp))
  | parenthesized opening spelled closing =>
    have closed := (inner.expression spelled).append (.single (isMinus_of_token closing (by simp)))
    exact closed.cons (isMinus_of_token opening (by simp))

theorem IsArguments.negates {es : List Expression} (spelled : IsArguments G xs es) :
    Spaced isMinus xs (Expression.negationsOfAll es) := by
  induction spelled with
  | last argument closing =>
    exact (inner.expression argument).append (.single (isMinus_of_token closing (by simp)))
  | more argument comma _ ih => exact (inner.expression argument).join _ ih

theorem IsAccess.negates {e e' : Expression} {before : List Lexeme} (access : IsAccess G e xs e')
    (h : Spaced isMinus before e.negations) : Spaced isMinus (before ++ xs) e'.negations := by
  cases access with
  | member opening token =>
    have named := Spaced.single (isMinus_of_token token (by simp))
    exact h.append (named.cons (isMinus_of_token opening (by simp)))
  | index opening key closing =>
    have closed := (inner.expression key).append (.single (isMinus_of_token closing (by simp)))
    exact h.append (closed.cons (isMinus_of_token opening (by simp)))
  | call opening closing =>
    have closed := Spaced.single (isMinus_of_token closing (by simp))
    exact h.append (closed.cons (isMinus_of_token opening (by simp)))
  | callWith opening arguments =>
    exact h.append ((arguments.negates inner).cons (isMinus_of_token opening (by simp)))

theorem IsUnary.negates {e : Expression} (spelled : IsUnary G xs e) :
    Spaced isMinus xs e.negations := by
  cases spelled with
  | not token operand | typeOf token operand =>
    exact (inner.operand operand).cons (isMinus_of_token token (by simp))
  | negate token operand => exact (inner.operand operand).succ _
  | accessed accessed =>
    induction accessed with
    | first operand => exact operand.negates inner
    | link before linked ih => exact linked.negates inner ih

end Levels

theorem IsLevel.negates {operators : List (Punctuator × BinaryOperator)}
    {operand : Language Expression} (h : ∀ {xs e}, operand xs e → Spaced isMinus xs e.negations)
    {xs : List Lexeme} {e : Expression} (spelled : IsLevel operators operand xs e) :
    Spaced isMinus xs e.negations := by
  induction spelled with
  | first first => exact h first
  | link before linked ih =>
    obtain ⟨-, -, right⟩ := linked
    exact ih.join _ (h right)

section Phrases

variable {G : Grammar} (inner : G.Negates) {xs following : List Lexeme}

include inner

theorem IsDisjunction.negates {e : Expression} (spelled : IsDisjunction G xs e) :
    Spaced isMinus xs e.negations :=
  IsLevel.negates (IsLevel.negates (IsLevel.negates (IsLevel.negates (IsUnary.negates inner)))) spelled

theorem IsAssignment.negates {e : Expression} (spelled : IsAssignment G xs e) :
    Spaced isMinus xs e.negations := by
  cases spelled with
  | value spelled => exact spelled.negates inner
  | assign target _ _ value => exact (target.negates inner).join _ (inner.expression value)

omit inner in
theorem IsEnd.repeats_eq (ended : IsEnd xs following) (before : Bool) :
    repeats isMinus before xs = 0 := by
  cases ended with
  | semicolon token => simp [repeats, isMinus_of_token token (by simp)]
  | implied => rfl

theorem IsClause.repeats_le {e : Expression} (clause : IsClause G xs following e) :
    repeats isMinus true xs ≤ e.negations := by
  obtain ⟨spelled, ended, -⟩ := clause
  rw [repeats_append, ended.repeats_eq]
  exact (inner.expression spelled).few

theorem IsSequence.repeats_le {body : List Statement} (spelled : IsSequence G xs following body) :
    repeats isMinus true xs ≤ Statement.negationsOfAll body := by
  induction spelled with
  | nil => exact Nat.le_refl _
  | cons spelled _ ih => exact repeats_append_le (inner.statement spelled) ih

theorem IsStatement.repeats_le {s : Statement} (spelled : IsStatement G xs following s) :
    repeats isMinus true xs ≤ s.negations := by
  cases spelled with
  | empty token => exact (Spaced.single (isMinus_of_token token (by simp))).few
  | expression clause => exact clause.repeats_le inner
  | ret token ended =>
    exact repeats_cons_le (isMinus_of_token token (by simp)) (ended.repeats_eq true).le
  | retWith token clause _ | throw token clause _ =>
    exact repeats_cons_le (isMinus_of_token token (by simp)) (clause.repeats_le inner)
  | ifThen token opening condition closing positive _ =>
    have test := repeats_cons_le (isMinus_of_token opening (by simp)) (inner.expression condition).few
    have branch := repeats_cons_le (isMinus_of_token closing (by simp)) (inner.statement positive)
    exact repeats_append_le (repeats_cons_le (isMinus_of_token token (by simp)) test) branch
  | ifElse token opening condition closing positive other negative =>
    have test := repeats_cons_le (isMinus_of_token opening (by simp)) (inner.expression condition).few
    have second := repeats_cons_le (isMinus_of_token other (by simp)) (inner.statement negative)
    have branches := repeats_append_le (inner.statement positive) second
    exact repeats_append_le (repeats_cons_le (isMinus_of_token token (by simp)) test)
      (repeats_cons_le (isMinus_of_token closing (by simp)) branches)
  | block opening spelled closing =>
    have body := repeats_cons_le (isMinus_of_token opening (by simp)) (spelled.repeats_le inner)
    exact repeats_append_le body (Spaced.single (isMinus_of_token closing (by simp))).few

end Phrases

theorem grammar_negates (levels : Nat) : (grammar levels).Negates := by
  induction levels with
  | zero => exact ⟨False.elim, False.elim, False.elim⟩
  | succ levels ih =>
    exact ⟨fun spelled => spelled.repeats_le ih, fun spelled => spelled.negates ih,
      fun spelled => spelled.negates ih⟩

/-- How many minuses of a text stand directly behind another one, outside string literals and
comments. -/
def adjacentMinuses (source : String) : Nat := repeats isDash false (exposed source)

/-- In an accepted text every minus directly behind another one is a negation, so a text that negates
nothing has no adjacent minuses outside its string literals and comments. -/
theorem adjacent_minuses_negate (source : String) (p : Program)
    (accepted : Program.ofText? source = .ok p) :
    adjacentMinuses source ≤ p.negations ∧
    (p.negations = 0 → ∀ before after, exposed source ≠ before ++ '-' :: '-' :: after) := by
  have few : adjacentMinuses source ≤ p.negations := by
    obtain ⟨ls, lexed, ⟨spelled, token⟩⟩ := ofText?_eq_ok_iff.1 accepted
    have ends := (Spaced.single (isMinus_of_token token (by simp))).few
    have counted := repeats_append_le (spelled.repeats_le (grammar_negates nestingLimit)) ends
    calc
      adjacentMinuses source ≤ repeats isMinus false _ :=
        scanLexemes_repeats (Nat.lt_succ_self _) lexed false
      _ ≤ repeats isMinus true _ := repeats_le _ _
      _ ≤ _ := counted
  refine ⟨few, ?_⟩
  intro none before after same
  have some := repeats_pos (p := isDash) (x := '-') (y := '-') rfl rfl false before after
  rw [← same] at some
  rw [none] at few
  exact Nat.not_lt_of_le few some

theorem subtracted_negation_has_one :
    Program.ofText? "a--b" = .ok ⟨[.expression (.binary .subtract (.identifier "a")
      (.unary .negate (.identifier "b")))]⟩ ∧ adjacentMinuses "a--b" ≤ 1 := by
  let ls : List Lexeme :=
    [⟨.identifier "a", 0, 1, false⟩, ⟨.punctuator .minus, 1, 2, false⟩,
      ⟨.punctuator .minus, 2, 3, false⟩, ⟨.identifier "b", 3, 4, false⟩,
      ⟨.endOfInput, 4, 4, false⟩]
  have lexed : lexemes "a--b" = .ok ls := by decide +kernel
  have accepted : Program.ofText? "a--b" = .ok _ := bind_eq_ok_iff.2 ⟨ls, lexed, rfl⟩
  exact ⟨accepted, (adjacent_minuses_negate _ _ accepted).1⟩

/-- What would be a decrement is accepted as the negation of a negation. -/
theorem decrements_negate_twice :
    Program.ofText? "--x" =
      .ok ⟨[.expression (.unary .negate (.unary .negate (.identifier "x")))]⟩ ∧
    exposed "--x" = [] ++ '-' :: '-' :: ['x'] := by
  let ls : List Lexeme :=
    [⟨.punctuator .minus, 0, 1, false⟩, ⟨.punctuator .minus, 1, 2, false⟩,
      ⟨.identifier "x", 2, 3, false⟩, ⟨.endOfInput, 3, 3, false⟩]
  have lexed : lexemes "--x" = .ok ls := by decide +kernel
  exact ⟨bind_eq_ok_iff.2 ⟨ls, lexed, rfl⟩, by decide⟩

end WebBindings.Script
