import WebBindings.Proofs.Script.Descent
/-!
# The progress of the parser

The machine agrees with the readers of programs, step for step, on the lexemes that are ahead of it. What is
known about the readers is so known about the machine: no repetition of it goes on without end, since each of
its steps takes a lexeme.

What the readers have no account of is the depth. Where the machine agrees with a reader it is back at the
depth that it began with, whether it succeeds or fails.
-/

namespace WebBindings.Script.Descent

open Course

variable {α β : Type}

/-- From a course a routine has the outcome that a reader has on the lexemes ahead. Where it succeeds,
it leaves the lexemes ahead that the reader leaves. -/
def Agrees (ls : Input) (p : Parser α) (r : Routine α) (c : Course) : Prop :=
  ∃ c', c.LeadsTo ls c' ∧
    ((∃ a, Gives p (c.ahead ls) a (c'.ahead ls) ∧ Ends r c (.ok a) c') ∨
      ∃ fault, p.run (c.ahead ls) = .error fault ∧ Ends r c (.error fault) c')

namespace Agrees

variable {ls : Input} {c : Course} {p q : Parser α} {r s : Routine α}

theorem ends (agrees : Agrees ls p r c) :
    ∃ c', c.LeadsTo ls c' ∧ Ends r c ((p.run (c.ahead ls)).map Prod.fst) c' := by
  obtain ⟨c', led, ⟨a, gives, ends⟩ | ⟨fault, fails, ends⟩⟩ := agrees
  · have gives : p.run (c.ahead ls) = _ := gives
    exact ⟨c', led, gives ▸ ends⟩
  · exact ⟨c', led, fails ▸ ends⟩

theorem pure (a : α) : Agrees ls (pure a) (pure a) c := ⟨c, .refl, .inl ⟨a, rfl, rfl⟩⟩

theorem throw (fault : SyntaxFault) : Agrees ls (throw fault : Parser α) (throw fault) c :=
  ⟨c, .refl, .inr ⟨fault, rfl, rfl⟩⟩

theorem unexpected : Agrees ls (Parser.unexpected : Parser α) ls.unexpected c := by
  refine ⟨c, .refl, .inr ⟨_, rfl, ?_⟩⟩
  rw [Course.ahead, List.head?_drop]
  rfl

theorem bind {f : α → Parser β} {g : α → Routine β} (first : Agrees ls p r c)
    (next : ∀ a c', c.LeadsTo ls c' → Gives p (c.ahead ls) a (c'.ahead ls) →
      Agrees ls (f a) (g a) c') : Agrees ls (p >>= f) (r >>= g) c := by
  obtain ⟨c', led, ⟨a, gives, ends⟩ | ⟨fault, fails, ends⟩⟩ := first
  · have steps := ends.run_bind g
    obtain ⟨c'', led', ⟨b, gives', ends'⟩ | ⟨fault, fails, ends'⟩⟩ := next a c' led gives
    · exact ⟨c'', led.trans led',
        .inl ⟨b, gives_bind.2 ⟨a, _, gives, gives'⟩, steps.trans ends'⟩⟩
    · have reads : (p >>= f).run (c.ahead ls) = .error fault := by
        rw [StateT.run_bind, gives]
        exact fails
      exact ⟨c'', led.trans led', .inr ⟨fault, reads, steps.trans ends'⟩⟩
  · have reads : (p >>= f).run (c.ahead ls) = .error fault := by
      rw [StateT.run_bind, fails]
      rfl
    exact ⟨c', led, .inr ⟨fault, reads, ends.bind_error g⟩⟩

/-- Behind a step that the reader and the routine make together, they agree on what is left to do. -/
theorem of_step {p' : Parser α} {r' : Routine α} {c' : Course} (led : c.LeadsTo ls c')
    (reads : p.run (c.ahead ls) = p'.run (c'.ahead ls)) (steps : r.run.run c = r'.run.run c')
    (next : Agrees ls p' r' c') : Agrees ls p r c := by
  obtain ⟨c'', led', ⟨a, gives, ends⟩ | ⟨fault, fails, ends⟩⟩ := next
  · exact ⟨c'', led.trans led', .inl ⟨a, reads.trans gives, steps.trans ends⟩⟩
  · exact ⟨c'', led.trans led', .inr ⟨fault, reads.trans fails, steps.trans ends⟩⟩

theorem current_bind {f : Token → Parser α} {g : Token → Routine α}
    (next : Agrees ls (f (front (c.ahead ls))) (g (front (c.ahead ls))) c) :
    Agrees ls (Parser.current >>= f) (ls.current >>= g) c :=
  of_step .refl rfl (run_current_bind g) next

theorem current_left {f : Token → Parser α} (next : Agrees ls (f (front (c.ahead ls))) r c) :
    Agrees ls (Parser.current >>= f) r c :=
  of_step .refl rfl rfl next

theorem remaining_left {f : Nat → Parser α} (next : Agrees ls (f (c.ahead ls).length) r c) :
    Agrees ls (Parser.remaining >>= f) r c :=
  of_step .refl rfl rfl next

theorem current_right {g : Token → Routine α} (next : Agrees ls p (g (front (c.ahead ls))) c) :
    Agrees ls p (ls.current >>= g) c :=
  of_step .refl rfl (run_current_bind g) next

theorem eat_right {m : Punctuator} (absent : front (c.ahead ls) ≠ .punctuator m)
    (next : Agrees ls p s c) : Agrees ls p (do if ← ls.eat m then r else s) c :=
  of_step .refl rfl (run_eat_bind_absent absent _) next

theorem bump_bind {f : Unit → Parser α} {g : Token → Routine α}
    (next : ∀ c', c.Passes ls (front (c.ahead ls)) c' →
      Agrees ls (f ()) (g (front (c.ahead ls))) c') :
    Agrees ls (Parser.advance >>= f) (ls.bump >>= g) c := by
  refine of_step leadsTo_bumped ?_ (run_bump_bind g) (next _ passes_bumped)
  rw [ahead_bumped]
  rfl

theorem bump_throw {fault : SyntaxFault} {g : Token → Routine α}
    (fails : g (front (c.ahead ls)) = MonadExcept.throw fault) :
    Agrees ls (MonadExcept.throw fault) (ls.bump >>= g) c :=
  of_step leadsTo_bumped rfl ((run_bump_bind g).trans (by rw [fails])) (throw fault)

theorem newlineAhead_bind {f : Bool → Parser α} {g : Bool → Routine α}
    (next : ∀ newline, Agrees ls (f newline) (g newline) c) :
    Agrees ls (Parser.newlineAhead >>= f) (ls.newlineAhead >>= g) c := by
  refine of_step .refl rfl ?_ (next ((c.ahead ls).head?.any Lexeme.newlineBefore))
  rw [Course.ahead, List.head?_drop]
  rfl

theorem isNext_bind {m : Punctuator} {f : Bool → Parser α} {g : Bool → Routine α}
    (next : Agrees ls (f (decide (front (c.ahead ls) = .punctuator m)))
      (g (decide (front (c.ahead ls) = .punctuator m))) c) :
    Agrees ls (Parser.isNext m >>= f) (ls.isNext m >>= g) c := by
  refine of_step .refl rfl ?_ next
  rw [Input.isNext, bind_assoc, run_current_bind, pure_bind]

theorem isWordNext_bind {w : String} {f : Bool → Parser α} {g : Bool → Routine α}
    (next : Agrees ls (f (decide (front (c.ahead ls) = .identifier w)))
      (g (decide (front (c.ahead ls) = .identifier w))) c) :
    Agrees ls (Parser.isWordNext w >>= f) (ls.isWordNext w >>= g) c := by
  refine of_step .refl rfl ?_ next
  rw [Input.isWordNext, bind_assoc, run_current_bind, pure_bind]

theorem lift_bind {x : Except SyntaxFault β} {f : β → Parser α} {g : β → Routine α}
    (next : ∀ b, x = .ok b → Agrees ls (f b) (g b) c) :
    Agrees ls (liftM x >>= f) (liftM x >>= g) c := by
  cases x with
  | error fault => exact throw fault
  | ok b => exact next b rfl

theorem eat_bind {m : Punctuator} {f : Bool → Parser α} {g : Bool → Routine α}
    (present : ∀ c', c.Passes ls (.punctuator m) c' → Agrees ls (f true) (g true) c')
    (absent : front (c.ahead ls) ≠ .punctuator m → Agrees ls (f false) (g false) c) :
    Agrees ls (Parser.eat m >>= f) (ls.eat m >>= g) c := by
  rw [Parser.eat, Input.eat, bind_assoc, bind_assoc]
  refine isNext_bind ?_
  split
  · rename_i ahead
    rw [bind_assoc, bind_assoc]
    exact bump_bind fun c' passes => present c' (of_decide_eq_true ahead ▸ passes)
  · rename_i other
    exact absent fun ahead => other (decide_eq_true ahead)

theorem eat_ite {m : Punctuator} (present : ∀ c', c.Passes ls (.punctuator m) c' → Agrees ls p r c')
    (absent : front (c.ahead ls) ≠ .punctuator m → Agrees ls q s c) :
    Agrees ls (do if ← Parser.eat m then p else q) (do if ← ls.eat m then r else s) c :=
  eat_bind present absent

theorem expect_bind {m : Punctuator} {f : Unit → Parser α} {g : Unit → Routine α}
    (next : ∀ c', c.Passes ls (.punctuator m) c' → Agrees ls (f ()) (g ()) c') :
    Agrees ls (Parser.expect m >>= f) (ls.expect m >>= g) c := by
  rw [Parser.expect, Input.expect, bind_assoc, bind_assoc]
  refine eat_bind (fun c' passes => ?_) fun _ => ?_
  · exact next c' passes
  · exact unexpected.bind fun _ _ _ gives => absurd gives not_gives_unexpected

theorem atImpliedEnd_bind {f : Bool → Parser α} {g : Bool → Routine α}
    (next : ∀ implied, Agrees ls (f implied) (g implied) c) :
    Agrees ls (Parser.atImpliedEnd >>= f) (ls.atImpliedEnd >>= g) c := by
  rw [Parser.atImpliedEnd, Input.atImpliedEnd, bind_assoc, bind_assoc]
  refine isNext_bind ?_
  split
  · exact next true
  · rw [bind_assoc, bind_assoc]
    refine current_bind ?_
    split
    · exact next true
    · exact newlineAhead_bind next

theorem endStatement_bind {f : Unit → Parser α} {g : Unit → Routine α}
    (next : ∀ c', c.LeadsTo ls c' → Agrees ls (f ()) (g ()) c') :
    Agrees ls (Parser.endStatement >>= f) (ls.endStatement >>= g) c := by
  rw [Parser.endStatement, Input.endStatement, bind_assoc, bind_assoc]
  refine eat_bind (fun c' passes => next c' passes.toLeadsTo) fun _ => ?_
  simp only [Bool.false_eq_true, if_false, bind_assoc]
  refine atImpliedEnd_bind fun implied => ?_
  cases implied with
  | true => exact next c .refl
  | false => exact unexpected.bind fun _ _ _ gives => absurd gives not_gives_unexpected

/-- A rule that counts as nested agrees with a reader if the rule itself does one level deeper. -/
theorem nested {rule : Rule α} (shallow : c.now.depth < nestingLimit)
    (agrees : Agrees ls p (ls.bare rule) c.enter) : Agrees ls p (ls.nested rule) c := by
  obtain ⟨c', led, ⟨a, gives, ends⟩ | ⟨fault, fails, ends⟩⟩ := agrees
  · exact ⟨c'.leave, led.leave shallow, .inl ⟨a, gives, nested_ends shallow ends⟩⟩
  · exact ⟨c'.leave, led.leave shallow, .inr ⟨fault, fails, nested_ends shallow ends⟩⟩

end Agrees

/-- A routine agrees with a reader wherever it begins at some depth. -/
def AgreesAt (ls : Input) (d : Nat) (p : Parser α) (r : Routine α) : Prop :=
  ∀ c : Course, c.now.depth = d → Agrees ls p r c

/-- The reader of what a rule that counts as nested stands for. -/
def Rule.reader (inner : Rules) : Rule α → Parser α
  | .statement => inner.statement
  | .expression => inner.expression
  | .operand => inner.operand

section Rules

variable {ls : Input} {inner : Rules} {d : Nat}
  (deeper : ∀ {α : Type} (rule : Rule α), AgreesAt ls d (rule.reader inner) (ls.nested rule))

section Levels

variable {k : Precedence} {next : Parser Expression} (operands : AgreesAt ls d next (ls.tighter k))

include operands

theorem chain_agrees {bound : Nat} {left : Expression} (c : Course) (hc : c.now.depth = d)
    (enough : (c.ahead ls).length ≤ bound) :
    Agrees ls (Script.chain k.operators next bound left) (ls.chain k left) c := by
  induction bound generalizing left c with
  | zero =>
    rw [Input.chain]
    refine .current_right ?_
    rw [front_of_length_eq_zero (Nat.le_zero.1 enough)]
    cases k <;> exact .pure left
  | succ bound ih =>
    rw [Script.chain, Input.chain]
    refine .current_bind ?_
    cases found : operatorFor? k.operators (front (c.ahead ls)) with
    | none => exact .pure left
    | some operator =>
      obtain ⟨m, -, ahead⟩ := mem_of_operatorFor? found
      refine .bump_bind fun c' passes => ?_
      refine .bind (operands c' (passes.depth.trans hc)) fun right c'' led _ => ?_
      have shorter := (ahead ▸ passes).length_ahead_lt
      have fewer := led.length_ahead_le
      exact ih c'' (led.depth.trans (passes.depth.trans hc)) (by omega)

theorem level_agrees : AgreesAt ls d (Script.level k.operators next) (ls.level k) := by
  intro c hc
  rw [Script.level, Input.level]
  refine .bind (operands c hc) fun left c' led _ => .remaining_left ?_
  exact chain_agrees operands c' (led.depth.trans hc) (Nat.le_refl _)

end Levels

section Expressions

include deeper

theorem primary_agrees : AgreesAt ls d (Script.primary inner) ls.primary := by
  intro c hc
  rw [Script.primary, Input.primary]
  refine .current_bind ?_
  cases front (c.ahead ls) with
  | punctuator m =>
    cases m with
    | openParen =>
      refine .bump_bind fun c' passes => .bind (deeper .expression c' (passes.depth.trans hc)) ?_
      exact fun e _ _ _ => .expect_bind fun _ _ => .pure e
    | _ => exact .unexpected
  | number x => exact .bump_bind fun _ _ => .pure _
  | string s => exact .bump_bind fun _ _ => .pure _
  | identifier name => exact .lift_bind fun e _ => .bump_bind fun _ _ => .pure e
  | endOfInput => exact .unexpected

variable (ended : ls.getLast?.map Lexeme.token = some .endOfInput)

include ended

/-- The bound is never used up: there is always an argument or a failure ahead. -/
theorem arguments_agrees {bound : Nat} {before : List Expression} (c : Course) (hc : c.now.depth = d)
    (enough : (c.ahead ls).length ≤ bound) (goesOn : c.ahead ls ≠ []) :
    Agrees ls (Script.arguments inner bound before) (ls.arguments before) c := by
  induction bound generalizing before c with
  | zero => exact absurd (List.length_eq_zero_iff.1 (Nat.le_zero.1 enough)) goesOn
  | succ bound ih =>
    rw [Script.arguments, Input.arguments]
    refine .bind (deeper .expression c hc) fun e c' led _ => ?_
    refine .eat_bind (fun _ _ => .pure _) fun _ => .expect_bind fun c'' passes => ?_
    have shorter := passes.length_ahead_lt
    have fewer := led.length_ahead_le
    exact ih c'' (passes.depth.trans (led.depth.trans hc)) (by omega) (passes.ahead_ne_nil ended)

theorem accesses_agrees {bound : Nat} {e : Expression} (c : Course) (hc : c.now.depth = d)
    (enough : (c.ahead ls).length ≤ bound) :
    Agrees ls (Script.accesses inner bound e) (ls.accesses e) c := by
  induction bound generalizing e c with
  | zero =>
    have absent := front_ne_punctuator (Nat.le_zero.1 enough)
    rw [Input.accesses]
    exact .eat_right (absent _) (.eat_right (absent _) (.eat_right (absent _) (.pure e)))
  | succ bound ih =>
    rw [Script.accesses, Input.accesses]
    refine .eat_ite (fun c' passes => .current_left ?_) fun _ => ?_
    · have shorter := passes.length_ahead_lt
      cases named : front (c'.ahead ls) with
      | identifier name =>
        refine .bump_bind fun c'' passes' => ?_
        have fewer := passes'.length_ahead_le
        rw [named]
        exact ih c'' (passes'.depth.trans (passes.depth.trans hc)) (by omega)
      | _ =>
        refine .bump_throw ?_
        rw [named]
    refine .eat_ite (fun c' passes => ?_) fun _ => ?_
    · have shorter := passes.length_ahead_lt
      refine .bind (deeper .expression c' (passes.depth.trans hc)) fun key c'' led _ => ?_
      refine .expect_bind fun c''' passes' => ?_
      have led' := led.trans passes'.toLeadsTo
      have fewer := led'.length_ahead_le
      exact ih c''' (led'.depth.trans (passes.depth.trans hc)) (by omega)
    refine .eat_ite (fun c' passes => ?_) fun _ => .pure e
    have shorter := passes.length_ahead_lt
    refine .eat_ite (fun c'' passes' => ?_) fun _ => .remaining_left (.bind ?_ fun args c'' led _ => ?_)
    · have fewer := passes'.length_ahead_le
      exact ih c'' (passes'.depth.trans (passes.depth.trans hc)) (by omega)
    · exact arguments_agrees deeper ended c' (passes.depth.trans hc) (Nat.le_refl _)
        (passes.ahead_ne_nil ended)
    · have fewer := led.length_ahead_le
      exact ih c'' (led.depth.trans (passes.depth.trans hc)) (by omega)

theorem accessed_agrees : AgreesAt ls d (Script.accessed inner) ls.accessed := by
  intro c hc
  rw [Script.accessed, Input.accessed]
  refine .bind (primary_agrees deeper c hc) fun e c' led _ => .remaining_left ?_
  exact accesses_agrees deeper ended c' (led.depth.trans hc) (Nat.le_refl _)

theorem unary_agrees : AgreesAt ls d (Script.unary inner) ls.unary := by
  intro c hc
  rw [Script.unary, Input.unary]
  refine .current_bind ?_
  cases unaryOperator? (front (c.ahead ls)) with
  | none => exact accessed_agrees deeper ended c hc
  | some operator =>
    refine .bump_bind fun c' passes => .bind (deeper .operand c' (passes.depth.trans hc)) ?_
    exact fun e _ _ _ => .pure _

theorem logical_agrees : AgreesAt ls d (Script.logical inner) (ls.level .disjunction) := by
  rw [Script.logical]
  refine level_agrees (k := .disjunction) ?_
  rw [Input.tighter]
  refine level_agrees (k := .conjunction) ?_
  rw [Input.tighter]
  refine level_agrees (k := .equality) ?_
  rw [Input.tighter]
  refine level_agrees (k := .sum) ?_
  rw [Input.tighter]
  exact unary_agrees deeper ended

theorem assignment_agrees : AgreesAt ls d (Script.assignment inner) ls.assignment := by
  intro c hc
  rw [Script.assignment, Input.assignment]
  refine .bind (logical_agrees deeper ended c hc) fun target c' led _ => .isNext_bind ?_
  split
  · split
    · refine .bump_bind fun c'' passes => ?_
      refine .bind (deeper .expression c'' (passes.depth.trans (led.depth.trans hc))) ?_
      exact fun value _ _ _ => .pure _
    · exact .throw _
  · exact .pure target

end Expressions

section Statements

include deeper

theorem expressionStatement_agrees :
    AgreesAt ls d (Script.expressionStatement inner) ls.expressionStatement := by
  intro c hc
  rw [Script.expressionStatement, Input.expressionStatement]
  exact .bind (deeper .expression c hc) fun e _ _ _ => .endStatement_bind fun _ _ => .pure _

theorem throwStatement_agrees : AgreesAt ls d (Script.throwStatement inner) ls.throwStatement := by
  intro c hc
  rw [Script.throwStatement, Input.throwStatement]
  refine .newlineAhead_bind fun newline => ?_
  split
  · exact .throw _
  · exact .bind (deeper .expression c hc) fun e _ _ _ => .endStatement_bind fun _ _ => .pure _

theorem returnStatement_agrees :
    AgreesAt ls d (Script.returnStatement inner) ls.returnStatement := by
  intro c hc
  rw [Script.returnStatement, Input.returnStatement]
  refine .isNext_bind (.atImpliedEnd_bind fun implied => ?_)
  split
  · exact .endStatement_bind fun _ _ => .pure _
  · exact .bind (deeper .expression c hc) fun e _ _ _ => .endStatement_bind fun _ _ => .pure _

theorem ifStatement_agrees : AgreesAt ls d (Script.ifStatement inner) ls.ifStatement := by
  intro c hc
  rw [Script.ifStatement, Input.ifStatement]
  refine .expect_bind fun c₁ opened => ?_
  have h₁ := opened.depth.trans hc
  refine .bind (deeper .expression c₁ h₁) fun test c₂ led _ => .expect_bind fun c₃ closed => ?_
  have h₃ := closed.depth.trans (led.depth.trans h₁)
  refine .bind (deeper .statement c₃ h₃) fun consequent c₄ led' _ => .isWordNext_bind ?_
  have h₄ := led'.depth.trans h₃
  split
  · refine .bump_bind fun c₅ passes => .bind (deeper .statement c₅ (passes.depth.trans h₄)) ?_
    exact fun alternate _ _ _ => .pure _
  · exact .pure _

variable (progress : ∀ {ls rest s}, Gives inner.statement ls s rest → rest.length < ls.length)

include progress

/-- No token stands for the repetition here: it ends because a statement takes a lexeme. -/
theorem blockBody_agrees {bound : Nat} {before : List Statement} (c : Course) (hc : c.now.depth = d)
    (enough : (c.ahead ls).length ≤ bound) :
    Agrees ls (Script.blockBody inner bound before) (ls.blockBody before) c := by
  induction bound generalizing before c with
  | zero =>
    have empty := Nat.le_zero.1 enough
    rw [Input.blockBody]
    refine .eat_right (front_ne_punctuator empty _) (.current_right ?_)
    rw [front_of_length_eq_zero empty]
    exact .unexpected
  | succ bound ih =>
    rw [Script.blockBody, Input.blockBody]
    refine .eat_ite (fun _ _ => .pure before) fun _ => .current_bind ?_
    split
    · exact .unexpected
    · refine .bind (deeper .statement c hc) fun s c' led gives => ?_
      have shorter := progress gives
      exact ih c' (led.depth.trans hc) (by omega)

theorem statement_agrees : AgreesAt ls d (Script.statement inner) ls.statement := by
  intro c hc
  rw [Script.statement, Input.statement]
  refine .current_bind ?_
  cases front (c.ahead ls) with
  | punctuator m =>
    cases m with
    | semicolon => exact .bump_bind fun _ _ => .pure _
    | openBrace =>
      refine .bump_bind fun c' passes => .remaining_left (.bind ?_ fun _ _ _ _ => .pure _)
      exact blockBody_agrees deeper progress c' (passes.depth.trans hc) (Nat.le_refl _)
    | _ => exact expressionStatement_agrees deeper c hc
  | identifier name =>
    dsimp only
    split
    · refine .bump_bind fun c' passes => ?_
      exact returnStatement_agrees deeper c' (passes.depth.trans hc)
    split
    · refine .bump_bind fun c' passes => ?_
      exact throwStatement_agrees deeper c' (passes.depth.trans hc)
    split
    · refine .bump_bind fun c' passes => ?_
      exact ifStatement_agrees deeper c' (passes.depth.trans hc)
    · exact expressionStatement_agrees deeper c hc
  | _ => exact expressionStatement_agrees deeper c hc

end Statements

end Rules

section Programs

variable {ls : Input} (ended : ls.getLast?.map Lexeme.token = some .endOfInput)

include ended

/-- By induction on the levels that are left to nest in. -/
theorem nested_agrees {levels d : Nat} (left : nestingLimit - d = levels) (rule : Rule α) :
    AgreesAt ls d (rule.reader (rules levels)) (ls.nested rule) := by
  induction levels generalizing d α with
  | zero =>
    intro c hc
    refine ⟨c, .refl, .inr ⟨.nesting, ?_, nested_refused (by omega)⟩⟩
    cases rule <;> rfl
  | succ levels ih =>
    intro c hc
    have deeper {α : Type} (rule : Rule α) := ih (d := d + 1) (by omega) rule
    have entered : c.enter.now.depth = d + 1 := congrArg (· + 1) hc
    refine .nested (by omega) ?_
    cases rule with
    | statement =>
      rw [Input.bare]
      exact statement_agrees deeper (length_lt_of_statement (rules_read levels).statement) _ entered
    | expression =>
      rw [Input.bare]
      exact assignment_agrees deeper ended _ entered
    | operand =>
      rw [Input.bare]
      exact unary_agrees deeper ended _ entered

theorem statements_agrees {bound : Nat} {before : List Statement} (c : Course)
    (hc : c.now.depth = 0) (enough : (c.ahead ls).length ≤ bound) :
    Agrees ls (Script.statements (rules nestingLimit) bound before) (ls.statements before) c := by
  induction bound generalizing before c with
  | zero =>
    rw [Input.statements]
    refine .current_right ?_
    rw [front_of_length_eq_zero (Nat.le_zero.1 enough)]
    exact .pure before
  | succ bound ih =>
    rw [Script.statements, Input.statements]
    refine .current_bind ?_
    split
    · exact .pure before
    · refine .bind (nested_agrees ended rfl .statement c hc) fun s c' led gives => ?_
      have shorter := length_lt_of_statement (rules_read nestingLimit).statement gives
      exact ih c' (led.depth.trans hc) (by omega)

omit ended

theorem Ends.parse {outcome : Except SyntaxFault (List Statement)} {c : Course}
    (ends : Ends (ls.statements []) .start outcome c) :
    Ends ls.parse .start (outcome.map Program.mk) c := by
  cases outcome with
  | ok body => exact ends.run_bind _
  | error fault => exact ends.bind_error _

theorem ofLexemes?_eq_map : Program.ofLexemes? ls =
    (((Script.statements (rules nestingLimit) ls.length []).run ls).map Prod.fst).map Program.mk := by
  rw [Program.ofLexemes?]
  cases (Script.statements (rules nestingLimit) ls.length []).run ls <;> rfl

/-- The courses of the machine between the statements of a program. -/
inductive AtTopLevel (ls : Input) : Course → Prop
  | start : AtTopLevel ls .start
  | next {c c' s} (before : AtTopLevel ls c) (goesOn : front (c.ahead ls) ≠ .endOfInput)
    (ends : Ends (ls.nested .statement) c (.ok s) c') : AtTopLevel ls c'

namespace AtTopLevel

variable {c : Course}

include ended in
theorem depth (top : AtTopLevel ls c) : c.now.depth = 0 := by
  induction top with
  | start => rfl
  | @next c c' s _ _ ends ih =>
    obtain ⟨c'', led, ends'⟩ := (nested_agrees ended rfl .statement c ih).ends
    obtain rfl := ends'.unique ends
    exact led.depth.trans ih

theorem run_statements (top : AtTopLevel ls c) :
    ∃ before, (ls.statements []).run.run .start = (ls.statements before).run.run c := by
  induction top with
  | start => exact ⟨[], rfl⟩
  | @next c c' s _ goesOn ends ih =>
    obtain ⟨before, same⟩ := ih
    refine ⟨before ++ [s], same.trans ?_⟩
    rw [Input.statements, run_current_bind, if_neg goesOn, ends.run_bind]

end AtTopLevel

/-- The machine comes to the outcome that the reader of programs has, at the depth of the start, and
over all courses between statements. -/
theorem parse_ends (ended : ls.getLast?.map Lexeme.token = some .endOfInput) : ∃ c,
    Ends ls.parse .start (Program.ofLexemes? ls) c ∧ Course.start.LeadsTo ls c ∧
      ∀ c', AtTopLevel ls c' → c'.LeadsTo ls c := by
  have whole (before : List Statement) (c : Course) (top : c.now.depth = 0) :
      Agrees ls (Script.statements (rules nestingLimit) (c.ahead ls).length before)
        (ls.statements before) c := statements_agrees ended c top (Nat.le_refl _)
  obtain ⟨c, led, ends⟩ := (whole [] .start rfl).ends
  refine ⟨c, ofLexemes?_eq_map ▸ ends.parse, led, fun c' top => ?_⟩
  obtain ⟨before, same⟩ := top.run_statements
  obtain ⟨c'', led', ends'⟩ := (whole before c' (top.depth ended)).ends
  obtain rfl := ends.unique (same.trans ends')
  exact led'

end Programs

/-- What a reader gives is read off at least one lexeme, and off no end of input. -/
def Consumes (p : Parser α) : Prop := ∀ ls rest a, Gives p ls a rest →
  ∃ l xs, ls = l :: xs ++ rest ∧ ∀ x ∈ l :: xs, x.token ≠ .endOfInput

theorem consumes_of_reads {p : Parser Expression} {L : Language Expression}
    {begins goesOn : Token → Bool} (reads : Reads p L begins goesOn) : Consumes p := by
  intro ls rest e gives
  obtain ⟨xs, rfl, spelled, -⟩ := reads.gives.1 gives
  obtain ⟨l, ys, rfl, -⟩ := reads.starts spelled
  exact ⟨l, ys, rfl, reads.within spelled⟩

theorem consumes_of_readsStatements {p : Parser Statement}
    {L : (lexemes following : List Lexeme) → Statement → Prop} (reads : ReadsStatements p L) :
    Consumes p := by
  intro ls rest s gives
  obtain ⟨xs, rfl, spelled⟩ := reads.gives.1 gives
  obtain ⟨l, ys, rfl, -⟩ := (reads.spells rest).starts spelled
  exact ⟨l, ys, rfl, (reads.spells rest).within spelled⟩

theorem Rule.reader_consumes (rule : Rule α) (levels : Nat) :
    Consumes (rule.reader (rules levels)) := by
  have reads := rules_read levels
  cases rule with
  | statement => exact consumes_of_readsStatements reads.statement
  | expression => exact consumes_of_reads reads.expression
  | operand => exact consumes_of_reads reads.operand

/-- From every course a routine comes to an end, successful or not, and is then back at its depth. If it
succeeds, it has gone over at least one lexeme, and over no end of input. -/
def Progresses (ls : Input) (r : Routine α) : Prop :=
  ∀ c : Course, ∃ outcome c', Ends r c outcome c' ∧ c.LeadsTo ls c' ∧
    ∀ a, outcome = .ok a → c.Advances ls c'

theorem Progresses.of_agrees {ls : Input} {r : Routine α} (reader : Nat → Parser α)
    (consumes : ∀ d, Consumes (reader d)) (agrees : ∀ d, AgreesAt ls d (reader d) r) :
    Progresses ls r := by
  intro c
  obtain ⟨c', led, ⟨a, gives, ends⟩ | ⟨fault, -, ends⟩⟩ := agrees c.now.depth c rfl
  · obtain ⟨l, xs, passed, within⟩ := consumes _ _ _ _ gives
    exact ⟨.ok a, c', ends, led, fun _ _ => led.advances passed within⟩
  · exact ⟨.error fault, c', ends, led, nofun⟩

/-- On lexemes that end with the end of input the parser comes to an end. On the whole way it stays within
the lexemes and the nesting limit, and its depth is zero at the end and between statements. The rules
that count as nested, and those of unary operators and of member accesses and calls, come to an end from
everywhere, take at least one lexeme and no end of input if they succeed, and give back their depth. -/
theorem parsing_ends_at_its_depth (ls : Input)
    (ended : ls.getLast?.map Lexeme.token = some .endOfInput) :
    (∃ c, Ends ls.parse .start (Program.ofLexemes? ls) c ∧ c.now.depth = 0 ∧ c.Within ls ∧
      ∀ c', AtTopLevel ls c' → c'.now.depth = 0 ∧ c'.places <:+ c.places) ∧
    (∀ {α : Type} (rule : Rule α), Progresses ls (ls.nested rule)) ∧
    Progresses ls ls.unary ∧ Progresses ls ls.accessed := by
  have deeper (d : Nat) {α : Type} (rule : Rule α) := nested_agrees ended (d := d) rfl rule
  refine ⟨?_, fun rule => ?_, ?_, ?_⟩
  · obtain ⟨c, ends, led, tops⟩ := parse_ends ended
    refine ⟨c, ends, led.depth, led.within within_start, fun c' top => ?_⟩
    exact ⟨top.depth ended, (tops c' top).past⟩
  · exact .of_agrees _ (fun d => rule.reader_consumes (nestingLimit - d)) fun d => deeper d rule
  · refine .of_agrees _ (fun d => ?_) fun d => unary_agrees (deeper d) ended
    have reads := rules_read (nestingLimit - d)
    exact consumes_of_reads (unary_reads reads.expression reads.operand)
  · refine .of_agrees _ (fun d => ?_) fun d => accessed_agrees (deeper d) ended
    exact consumes_of_reads (accessed_reads (rules_read (nestingLimit - d)).expression)

theorem conditional_call_is_parsed_at_its_depth :
    let ls : Input :=
      [⟨.identifier "if", 0, 2, false⟩, ⟨.punctuator .openParen, 2, 3, false⟩,
        ⟨.identifier "x", 3, 4, false⟩, ⟨.punctuator .closeParen, 4, 5, false⟩,
        ⟨.identifier "f", 5, 6, false⟩, ⟨.punctuator .openParen, 6, 7, false⟩,
        ⟨.punctuator .closeParen, 7, 8, false⟩, ⟨.endOfInput, 8, 8, false⟩]
    ls.getLast?.map Lexeme.token = some .endOfInput ∧
      (∃ c, Ends ls.parse .start (Program.ofLexemes? ls) c ∧ c.now.depth = 0 ∧ c.Within ls ∧
        ∀ c', AtTopLevel ls c' → c'.now.depth = 0 ∧ c'.places <:+ c.places) ∧
      (∀ {α : Type} (rule : Rule α), Progresses ls (ls.nested rule)) ∧
      Progresses ls ls.unary ∧ Progresses ls ls.accessed :=
  ⟨rfl, parsing_ends_at_its_depth _ rfl⟩

end WebBindings.Script.Descent
