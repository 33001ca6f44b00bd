import WebBindings.Proofs.Script.Expressions
/-!
# Readers of statements

The readers of statements give the statements of the grammar, if the readers one level further inside
do. Where an expression could end its statement, the token behind it decides: it is the end, or it goes
on with the expression, or there is no statement.
-/

namespace WebBindings.Script

open WebBindings.Script.Parser

/-- Whether a statement may begin with a token; a sequence of statements ends before the others. -/
def Token.startsStatement : Token → Bool
  | .punctuator .closeBrace | .endOfInput => false
  | _ => true

theorem Token.startsStatement_of_startsExpression {t : Token} (h : t.startsExpression = true) :
    t.startsStatement = true := by
  cases t with
  | punctuator p => cases p <;> first | rfl | cases h
  | endOfInput => cases h
  | _ => rfl

/-- A reader gives exactly the statements of a language of statements before what follows them. -/
structure ReadsStatements (p : Parser Statement)
    (L : (lexemes following : List Lexeme) → Statement → Prop) : Prop where
  spells (following : List Lexeme) : Spells (L · following) Token.startsStatement
  gives {ls rest : List Lexeme} {s : Statement} :
    Gives p ls s rest ↔ ∃ xs, ls = xs ++ rest ∧ L xs rest s

instance (following : List Lexeme) : Decidable (EndImplied following) :=
  inferInstanceAs (Decidable (_ ∨ _ ∨ _))

theorem endImplied_cons_iff {l : Lexeme} {ls : List Lexeme} (starts : l.token.startsExpression = true) :
    EndImplied (l :: ls) ↔ l.newlineBefore = true := by
  constructor
  · rintro (closing | ended | newline)
    · rw [← front_cons l ls, closing] at starts
      cases starts
    · rw [← front_cons l ls, ended] at starts
      cases starts
    · exact newline
  · exact fun newline => .inr (.inr newline)

section Ends

variable {β : Type} {ls rest : List Lexeme} {b : β}

theorem gives_atImpliedEnd {implied : Bool} :
    Gives atImpliedEnd ls implied rest ↔ decide (EndImplied ls) = implied ∧ ls = rest := by
  rw [atImpliedEnd, gives_isNext_bind]
  split
  · rename_i ahead
    have ends : EndImplied ls := .inl (of_decide_eq_true ahead)
    rw [gives_pure, decide_eq_true ends]
  · rename_i closing
    rw [gives_current_bind]
    split
    · rename_i ahead
      have ends : EndImplied ls := .inr (.inl ahead)
      rw [gives_pure, decide_eq_true ends]
    · rename_i ended
      refine gives_pure.trans (and_congr_left fun _ => ?_)
      simp_all [EndImplied]

theorem gives_endStatement_bind {f : Unit → Parser β} :
    Gives (endStatement >>= f) ls b rest ↔
      ∃ xs mid, ls = xs ++ mid ∧ IsEnd xs mid ∧ Gives (f ()) mid b rest := by
  rw [endStatement, bind_assoc, gives_eat_bind]
  split
  · rename_i ahead
    obtain ⟨l, ls, rfl, token⟩ := exists_of_front ahead nofun
    simp only [if_true, List.tail_cons, pure_bind]
    constructor
    · exact fun h => ⟨[l], ls, rfl, .semicolon token, h⟩
    · rintro ⟨xs, mid, hls, ended, h⟩
      cases ended with
      | semicolon => exact (List.cons.inj hls).2 ▸ h
      | implied absent =>
        obtain rfl : l :: ls = mid := hls
        exact absurd token absent
  · rename_i absent
    simp only [Bool.false_eq_true, if_false, bind_assoc, gives_bind (p := atImpliedEnd),
      gives_atImpliedEnd]
    constructor
    · rintro ⟨_, _, ⟨rfl, rfl⟩, h⟩
      by_cases implied : EndImplied ls
      · rw [decide_eq_true implied] at h
        exact ⟨[], ls, rfl, .implied absent implied, h⟩
      · rw [decide_eq_false implied] at h
        exact absurd h not_gives_unexpected
    · rintro ⟨xs, mid, rfl, ended, h⟩
      cases ended with
      | semicolon token => exact absurd token absent
      | implied _ implied => exact ⟨true, mid, ⟨decide_eq_true implied, rfl⟩, h⟩

end Ends

section Sequences

variable {inner : Rules} {G : Grammar}

theorem IsSequence.front {xs following : List Lexeme} {body : List Statement}
    (statement : ReadsStatements inner.statement G.statement)
    (spelled : IsSequence G xs following body) :
    xs = [] ∧ body = [] ∨ (front (xs ++ following)).startsStatement = true := by
  cases spelled with
  | nil => exact .inl ⟨rfl, rfl⟩
  | cons spelled _ =>
    obtain ⟨l, ys, rfl, starts⟩ := (statement.spells _).starts spelled
    exact .inr starts

theorem IsSequence.within {xs following : List Lexeme} {body : List Statement}
    (statement : ReadsStatements inner.statement G.statement)
    (spelled : IsSequence G xs following body) : ∀ l ∈ xs, l.token ≠ .endOfInput := by
  induction spelled with
  | nil => exact List.forall_mem_nil _
  | cons spelled _ ih => exact List.forall_mem_append.2 ⟨(statement.spells _).within spelled, ih⟩

variable (statement : ReadsStatements inner.statement G.statement) {bound : Nat}
  {before body : List Statement} {ls rest : List Lexeme}

include statement

theorem exists_sequence_cons {mid : List Lexeme} {s : Statement} {added : List Statement}
    {xs : List Lexeme} (first : Gives inner.statement ls s (xs ++ mid))
    (spelled : IsSequence G xs mid added) :
    ∃ ys, ls = ys ++ mid ∧ IsSequence G ys mid (s :: added) := by
  obtain ⟨ys, rfl, hs⟩ := statement.gives.1 first
  exact ⟨ys ++ xs, (List.append_assoc _ _ _).symm, .cons hs spelled⟩

theorem length_lt_of_statement {mid : List Lexeme} {s : Statement}
    (first : Gives inner.statement ls s mid) : mid.length < ls.length := by
  obtain ⟨ys, rfl, hs⟩ := statement.gives.1 first
  obtain ⟨l, ys, rfl, -⟩ := (statement.spells _).starts hs
  simp only [List.cons_append, List.length_cons, List.length_append]
  omega

theorem blockBody_gives (enough : ls.length ≤ bound) :
    Gives (blockBody inner bound before) ls body rest ↔
      ∃ xs c added, ls = xs ++ c :: rest ∧ IsSequence G xs (c :: rest) added ∧
        c.token = .punctuator .closeBrace ∧ body = before ++ added := by
  induction bound generalizing ls before with
  | zero =>
    obtain rfl := List.length_eq_zero_iff.1 (Nat.le_zero.1 enough)
    constructor
    · exact fun h => absurd h not_gives_unexpected
    · rintro ⟨xs, c, added, hls, -⟩
      exact absurd hls (by simp)
  | succ bound ih =>
    rw [blockBody, gives_eat_ite]
    split
    · rename_i ahead
      obtain ⟨c, ls, rfl, closing⟩ := exists_of_front ahead nofun
      rw [List.tail_cons, gives_pure]
      constructor
      · rintro ⟨rfl, rfl⟩
        exact ⟨[], c, [], rfl, .nil, closing, (List.append_nil _).symm⟩
      · rintro ⟨xs, c', added, hls, spelled, -, rfl⟩
        obtain ⟨rfl, rfl⟩ | starts := spelled.front statement
        · exact ⟨(List.append_nil _).symm, (List.cons.inj hls).2⟩
        · rw [← hls, ahead] at starts
          cases starts
    · rename_i closing
      rw [gives_current_bind]
      split
      · rename_i ended
        constructor
        · exact fun h => absurd h not_gives_unexpected
        · rintro ⟨xs, c, added, rfl, spelled, token, -⟩
          obtain ⟨rfl, rfl⟩ | starts := spelled.front statement
          · exact absurd token closing
          · rw [ended] at starts
            cases starts
      · rw [gives_bind]
        constructor
        · rintro ⟨s, mid, first, h⟩
          have shorter := length_lt_of_statement statement first
          obtain ⟨xs, c, added, rfl, spelled, token, rfl⟩ := (ih (by omega)).1 h
          obtain ⟨ys, rfl, sequence⟩ := exists_sequence_cons statement first spelled
          exact ⟨ys, c, s :: added, rfl, sequence, token, by simp⟩
        · rintro ⟨xs, c, added, rfl, spelled, token, rfl⟩
          cases spelled with
          | nil => exact absurd token closing
          | @cons xs ys _ s added hs spelled =>
            have first := statement.gives.2 ⟨xs, List.append_assoc _ _ _, hs⟩
            have shorter := length_lt_of_statement statement first
            exact ⟨s, _, first, (ih (by omega)).2 ⟨ys, c, added, rfl, spelled, token, by simp⟩⟩

theorem statements_gives (enough : ls.length ≤ bound) :
    Gives (statements inner bound before) ls body rest ↔
      ∃ xs added, ls = xs ++ rest ∧ IsSequence G xs rest added ∧ front rest = .endOfInput ∧
        body = before ++ added := by
  induction bound generalizing ls before with
  | zero =>
    obtain rfl := List.length_eq_zero_iff.1 (Nat.le_zero.1 enough)
    rw [statements, gives_pure]
    constructor
    · rintro ⟨rfl, rfl⟩
      exact ⟨[], [], rfl, .nil, rfl, (List.append_nil _).symm⟩
    · rintro ⟨xs, added, hls, spelled, -, rfl⟩
      obtain ⟨rfl, rfl⟩ := List.append_eq_nil_iff.1 hls.symm
      obtain ⟨-, rfl⟩ | starts := spelled.front statement
      · exact ⟨(List.append_nil _).symm, rfl⟩
      · cases starts
  | succ bound ih =>
    rw [statements, gives_current_bind]
    split
    · rename_i ended
      rw [gives_pure]
      constructor
      · rintro ⟨rfl, rfl⟩
        exact ⟨[], [], rfl, .nil, ended, (List.append_nil _).symm⟩
      · rintro ⟨xs, added, rfl, spelled, -, rfl⟩
        obtain ⟨rfl, rfl⟩ | starts := spelled.front statement
        · exact ⟨(List.append_nil _).symm, rfl⟩
        · rw [ended] at starts
          cases starts
    · rename_i ended
      rw [gives_bind]
      constructor
      · rintro ⟨s, mid, first, h⟩
        have shorter := length_lt_of_statement statement first
        obtain ⟨xs, added, rfl, spelled, token, rfl⟩ := (ih (by omega)).1 h
        obtain ⟨ys, rfl, sequence⟩ := exists_sequence_cons statement first spelled
        exact ⟨ys, s :: added, rfl, sequence, token, by simp⟩
      · rintro ⟨xs, added, rfl, spelled, token, rfl⟩
        cases spelled with
        | nil => exact absurd token ended
        | @cons xs ys _ s added hs spelled =>
          have first := statement.gives.2 ⟨xs, List.append_assoc _ _ _, hs⟩
          have shorter := length_lt_of_statement statement first
          exact ⟨s, _, first, (ih (by omega)).2 ⟨ys, added, rfl, spelled, token, by simp⟩⟩

end Sequences

section Statements

variable {inner : Rules} {G : Grammar}
  (expression : Reads inner.expression G.expression Token.startsExpression Token.continuesExpression)
  (sub : ReadsStatements inner.statement G.statement)

theorem IsEnd.within {xs following : List Lexeme} (ended : IsEnd xs following) :
    ∀ l ∈ xs, l.token ≠ .endOfInput := by
  cases ended with
  | semicolon token => exact List.forall_mem_singleton.2 (token.trans_ne nofun)
  | implied => exact List.forall_mem_nil _

section Clauses

include expression

theorem IsClause.spells (following : List Lexeme) :
    Spells (IsClause G · following) Token.startsExpression where
  starts := by
    rintro _ _ ⟨spelled, -, -⟩
    obtain ⟨l, ys, rfl, starts⟩ := expression.starts spelled
    exact ⟨l, _, rfl, starts⟩
  within := by
    rintro _ _ ⟨spelled, ended, -⟩
    exact List.forall_mem_append.2 ⟨expression.within spelled, ended.within⟩

theorem gives_clause_bind {β : Type} {f : Expression → Parser β} {ls rest : List Lexeme} {b : β} :
    Gives (do let e ← inner.expression; endStatement; f e) ls b rest ↔
      ∃ xs mid e, ls = xs ++ mid ∧ IsClause G xs mid e ∧ Gives (f e) mid b rest := by
  simp only [gives_bind (p := inner.expression), gives_endStatement_bind, expression.gives]
  constructor
  · rintro ⟨e, _, ⟨xs, rfl, spelled, outside⟩, ys, mid, rfl, ended, h⟩
    exact ⟨xs ++ ys, mid, e, (List.append_assoc _ _ _).symm, .mk spelled ended outside, h⟩
  · rintro ⟨_, mid, e, rfl, ⟨spelled, ended, outside⟩, h⟩
    exact ⟨e, _, ⟨_, List.append_assoc _ _ _, spelled, outside⟩, _, mid, rfl, ended, h⟩

end Clauses

variable {ls rest : List Lexeme} {s : Statement} {l : Lexeme}

section Kinds

include expression

theorem expressionStatement_gives : Gives (expressionStatement inner) ls s rest ↔
    ∃ xs e, ls = xs ++ rest ∧ IsClause G xs rest e ∧ s = .expression e := by
  rw [expressionStatement, gives_clause_bind expression]
  constructor
  · rintro ⟨xs, mid, e, rfl, clause, h⟩
    obtain ⟨rfl, rfl⟩ := gives_pure.1 h
    exact ⟨xs, e, rfl, clause, rfl⟩
  · rintro ⟨xs, e, rfl, clause, rfl⟩
    exact ⟨xs, rest, e, rfl, clause, gives_pure.2 ⟨rfl, rfl⟩⟩

theorem throwStatement_gives : Gives (throwStatement inner) ls s rest ↔
    ∃ xs e, ls = xs ++ rest ∧ IsClause G xs rest e ∧
      xs.head?.any Lexeme.newlineBefore = false ∧ s = .throw e := by
  rw [throwStatement, gives_newlineAhead_bind]
  constructor
  · intro h
    split at h
    · exact absurd h not_gives_throw
    · rename_i near
      obtain ⟨xs, mid, e, rfl, clause, h⟩ := (gives_clause_bind expression).1 h
      obtain ⟨rfl, rfl⟩ := gives_pure.1 h
      obtain ⟨l, ys, rfl, -⟩ := (IsClause.spells expression mid).starts clause
      exact ⟨l :: ys, e, rfl, clause, Bool.eq_false_iff.2 near, rfl⟩
  · rintro ⟨xs, e, rfl, clause, near, rfl⟩
    obtain ⟨l, ys, rfl, -⟩ := (IsClause.spells expression rest).starts clause
    have near : ((l :: ys ++ rest).head?.any Lexeme.newlineBefore) = false := near
    rw [near]
    exact (gives_clause_bind expression).2 ⟨l :: ys, rest, e, rfl, clause, gives_pure.2 ⟨rfl, rfl⟩⟩

theorem returnStatement_gives : Gives (returnStatement inner) ls s rest ↔
    (∃ xs, ls = xs ++ rest ∧ IsEnd xs rest ∧ s = .ret none) ∨
    ∃ xs e, ls = xs ++ rest ∧ IsClause G xs rest e ∧
      xs.head?.any Lexeme.newlineBefore = false ∧ s = .ret (some e) := by
  rw [returnStatement, gives_isNext_bind]
  simp only [gives_bind (p := atImpliedEnd), gives_atImpliedEnd]
  constructor
  · rintro ⟨_, _, ⟨rfl, rfl⟩, h⟩
    split at h
    · obtain ⟨xs, mid, rfl, ended, h⟩ := gives_endStatement_bind.1 h
      obtain ⟨rfl, rfl⟩ := gives_pure.1 h
      exact .inl ⟨xs, rfl, ended, rfl⟩
    · rename_i goesOn
      obtain ⟨xs, mid, e, rfl, clause, h⟩ := (gives_clause_bind expression).1 h
      obtain ⟨rfl, rfl⟩ := gives_pure.1 h
      obtain ⟨l, ys, rfl, starts⟩ := (IsClause.spells expression mid).starts clause
      refine .inr ⟨l :: ys, e, rfl, clause, Bool.eq_false_iff.2 fun newline => goesOn ?_, rfl⟩
      rw [List.cons_append, decide_eq_true ((endImplied_cons_iff starts).2 newline), Bool.or_true]
  · rintro (⟨xs, rfl, ended, rfl⟩ | ⟨xs, e, rfl, clause, near, rfl⟩)
    · refine ⟨_, _, ⟨rfl, rfl⟩, ?_⟩
      rw [if_pos]
      · exact gives_endStatement_bind.2 ⟨xs, rest, rfl, ended, gives_pure.2 ⟨rfl, rfl⟩⟩
      · cases ended with
        | semicolon token => simp [token]
        | implied _ implied => simp [implied]
    · obtain ⟨l, ys, rfl, starts⟩ := (IsClause.spells expression rest).starts clause
      refine ⟨_, _, ⟨rfl, rfl⟩, ?_⟩
      rw [if_neg]
      · exact (gives_clause_bind expression).2 ⟨l :: ys, rest, e, rfl, clause, gives_pure.2 ⟨rfl, rfl⟩⟩
      · have other : l.token ≠ .punctuator .semicolon := fun token => by
          rw [token] at starts
          cases starts
        have unfinished : ¬ EndImplied (l :: (ys ++ rest)) :=
          fun implied => Bool.eq_false_iff.1 near ((endImplied_cons_iff starts).1 implied)
        simp [other, unfinished]

include sub

theorem ifStatement_gives : Gives (ifStatement inner) ls s rest ↔
    ∃ o xs c ys mid test consequent, ls = o :: xs ++ c :: (ys ++ mid) ∧
      o.token = .punctuator .openParen ∧ G.expression xs test ∧ c.token = .punctuator .closeParen ∧
      G.statement ys mid consequent ∧
      ((front mid ≠ .identifier "else" ∧ mid = rest ∧ s = .ifThen test consequent) ∨
        ∃ k zs alternate, mid = k :: zs ++ rest ∧ k.token = .identifier "else" ∧
          G.statement zs rest alternate ∧ s = .ifElse test consequent alternate) := by
  rw [ifStatement]
  simp only [gives_expect_bind, gives_closed_bind expression (m := .closeParen) rfl,
    gives_bind (p := inner.statement), sub.gives, gives_isWordNext_bind]
  constructor
  · rintro ⟨o, _, rfl, opening, xs, c, _, test, rfl, condition, closing, consequent, mid,
      ⟨ys, rfl, positive⟩, h⟩
    refine ⟨o, xs, c, ys, mid, test, consequent, rfl, opening, condition, closing, positive, ?_⟩
    split at h
    · rename_i ahead
      obtain ⟨k, mid, rfl, other⟩ := exists_of_front (of_decide_eq_true ahead) nofun
      obtain ⟨alternate, mid, halternate, h⟩ := gives_bind.1 (gives_advance_bind.1 h)
      obtain ⟨rfl, rfl⟩ := gives_pure.1 h
      obtain ⟨zs, hzs, negative⟩ := sub.gives.1 halternate
      exact .inr ⟨k, zs, alternate, congrArg (k :: ·) hzs, other, negative, rfl⟩
    · rename_i alone
      obtain ⟨rfl, rfl⟩ := gives_pure.1 h
      exact .inl ⟨fun ahead => alone (decide_eq_true ahead), rfl, rfl⟩
  · rintro ⟨o, xs, c, ys, mid, test, consequent, rfl, opening, condition, closing, positive, h⟩
    refine ⟨o, _, rfl, opening, xs, c, _, test, rfl, condition, closing, consequent, mid,
      ⟨ys, rfl, positive⟩, ?_⟩
    obtain ⟨alone, rfl, rfl⟩ | ⟨k, zs, alternate, rfl, other, negative, rfl⟩ := h
    · rw [decide_eq_false alone]
      exact gives_pure.2 ⟨rfl, rfl⟩
    · have ahead : front (k :: zs ++ rest) = .identifier "else" := other
      rw [decide_eq_true ahead, if_pos rfl, gives_advance_bind, gives_bind]
      exact ⟨alternate, rest, sub.gives.2 ⟨zs, rfl, negative⟩, gives_pure.2 ⟨rfl, rfl⟩⟩

end Kinds

include expression sub

theorem IsStatement.of_gives (h : Gives (statement inner) ls s rest) :
    ∃ xs, ls = xs ++ rest ∧ IsStatement G xs rest s := by
  have of_clause (h : Gives (expressionStatement inner) ls s rest) :
      ∃ xs, ls = xs ++ rest ∧ IsStatement G xs rest s := by
    obtain ⟨xs, e, rfl, clause, rfl⟩ := (expressionStatement_gives expression).1 h
    exact ⟨xs, rfl, .expression clause⟩
  rw [statement, gives_current_bind] at h
  split at h
  · rename_i ahead
    obtain ⟨l, ls, rfl, token⟩ := exists_of_front ahead nofun
    rw [gives_advance_bind, gives_pure] at h
    obtain ⟨rfl, rfl⟩ := h
    exact ⟨[l], rfl, .empty token⟩
  · rename_i ahead
    obtain ⟨o, ls, rfl, opening⟩ := exists_of_front ahead nofun
    rw [gives_advance_bind, gives_remaining_bind, gives_bind] at h
    obtain ⟨body, mid, hbody, h⟩ := h
    obtain ⟨rfl, rfl⟩ := gives_pure.1 h
    obtain ⟨xs, c, _, hls, spelled, closing, rfl⟩ := (blockBody_gives sub (Nat.le_refl _)).1 hbody
    exact ⟨o :: xs ++ [c], by simp_all, .block opening spelled closing⟩
  · rename_i name ahead
    split_ifs at h with isReturn isThrow isIf
    · subst isReturn
      obtain ⟨l, ls, rfl, token⟩ := exists_of_front ahead nofun
      obtain ⟨xs, rfl, ended, rfl⟩ | ⟨xs, e, rfl, clause, near, rfl⟩ :=
        (returnStatement_gives expression).1 (gives_advance_bind.1 h)
      · exact ⟨l :: xs, rfl, .ret token ended⟩
      · exact ⟨l :: xs, rfl, .retWith token clause near⟩
    · subst isThrow
      obtain ⟨l, ls, rfl, token⟩ := exists_of_front ahead nofun
      obtain ⟨xs, e, rfl, clause, near, rfl⟩ :=
        (throwStatement_gives expression).1 (gives_advance_bind.1 h)
      exact ⟨l :: xs, rfl, .throw token clause near⟩
    · subst isIf
      obtain ⟨l, ls, rfl, token⟩ := exists_of_front ahead nofun
      obtain ⟨o, xs, c, ys, mid, test, consequent, rfl, opening, condition, closing, positive, h⟩ :=
        (ifStatement_gives expression sub).1 (gives_advance_bind.1 h)
      obtain ⟨alone, rfl, rfl⟩ | ⟨k, zs, alternate, rfl, other, negative, rfl⟩ := h
      · exact ⟨l :: o :: xs ++ c :: ys, by simp, .ifThen token opening condition closing positive alone⟩
      · exact ⟨l :: o :: xs ++ c :: (ys ++ k :: zs), by simp,
          .ifElse token opening condition closing positive other negative⟩
    · exact of_clause h
  · exact of_clause h

omit expression sub in
theorem statement_gives_of_starts (starts : (front ls).startsExpression = true) :
    Gives (statement inner) ls s rest ↔ Gives (expressionStatement inner) ls s rest := by
  rw [statement, gives_current_bind]
  cases ahead : front ls with
  | number x => rfl
  | string text => rfl
  | endOfInput => rw [ahead] at starts
  | identifier name =>
    rw [ahead] at starts
    simp only [Token.startsExpression, List.contains_eq_mem, List.mem_cons, not_or,
      Bool.not_eq_true', decide_eq_false_iff_not] at starts
    simp only [starts.1, starts.2.1, starts.2.2.1, if_false]
  | punctuator p =>
    rw [ahead] at starts
    cases p <;> first | rfl | cases starts

theorem IsStatement.gives {xs : List Lexeme} (spelled : IsStatement G xs rest s) :
    Gives (statement inner) (xs ++ rest) s rest := by
  cases spelled with
  | expression clause =>
    obtain ⟨l, ys, rfl, starts⟩ := (IsClause.spells expression rest).starts clause
    have starts : (front (l :: ys ++ rest)).startsExpression = true := starts
    exact (statement_gives_of_starts starts).2
      ((expressionStatement_gives expression).2 ⟨_, _, rfl, clause, rfl⟩)
  | empty token =>
    rw [statement, gives_current_bind]
    simp only [List.cons_append, front_cons, token]
    rw [gives_advance_bind, gives_pure]
    exact ⟨rfl, rfl⟩
  | ret token ended =>
    rw [statement, gives_current_bind]
    simp only [List.cons_append, front_cons, token, if_true]
    exact gives_advance_bind.2 ((returnStatement_gives expression).2 (.inl ⟨_, rfl, ended, rfl⟩))
  | retWith token clause near =>
    rw [statement, gives_current_bind]
    simp only [List.cons_append, front_cons, token, if_true]
    exact gives_advance_bind.2
      ((returnStatement_gives expression).2 (.inr ⟨_, _, rfl, clause, near, rfl⟩))
  | throw token clause near =>
    rw [statement, gives_current_bind]
    simp only [List.cons_append, front_cons, token, String.reduceEq, if_false, if_true]
    exact gives_advance_bind.2 ((throwStatement_gives expression).2 ⟨_, _, rfl, clause, near, rfl⟩)
  | @ifThen l o xs c ys _ test consequent token opening condition closing positive alone =>
    rw [statement, gives_current_bind]
    simp only [List.cons_append, front_cons, token, String.reduceEq, if_false, if_true]
    exact gives_advance_bind.2 ((ifStatement_gives expression sub).2 ⟨o, xs, c, ys, rest, test,
      consequent, by simp, opening, condition, closing, positive, .inl ⟨alone, rfl, rfl⟩⟩)
  | @ifElse l o xs c ys k zs _ test consequent alternate token opening condition closing positive other
      negative =>
    rw [statement, gives_current_bind]
    simp only [List.cons_append, front_cons, token, String.reduceEq, if_false, if_true]
    refine gives_advance_bind.2 ((ifStatement_gives expression sub).2 ⟨o, xs, c, ys, k :: zs ++ rest,
      test, consequent, by simp, opening, condition, closing, positive, .inr ?_⟩)
    exact ⟨k, zs, alternate, rfl, other, negative, rfl⟩
  | @block o xs c _ body opening spelled closing =>
    rw [statement, gives_current_bind]
    simp only [List.cons_append, front_cons, opening]
    rw [gives_advance_bind, gives_remaining_bind, gives_bind]
    refine ⟨body, rest, (blockBody_gives sub (Nat.le_refl _)).2 ?_, gives_pure.2 ⟨rfl, rfl⟩⟩
    exact ⟨xs, c, body, by simp, spelled, closing, rfl⟩

theorem IsStatement.spells (following : List Lexeme) :
    Spells (IsStatement G · following) Token.startsStatement where
  starts := by
    rintro _ _ ⟨⟩
    case expression clause =>
      obtain ⟨l, ys, rfl, starts⟩ := (IsClause.spells expression following).starts clause
      exact ⟨l, ys, rfl, Token.startsStatement_of_startsExpression starts⟩
    all_goals exact ⟨_, _, rfl, by simp only [*]; rfl⟩
  within := by
    intro xs s spelled
    have clauses {ys : List Lexeme} {e : Expression} (clause : IsClause G ys following e) :
        ∀ l ∈ ys, l.token ≠ .endOfInput := (IsClause.spells expression following).within clause
    cases spelled with
    | empty token => exact List.forall_mem_singleton.2 (token.trans_ne nofun)
    | expression clause => exact clauses clause
    | ret token ended => exact List.forall_mem_cons.2 ⟨token.trans_ne nofun, ended.within⟩
    | retWith token clause _ => exact List.forall_mem_cons.2 ⟨token.trans_ne nofun, clauses clause⟩
    | throw token clause _ => exact List.forall_mem_cons.2 ⟨token.trans_ne nofun, clauses clause⟩
    | ifThen token opening condition closing positive _ =>
      refine List.forall_mem_append.2 ⟨List.forall_mem_cons.2 ⟨token.trans_ne nofun, ?_⟩, ?_⟩
      · exact List.forall_mem_cons.2 ⟨opening.trans_ne nofun, expression.within condition⟩
      · exact List.forall_mem_cons.2 ⟨closing.trans_ne nofun, (sub.spells _).within positive⟩
    | ifElse token opening condition closing positive other negative =>
      refine List.forall_mem_append.2 ⟨List.forall_mem_cons.2 ⟨token.trans_ne nofun, ?_⟩,
        List.forall_mem_cons.2 ⟨closing.trans_ne nofun, List.forall_mem_append.2 ⟨?_, ?_⟩⟩⟩
      · exact List.forall_mem_cons.2 ⟨opening.trans_ne nofun, expression.within condition⟩
      · exact (sub.spells _).within positive
      · exact List.forall_mem_cons.2 ⟨other.trans_ne nofun, (sub.spells _).within negative⟩
    | block opening spelled closing =>
      exact List.forall_mem_append.2 ⟨List.forall_mem_cons.2 ⟨opening.trans_ne nofun,
        spelled.within sub⟩, List.forall_mem_singleton.2 (closing.trans_ne nofun)⟩

theorem statement_reads : ReadsStatements (statement inner) (IsStatement G) where
  spells := IsStatement.spells expression sub
  gives := by
    intro ls rest s
    constructor
    · exact IsStatement.of_gives expression sub
    · rintro ⟨xs, rfl, spelled⟩
      exact spelled.gives expression sub

end Statements

end WebBindings.Script
