import WebBindings.Proofs.Script.Lexing
import WebBindings.Proofs.Script.Statements
/-!
# Programs and their grammar

A text is a program exactly if its lexemes spell one, and they spell no other.
-/

namespace WebBindings.Script

open WebBindings.Script.Parser

/-- The readers of one level give the phrases of that level. -/
structure RulesRead (inner : Rules) (G : Grammar) : Prop where
  statement : ReadsStatements inner.statement G.statement
  expression : Reads inner.expression G.expression Token.startsExpression Token.continuesExpression
  operand : Reads inner.operand G.operand Token.startsExpression Token.opensAccess

theorem rules_read (levels : Nat) : RulesRead (rules levels) (grammar levels) := by
  induction levels with
  | zero =>
    have nothing {ls rest : List Lexeme} {e : Expression} {L : Language Expression}
        {goesOn : Token → Bool} (empty : ∀ xs e, ¬ L xs e) :
        Gives (throw .nesting) ls e rest ↔
          ∃ xs, ls = xs ++ rest ∧ L xs e ∧ goesOn (front rest) = false :=
      ⟨fun h => absurd h not_gives_throw, fun ⟨xs, _, spelled, _⟩ => absurd spelled (empty xs e)⟩
    refine ⟨⟨fun _ => ⟨False.elim, False.elim⟩, ?_⟩, ⟨⟨False.elim, False.elim⟩, ?_⟩,
      ⟨⟨False.elim, False.elim⟩, ?_⟩⟩
    · exact ⟨fun h => absurd h not_gives_throw, fun ⟨_, _, spelled⟩ => spelled.elim⟩
    · exact nothing fun _ _ => id
    · exact nothing fun _ _ => id
  | succ levels ih =>
    exact ⟨statement_reads ih.expression ih.statement, assignment_reads ih.expression ih.operand,
      unary_reads ih.expression ih.operand⟩

theorem ofLexemes?_eq_ok_iff {ls : List Lexeme} {p : Program} : Program.ofLexemes? ls = .ok p ↔
    ∃ xs rest, ls = xs ++ rest ∧ IsSequence (grammar nestingLimit) xs rest p.body ∧
      front rest = .endOfInput := by
  have reads := (rules_read nestingLimit).statement
  rw [Program.ofLexemes?, bind_eq_ok_iff]
  constructor
  · rintro ⟨⟨body, rest⟩, h, hp⟩
    obtain ⟨xs, _, hls, spelled, ended, rfl⟩ := (statements_gives reads (Nat.le_refl _)).1 h
    cases hp
    exact ⟨xs, rest, hls, spelled, ended⟩
  · rintro ⟨xs, rest, hls, spelled, ended⟩
    refine ⟨(p.body, rest), (statements_gives reads (Nat.le_refl _)).2 ?_, rfl⟩
    exact ⟨xs, p.body, hls, spelled, ended, rfl⟩

theorem IsProgram.ofLexemes? {ls : List Lexeme} {p : Program} (spelled : IsProgram ls p) :
    Program.ofLexemes? ls = .ok p := by
  obtain ⟨spelled, token⟩ := spelled
  exact ofLexemes?_eq_ok_iff.2 ⟨_, _, rfl, spelled, token⟩

/-- No statement reaches over the end of input, so nothing is left behind it. -/
theorem IsProgram.of_ofLexemes? {ls : List Lexeme} {p : Program} (ended : Ended ls)
    (h : Program.ofLexemes? ls = .ok p) : IsProgram ls p := by
  obtain ⟨xs, rest, hls, spelled, hrest⟩ := ofLexemes?_eq_ok_iff.1 h
  obtain ⟨body, last, rfl, token, within⟩ := ended
  have inside := spelled.within (rules_read nestingLimit).statement
  have exact_rest : xs = body ∧ rest = [last] := by
    obtain ⟨ys, rfl, hlast⟩ | ⟨ys, rfl, rfl⟩ := List.append_eq_append_iff.1 hls
    · obtain ⟨rfl, rfl⟩ | ⟨rfl, rfl⟩ := List.singleton_eq_append_iff.1 hlast
      · exact ⟨List.append_nil _, rfl⟩
      · exact absurd token (inside last (by simp))
    · cases ys with
      | nil => exact ⟨(List.append_nil _).symm, rfl⟩
      | cons l ys => exact absurd hrest (within l (by simp))
  obtain ⟨rfl, rfl⟩ := exact_rest
  exact .mk spelled token

theorem ofText?_eq_ok_iff {source : String} {p : Program} :
    Program.ofText? source = .ok p ↔ ∃ ls, lexemes source = .ok ls ∧ IsProgram ls p := by
  rw [Program.ofText?, bind_eq_ok_iff]
  refine exists_congr fun ls => and_congr_right fun h => ⟨?_, IsProgram.ofLexemes?⟩
  exact IsProgram.of_ofLexemes? (lexemes_ended h)

/-- A text is accepted with a program exactly if its lexemes spell that program within the nesting
limit; and lexemes spell at most one program. -/
theorem texts_parse_by_grammar (source : String) (p : Program) :
    (Program.ofText? source = .ok p ↔ ∃ ls, lexemes source = .ok ls ∧ IsProgram ls p) ∧
    ∀ ls p', IsProgram ls p → IsProgram ls p' → p' = p := by
  refine ⟨ofText?_eq_ok_iff, fun ls p' spelled spelled' => ?_⟩
  exact Except.ok.inj (spelled'.ofLexemes?.symm.trans spelled.ofLexemes?)

end WebBindings.Script
