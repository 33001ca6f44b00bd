import Mathlib.Data.List.TakeDrop
import WebBindings.Script.Lexeme
/-!
# The shape of lexeme lists

Reading a token leaves a suffix of the text, and only the end of input takes no character. So the
bound on the number of lexemes is never reached, and the list ends with the first end of input.
-/

namespace WebBindings.Script

theorem skipBlanks_suffix {blank : Blank} {newline newline' : Bool} {offset : Nat} {cs : List Char}
    {front : Cursor} (h : skipBlanks blank newline offset cs = .ok (newline', front)) :
    front.rest <:+ cs := by
  fun_induction skipBlanks blank newline offset cs
  all_goals first
    | cases h; exact List.suffix_refl _
    | rename_i ih; exact (ih h).trans ((List.suffix_cons _ _).trans (List.suffix_cons _ _))
    | rename_i ih; exact (ih h).trans (List.suffix_cons _ _)
    | cases h

theorem span_suffix {cs read rest : List Char} {p : Char → Bool} (h : cs.span p = (read, rest)) :
    rest <:+ cs := by
  rw [List.span_eq_takeWhile_dropWhile] at h
  cases h
  exact List.dropWhile_suffix p

theorem takeExponent?_suffix {cs rest : List Char} {exponent : Bool × List Char}
    (h : DecimalLiteral.takeExponent? cs = some (exponent, rest)) : rest <:+ cs := by
  cases cs with
  | nil => cases h
  | cons e cs =>
    simp only [DecimalLiteral.takeExponent?, List.span_eq_takeWhile_dropWhile] at h
    split at h
    · split at h
      all_goals
        split at h
        · cases h
        simp only [Option.some.injEq, Prod.mk.injEq] at h
        obtain ⟨-, rfl⟩ := h
      · exact (List.dropWhile_suffix _).trans
          ((List.suffix_cons _ _).trans (List.suffix_cons _ _))
      · exact (List.dropWhile_suffix _).trans
          ((List.suffix_cons _ _).trans (List.suffix_cons _ _))
      · exact (List.dropWhile_suffix _).trans (List.suffix_cons _ _)
    · cases h

theorem scanNumber_suffix {c after : Cursor} {t : Token} {first : Char} {cs : List Char}
    (h : scanNumber c = .ok (t, after)) (hc : c.rest = first :: cs)
    (starts : Ascii.isDigit first = true ∨ first = '.') :
    t ≠ .endOfInput ∧ after.rest <:+ cs := by
  unfold scanNumber at h
  rw [hc] at h
  split at h
  rename_i whole afterWhole hwhole
  split at h
  rename_i fraction afterFraction hfraction
  have behind : afterFraction <:+ cs := by
    rw [List.span_eq_takeWhile_dropWhile] at hwhole
    obtain ⟨-, hafter⟩ := Prod.mk.inj hwhole
    obtain digit | rfl := starts
    · rw [List.dropWhile_cons_of_pos digit] at hafter
      have whole : afterWhole <:+ cs := hafter ▸ List.dropWhile_suffix _
      split at hfraction
      · exact (span_suffix hfraction).trans ((List.suffix_cons _ _).trans whole)
      · cases hfraction
        exact whole
    · rw [List.dropWhile_cons_of_neg (by decide)] at hafter
      subst hafter
      exact span_suffix hfraction
  split at h
  · split at h
    · split at h
      · rename_i hexponent
        simp only [pure_bind] at h
        split at h
        · cases h
        · cases h
          exact ⟨nofun, (takeExponent?_suffix hexponent).trans behind⟩
      · cases h
    · simp only [pure_bind] at h
      split at h
      · cases h
      · cases h
        exact ⟨nofun, behind⟩
  · simp only [pure_bind] at h
    split at h
    · cases h
    · cases h
      exact ⟨nofun, behind⟩

theorem scanString_suffix {quote : Char} {opened : Nat} {read : List Char} {offset : Nat}
    {cs : List Char} {t : Token} {after : Cursor}
    (h : scanString quote opened read offset cs = .ok (t, after)) :
    t ≠ .endOfInput ∧ after.rest <:+ cs := by
  fun_induction scanString quote opened read offset cs
  case case2 ih =>
    obtain ⟨other, suffix⟩ := ih h
    exact ⟨other, suffix.trans (List.suffix_append ['\\', 'u', _, _, _, _] _)⟩
  case case5 ih =>
    obtain ⟨other, suffix⟩ := ih h
    exact ⟨other, suffix.trans (List.suffix_append ['\\', _] _)⟩
  case case6 =>
    cases h
    exact ⟨nofun, List.suffix_cons _ _⟩
  case case8 ih =>
    obtain ⟨other, suffix⟩ := ih h
    exact ⟨other, suffix.trans (List.suffix_cons _ _)⟩
  all_goals cases h

theorem scanToken_suffix {c after : Cursor} {t : Token} (h : scanToken c = .ok (t, after)) :
    t = .endOfInput ∨ ∃ first cs, c.rest = first :: cs ∧ t ≠ .endOfInput ∧ after.rest <:+ cs := by
  unfold scanToken at h
  split at h
  · cases h
    exact .inl rfl
  · rename_i first cs hc
    refine .inr ⟨first, cs, hc, ?_⟩
    split at h
    · rename_i starts
      refine scanNumber_suffix h hc ?_
      simp only [Bool.or_eq_true, Bool.and_eq_true, decide_eq_true_eq] at starts
      exact starts.imp_right And.left
    · split at h
      · exact scanString_suffix h
      · split at h
        · rename_i starts
          have part : isNamePart first = true := by rw [isNamePart, starts, Bool.true_or]
          simp only [List.span_eq_takeWhile_dropWhile, hc, List.dropWhile_cons_of_pos part] at h
          cases h
          exact ⟨nofun, List.dropWhile_suffix _⟩
        · split at h
          · rename_i p _
            obtain ⟨n, hn⟩ : ∃ n, p.text.length = n + 1 := by cases p <;> exact ⟨_, rfl⟩
            rw [hc, hn] at h
            cases h
            exact ⟨nofun, List.drop_suffix n cs⟩
          · cases h

/-- The end of input stands at the end of a list, and nowhere else. -/
def Ended (ls : List Lexeme) : Prop :=
  ∃ body last, ls = body ++ [last] ∧ last.token = .endOfInput ∧ ∀ l ∈ body, l.token ≠ .endOfInput

theorem Ended.cons {l : Lexeme} {ls : List Lexeme} (other : l.token ≠ .endOfInput)
    (ended : Ended ls) : Ended (l :: ls) := by
  obtain ⟨body, last, rfl, token, within⟩ := ended
  exact ⟨l :: body, last, rfl, token, List.forall_mem_cons.2 ⟨other, within⟩⟩

theorem bind_eq_ok_iff {ε α β : Type} {x : Except ε α} {f : α → Except ε β} {b : β} :
    x >>= f = .ok b ↔ ∃ a, x = .ok a ∧ f a = .ok b := by
  cases x with
  | error fault => exact ⟨nofun, nofun⟩
  | ok a => exact ⟨fun h => ⟨a, rfl, h⟩, fun ⟨_, ha, h⟩ => by cases ha; exact h⟩

theorem scanLexemes_succ {bound : Nat} {c : Cursor} {ls : List Lexeme} :
    scanLexemes (bound + 1) c = .ok ls ↔ ∃ newline front token after,
      skipBlanks .space false c.offset c.rest = .ok (newline, front) ∧
      scanToken front = .ok (token, after) ∧
      if token = .endOfInput then ls = [⟨token, front.offset, after.offset, newline⟩]
      else ∃ more, scanLexemes bound after = .ok more ∧
        ls = ⟨token, front.offset, after.offset, newline⟩ :: more := by
  rw [scanLexemes, bind_eq_ok_iff]
  simp only [Prod.exists, bind_eq_ok_iff]
  refine exists_congr fun newline => exists_congr fun front => ?_
  constructor
  · rintro ⟨hblanks, token, after, htoken, h⟩
    refine ⟨token, after, hblanks, htoken, ?_⟩
    by_cases ended : token = .endOfInput
    · rw [if_pos ended] at h ⊢
      exact (Except.ok.inj h).symm
    · rw [if_neg ended, bind_eq_ok_iff] at h
      obtain ⟨more, hmore, h⟩ := h
      rw [if_neg ended]
      exact ⟨more, hmore, (Except.ok.inj h).symm⟩
  · rintro ⟨token, after, hblanks, htoken, h⟩
    refine ⟨hblanks, token, after, htoken, ?_⟩
    by_cases ended : token = .endOfInput
    · rw [if_pos ended] at h ⊢
      rw [h]
      rfl
    · rw [if_neg ended] at h
      obtain ⟨more, hmore, rfl⟩ := h
      rw [if_neg ended, bind_eq_ok_iff]
      exact ⟨more, hmore, rfl⟩

theorem scanLexemes_ended {bound : Nat} {c : Cursor} {ls : List Lexeme}
    (enough : c.rest.length < bound) (h : scanLexemes bound c = .ok ls) : Ended ls := by
  induction bound generalizing c ls with
  | zero => exact absurd enough (Nat.not_lt_zero _)
  | succ bound ih =>
    obtain ⟨newline, front, token, after, hblanks, htoken, h⟩ := scanLexemes_succ.1 h
    have blanks := (skipBlanks_suffix hblanks).length_le
    obtain rfl | ⟨first, cs, hfront, other, suffix⟩ := scanToken_suffix htoken
    · rw [if_pos rfl] at h
      exact ⟨[], _, h, rfl, List.forall_mem_nil _⟩
    · rw [if_neg other] at h
      obtain ⟨more, hmore, rfl⟩ := h
      have shorter := suffix.length_le
      rw [hfront, List.length_cons] at blanks
      exact (ih (by omega) hmore).cons other

theorem lexemes_ended {source : String} {ls : List Lexeme} (h : lexemes source = .ok ls) : Ended ls :=
  scanLexemes_ended (Nat.lt_succ_self _) h

end WebBindings.Script
