import WebBindings.Proofs.Script.Grammar
/-!
# What readers give

A reader either fails or gives a phrase and leaves the lexemes behind it. What it gives is put together
from what its parts give; a reader that goes on as long as it finds another link gives the chain of all
links.
-/

namespace WebBindings.Script

open WebBindings.Script.Parser

variable {α β : Type}

/-- On these lexemes a reader gives a phrase and leaves the rest. -/
def Gives (p : Parser α) (ls : List Lexeme) (a : α) (rest : List Lexeme) : Prop :=
  p.run ls = .ok (a, rest)

@[simp] theorem front_cons (l : Lexeme) (ls : List Lexeme) : front (l :: ls) = l.token := rfl

theorem exists_of_front {ls : List Lexeme} {t : Token} (ahead : front ls = t)
    (present : t ≠ .endOfInput) : ∃ l xs, ls = l :: xs ∧ l.token = t := by
  cases ls with
  | nil => exact absurd ahead.symm present
  | cons l xs => exact ⟨l, xs, rfl, ahead⟩

section Composition

variable {ls rest : List Lexeme} {a : α} {b : β}

theorem gives_pure {a' : α} : Gives (pure a) ls a' rest ↔ a = a' ∧ ls = rest := by
  change Except.ok (a, ls) = Except.ok (a', rest) ↔ _
  simp

theorem gives_bind {p : Parser α} {f : α → Parser β} :
    Gives (p >>= f) ls b rest ↔ ∃ a mid, Gives p ls a mid ∧ Gives (f a) mid b rest := by
  simp only [Gives, StateT.run_bind]
  cases p.run ls with
  | error fault => simp [bind, Except.bind]
  | ok result =>
    obtain ⟨a, mid⟩ := result
    constructor
    · exact fun h => ⟨a, mid, rfl, h⟩
    · rintro ⟨a', mid', h, hf⟩
      cases h
      exact hf

theorem not_gives_throw {fault : SyntaxFault} : ¬ Gives (throw fault : Parser α) ls a rest := nofun

theorem not_gives_unexpected : ¬ Gives (unexpected : Parser α) ls a rest := nofun

theorem gives_current_bind {f : Token → Parser β} :
    Gives (current >>= f) ls b rest ↔ Gives (f (front ls)) ls b rest := Iff.rfl

theorem gives_advance_bind {f : Unit → Parser β} :
    Gives (advance >>= f) ls b rest ↔ Gives (f ()) ls.tail b rest := Iff.rfl

theorem gives_lift_bind {x : Except SyntaxFault α} {f : α → Parser β} :
    Gives (liftM x >>= f) ls b rest ↔ ∃ a, x = .ok a ∧ Gives (f a) ls b rest := by
  cases x with
  | error fault => exact ⟨nofun, nofun⟩
  | ok a =>
    constructor
    · exact fun h => ⟨a, rfl, h⟩
    · rintro ⟨_, h, hf⟩
      cases h
      exact hf

theorem gives_remaining_bind {f : Nat → Parser β} :
    Gives (remaining >>= f) ls b rest ↔ Gives (f ls.length) ls b rest := Iff.rfl

theorem gives_newlineAhead_bind {f : Bool → Parser β} :
    Gives (newlineAhead >>= f) ls b rest ↔
      Gives (f (ls.head?.any Lexeme.newlineBefore)) ls b rest := Iff.rfl

theorem gives_isNext_bind {m : Punctuator} {f : Bool → Parser β} :
    Gives (isNext m >>= f) ls b rest ↔
      Gives (f (decide (front ls = .punctuator m))) ls b rest := Iff.rfl

theorem gives_isWordNext_bind {w : String} {f : Bool → Parser β} :
    Gives (isWordNext w >>= f) ls b rest ↔
      Gives (f (decide (front ls = .identifier w))) ls b rest := Iff.rfl

theorem gives_eat_bind {m : Punctuator} {f : Bool → Parser β} :
    Gives (eat m >>= f) ls b rest ↔
      if front ls = .punctuator m then Gives (f true) ls.tail b rest
      else Gives (f false) ls b rest := by
  rw [eat, bind_assoc, gives_isNext_bind]
  split <;> simp_all [gives_advance_bind]

theorem gives_eat_ite {m : Punctuator} {p q : Parser α} :
    Gives (do if ← eat m then p else q) ls a rest ↔
      if front ls = .punctuator m then Gives p ls.tail a rest else Gives q ls a rest :=
  gives_eat_bind

theorem gives_eat_present {m : Punctuator} {p q : Parser α} {l : Lexeme}
    (token : l.token = .punctuator m) :
    Gives (do if ← eat m then p else q) (l :: ls) a rest ↔ Gives p ls a rest :=
  gives_eat_ite.trans (iff_of_eq (if_pos token))

theorem gives_eat_absent {m : Punctuator} {p q : Parser α} (other : front ls ≠ .punctuator m) :
    Gives (do if ← eat m then p else q) ls a rest ↔ Gives q ls a rest :=
  gives_eat_ite.trans (iff_of_eq (if_neg other))

theorem gives_expect_bind {m : Punctuator} {f : Unit → Parser β} :
    Gives (expect m >>= f) ls b rest ↔
      ∃ l xs, ls = l :: xs ∧ l.token = .punctuator m ∧ Gives (f ()) xs b rest := by
  rw [expect, bind_assoc, gives_eat_bind]
  split
  · rename_i ahead
    obtain ⟨l, xs, rfl, token⟩ := exists_of_front ahead Token.noConfusion
    simp only [if_true, List.tail_cons, pure_bind]
    constructor
    · exact fun h => ⟨l, xs, rfl, token, h⟩
    · rintro ⟨_, _, h, -, hf⟩
      cases h
      exact hf
  · rename_i ahead
    constructor
    · exact fun h => absurd h not_gives_unexpected
    · rintro ⟨l, xs, rfl, token, -⟩
      exact absurd token ahead

end Composition

/-- A chain of links behind an expression, from left to right. -/
inductive Links (link : Expression → Language Expression) : Expression → Language Expression
  | nil {e} : Links link e [] e
  | cons {xs ys e e' e''} (linked : link e xs e') (rest : Links link e' ys e'') :
    Links link e (xs ++ ys) e''

section Chains

variable {first : Language Expression} {link : Expression → Language Expression}
  {xs ys : List Lexeme} {e e' : Expression}

theorem Links.snoc {e''} (links : Links link e xs e') (linked : link e' ys e'') :
    Links link e (xs ++ ys) e'' := by
  induction links with
  | nil =>
    have single := Links.cons linked .nil
    rwa [List.append_nil] at single
  | cons before _ ih =>
    rw [List.append_assoc]
    exact .cons before (ih linked)

theorem Chained.links (chained : Chained first link xs e) (links : Links link e ys e') :
    Chained first link (xs ++ ys) e' := by
  induction links generalizing xs with
  | nil => exact (List.append_nil xs).symm ▸ chained
  | cons linked _ ih =>
    rw [← List.append_assoc]
    exact ih (.link chained linked)

theorem chained_iff : Chained first link xs e ↔
    ∃ ys zs e₀, xs = ys ++ zs ∧ first ys e₀ ∧ Links link e₀ zs e := by
  constructor
  · intro chained
    induction chained with
    | @first xs e operand => exact ⟨xs, [], e, by simp, operand, .nil⟩
    | link _ linked ih =>
      obtain ⟨ys, zs, e₀, rfl, operand, links⟩ := ih
      exact ⟨ys, _, e₀, List.append_assoc _ _ _, operand, links.snoc linked⟩
  · rintro ⟨ys, zs, e₀, rfl, operand, links⟩
    exact (Chained.first operand).links links

end Chains

/-- The phrases of a language are not empty, and none reaches over the end of input. -/
structure Spells (L : Language α) (begins : Token → Bool) : Prop where
  starts {xs : List Lexeme} {a : α} (spelled : L xs a) :
    ∃ l ys, xs = l :: ys ∧ begins l.token = true
  within {xs : List Lexeme} {a : α} (spelled : L xs a) : ∀ l ∈ xs, l.token ≠ .endOfInput

/-- A reader gives exactly the phrases of a language that do not go on behind it. -/
structure Reads (p : Parser Expression) (L : Language Expression) (begins goesOn : Token → Bool) :
    Prop extends Spells L begins where
  gives {ls rest : List Lexeme} {e : Expression} : Gives p ls e rest ↔
    ∃ xs, ls = xs ++ rest ∧ L xs e ∧ goesOn (front rest) = false

/-- A loop that extends an expression by one link as long as one is at the front. The parts of a link do
not go on where another link begins. -/
structure ReadsLinks (loop : (bound : Nat) → Expression → Parser Expression)
    (link : Expression → Language Expression) (inside here : Token → Bool) : Prop where
  zero (e : Expression) : loop 0 e = pure e
  stop (bound : Nat) (e : Expression) {ls : List Lexeme} (absent : here (front ls) = false) :
    ∀ e' rest, Gives (loop (bound + 1) e) ls e' rest ↔ e = e' ∧ ls = rest
  step (bound : Nat) (e : Expression) {ls : List Lexeme} (present : here (front ls) = true) :
    ∀ e' rest, Gives (loop (bound + 1) e) ls e' rest ↔ ∃ xs mid e₁, ls = xs ++ mid ∧
      link e xs e₁ ∧ inside (front mid) = false ∧ Gives (loop bound e₁) mid e' rest
  spells (e : Expression) : Spells (link e) here
  apart (t : Token) (present : here t = true) : inside t = false
  absentAtEnd : here .endOfInput = false

namespace ReadsLinks

variable {loop : (bound : Nat) → Expression → Parser Expression}
  {link : Expression → Language Expression} {inside here : Token → Bool}
  (reads : ReadsLinks loop link inside here) {e e' : Expression} {xs ls rest : List Lexeme}

include reads

variable (rest) in
theorem front_links (links : Links link e xs e') :
    xs = [] ∧ e = e' ∨ here (front (xs ++ rest)) = true := by
  cases links with
  | nil => exact .inl ⟨rfl, rfl⟩
  | cons linked _ =>
    obtain ⟨l, ys, rfl, present⟩ := (reads.spells _).starts linked
    exact .inr present

/-- Where a chain goes on, none of its parts does. -/
theorem inside_front (links : Links link e xs e') (outside : inside (front rest) = false) :
    inside (front (xs ++ rest)) = false := by
  obtain ⟨rfl, -⟩ | present := reads.front_links rest links
  · exact outside
  · exact reads.apart _ present

theorem gives {bound : Nat} (enough : ls.length ≤ bound) (entered : inside (front ls) = false) :
    Gives (loop bound e) ls e' rest ↔ ∃ xs, ls = xs ++ rest ∧ Links link e xs e' ∧
      inside (front rest) = false ∧ here (front rest) = false := by
  induction bound generalizing e ls with
  | zero =>
    obtain rfl := List.length_eq_zero_iff.1 (Nat.le_zero.1 enough)
    rw [reads.zero, gives_pure]
    constructor
    · rintro ⟨rfl, rfl⟩
      exact ⟨[], rfl, .nil, entered, reads.absentAtEnd⟩
    · rintro ⟨xs, hls, links, -⟩
      obtain ⟨rfl, rfl⟩ := List.append_eq_nil_iff.1 hls.symm
      obtain ⟨-, rfl⟩ | present := reads.front_links [] links
      · exact ⟨rfl, rfl⟩
      · exact absurd present (by rw [List.nil_append]; exact Bool.eq_false_iff.1 reads.absentAtEnd)
  | succ bound ih =>
    cases present : here (front ls) with
    | false =>
      rw [reads.stop bound e present]
      constructor
      · rintro ⟨rfl, rfl⟩
        exact ⟨[], rfl, .nil, entered, present⟩
      · rintro ⟨xs, rfl, links, -⟩
        obtain ⟨rfl, rfl⟩ | hfront := reads.front_links rest links
        · exact ⟨rfl, rfl⟩
        · exact absurd hfront (Bool.eq_false_iff.1 present)
    | true =>
      rw [reads.step bound e present]
      constructor
      · rintro ⟨ys, mid, e₁, rfl, linked, outside, hloop⟩
        obtain ⟨l, zs, rfl, -⟩ := (reads.spells _).starts linked
        have hmid : mid.length ≤ bound := by
          simp only [List.cons_append, List.length_cons, List.length_append] at enough
          omega
        obtain ⟨xs, rfl, links, hrest⟩ := (ih hmid outside).1 hloop
        exact ⟨l :: zs ++ xs, (List.append_assoc _ _ _).symm, .cons linked links, hrest⟩
      · rintro ⟨xs, rfl, links, outside, absent⟩
        cases links with
        | nil => exact absurd present (Bool.eq_false_iff.1 absent)
        | @cons ys zs _ e₁ _ linked links =>
          obtain ⟨l, ys, rfl, -⟩ := (reads.spells _).starts linked
          have hmid : (zs ++ rest).length ≤ bound := by
            simp only [List.cons_append, List.length_cons, List.length_append] at enough ⊢
            omega
          have hinside := reads.inside_front links outside
          exact ⟨l :: ys, zs ++ rest, e₁, List.append_assoc _ _ _, linked, hinside,
            (ih hmid hinside).2 ⟨zs, rfl, links, outside, absent⟩⟩

theorem chained {p : Parser Expression} {first : Language Expression} {begins : Token → Bool}
    (operand : Reads p first begins inside) :
    Reads (do let e ← p; loop (← remaining) e) (Chained first link) begins
      (fun t => inside t || here t) where
  gives {ls rest e} := by
    simp only [gives_bind (p := p), gives_remaining_bind, Bool.or_eq_false_iff, chained_iff]
    constructor
    · rintro ⟨e₀, mid, hp, hloop⟩
      obtain ⟨ys, rfl, spelled, outside⟩ := (operand.gives).1 hp
      obtain ⟨zs, rfl, links, hrest⟩ := (reads.gives (Nat.le_refl _) outside).1 hloop
      exact ⟨ys ++ zs, (List.append_assoc _ _ _).symm, ⟨ys, zs, e₀, rfl, spelled, links⟩, hrest⟩
    · rintro ⟨xs, rfl, ⟨ys, zs, e₀, rfl, spelled, links⟩, hrest⟩
      have hinside := reads.inside_front links hrest.1
      refine ⟨e₀, zs ++ rest, (operand.gives).2 ⟨ys, List.append_assoc _ _ _, spelled, hinside⟩, ?_⟩
      exact (reads.gives (Nat.le_refl _) hinside).2 ⟨zs, rfl, links, hrest⟩
  starts chained := by
    obtain ⟨ys, zs, e₀, rfl, spelled, -⟩ := chained_iff.1 chained
    obtain ⟨l, ys, rfl, token⟩ := operand.starts spelled
    exact ⟨l, ys ++ zs, rfl, token⟩
  within chained := by
    induction chained with
    | first spelled => exact operand.within spelled
    | link _ linked ih => exact List.forall_mem_append.2 ⟨ih, (reads.spells _).within linked⟩

end ReadsLinks

end WebBindings.Script
