import Mathlib.Logic.Basic
import Mathlib.Tactic.SplitIfs
import WebBindings.Proofs.Script.Reader
/-!
# Readers of expressions

Level by level, the readers of expressions give the phrases of the grammar, if the readers one level
further inside do. Between two levels it matters only which tokens continue a phrase: no operand goes on
with an operator of a level above it.
-/

namespace WebBindings.Script

open WebBindings.Script.Parser

/-- Whether a member access or a call begins with a token. -/
def Token.opensAccess : Token → Bool
  | .punctuator p => [.dot, .openBracket, .openParen].contains p
  | _ => false

/-- Whether an operand without unary operators may begin with a token. -/
def Token.startsPrimary (t : Token) : Bool := t.startsExpression && (unaryOperator? t).isNone

theorem Token.startsExpression_of_startsPrimary {t : Token} (h : t.startsPrimary = true) :
    t.startsExpression = true := (Bool.and_eq_true_iff.1 h).1

theorem mem_of_operatorFor? {operators : List (Punctuator × BinaryOperator)} {t : Token}
    {operator : BinaryOperator} (h : operatorFor? operators t = some operator) :
    ∃ p, (p, operator) ∈ operators ∧ t = .punctuator p := by
  obtain ⟨⟨p, _⟩, found, rfl⟩ := Option.map_eq_some_iff.1 h
  have ahead := List.find?_some found
  exact ⟨p, List.mem_of_find?_eq_some found, of_decide_eq_true ahead⟩

section Levels

variable {operators : List (Punctuator × BinaryOperator)} {next : Parser Expression}
  {operand : Language Expression} {begins inside : Token → Bool}

theorem IsOperation.spells (spells : Spells operand begins)
    (distinct : ∀ o ∈ operators, operatorFor? operators (.punctuator o.1) = some o.2)
    (left : Expression) :
    Spells (IsOperation operators operand left) (fun t => (operatorFor? operators t).isSome) where
  starts := by
    rintro _ _ ⟨known, token, -⟩
    exact ⟨_, _, rfl, by rw [token, distinct _ known]; rfl⟩
  within := by
    rintro _ _ ⟨-, token, spelled⟩
    exact List.forall_mem_cons.2 ⟨by rw [token]; exact nofun, spells.within spelled⟩

theorem chain_reads (reads : Reads next operand begins inside)
    (distinct : ∀ o ∈ operators, operatorFor? operators (.punctuator o.1) = some o.2)
    (apart : ∀ o ∈ operators, inside (.punctuator o.1) = false)
    (absent : operatorFor? operators .endOfInput = none) :
    ReadsLinks (chain operators next) (IsOperation operators operand) inside
      (fun t => (operatorFor? operators t).isSome) where
  zero _ := rfl
  stop bound e ls absent e' rest := by
    rw [chain, gives_current_bind, Option.isSome_eq_false_iff.1 absent |> Option.isNone_iff_eq_none.1]
    exact gives_pure
  step bound e ls present e' rest := by
    obtain ⟨operator, found⟩ := Option.isSome_iff_exists.1 present
    obtain ⟨p, known, ahead⟩ := mem_of_operatorFor? found
    obtain ⟨l, ls, rfl, token⟩ := exists_of_front ahead nofun
    rw [chain, gives_current_bind, found]
    simp only [gives_advance_bind, gives_bind (p := next), reads.gives, List.tail_cons]
    constructor
    · rintro ⟨right, mid, ⟨xs, rfl, spelled, outside⟩, hloop⟩
      exact ⟨l :: xs, mid, _, rfl, .mk known token spelled, outside, hloop⟩
    · rintro ⟨_, mid, _, hls, ⟨known', token', spelled⟩, outside, hloop⟩
      obtain ⟨rfl, rfl⟩ := List.cons.inj hls
      have same := distinct _ known'
      rw [← token', ← front_cons, found] at same
      cases same
      exact ⟨_, mid, ⟨_, rfl, spelled, outside⟩, hloop⟩
  spells e := IsOperation.spells reads.toSpells distinct e
  apart t present := by
    obtain ⟨operator, found⟩ := Option.isSome_iff_exists.1 present
    obtain ⟨p, known, rfl⟩ := mem_of_operatorFor? found
    exact apart _ known
  absentAtEnd := by rw [absent]; rfl

variable (operators) in
theorem level_reads (reads : Reads next operand begins inside)
    (distinct : ∀ o ∈ operators, operatorFor? operators (.punctuator o.1) = some o.2)
    (apart : ∀ o ∈ operators, inside (.punctuator o.1) = false)
    (absent : operatorFor? operators .endOfInput = none) :
    Reads (level operators next) (IsLevel operators operand) begins
      (fun t => inside t || (operatorFor? operators t).isSome) :=
  (chain_reads reads distinct apart absent).chained reads

end Levels

theorem word_eq_ok_iff {name : String} {e : Expression} : word name = .ok e ↔ WordMeans name e := by
  constructor
  · intro h
    unfold word at h
    split_ifs at h with isTrue isFalse isNull isUndefined isThis isReserved
    · cases h; exact isTrue ▸ .true
    · cases h; exact isFalse ▸ .false
    · cases h; exact isNull ▸ .null
    · cases h; exact isUndefined ▸ .undefined
    · cases h; exact isThis ▸ .this
    · cases h
      exact .name isUndefined fun reserved => isReserved (List.contains_iff_mem.2 reserved)
  · rintro ⟨⟩
    case name defined free =>
      have other {w : String} (reserved : w ∈ reservedWords) : name ≠ w := fun h => free (h ▸ reserved)
      rw [word, if_neg (other (by decide)), if_neg (other (by decide)), if_neg (other (by decide)),
        if_neg defined, if_neg (other (by decide)), if_neg fun h => free (List.contains_iff_mem.1 h)]
    all_goals rfl

theorem startsPrimary_of_wordMeans {name : String} {e : Expression} (means : WordMeans name e) :
    (Token.identifier name).startsPrimary = true := by
  cases means
  case name defined free =>
    simp only [reservedWords, List.mem_cons, not_or] at free
    simp [Token.startsPrimary, Token.startsExpression, unaryOperator?, free]
  all_goals rfl

section Operands

variable {inner : Rules} {G : Grammar}
  (expression : Reads inner.expression G.expression Token.startsExpression Token.continuesExpression)

section Spelling

variable (nested : Spells G.expression Token.startsExpression)

include nested

theorem IsPrimary.spells : Spells (IsPrimary G) Token.startsPrimary where
  starts := by
    rintro _ _ ⟨⟩
    case number token => exact ⟨_, _, rfl, by rw [token]; rfl⟩
    case text token => exact ⟨_, _, rfl, by rw [token]; rfl⟩
    case word token means => exact ⟨_, _, rfl, by rw [token]; exact startsPrimary_of_wordMeans means⟩
    case parenthesized opening _ _ => exact ⟨_, _, rfl, by rw [opening]; rfl⟩
  within := by
    rintro _ _ ⟨⟩
    case parenthesized opening closing spelled =>
      exact List.forall_mem_append.2 ⟨List.forall_mem_cons.2 ⟨opening.trans_ne nofun,
        nested.within spelled⟩, List.forall_mem_singleton.2 (closing.trans_ne nofun)⟩
    case number token => exact List.forall_mem_singleton.2 (token.trans_ne nofun)
    case text token => exact List.forall_mem_singleton.2 (token.trans_ne nofun)
    case word token _ => exact List.forall_mem_singleton.2 (token.trans_ne nofun)

theorem IsArguments.within {xs : List Lexeme} {es : List Expression} (spelled : IsArguments G xs es) :
    ∀ l ∈ xs, l.token ≠ .endOfInput := by
  induction spelled with
  | last argument closing =>
    exact List.forall_mem_append.2 ⟨nested.within argument,
      List.forall_mem_singleton.2 (closing.trans_ne nofun)⟩
  | more argument comma _ ih =>
    exact List.forall_mem_append.2 ⟨nested.within argument,
      List.forall_mem_cons.2 ⟨comma.trans_ne nofun, ih⟩⟩

theorem IsArguments.starts {xs : List Lexeme} {es : List Expression} (spelled : IsArguments G xs es) :
    ∃ l ys, xs = l :: ys ∧ l.token.startsExpression = true := by
  cases spelled with
  | last argument _ | more argument _ _ =>
    obtain ⟨l, ys, rfl, starts⟩ := nested.starts argument
    exact ⟨l, _, rfl, starts⟩

theorem IsAccess.spells (e : Expression) : Spells (IsAccess G e) Token.opensAccess where
  starts := by
    rintro _ _ ⟨⟩
    all_goals exact ⟨_, _, rfl, by simp only [*]; rfl⟩
  within := by
    rintro _ _ ⟨⟩
    case member opening token =>
      exact List.forall_mem_cons.2 ⟨opening.trans_ne nofun,
        List.forall_mem_singleton.2 (token.trans_ne nofun)⟩
    case index opening spelled closing =>
      exact List.forall_mem_append.2 ⟨List.forall_mem_cons.2 ⟨opening.trans_ne nofun,
        nested.within spelled⟩, List.forall_mem_singleton.2 (closing.trans_ne nofun)⟩
    case call opening closing =>
      exact List.forall_mem_cons.2 ⟨opening.trans_ne nofun,
        List.forall_mem_singleton.2 (closing.trans_ne nofun)⟩
    case callWith opening arguments =>
      exact List.forall_mem_cons.2 ⟨opening.trans_ne nofun, arguments.within nested⟩

end Spelling

include expression

theorem gives_closed_bind {β : Type} {m : Punctuator} {f : Expression → Parser β} {b : β}
    {ls rest : List Lexeme} (closes : (Token.punctuator m).continuesExpression = false) :
    Gives (do let e ← inner.expression; expect m; f e) ls b rest ↔
      ∃ xs c mid e, ls = xs ++ c :: mid ∧ G.expression xs e ∧ c.token = .punctuator m ∧
        Gives (f e) mid b rest := by
  simp only [gives_bind (p := inner.expression), gives_expect_bind]
  constructor
  · rintro ⟨e, _, he, c, mid, rfl, closing, h⟩
    obtain ⟨xs, rfl, spelled, -⟩ := expression.gives.1 he
    exact ⟨xs, c, mid, e, rfl, spelled, closing, h⟩
  · rintro ⟨xs, c, mid, e, rfl, spelled, closing, h⟩
    refine ⟨e, c :: mid, expression.gives.2 ⟨xs, rfl, spelled, ?_⟩, c, mid, rfl, closing, h⟩
    rw [front_cons, closing, closes]

theorem primary_reads : Reads (primary inner) (IsPrimary G) Token.startsPrimary (fun _ => false) where
  toSpells := IsPrimary.spells expression.toSpells
  gives {ls rest e} := by
    rw [primary, gives_current_bind]
    constructor
    · intro h
      split at h
      · rename_i ahead
        obtain ⟨o, ls, rfl, opening⟩ := exists_of_front ahead nofun
        rw [gives_advance_bind, List.tail_cons, gives_closed_bind expression rfl] at h
        obtain ⟨xs, c, mid, e, rfl, spelled, closing, h⟩ := h
        obtain ⟨rfl, rfl⟩ := gives_pure.1 h
        exact ⟨o :: xs ++ [c], by simp, .parenthesized opening spelled closing, rfl⟩
      · rename_i ahead
        obtain ⟨l, ls, rfl, token⟩ := exists_of_front ahead nofun
        rw [gives_advance_bind, gives_pure] at h
        obtain ⟨rfl, rfl⟩ := h
        exact ⟨[l], rfl, .number token, rfl⟩
      · rename_i ahead
        obtain ⟨l, ls, rfl, token⟩ := exists_of_front ahead nofun
        rw [gives_advance_bind, gives_pure] at h
        obtain ⟨rfl, rfl⟩ := h
        exact ⟨[l], rfl, .text token, rfl⟩
      · rename_i ahead
        obtain ⟨l, ls, rfl, token⟩ := exists_of_front ahead nofun
        obtain ⟨e', means, h⟩ := gives_lift_bind.1 h
        rw [gives_advance_bind, gives_pure] at h
        obtain ⟨rfl, rfl⟩ := h
        exact ⟨[l], rfl, .word token (word_eq_ok_iff.1 means), rfl⟩
      · exact absurd h not_gives_unexpected
    · rintro ⟨xs, rfl, spelled, -⟩
      cases spelled with
      | number token =>
        simp only [List.cons_append, front_cons, token]
        rw [gives_advance_bind, gives_pure]
        exact ⟨rfl, rfl⟩
      | text token =>
        simp only [List.cons_append, front_cons, token]
        rw [gives_advance_bind, gives_pure]
        exact ⟨rfl, rfl⟩
      | word token means =>
        simp only [List.cons_append, front_cons, token]
        refine gives_lift_bind.2 ⟨e, word_eq_ok_iff.2 means, ?_⟩
        rw [gives_advance_bind, gives_pure]
        exact ⟨rfl, rfl⟩
      | @parenthesized o xs c _ opening spelled closing =>
        simp only [List.cons_append, front_cons, opening]
        rw [gives_advance_bind, gives_closed_bind expression rfl]
        exact ⟨xs, c, rest, e, by simp, spelled, closing, gives_pure.2 ⟨rfl, rfl⟩⟩

/-- The arguments that the loop adds to those it has read before. -/
theorem arguments_gives {bound : Nat} {before es : List Expression} {ls rest : List Lexeme}
    (enough : ls.length ≤ bound) : Gives (arguments inner bound before) ls es rest ↔
      ∃ xs added, ls = xs ++ rest ∧ IsArguments G xs added ∧ es = before ++ added := by
  induction bound generalizing ls before with
  | zero =>
    obtain rfl := List.length_eq_zero_iff.1 (Nat.le_zero.1 enough)
    constructor
    · exact fun h => absurd h not_gives_unexpected
    · rintro ⟨xs, added, hls, spelled, -⟩
      obtain ⟨rfl, -⟩ := List.append_eq_nil_iff.1 hls.symm
      generalize hxs : ([] : List Lexeme) = xs at spelled
      cases spelled <;> simp at hxs
  | succ bound ih =>
    rw [arguments, gives_bind]
    constructor
    · rintro ⟨e, mid, he, h⟩
      obtain ⟨xs, rfl, spelled, -⟩ := expression.gives.1 he
      rw [gives_eat_bind] at h
      split at h
      · rename_i ahead
        obtain ⟨c, mid, rfl, closing⟩ := exists_of_front ahead nofun
        obtain ⟨rfl, rfl⟩ := gives_pure.1 h
        exact ⟨xs ++ [c], [e], by simp, .last spelled closing, rfl⟩
      · obtain ⟨c, mid, rfl, comma, h⟩ := gives_expect_bind.1 h
        have shorter : mid.length ≤ bound := by
          simp only [List.length_append, List.length_cons] at enough
          omega
        obtain ⟨ys, added, rfl, more, rfl⟩ := (ih shorter).1 h
        exact ⟨xs ++ c :: ys, e :: added, by simp, .more spelled comma more, by simp⟩
    · rintro ⟨xs, added, rfl, spelled, rfl⟩
      cases spelled with
      | @last xs c e argument closing =>
        refine ⟨e, c :: rest, expression.gives.2 ⟨xs, by simp, argument, ?_⟩, ?_⟩
        · rw [front_cons, closing]; rfl
        · exact (gives_eat_present closing).2 (gives_pure.2 ⟨rfl, rfl⟩)
      | @more xs c ys e es argument comma more =>
        have shorter : (ys ++ rest).length ≤ bound := by
          simp only [List.length_append, List.length_cons] at enough ⊢
          omega
        refine ⟨e, c :: (ys ++ rest), expression.gives.2 ⟨xs, by simp, argument, ?_⟩, ?_⟩
        · rw [front_cons, comma]; rfl
        · have other : front (c :: (ys ++ rest)) ≠ .punctuator .closeParen := comma.trans_ne nofun
          refine (gives_eat_absent other).2 (gives_expect_bind.2 ⟨c, _, rfl, comma, ?_⟩)
          refine (ih shorter).2 ⟨ys, es, rfl, more, ?_⟩
          exact (List.append_assoc before [e] es).symm

section Accesses

omit expression

theorem exists_of_opensAccess {ls : List Lexeme} (present : (front ls).opensAccess = true) :
    ∃ o xs, ls = o :: xs ∧ (o.token = .punctuator .dot ∨ o.token = .punctuator .openBracket ∨
      o.token = .punctuator .openParen) := by
  cases ahead : front ls with
  | punctuator p =>
    rw [ahead] at present
    obtain ⟨o, xs, rfl, opening⟩ := exists_of_front ahead nofun
    refine ⟨o, xs, rfl, ?_⟩
    cases p <;> simp_all [Token.opensAccess]
  | _ => rw [ahead] at present; cases present

variable {bound : Nat} {e e' : Expression} {o : Lexeme} {ls rest : List Lexeme}

theorem accesses_member (opening : o.token = .punctuator .dot) :
    Gives (accesses inner (bound + 1) e) (o :: ls) e' rest ↔ ∃ l mid name, ls = l :: mid ∧
      l.token = .identifier name ∧ Gives (accesses inner bound (.member e name)) mid e' rest := by
  rw [accesses, gives_eat_present opening, gives_current_bind]
  constructor
  · intro h
    split at h
    · rename_i name ahead
      obtain ⟨l, mid, rfl, token⟩ := exists_of_front ahead nofun
      exact ⟨l, mid, name, rfl, token, gives_advance_bind.1 h⟩
    · exact absurd h not_gives_throw
  · rintro ⟨l, mid, name, rfl, token, h⟩
    simp only [front_cons, token]
    exact gives_advance_bind.2 h

include expression

theorem accesses_index (opening : o.token = .punctuator .openBracket) :
    Gives (accesses inner (bound + 1) e) (o :: ls) e' rest ↔ ∃ xs c mid key, ls = xs ++ c :: mid ∧
      G.expression xs key ∧ c.token = .punctuator .closeBracket ∧
      Gives (accesses inner bound (.index e key)) mid e' rest := by
  have dot : front (o :: ls) ≠ .punctuator .dot := opening.trans_ne nofun
  rw [accesses, gives_eat_absent dot, gives_eat_present opening, gives_closed_bind expression rfl]

theorem accesses_call (opening : o.token = .punctuator .openParen) :
    Gives (accesses inner (bound + 1) e) (o :: ls) e' rest ↔
      (∃ c mid, ls = c :: mid ∧ c.token = .punctuator .closeParen ∧
        Gives (accesses inner bound (.call e [])) mid e' rest) ∨
      ∃ xs mid es, ls = xs ++ mid ∧ IsArguments G xs es ∧
        Gives (accesses inner bound (.call e es)) mid e' rest := by
  have dot : front (o :: ls) ≠ .punctuator .dot := opening.trans_ne nofun
  have bracket : front (o :: ls) ≠ .punctuator .openBracket := opening.trans_ne nofun
  rw [accesses, gives_eat_absent dot, gives_eat_absent bracket, gives_eat_present opening]
  constructor
  · intro h
    rw [gives_eat_ite] at h
    split at h
    · rename_i ahead
      obtain ⟨c, mid, rfl, closing⟩ := exists_of_front ahead nofun
      exact .inl ⟨c, mid, rfl, closing, h⟩
    · obtain ⟨es, mid, hes, hrest⟩ := gives_bind.1 (gives_remaining_bind.1 h)
      obtain ⟨xs, _, rfl, spelled, rfl⟩ := (arguments_gives expression (Nat.le_refl _)).1 hes
      exact .inr ⟨xs, mid, _, rfl, spelled, hrest⟩
  · rintro (⟨c, mid, rfl, closing, h⟩ | ⟨xs, mid, es, rfl, spelled, h⟩)
    · exact (gives_eat_present closing).2 h
    · obtain ⟨l, ys, rfl, starts⟩ := spelled.starts expression.toSpells
      have closed : front (l :: (ys ++ mid)) ≠ .punctuator .closeParen := by
        intro closing
        rw [← front_cons l (ys ++ mid), closing] at starts
        exact absurd starts (by decide)
      refine (gives_eat_absent closed).2 (gives_remaining_bind.2 (gives_bind.2 ⟨es, mid, ?_, h⟩))
      exact (arguments_gives expression (Nat.le_refl _)).2 ⟨_, es, rfl, spelled, rfl⟩

end Accesses

theorem accesses_reads :
    ReadsLinks (accesses inner) (IsAccess G) (fun _ => false) Token.opensAccess where
  zero _ := rfl
  stop bound e ls absent e' rest := by
    have other {p : Punctuator} (opens : (Token.punctuator p).opensAccess = true) :
        front ls ≠ .punctuator p := fun h => by simp [h, opens] at absent
    rw [accesses, gives_eat_absent (other rfl), gives_eat_absent (other rfl),
      gives_eat_absent (other rfl)]
    exact gives_pure
  step bound e ls present e' rest := by
    constructor
    · intro h
      obtain ⟨o, ls, rfl, opening | opening | opening⟩ := exists_of_opensAccess present
      · obtain ⟨l, mid, name, rfl, token, h⟩ := (accesses_member opening).1 h
        exact ⟨[o, l], mid, _, rfl, .member opening token, rfl, h⟩
      · obtain ⟨xs, c, mid, key, rfl, spelled, closing, h⟩ := (accesses_index expression opening).1 h
        exact ⟨o :: xs ++ [c], mid, _, by simp, .index opening spelled closing, rfl, h⟩
      · obtain ⟨c, mid, rfl, closing, h⟩ | ⟨xs, mid, es, rfl, spelled, h⟩ :=
          (accesses_call expression opening).1 h
        · exact ⟨[o, c], mid, _, rfl, .call opening closing, rfl, h⟩
        · exact ⟨o :: xs, mid, _, rfl, .callWith opening spelled, rfl, h⟩
    · rintro ⟨_, mid, _, rfl, linked, -, h⟩
      cases linked with
      | member opening token => exact (accesses_member opening).2 ⟨_, mid, _, rfl, token, h⟩
      | @index _ xs c key opening spelled closing =>
        exact (accesses_index expression opening).2
          ⟨xs, c, mid, key, by simp, spelled, closing, h⟩
      | call opening closing =>
        exact (accesses_call expression opening).2 (.inl ⟨_, mid, rfl, closing, h⟩)
      | callWith opening spelled =>
        exact (accesses_call expression opening).2 (.inr ⟨_, mid, _, rfl, spelled, h⟩)
  spells := IsAccess.spells expression.toSpells
  apart _ _ := rfl
  absentAtEnd := rfl

theorem accessed_reads : Reads (accessed inner) (Chained (IsPrimary G) (IsAccess G))
    Token.startsPrimary Token.opensAccess := by
  have reads := (accesses_reads expression).chained (primary_reads expression)
  simp only [Bool.false_or] at reads
  exact reads

end Operands

section Expressions

variable {inner : Rules} {G : Grammar}

theorem isUnary_iff {xs : List Lexeme} {e : Expression} : IsUnary G xs e ↔
    (∃ l ys operator e', xs = l :: ys ∧ e = .unary operator e' ∧
      unaryOperator? l.token = some operator ∧ G.operand ys e') ∨
    Chained (IsPrimary G) (IsAccess G) xs e := by
  constructor
  · rintro ⟨⟩
    case not token spelled => exact .inl ⟨_, _, _, _, rfl, rfl, by rw [token]; rfl, spelled⟩
    case negate token spelled => exact .inl ⟨_, _, _, _, rfl, rfl, by rw [token]; rfl, spelled⟩
    case typeOf token spelled => exact .inl ⟨_, _, _, _, rfl, rfl, by rw [token]; rfl, spelled⟩
    case accessed spelled => exact .inr spelled
  · rintro (⟨l, ys, operator, e', rfl, rfl, found, spelled⟩ | spelled)
    · unfold unaryOperator? at found
      split at found
      · cases found; exact .not ‹_› spelled
      · cases found; exact .negate ‹_› spelled
      · rename_i token
        split_ifs at found with typeOf
        cases found
        exact .typeOf (typeOf ▸ token) spelled
      · cases found
    · exact .accessed spelled

theorem token_of_unaryOperator? {t : Token} {operator : UnaryOperator}
    (found : unaryOperator? t = some operator) :
    t = .punctuator .bang ∨ t = .punctuator .minus ∨ t = .identifier "typeof" := by
  unfold unaryOperator? at found
  split at found
  · exact .inl rfl
  · exact .inr (.inl rfl)
  · split_ifs at found with typeOf
    exact .inr (.inr (congrArg _ typeOf))
  · cases found

variable (expression : Reads inner.expression G.expression Token.startsExpression
    Token.continuesExpression)
  (operand : Reads inner.operand G.operand Token.startsExpression Token.opensAccess)

include expression operand

theorem unary_reads : Reads (unary inner) (IsUnary G) Token.startsExpression Token.opensAccess where
  starts spelled := by
    obtain ⟨l, ys, operator, e', rfl, rfl, found, -⟩ | spelled := isUnary_iff.1 spelled
    · refine ⟨l, ys, rfl, ?_⟩
      obtain token | token | token := token_of_unaryOperator? found <;> rw [token] <;> rfl
    · obtain ⟨l, ys, rfl, starts⟩ := (accessed_reads expression).starts spelled
      exact ⟨l, ys, rfl, Token.startsExpression_of_startsPrimary starts⟩
  within spelled := by
    obtain ⟨l, ys, operator, e', rfl, rfl, found, spelled⟩ | spelled := isUnary_iff.1 spelled
    · refine List.forall_mem_cons.2 ⟨fun ended => ?_, operand.within spelled⟩
      rw [ended] at found
      cases found
    · exact (accessed_reads expression).within spelled
  gives {ls rest e} := by
    rw [unary, gives_current_bind]
    constructor
    · intro h
      split at h
      · rename_i operator found
        cases ls with
        | nil => cases found
        | cons l ls =>
          rw [gives_advance_bind, gives_bind] at h
          obtain ⟨e', mid, he, h⟩ := h
          obtain ⟨rfl, rfl⟩ := gives_pure.1 h
          obtain ⟨xs, hls, spelled, outside⟩ := operand.gives.1 he
          exact ⟨l :: xs, congrArg (l :: ·) hls,
            isUnary_iff.2 (.inl ⟨l, xs, _, _, rfl, rfl, found, spelled⟩), outside⟩
      · obtain ⟨xs, rfl, spelled, outside⟩ := (accessed_reads expression).gives.1 h
        exact ⟨xs, rfl, .accessed spelled, outside⟩
    · rintro ⟨xs, rfl, spelled, outside⟩
      obtain ⟨l, ys, operator, e', rfl, rfl, found, spelled⟩ | spelled := isUnary_iff.1 spelled
      · simp only [List.cons_append, front_cons, found]
        rw [gives_advance_bind, gives_bind]
        exact ⟨e', rest, operand.gives.2 ⟨ys, rfl, spelled, outside⟩, gives_pure.2 ⟨rfl, rfl⟩⟩
      · obtain ⟨l, ys, rfl, starts⟩ := (accessed_reads expression).starts spelled
        have none : unaryOperator? l.token = none :=
          Option.isNone_iff_eq_none.1 (Bool.and_eq_true_iff.1 starts).2
        simp only [List.cons_append, front_cons, none]
        exact (accessed_reads expression).gives.2 ⟨_, rfl, spelled, outside⟩

theorem logical_reads : Reads (logical inner) (IsDisjunction G) Token.startsExpression
    (fun t => t.continuesExpression && decide (t ≠ .punctuator .assign)) := by
  have sum := level_reads [(.plus, .add), (.minus, .subtract)] (unary_reads expression operand)
    (by decide) (by decide) rfl
  have equality := level_reads
    [(.strictEqual, .strictEqual), (.strictNotEqual, .strictNotEqual)] sum (by decide) (by decide) rfl
  have conjunction := level_reads [(.and, .and)] equality (by decide) (by decide) rfl
  have disjunction := level_reads [(.or, .or)] conjunction (by decide) (by decide) rfl
  refine ⟨disjunction.toSpells, disjunction.gives.trans ?_⟩
  have boundary (t : Token) : (t.continuesExpression && decide (t ≠ .punctuator .assign)) =
      (t.opensAccess || (operatorFor? [(.plus, .add), (.minus, .subtract)] t).isSome ||
        (operatorFor? [(.strictEqual, .strictEqual), (.strictNotEqual, .strictNotEqual)] t).isSome ||
        (operatorFor? [(.and, .and)] t).isSome || (operatorFor? [(.or, .or)] t).isSome) := by
    cases t with
    | punctuator p => cases p <;> rfl
    | _ => rfl
  simp only [boundary]
  rfl

theorem assignment_reads : Reads (assignment inner) (IsAssignment G) Token.startsExpression
    Token.continuesExpression where
  starts := by
    rintro _ _ ⟨⟩
    case value spelled => exact (logical_reads expression operand).starts spelled
    case assign spelled _ _ _ =>
      obtain ⟨l, ys, rfl, starts⟩ := (logical_reads expression operand).starts spelled
      exact ⟨l, _, rfl, starts⟩
  within := by
    rintro _ _ ⟨⟩
    case value spelled => exact (logical_reads expression operand).within spelled
    case assign spelled _ token value =>
      exact List.forall_mem_append.2 ⟨(logical_reads expression operand).within spelled,
        List.forall_mem_cons.2 ⟨token.trans_ne nofun, expression.within value⟩⟩
  gives {ls rest e} := by
    rw [assignment, gives_bind]
    constructor
    · rintro ⟨target, mid, htarget, h⟩
      obtain ⟨xs, rfl, spelled, outside⟩ := (logical_reads expression operand).gives.1 htarget
      rw [gives_isNext_bind] at h
      split at h
      · rename_i ahead
        obtain ⟨l, ls, rfl, token⟩ := exists_of_front (of_decide_eq_true ahead) nofun
        split at h
        · rename_i assignable
          rw [gives_advance_bind, gives_bind] at h
          obtain ⟨value, mid, hvalue, h⟩ := h
          obtain ⟨rfl, rfl⟩ := gives_pure.1 h
          obtain ⟨ys, hls, value, outside⟩ := expression.gives.1 hvalue
          exact ⟨xs ++ l :: ys, by simp_all, .assign spelled assignable token value, outside⟩
        · exact absurd h not_gives_throw
      · rename_i ahead
        obtain ⟨rfl, rfl⟩ := gives_pure.1 h
        refine ⟨xs, rfl, .value spelled, ?_⟩
        simpa [ahead] using outside
    · rintro ⟨xs, rfl, spelled, outside⟩
      cases spelled with
      | value spelled =>
        have absent : front rest ≠ .punctuator .assign := fun h => by rw [h] at outside; cases outside
        refine ⟨e, rest, (logical_reads expression operand).gives.2 ⟨xs, rfl, spelled, ?_⟩, ?_⟩
        · rw [outside]; rfl
        · rw [gives_isNext_bind, if_neg (by simpa using absent)]
          exact gives_pure.2 ⟨rfl, rfl⟩
      | @assign xs l ys target e spelled assignable token value =>
        refine ⟨target, l :: (ys ++ rest),
          (logical_reads expression operand).gives.2 ⟨xs, by simp, spelled, ?_⟩, ?_⟩
        · rw [front_cons, token]; rfl
        · have ahead : front (l :: (ys ++ rest)) = .punctuator .assign := token
          rw [gives_isNext_bind, if_pos (decide_eq_true ahead), if_pos assignable, gives_advance_bind,
            gives_bind]
          exact ⟨e, rest, expression.gives.2 ⟨ys, rfl, value, outside⟩, gives_pure.2 ⟨rfl, rfl⟩⟩

end Expressions

end WebBindings.Script
