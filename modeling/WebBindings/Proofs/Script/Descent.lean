import WebBindings.Proofs.Script.Parsing
/-!
# Parsing by recursive descent

The parser as a machine. It moves over a list of lexemes by position, counts how deeply its calls are
nested, and repeats a step as often as there is something to read; where it does not come to an end, it has
no outcome. Where it is remains known after a failure, too, and so does where it was.

The routines of the machine are least fixed points, so that they end is not built into them. What is shown
here is how their single steps move it on, and what counting the depth adds to a rule.
-/

namespace WebBindings.Script.Descent

/-- What the machine moves over. -/
abbrev Input := List Lexeme

/-- So many lexemes are behind the machine, and it is inside of so many calls that count as nested. -/
structure Place where
  position : Nat
  depth : Nat

/-- Where the machine is, and where it was before, the latest place first. -/
structure Course where
  now : Place
  past : List Place

namespace Course

def start : Course := ⟨⟨0, 0⟩, []⟩

def places (c : Course) : List Place := c.now :: c.past

def moveTo (c : Course) (next : Place) : Course := ⟨next, c.places⟩

def enter (c : Course) : Course := c.moveTo { c.now with depth := c.now.depth + 1 }

def leave (c : Course) : Course := c.moveTo { c.now with depth := c.now.depth - 1 }

/-- The course after the lexeme at the position, if there is one. -/
def bumped (ls : Input) (c : Course) : Course :=
  if c.now.position < ls.length then c.moveTo { c.now with position := c.now.position + 1 } else c

/-- The lexemes from the position on. -/
def ahead (ls : Input) (c : Course) : List Lexeme := ls.drop c.now.position

end Course

/-- A piece of the machine, which fails or gives something and may never come to an end. -/
abbrev Routine (α : Type) := ExceptT SyntaxFault (StateT Course Option) α

/-- The rules that count as nested. -/
inductive Rule : Type → Type
  | statement : Rule Statement
  | expression : Rule Expression
  | operand : Rule Expression

/-- The levels of binary operators, from the loosest on. -/
inductive Precedence
  | disjunction
  | conjunction
  | equality
  | sum

def Precedence.operators : Precedence → List (Punctuator × BinaryOperator)
  | .disjunction => [(.or, .or)]
  | .conjunction => [(.and, .and)]
  | .equality => [(.strictEqual, .strictEqual), (.strictNotEqual, .strictNotEqual)]
  | .sum => [(.plus, .add), (.minus, .subtract)]

def Input.current (ls : Input) : Routine Token := do
  return (ls[(← get).now.position]?.map Lexeme.token).getD .endOfInput

def Input.newlineAhead (ls : Input) : Routine Bool := do
  return ls[(← get).now.position]?.any Lexeme.newlineBefore

/-- Pass over the current token. -/
def Input.bump (ls : Input) : Routine Token := do
  let token ← ls.current
  modify (Course.bumped ls)
  return token

def Input.unexpected {α : Type} (ls : Input) : Routine α := do
  throw (.unexpected (← ls.current) ((ls[(← get).now.position]?.map Lexeme.start).getD 0))

def Input.isNext (ls : Input) (p : Punctuator) : Routine Bool := do
  return (← ls.current) = .punctuator p

def Input.isWordNext (ls : Input) (word : String) : Routine Bool := do
  return (← ls.current) = .identifier word

def Input.eat (ls : Input) (p : Punctuator) : Routine Bool := do
  if ← ls.isNext p then
    let _ ← ls.bump
    return true
  return false

def Input.expect (ls : Input) (p : Punctuator) : Routine Unit := do
  unless ← ls.eat p do ls.unexpected

def Input.atImpliedEnd (ls : Input) : Routine Bool := do
  if ← ls.isNext .closeBrace then return true
  if (← ls.current) = .endOfInput then return true
  ls.newlineAhead

def Input.endStatement (ls : Input) : Routine Unit := do
  if ← ls.eat .semicolon then return
  unless ← ls.atImpliedEnd do ls.unexpected

mutual

/-- Follow a rule one level deeper, up to the limit. -/
def Input.nested {α : Type} (ls : Input) (rule : Rule α) : Routine α := fun c =>
  if c.now.depth < nestingLimit then do
    let (outcome, c) ← (ls |>.bare rule).run.run c.enter
    return (outcome, c.leave)
  else return (.error .nesting, c)
partial_fixpoint

def Input.bare {α : Type} (ls : Input) : Rule α → Routine α
  | .statement => ls |>.statement
  | .expression => ls |>.assignment
  | .operand => ls |>.unary
partial_fixpoint

def Input.statement (ls : Input) : Routine Statement := do
  match ← ls.current with
  | .punctuator .semicolon =>
    let _ ← ls.bump
    return .empty
  | .punctuator .openBrace =>
    let _ ← ls.bump
    return .block (← ls |>.blockBody [])
  | .identifier name =>
    if name = "return" then
      let _ ← ls.bump
      ls |>.returnStatement
    else if name = "throw" then
      let _ ← ls.bump
      ls |>.throwStatement
    else if name = "if" then
      let _ ← ls.bump
      ls |>.ifStatement
    else ls |>.expressionStatement
  | _ => ls |>.expressionStatement
partial_fixpoint

def Input.blockBody (ls : Input) (before : List Statement) : Routine (List Statement) := do
  if ← ls.eat .closeBrace then return before
  if (← ls.current) = .endOfInput then ls.unexpected
  else
    let s ← ls |>.nested .statement
    ls |>.blockBody (before ++ [s])
partial_fixpoint

def Input.returnStatement (ls : Input) : Routine Statement := do
  if (← ls.isNext .semicolon) || (← ls.atImpliedEnd) then
    ls.endStatement
    return .ret none
  else
    let e ← ls |>.nested .expression
    ls.endStatement
    return .ret (some e)
partial_fixpoint

def Input.throwStatement (ls : Input) : Routine Statement := do
  if ← ls.newlineAhead then throw .newlineAfterThrow
  else
    let e ← ls |>.nested .expression
    ls.endStatement
    return .throw e
partial_fixpoint

def Input.ifStatement (ls : Input) : Routine Statement := do
  ls.expect .openParen
  let test ← ls |>.nested .expression
  ls.expect .closeParen
  let consequent ← ls |>.nested .statement
  if ← ls.isWordNext "else" then
    let _ ← ls.bump
    return .ifElse test consequent (← ls |>.nested .statement)
  else return .ifThen test consequent
partial_fixpoint

def Input.expressionStatement (ls : Input) : Routine Statement := do
  let e ← ls |>.nested .expression
  ls.endStatement
  return .expression e
partial_fixpoint

def Input.assignment (ls : Input) : Routine Expression := do
  let target ← ls |>.level .disjunction
  if ← ls.isNext .assign then
    if target.isAssignable then
      let _ ← ls.bump
      return .assign target (← ls |>.nested .expression)
    else throw .invalidTarget
  else return target
partial_fixpoint

/-- Operands joined by the operators of one precedence. -/
def Input.level (ls : Input) (k : Precedence) : Routine Expression := do
  let left ← ls |>.tighter k
  ls |>.chain k left
partial_fixpoint

def Input.chain (ls : Input) (k : Precedence) (left : Expression) : Routine Expression := do
  match operatorFor? k.operators (← ls.current) with
  | none => return left
  | some operator =>
    let _ ← ls.bump
    let right ← ls |>.tighter k
    ls |>.chain k (.binary operator left right)
partial_fixpoint

/-- What the operators of one precedence join. -/
def Input.tighter (ls : Input) : Precedence → Routine Expression
  | .disjunction => ls |>.level .conjunction
  | .conjunction => ls |>.level .equality
  | .equality => ls |>.level .sum
  | .sum => ls |>.unary
partial_fixpoint

def Input.unary (ls : Input) : Routine Expression := do
  match unaryOperator? (← ls.current) with
  | some operator =>
    let _ ← ls.bump
    return .unary operator (← ls |>.nested .operand)
  | none => ls |>.accessed
partial_fixpoint

def Input.accessed (ls : Input) : Routine Expression := do
  let e ← ls |>.primary
  ls |>.accesses e
partial_fixpoint

def Input.accesses (ls : Input) (e : Expression) : Routine Expression := do
  if ← ls.eat .dot then
    match ← ls.bump with
    | .identifier name => ls |>.accesses (.member e name)
    | _ => throw .noNameAfterDot
  else if ← ls.eat .openBracket then
    let key ← ls |>.nested .expression
    ls.expect .closeBracket
    ls |>.accesses (.index e key)
  else if ← ls.eat .openParen then
    if ← ls.eat .closeParen then ls |>.accesses (.call e [])
    else
      let args ← ls |>.arguments []
      ls |>.accesses (.call e args)
  else return e
partial_fixpoint

def Input.arguments (ls : Input) (before : List Expression) : Routine (List Expression) := do
  let e ← ls |>.nested .expression
  if ← ls.eat .closeParen then return before ++ [e]
  ls.expect .comma
  ls |>.arguments (before ++ [e])
partial_fixpoint

def Input.primary (ls : Input) : Routine Expression := do
  match ← ls.current with
  | .punctuator .openParen =>
    let _ ← ls.bump
    let e ← ls |>.nested .expression
    ls.expect .closeParen
    return e
  | .number x =>
    let _ ← ls.bump
    return .constant (.number x)
  | .string s =>
    let _ ← ls.bump
    return .constant (.text s)
  | .identifier name =>
    let e ← word name
    let _ ← ls.bump
    return e
  | _ => ls.unexpected
partial_fixpoint

end

def Input.statements (ls : Input) (before : List Statement) : Routine (List Statement) := do
  if (← ls.current) = .endOfInput then return before
  else
    let s ← ls.nested .statement
    ls |>.statements (before ++ [s])
partial_fixpoint

def Input.parse (ls : Input) : Routine Program := do
  return ⟨← ls.statements []⟩

namespace Course

variable {ls : Input} {c c' c'' : Course}

/-- All places, the present and the past ones, are within the lexemes and the nesting limit. -/
def Within (ls : Input) (c : Course) : Prop :=
  ∀ place ∈ c.places, place.position ≤ ls.length ∧ place.depth ≤ nestingLimit

/-- A course goes on from another one and is back at its depth. -/
structure LeadsTo (ls : Input) (c c' : Course) : Prop where
  depth : c'.now.depth = c.now.depth
  forward : c.now.position ≤ c'.now.position
  inside : c.now.position ≤ ls.length → c'.now.position ≤ ls.length
  past : c.places <:+ c'.places
  within : c.Within ls → c'.Within ls

theorem LeadsTo.refl : c.LeadsTo ls c := ⟨rfl, Nat.le_refl _, id, List.suffix_refl _, id⟩

theorem LeadsTo.trans (first : c.LeadsTo ls c') (second : c'.LeadsTo ls c'') : c.LeadsTo ls c'' where
  depth := second.depth.trans first.depth
  forward := Nat.le_trans first.forward second.forward
  inside := second.inside ∘ first.inside
  past := first.past.trans second.past
  within := second.within ∘ first.within

theorem LeadsTo.length_ahead_le (led : c.LeadsTo ls c') :
    (c'.ahead ls).length ≤ (c.ahead ls).length := by
  have forward := led.forward
  simp only [ahead, List.length_drop]
  omega

theorem Within.moveTo (within : c.Within ls) {next : Place} (position : next.position ≤ ls.length)
    (depth : next.depth ≤ nestingLimit) : (c.moveTo next).Within ls :=
  List.forall_mem_cons.2 ⟨⟨position, depth⟩, within⟩

theorem within_start : start.Within ls :=
  List.forall_mem_singleton.2 ⟨Nat.zero_le _, Nat.zero_le _⟩

theorem leadsTo_bumped : c.LeadsTo ls (c.bumped ls) := by
  unfold bumped
  split
  · rename_i inside
    refine ⟨rfl, Nat.le_succ _, fun _ => inside, List.suffix_cons _ _, fun within => ?_⟩
    exact within.moveTo inside (within _ List.mem_cons_self).2
  · exact .refl

theorem ahead_bumped : (c.bumped ls).ahead ls = (c.ahead ls).tail := by
  unfold bumped
  split
  · exact List.tail_drop.symm
  · rename_i outside
    simp only [ahead, List.drop_eq_nil_of_le (Nat.le_of_not_lt outside), List.tail_nil]

theorem front_of_length_eq_zero (empty : (c.ahead ls).length = 0) :
    front (c.ahead ls) = .endOfInput := by
  rw [List.length_eq_zero_iff.1 empty]
  rfl

theorem front_ne_punctuator (empty : (c.ahead ls).length = 0) (m : Punctuator) :
    front (c.ahead ls) ≠ .punctuator m :=
  (front_of_length_eq_zero empty).trans_ne nofun

theorem LeadsTo.leave (led : c.enter.LeadsTo ls c') (shallow : c.now.depth < nestingLimit) :
    c.LeadsTo ls c'.leave where
  depth := by
    have deeper : c'.now.depth = c.now.depth + 1 := led.depth
    exact congrArg (· - 1) deeper
  forward := led.forward
  inside := led.inside
  past := ((List.suffix_cons _ _).trans led.past).trans (List.suffix_cons _ _)
  within within := by
    have entered : c.enter.Within ls := within.moveTo (within _ List.mem_cons_self).1 shallow
    have kept := led.within entered
    obtain ⟨position, depth⟩ := kept _ List.mem_cons_self
    exact kept.moveTo position (Nat.le_trans (Nat.sub_le _ _) depth)

/-- A course goes on by one step over a token. -/
structure Passes (ls : Input) (c : Course) (t : Token) (c' : Course) : Prop extends
    c.LeadsTo ls c' where
  front : front (c.ahead ls) = t
  ahead : c'.ahead ls = (c.ahead ls).tail

theorem passes_bumped : c.Passes ls (front (c.ahead ls)) (c.bumped ls) :=
  ⟨leadsTo_bumped, rfl, ahead_bumped⟩

namespace Passes

variable {m : Punctuator} (passes : c.Passes ls (.punctuator m) c')

include passes

theorem length_ahead_lt : (c'.ahead ls).length < (c.ahead ls).length := by
  obtain ⟨l, rest, hahead, -⟩ := exists_of_front passes.front nofun
  rw [passes.ahead, hahead, List.tail_cons]
  exact Nat.lt_succ_self _

theorem ahead_ne_nil (ended : ls.getLast?.map Lexeme.token = some .endOfInput) :
    c'.ahead ls ≠ [] := by
  obtain ⟨l, rest, hahead, token⟩ := exists_of_front passes.front nofun
  rw [passes.ahead, hahead, List.tail_cons]
  rintro rfl
  have last : (c.ahead ls).getLast? = ls.getLast? := by
    rw [Course.ahead, List.getLast?_drop, if_neg]
    intro outside
    rw [Course.ahead, List.drop_eq_nil_of_le outside] at hahead
    cases hahead
  rw [← last, hahead] at ended
  exact absurd (token.symm.trans (Option.some.inj ended)) nofun

end Passes

/-- A course has gone over at least one lexeme, and over no end of input. -/
def Advances (ls : Input) (c c' : Course) : Prop :=
  c.now.position < c'.now.position ∧ ∀ k, c.now.position ≤ k → k < c'.now.position →
    ∃ l, ls[k]? = some l ∧ l.token ≠ .endOfInput

theorem LeadsTo.advances {l : Lexeme} {xs : List Lexeme} (led : c.LeadsTo ls c')
    (passed : c.ahead ls = l :: xs ++ c'.ahead ls)
    (within : ∀ x ∈ l :: xs, x.token ≠ .endOfInput) : c.Advances ls c' := by
  have forward := led.forward
  have counted := congrArg List.length passed
  simp only [ahead, List.length_drop, List.length_append, List.length_cons] at counted
  have inside := led.inside (by omega)
  refine ⟨by omega, fun k after before => ?_⟩
  have short : k - c.now.position < (l :: xs).length := by
    rw [List.length_cons]
    omega
  refine ⟨(l :: xs)[k - c.now.position], ?_, within _ (List.getElem_mem short)⟩
  have same : (c.ahead ls)[k - c.now.position]? = ls[k]? := by
    rw [ahead, List.getElem?_drop, Nat.add_sub_cancel' after]
  rw [← same, passed, List.getElem?_append_left short, List.getElem?_eq_getElem short]

end Course

section Runs

variable {α β : Type} {ls : Input} {c c' : Course}

/-- From a course a routine comes to an outcome, at the end of another course. -/
def Ends (r : Routine α) (c : Course) (outcome : Except SyntaxFault α) (c' : Course) : Prop :=
  r.run.run c = some (outcome, c')

namespace Ends

variable {r : Routine α}

theorem unique {outcome outcome' : Except SyntaxFault α} {c'' : Course} (ends : Ends r c outcome c')
    (ends' : Ends r c outcome' c'') : c'' = c' :=
  (Prod.mk.inj (Option.some.inj (ends'.symm.trans ends))).2

theorem run_bind {a : α} (first : Ends r c (.ok a) c') (g : α → Routine β) :
    (r >>= g).run.run c = (g a).run.run c' := by
  rw [ExceptT.run_bind, StateT.run_bind, first]
  rfl

theorem bind_error {fault : SyntaxFault} (first : Ends r c (.error fault) c') (g : α → Routine β) :
    Ends (r >>= g) c (.error fault) c' := by
  rw [Ends, ExceptT.run_bind, StateT.run_bind, first]
  rfl

end Ends

theorem front_ahead (ls : Input) (c : Course) :
    (ls[c.now.position]?.map Lexeme.token).getD .endOfInput = front (c.ahead ls) := by
  rw [front, Course.ahead, List.head?_drop]

theorem run_current_bind (g : Token → Routine β) :
    (ls.current >>= g).run.run c = (g (front (c.ahead ls))).run.run c := by
  rw [← front_ahead]
  rfl

theorem run_bump_bind (g : Token → Routine β) :
    (ls.bump >>= g).run.run c = (g (front (c.ahead ls))).run.run (c.bumped ls) := by
  rw [← front_ahead]
  rfl

theorem run_eat_bind_absent {m : Punctuator} (absent : front (c.ahead ls) ≠ .punctuator m)
    (g : Bool → Routine β) : (ls.eat m >>= g).run.run c = (g false).run.run c := by
  rw [Input.eat, Input.isNext, bind_assoc, bind_assoc, run_current_bind, pure_bind, if_neg]
  · rfl
  · exact fun ahead => absent (of_decide_eq_true ahead)

theorem nested_refused {rule : Rule α} (deep : nestingLimit ≤ c.now.depth) :
    Ends (ls.nested rule) c (.error .nesting) c := by
  change ls.nested rule c = _
  rw [Input.nested, if_neg (Nat.not_lt.2 deep)]
  rfl

/-- What a rule comes to, it comes to one level deeper, and then that level is left. -/
theorem nested_ends {rule : Rule α} {outcome : Except SyntaxFault α}
    (shallow : c.now.depth < nestingLimit) (ends : Ends (ls.bare rule) c.enter outcome c') :
    Ends (ls.nested rule) c outcome c'.leave := by
  change ls.nested rule c = _
  rw [Input.nested, if_pos shallow, ends]
  rfl

end Runs

end WebBindings.Script.Descent
