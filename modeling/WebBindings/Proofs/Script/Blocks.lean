import WebBindings.Proofs.Script.Subtraction
/-!
# Blocks

A block in a list of statements means no more than its statements in its place. A program is told by the
turns that its other statements have, one behind the other and whatever blocks they stand in: a turn ends
the whole program or leaves what follows it at all levels.
-/

namespace WebBindings.Script

variable {σ : Type}

mutual

/-- A statement in which the statements of a block stand in the list that the block is an element of. -/
def Statement.splice : Statement → Statement
  | .empty => .empty
  | .expression e => .expression e
  | .ret value => .ret value
  | .throw value => .throw value
  | .ifThen test consequent => .ifThen test consequent.splice
  | .ifElse test consequent alternate => .ifElse test consequent.splice alternate.splice
  | .block body => .block (Statement.spliceAll body)

/-- What stands in a list for a statement. -/
def Statement.elements : Statement → List Statement
  | .empty => [.empty]
  | .expression e => [.expression e]
  | .ret value => [.ret value]
  | .throw value => [.throw value]
  | .ifThen test consequent => [.ifThen test consequent.splice]
  | .ifElse test consequent alternate => [.ifElse test consequent.splice alternate.splice]
  | .block body => Statement.spliceAll body

def Statement.spliceAll : List Statement → List Statement
  | [] => []
  | s :: rest => s.elements ++ Statement.spliceAll rest

end

def Program.splice (p : Program) : Program := ⟨Statement.spliceAll p.body⟩

def Statement.isBlock : Statement → Bool
  | .block _ => true
  | _ => false

mutual

/-- Whether no list in a statement has a block for an element. -/
def Statement.isFlat : Statement → Bool
  | .ifThen _ consequent => consequent.isFlat
  | .ifElse _ consequent alternate => consequent.isFlat && alternate.isFlat
  | .block body => Statement.areFlat body
  | _ => true

def Statement.areFlat : List Statement → Bool
  | [] => true
  | s :: rest => !s.isBlock && s.isFlat && Statement.areFlat rest

end

/-- What a handler does at a turn. Blocks have no turns. -/
inductive Act
  | evaluate (e : Expression)
  | choose (test : Expression)
  | ret (value : Option Expression)
  | throw (value : Expression)

namespace Act

def isReturn : Act → Bool
  | .ret _ => true
  | _ => false

/-- Whether an act ends the program wherever it stands. -/
def isAbrupt : Act → Bool
  | .ret _ | .throw _ => true
  | _ => false

end Act

namespace Statement

def act? : Statement → Option Act
  | .expression e => some (.evaluate e)
  | .ret value => some (.ret value)
  | .throw value => some (.throw value)
  | .ifThen test _ | .ifElse test _ _ => some (.choose test)
  | .empty | .block _ => none

/-- The branch that a truth value leads to. -/
def chosen (truth : Bool) : Statement → List Statement
  | .ifThen _ consequent => if truth then [consequent] else []
  | .ifElse _ consequent alternate => if truth then [consequent] else [alternate]
  | _ => []

end Statement

/-- An act, with the parameter and the world that it begins with. -/
structure Turn (σ : Type) where
  act : Act
  parameter : Value
  world : World σ

/-- The end of a program: what it completes with or raises, and the world that it leaves. -/
abbrev Ending (σ : Type) := Except ScriptError Value × World σ

/-- What comes of a turn: the end of the program, or the truth of a value with the parameter and the
world as they then are. -/
inductive Consequence (σ : Type)
  | ends (ending : Ending σ)
  | goesOn (truth : Bool) (parameter : Value) (world : World σ)

/-- What comes of a turn, given what its expression comes to. -/
def Act.consequence (evaluation : Except ScriptError (Value × Value) × World σ) :
    Act → Consequence σ
  | .evaluate _ | .choose _ =>
    match evaluation with
    | (.ok (value, parameter), w) => .goesOn value.toBoolean parameter w
    | (.error error, w) => .ends (.error error, w)
  | .ret _ =>
    match evaluation with
    | (.ok (value, _), w) => .ends (.ok value, w)
    | (.error error, w) => .ends (.error error, w)
  | .throw _ =>
    match evaluation with
    | (.ok (value, _), w) => .ends (.error (.exception value), w)
    | (.error error, w) => .ends (.error error, w)

namespace Turn

/-- How the expression of a turn ends. A `return` without one has the value `undefined`. -/
def evaluation (host : Host σ) (f : Frame) (t : Turn σ) :
    Except ScriptError (Value × Value) × World σ :=
  match t.act with
  | .evaluate e | .choose e | .ret (some e) | .throw e => evaluated host f e t.parameter t.world
  | .ret none => (.ok (.undefined, t.parameter), t.world)

def consequence (host : Host σ) (f : Frame) (t : Turn σ) : Consequence σ :=
  t.act.consequence (t.evaluation host f)

theorem ends_of_isAbrupt (host : Host σ) (f : Frame) {t : Turn σ} (abrupt : t.act.isAbrupt = true) :
    ∃ ending, t.consequence host f = .ends ending := by
  rw [consequence]
  generalize t.evaluation host f = evaluation
  obtain ⟨_ | ⟨value, parameter⟩, w⟩ := evaluation <;> cases act : t.act
  all_goals first
    | exact ⟨_, rfl⟩
    | rw [act] at abrupt; cases abrupt

theorem isReturn_of_ends {host : Host σ} {f : Frame} {t : Turn σ} {value : Value} {w : World σ}
    (ends : t.consequence host f = .ends (.ok value, w)) : t.act.isReturn = true := by
  rw [consequence] at ends
  generalize t.evaluation host f = evaluation at ends
  obtain ⟨_ | ⟨result, parameter⟩, w'⟩ := evaluation <;> cases act : t.act <;> rw [act] at ends
  all_goals first
    | rfl
    | cases ends

end Turn

/-- The statements that are left, at all levels, have their turns one after the other. -/
inductive Runs (host : Host σ) (f : Frame) :
    (left : List Statement) → Value → World σ → List (Turn σ) → Ending σ → Prop
  | done {p w} : Runs host f [] p w [] (.ok .undefined, w)
  | empty {rest p w turns ending} (more : Runs host f rest p w turns ending) :
      Runs host f (.empty :: rest) p w turns ending
  | block {body rest p w turns ending} (more : Runs host f (body ++ rest) p w turns ending) :
      Runs host f (.block body :: rest) p w turns ending
  | ends {s act rest p w ending} (acts : s.act? = some act)
      (ends : (⟨act, p, w⟩ : Turn σ).consequence host f = .ends ending) :
      Runs host f (s :: rest) p w [⟨act, p, w⟩] ending
  | goesOn {s act rest p w truth p' w' turns ending} (acts : s.act? = some act)
      (goesOn : (⟨act, p, w⟩ : Turn σ).consequence host f = .goesOn truth p' w')
      (more : Runs host f (s.chosen truth ++ rest) p' w' turns ending) :
      Runs host f (s :: rest) p w (⟨act, p, w⟩ :: turns) ending

namespace Runs

variable {host : Host σ} {f : Frame} {left : List Statement} {p : Value} {w : World σ}
variable {turns turns' : List (Turn σ)} {ending ending' : Ending σ}

/-- There is one way only in which a program runs. -/
theorem unique (runs : Runs host f left p w turns ending) (runs' : Runs host f left p w turns' ending') :
    turns' = turns ∧ ending' = ending := by
  induction runs generalizing turns' ending' with
  | done =>
    cases runs'
    exact ⟨rfl, rfl⟩
  | empty _ ih =>
    cases runs' with
    | empty more => exact ih more
    | ends acts | goesOn acts => cases acts
  | block _ ih =>
    cases runs' with
    | block more => exact ih more
    | ends acts | goesOn acts => cases acts
  | ends acts ends =>
    cases runs' with
    | empty | block => cases acts
    | ends acts' ends' =>
      rw [acts] at acts'
      cases acts'
      rw [ends] at ends'
      cases ends'
      exact ⟨rfl, rfl⟩
    | goesOn acts' goesOn =>
      rw [acts] at acts'
      cases acts'
      rw [ends] at goesOn
      cases goesOn
  | goesOn acts goesOn _ ih =>
    cases runs' with
    | empty | block => cases acts
    | ends acts' ends =>
      rw [acts] at acts'
      cases acts'
      rw [goesOn] at ends
      cases ends
    | goesOn acts' goesOn' more =>
      rw [acts] at acts'
      cases acts'
      rw [goesOn] at goesOn'
      cases goesOn'
      obtain ⟨rfl, rfl⟩ := ih more
      exact ⟨rfl, rfl⟩

theorem last_of_ends (runs : Runs host f left p w turns ending) {before after : List (Turn σ)}
    {t : Turn σ} (cut : turns = before ++ t :: after) {last : Ending σ}
    (ends : t.consequence host f = .ends last) : after = [] ∧ ending = last := by
  induction runs generalizing before with
  | done => simp at cut
  | empty _ ih | block _ ih => exact ih cut
  | ends _ ended =>
    cases before with
    | nil =>
      obtain ⟨rfl, rfl⟩ := List.cons.inj cut
      rw [ended] at ends
      exact ⟨rfl, Consequence.ends.inj ends⟩
    | cons => simp at cut
  | goesOn _ goesOn _ ih =>
    cases before with
    | nil =>
      obtain ⟨rfl, -⟩ := List.cons.inj cut
      rw [goesOn] at ends
      cases ends
    | cons first before => exact ih (List.cons.inj cut).2

theorem undefined_of_unreturned (runs : Runs host f left p w turns ending)
    (unreturned : ∀ t ∈ turns, t.act.isReturn = false) {value : Value} {w' : World σ}
    (completes : ending = (.ok value, w')) : value = .undefined := by
  induction runs with
  | done =>
    cases completes
    rfl
  | empty _ ih | block _ ih => exact ih unreturned completes
  | ends _ ends =>
    rw [completes] at ends
    have returned := Turn.isReturn_of_ends ends
    rw [unreturned _ List.mem_cons_self] at returned
    cases returned
  | goesOn _ _ _ ih => exact ih (fun t mem => unreturned t (List.mem_cons_of_mem _ mem)) completes

end Runs

section Frames

variable (host : Host σ) (f : Frame)

/-- How the statements of a program end. -/
def finished (m : Evaluation σ (Option Value)) (p : Value) (w : World σ) : Ending σ :=
  outcome host (do
    let (result, _) ← m.run p
    return result.getD .undefined : WebBindings.Script σ Value).run w

theorem executeAll_append (body rest : List Statement) :
    (executeAll (evaluate refuse f) (body ++ rest) : Evaluation σ (Option Value)) = (do
      match ← executeAll (evaluate refuse f) body with
      | some value => return some value
      | none => executeAll (evaluate refuse f) rest) := by
  induction body with
  | nil => rfl
  | cons s body ih =>
    rw [List.cons_append, executeAll, executeAll, bind_assoc]
    refine bind_congr fun result => ?_
    cases result with
    | some value => rfl
    | none => exact ih

theorem executeAll_block (body rest : List Statement) :
    (executeAll (evaluate refuse f) (.block body :: rest) : Evaluation σ (Option Value)) = executeAll (evaluate refuse f) (body ++ rest) :=
  (executeAll_append f body rest).symm

variable {host f}

theorem finished_bind {α : Type} (m : Evaluation σ α) (k : α → Evaluation σ (Option Value)) (p : Value)
    (w : World σ) : finished host (m >>= k) p w =
      match outcome host (m.run p).run w with
      | (.ok (a, p'), w') => finished host (k a) p' w'
      | (.error error, w') => (.error error, w') := by
  have parts : (do
      let (result, _) ← (m >>= k).run p
      return result.getD .undefined : WebBindings.Script σ Value) = (do
      let (a, p') ← m.run p
      let (result, _) ← (k a).run p'
      return result.getD .undefined) := by
    rw [StateT.run_bind, bind_assoc]
  rw [finished, parts]
  split
  · rename_i first
    exact outcome_run_bind host _ first
  · rename_i first
    exact outcome_run_bind_of_error host _ first

/-- A turn of the first statement ends the program or leaves the branch that it chose, and the rest. -/
theorem finished_act {s : Statement} {act : Act} (acts : s.act? = some act) (rest : List Statement)
    (p : Value) (w : World σ) : finished host (executeAll (evaluate refuse f) (s :: rest)) p w =
      match (⟨act, p, w⟩ : Turn σ).consequence host f with
      | .ends ending => ending
      | .goesOn truth p' w' => finished host (executeAll (evaluate refuse f) (s.chosen truth ++ rest)) p' w' := by
  cases s with
  | empty | block => cases acts
  | expression e =>
    cases acts
    rw [executeAll, execute, bind_assoc, finished_bind]
    simp only [Turn.consequence, Turn.evaluation, evaluated]
    generalize outcome host ((evaluate refuse f e).run p).run w = evaluation
    obtain ⟨_ | ⟨value, p'⟩, w'⟩ := evaluation <;> rfl
  | ret value =>
    cases acts
    cases value with
    | none => rfl
    | some e =>
      rw [executeAll, execute, bind_assoc, finished_bind]
      simp only [Turn.consequence, Turn.evaluation, evaluated]
      generalize outcome host ((evaluate refuse f e).run p).run w = evaluation
      obtain ⟨_ | ⟨value, p'⟩, w'⟩ := evaluation <;> rfl
  | throw e =>
    cases acts
    rw [executeAll, execute, bind_assoc, finished_bind]
    simp only [Turn.consequence, Turn.evaluation, evaluated]
    generalize outcome host ((evaluate refuse f e).run p).run w = evaluation
    obtain ⟨_ | ⟨value, p'⟩, w'⟩ := evaluation <;> rfl
  | ifThen test consequent =>
    cases acts
    rw [executeAll, execute, bind_assoc, finished_bind]
    simp only [Turn.consequence, Turn.evaluation, evaluated]
    generalize outcome host ((evaluate refuse f test).run p).run w = evaluation
    obtain ⟨_ | ⟨value, p'⟩, w'⟩ := evaluation
    · rfl
    · cases truth : value.toBoolean <;> simp [Act.consequence, truth, Statement.chosen, executeAll]
  | ifElse test consequent alternate =>
    cases acts
    rw [executeAll, execute, bind_assoc, finished_bind]
    simp only [Turn.consequence, Turn.evaluation, evaluated]
    generalize outcome host ((evaluate refuse f test).run p).run w = evaluation
    obtain ⟨_ | ⟨value, p'⟩, w'⟩ := evaluation
    · rfl
    · cases truth : value.toBoolean <;> simp [Act.consequence, truth, Statement.chosen, executeAll]

variable (host f)

/-- Statements have turns, from wherever they start, and end as these do. -/
def HaveTurns (ss : List Statement) : Prop :=
  ∀ p w, ∃ turns, Runs host f ss p w turns (finished host (executeAll (evaluate refuse f) ss) p w)

variable {host f}

theorem HaveTurns.nil : HaveTurns host f ([] : List Statement) := fun _ _ => ⟨[], .done⟩

theorem HaveTurns.of_act {s : Statement} {act : Act} (acts : s.act? = some act) {rest : List Statement}
    (branches : ∀ truth, HaveTurns host f (s.chosen truth ++ rest)) : HaveTurns host f (s :: rest) := by
  intro p w
  rw [finished_act acts]
  split
  · rename_i ending ends
    exact ⟨_, .ends acts ends⟩
  · rename_i truth p' w' goesOn
    obtain ⟨turns, more⟩ := branches truth p' w'
    exact ⟨_, .goesOn acts goesOn more⟩

mutual

theorem HaveTurns.cons (s : Statement) {rest : List Statement} (turns : HaveTurns host f rest) :
    HaveTurns host f (s :: rest) := by
  match s with
  | .empty =>
    intro p w
    obtain ⟨turns, more⟩ := turns p w
    exact ⟨turns, .empty more⟩
  | .expression _ | .ret _ | .throw _ => exact .of_act rfl fun _ => turns
  | .ifThen _ consequent =>
    refine .of_act rfl fun truth => ?_
    cases truth with
    | true => exact turns.cons consequent
    | false => exact turns
  | .ifElse _ consequent alternate =>
    refine .of_act rfl fun truth => ?_
    cases truth with
    | true => exact turns.cons consequent
    | false => exact turns.cons alternate
  | .block body =>
    intro p w
    obtain ⟨turns, more⟩ := turns.append body p w
    rw [executeAll_block]
    exact ⟨turns, .block more⟩

theorem HaveTurns.append (body : List Statement) {rest : List Statement}
    (turns : HaveTurns host f rest) : HaveTurns host f (body ++ rest) := by
  match body with
  | [] => exact turns
  | s :: more => exact (turns.append more).cons s

end

end Frames

theorem Statement.spliceAll_append (body rest : List Statement) :
    spliceAll (body ++ rest) = spliceAll body ++ spliceAll rest := by
  induction body with
  | nil => rfl
  | cons s body ih => rw [List.cons_append, spliceAll, spliceAll, ih, List.append_assoc]

theorem Statement.areFlat_append {body rest : List Statement} (first : areFlat body = true)
    (second : areFlat rest = true) : areFlat (body ++ rest) = true := by
  induction body with
  | nil => exact second
  | cons s body ih =>
    rw [areFlat, Bool.and_eq_true] at first
    rw [List.cons_append, areFlat, first.1, ih first.2]
    rfl

mutual

theorem Statement.isFlat_splice (s : Statement) : s.splice.isFlat = true := by
  match s with
  | .empty | .expression _ | .ret _ | .throw _ => rfl
  | .ifThen _ consequent => exact isFlat_splice consequent
  | .ifElse _ consequent alternate =>
    rw [splice, isFlat, isFlat_splice consequent, isFlat_splice alternate]
    rfl
  | .block body => exact areFlat_spliceAll body

theorem Statement.areFlat_elements (s : Statement) : areFlat s.elements = true := by
  match s with
  | .empty | .expression _ | .ret _ | .throw _ => rfl
  | .ifThen _ consequent =>
    rw [elements, areFlat, isFlat, isFlat_splice consequent]
    rfl
  | .ifElse _ consequent alternate =>
    rw [elements, areFlat, isFlat, isFlat_splice consequent, isFlat_splice alternate]
    rfl
  | .block body => exact areFlat_spliceAll body

theorem Statement.areFlat_spliceAll (body : List Statement) : areFlat (spliceAll body) = true := by
  match body with
  | [] => rfl
  | s :: rest => exact areFlat_append (areFlat_elements s) (areFlat_spliceAll rest)

end

namespace Statement

variable {s : Statement} {act : Act}

theorem elements_of_act (acts : s.act? = some act) : s.elements = [s.splice] := by
  cases s <;> first | rfl | cases acts

theorem act?_splice (s : Statement) : s.splice.act? = s.act? := by
  cases s <;> rfl

theorem chosen_splice (s : Statement) (truth : Bool) :
    s.splice.chosen truth = (s.chosen truth).map splice := by
  cases s <;> cases truth <;> rfl

theorem chosen_eq (s : Statement) (truth : Bool) :
    s.chosen truth = [] ∨ ∃ branch, s.chosen truth = [branch] := by
  cases s <;> cases truth <;> first | exact .inl rfl | exact .inr ⟨_, rfl⟩

end Statement

namespace Runs

variable {host : Host σ} {f : Frame} {p : Value} {w : World σ} {turns : List (Turn σ)}
  {ending : Ending σ}

theorem of_elements {s : Statement} {rest : List Statement}
    (runs : Runs host f (s.elements ++ rest) p w turns ending) :
    Runs host f (s.splice :: rest) p w turns ending := by
  cases s with
  | block body => exact .block runs
  | _ => exact runs

/-- The turns of a program are those of the one without blocks in its lists. -/
theorem splice {left : List Statement} (runs : Runs host f left p w turns ending) :
    Runs host f (Statement.spliceAll left) p w turns ending := by
  induction runs with
  | done => exact .done
  | empty _ ih => exact .empty ih
  | block _ ih =>
    rw [Statement.spliceAll_append] at ih
    exact ih
  | ends acts ends =>
    rw [Statement.spliceAll, Statement.elements_of_act acts]
    exact .ends ((Statement.act?_splice _).trans acts) ends
  | @goesOn s _ _ _ _ truth _ _ _ _ acts goesOn _ ih =>
    rw [Statement.spliceAll, Statement.elements_of_act acts]
    refine .goesOn ((Statement.act?_splice _).trans acts) goesOn ?_
    rw [Statement.chosen_splice]
    rw [Statement.spliceAll_append] at ih
    obtain none | ⟨branch, one⟩ := s.chosen_eq truth
    · rw [none] at ih ⊢
      exact ih
    · rw [one] at ih ⊢
      rw [Statement.spliceAll, Statement.spliceAll, List.append_nil] at ih
      exact of_elements ih

end Runs

/-- A program without blocks in its lists of statements, which every program has, has the same turns as
the program itself, completes or fails alike and leaves the same world. A turn that ends a program is its
last one at any depth, as is every turn that returns or throws, and a program that completes without a
`return` completes with `undefined`. -/
theorem blocks_are_transparent (host : Host σ) (p : Program) (chain : ScopeChain) (this event : Value) :
    Statement.areFlat p.splice.body = true ∧
    (p.splice.run chain this event : WebBindings.Script σ Value) = p.run chain this event ∧
    ∀ w, ∃ turns ending, outcome host (p.run chain this event).run w = ending ∧
      (∀ turns' ending', Runs host ⟨chain, this⟩ p.body event w turns' ending' ↔
        turns' = turns ∧ ending' = ending) ∧
      (∀ turns' ending', Runs host ⟨chain, this⟩ p.splice.body event w turns' ending' ↔
        turns' = turns ∧ ending' = ending) ∧
      (∀ before t after, turns = before ++ t :: after →
        (t.act.isAbrupt = true → after = []) ∧
        ∀ last, t.consequence host ⟨chain, this⟩ = .ends last → after = [] ∧ ending = last) ∧
      ((∀ t ∈ turns, t.act.isReturn = false) →
        ∀ value w', ending = (.ok value, w') → value = .undefined) := by
  have told (host : Host σ) (q : Program) (w : World σ) : ∃ turns, Runs host ⟨chain, this⟩ q.body event w
      turns (outcome host (q.run chain this event).run w) := by
    obtain ⟨turns, runs⟩ := HaveTurns.append q.body .nil event w
    rw [List.append_nil] at runs
    exact ⟨turns, runs⟩
  refine ⟨Statement.areFlat_spliceAll p.body, ?_, fun w => ?_⟩
  · funext host w
    obtain ⟨turns, runs⟩ := told host p w
    obtain ⟨turns', runs'⟩ := told host p.splice w
    exact (runs.splice.unique runs').2
  · obtain ⟨turns, runs⟩ := told host p w
    refine ⟨turns, _, rfl, fun turns' ending' => ⟨runs.unique, ?_⟩,
      fun turns' ending' => ⟨runs.splice.unique, ?_⟩, fun before t after cut => ⟨fun abrupt => ?_, ?_⟩, ?_⟩
    · rintro ⟨rfl, rfl⟩
      exact runs
    · rintro ⟨rfl, rfl⟩
      exact runs.splice
    · obtain ⟨last, ends⟩ := t.ends_of_isAbrupt host ⟨chain, this⟩ abrupt
      exact (runs.last_of_ends cut ends).1
    · exact fun last ends => runs.last_of_ends cut ends
    · exact fun unreturned value w' completes => runs.undefined_of_unreturned unreturned completes

/-- A `return` that stands in a branch in a block ends the whole body: the `throw` behind the block has no
turn. -/
theorem returned_through_blocks :
    let w : World (List Nat) := World.initial []
    let yes := Expression.constant (.boolean true)
    let one := Expression.constant (.number (.ofNat 1))
    let inner := Statement.ifThen yes (.block [.ret (some one)])
    let p : Program := ⟨[.block [inner], .throw one]⟩
    p.splice = ⟨[inner, .throw one]⟩ ∧
    (p.splice.run ⟨[], ⟨0⟩⟩ .null .null : WebBindings.Script (List Nat) Value) = p.run ⟨[], ⟨0⟩⟩ .null .null ∧
    outcome noting.host (p.run ⟨[], ⟨0⟩⟩ .null .null).run w = (.ok (.number (.ofNat 1)), w) ∧
    ∀ turns ending, Runs noting.host ⟨⟨[], ⟨0⟩⟩, .null⟩ p.splice.body .null w turns ending →
      turns = [⟨.choose yes, .null, w⟩, ⟨.ret (some one), .null, w⟩] := by
  intro w yes one inner p
  have runs : Runs noting.host ⟨⟨[], ⟨0⟩⟩, .null⟩ p.body .null w
      [⟨.choose yes, .null, w⟩, ⟨.ret (some one), .null, w⟩] (.ok (.number (.ofNat 1)), w) :=
    .block (.goesOn rfl rfl (.block (.ends rfl rfl)))
  obtain ⟨-, same, told⟩ := blocks_are_transparent noting.host p ⟨[], ⟨0⟩⟩ .null .null
  obtain ⟨turns, ending, ended, only, spliced, -⟩ := told w
  obtain ⟨rfl, rfl⟩ := (only _ _).1 runs
  exact ⟨rfl, same, ended, fun turns ending runs => ((spliced turns ending).1 runs).1⟩

end WebBindings.Script
