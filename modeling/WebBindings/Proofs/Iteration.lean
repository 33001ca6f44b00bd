import WebBindings.Iteration
import WebBindings.Proofs.Script.Freezing
/-!
# Walks through iterators

What a walk through an iterable asks of its iterator, seen as the calls that it makes, each in the world
that the one before left. The walk visits what it is given in order, and it closes an iterator just when
it gives up while the iterator could go on.
-/

namespace WebBindings

variable {σ α : Type}

/-- The method that closes an iterator, if there is one to call. -/
def World.closer? (w : World σ) (iterator : ObjectId) : Option ObjectId :=
  match w.heap.getText iterator "return" with
  | .object f => if w.heap.isCallable f then some f else none
  | _ => none

/-- A call of a walk, with what was answered and the world afterwards. -/
inductive WalkCall (σ α : Type)
  | next (answer : Except ScriptError Value) (after : World σ)
  | visit (element : Value) (answer : Except ScriptError α) (after : World σ)
  | close (answer : Except ScriptError Value) (after : World σ)

namespace WalkCall

def isDone : WalkCall σ α → Bool
  | next (.ok (.object result)) w => (w.heap.getText result "done").toBoolean
  | _ => false

/-- The value of a result that is not marked as done. -/
def value? : WalkCall σ α → Option Value
  | next (.ok (.object result)) w =>
    if (w.heap.getText result "done").toBoolean then none else some (w.heap.getText result "value")
  | _ => none

def element? : WalkCall σ α → Option Value
  | visit element .. => some element
  | _ => none

def isClose : WalkCall σ α → Bool
  | close .. => true
  | _ => false

/-- Why there is no way on after a call. What happens when an iterator is closed is no reason. -/
def failure? : WalkCall σ α → Option ScriptError
  | next (.error error) _ => some error
  | next (.ok (.object _)) _ => none
  | next (.ok _) _ => some (.fault .iterationResultNotObject)
  | visit _ (.error error) _ => some error
  | _ => none

theorem silent_of_isClose {call : WalkCall σ α} (close : call.isClose = true) :
    call.element? = none ∧ call.value? = none ∧ call.isDone = false ∧ call.failure? = none := by
  cases call with
  | close => exact ⟨rfl, rfl, rfl, rfl⟩
  | next | visit => cases close

theorem fruitless_of_failure? {call : WalkCall σ α} {error : ScriptError}
    (failure : call.failure? = some error) : call.value? = none ∧ call.isDone = false := by
  rw [failure?.eq_def] at failure
  split at failure
  · exact ⟨rfl, rfl⟩
  · cases failure
  · rename_i value w primitive
    cases value with
    | object result => exact (primitive result rfl).elim
    | _ => exact ⟨rfl, rfl⟩
  · exact ⟨rfl, rfl⟩
  · cases failure

/-- What is in front of a request for a result, in calls that begin with a round. -/
theorem front_cases {given answer : Except ScriptError Value} {element : Value}
    {visited : Except ScriptError α} {w₁ w₂ w : World σ} {calls before after : List (WalkCall σ α)}
    (cut : next given w₁ :: visit element visited w₂ :: calls = before ++ next answer w :: after) :
    before = [] ∨ ∃ front, before = next given w₁ :: visit element visited w₂ :: front ∧
      calls = front ++ next answer w :: after := by
  match before with
  | [] => exact .inl rfl
  | [_] =>
    injection cut with _ rest
    cases rest
  | _ :: _ :: front =>
    injection cut with first rest
    injection rest with second rest
    exact .inr ⟨front, by rw [first, second], rest⟩

end WalkCall

section Walk

variable (host : Host σ) (iterator next : ObjectId) (each : α → Value → Script σ α)

/-- Calls in sequence, the first one in a given world with what was combined so far. -/
inductive WalkCalls : α → World σ → List (WalkCall σ α) → α → World σ → Prop
  | nil (a : α) (w : World σ) : WalkCalls a w [] a w
  | next {a b : α} {w w₁ w' : World σ} {answer : Except ScriptError Value} {calls : List (WalkCall σ α)}
      (call : host.invoke next (.object iterator) [] w = (answer, w₁))
      (rest : WalkCalls a w₁ calls b w') : WalkCalls a w (.next answer w₁ :: calls) b w'
  | visit {a b : α} {w w₁ w' : World σ} {element : Value} {answer : Except ScriptError α}
      {calls : List (WalkCall σ α)} (call : outcome host (each a element).run w = (answer, w₁))
      (rest : WalkCalls (answer.toOption.getD a) w₁ calls b w') :
      WalkCalls a w (.visit element answer w₁ :: calls) b w'
  | close {a b : α} {w w₁ w' : World σ} {f : ObjectId} {answer : Except ScriptError Value}
      {calls : List (WalkCall σ α)} (closer : w.closer? iterator = some f)
      (call : host.invoke f (.object iterator) [] w = (answer, w₁))
      (rest : WalkCalls a w₁ calls b w') : WalkCalls a w (.close answer w₁ :: calls) b w'

/-- The iterator gives a value, and it is visited without failing. -/
def WalkRound (a : α) (w : World σ) (b : α) (w' : World σ) : Prop :=
  ∃ result given, host.invoke next (.object iterator) [] w = (.ok (.object result), given) ∧
    (given.heap.getText result "done").toBoolean = false ∧
    outcome host (each a (given.heap.getText result "value")).run given = (.ok b, w')

/-- A number of rounds follow each other. -/
def WalkRounds : Nat → α → World σ → Prop
  | 0, _, _ => True
  | n + 1, a, w => ∃ b w', WalkRound host iterator next each a w b w' ∧ WalkRounds n b w'

end Walk

/-- How the calls of a walk tell its result. -/
structure WalkCloses (iterator : ObjectId) (calls : List (WalkCall σ α)) (result : Except ScriptError α) :
    Prop where
  /-- The values that were given are visited, in order and once each. -/
  inOrder : calls.filterMap WalkCall.element? = calls.filterMap WalkCall.value?
  /-- No result is asked for before all values that were given are visited. -/
  prompt : ∀ before answer w after, calls = before ++ .next answer w :: after →
    before.filterMap WalkCall.element? = before.filterMap WalkCall.value?
  completes : (∃ a, result = .ok a) ↔ ∃ call ∈ calls, call.isDone = true
  fails : ∀ error, result = .error error ↔ ∃ call ∈ calls, call.failure? = some error
  /-- A visit that failed is the reason to close the iterator, once. -/
  closesOnce : ∀ element error w, .visit element (.error error) w ∈ calls →
    calls.countP WalkCall.isClose = if (w.closer? iterator).isSome then 1 else 0
  /-- An iterator that gives no more values is not closed. -/
  leavesAlone : ∀ answer w, .next answer w ∈ calls → (WalkCall.next answer w : WalkCall σ α).value? = none →
    calls.countP WalkCall.isClose = 0

namespace WalkCloses

variable {iterator result : ObjectId} {answer : Except ScriptError Value} {given w : World σ}
  {ending : Except ScriptError α} {calls : List (WalkCall σ α)}

theorem round (closes : WalkCloses iterator calls ending)
    (unfinished : (given.heap.getText result "done").toBoolean = false) (b : α) (w : World σ) :
    WalkCloses iterator (.next (.ok (.object result)) given ::
      .visit (given.heap.getText result "value") (.ok b) w :: calls) ending where
  inOrder := by
    simpa [List.filterMap_cons, WalkCall.element?, WalkCall.value?, unfinished] using closes.inOrder
  prompt := by
    intro before answer w' after cut
    obtain rfl | ⟨front, rfl, later⟩ := WalkCall.front_cases cut
    · rfl
    · have visited := closes.prompt front answer w' after later
      simpa [List.filterMap_cons, WalkCall.element?, WalkCall.value?, unfinished] using visited
  completes := by simpa [WalkCall.isDone, unfinished] using closes.completes
  fails := by simpa [WalkCall.failure?] using closes.fails
  closesOnce := by simpa [WalkCall.isClose] using closes.closesOnce
  leavesAlone := by
    intro answer w' asked stops
    have count : (WalkCall.next (.ok (.object result)) given ::
        .visit (given.heap.getText result "value") (.ok b) w :: calls).countP WalkCall.isClose =
          calls.countP WalkCall.isClose := by simp [WalkCall.isClose]
    rw [count]
    obtain here | later : WalkCall.next answer w' = .next (.ok (.object result)) given ∨
        WalkCall.next answer w' ∈ calls := by simpa using asked
    · rw [here] at stops
      simp [WalkCall.value?, unfinished] at stops
    · exact closes.leavesAlone answer w' later stops

theorem prompt_single (call : WalkCall σ α) (before : List (WalkCall σ α))
    (answer : Except ScriptError Value) (w : World σ) (after : List (WalkCall σ α))
    (cut : [call] = before ++ .next answer w :: after) :
    before.filterMap WalkCall.element? = before.filterMap WalkCall.value? := by
  have places := List.append_eq_singleton_iff.1 cut.symm
  obtain ⟨rfl, -⟩ := places.resolve_right nofun
  rfl

theorem of_done (done : (given.heap.getText result "done").toBoolean = true) (a : α) :
    WalkCloses iterator [.next (.ok (.object result)) given] (.ok a) where
  inOrder := by simp [List.filterMap_cons, WalkCall.element?, WalkCall.value?, done]
  prompt := prompt_single _
  completes := by simp [WalkCall.isDone, done]
  fails := by simp [WalkCall.failure?]
  closesOnce := by simp
  leavesAlone := by simp [WalkCall.isClose]

theorem of_failure {error : ScriptError}
    (failure : (WalkCall.next answer given : WalkCall σ α).failure? = some error) :
    WalkCloses iterator [.next answer given] (.error error : Except ScriptError α) where
  inOrder := by
    simp [List.filterMap_cons, WalkCall.element?, (WalkCall.fruitless_of_failure? failure).1]
  prompt := prompt_single _
  completes := by simp [(WalkCall.fruitless_of_failure? failure).2]
  fails := by simp [failure]
  closesOnce := by simp
  leavesAlone := by simp [WalkCall.isClose]

theorem of_visit (unfinished : (given.heap.getText result "done").toBoolean = false) (error : ScriptError)
    {closing : List (WalkCall σ α)} (closes : ∀ call ∈ closing, call.isClose = true)
    (once : closing.length = if (w.closer? iterator).isSome then 1 else 0) :
    WalkCloses iterator (.next (.ok (.object result)) given ::
      .visit (given.heap.getText result "value") (.error error) w :: closing) (.error error) := by
  have elements : closing.filterMap WalkCall.element? = [] :=
    List.filterMap_eq_nil_iff.2 fun call mem => (WalkCall.silent_of_isClose (closes call mem)).1
  have values : closing.filterMap WalkCall.value? = [] :=
    List.filterMap_eq_nil_iff.2 fun call mem => (WalkCall.silent_of_isClose (closes call mem)).2.1
  have unmarked : ∀ call ∈ closing, call.isDone = false := fun call mem =>
    (WalkCall.silent_of_isClose (closes call mem)).2.2.1
  have harmless : ∀ call ∈ closing, call.failure? = none := fun call mem =>
    (WalkCall.silent_of_isClose (closes call mem)).2.2.2
  have count : closing.countP WalkCall.isClose = closing.length := List.countP_eq_length.2 closes
  constructor
  · simp [List.filterMap_cons, WalkCall.element?, WalkCall.value?, unfinished, elements, values]
  · intro before answer w' after cut
    obtain rfl | ⟨front, -, later⟩ := WalkCall.front_cases cut
    · rfl
    · cases closes (.next answer w') (by simp [later])
  · simpa [WalkCall.isDone, unfinished] using unmarked
  · intro other
    constructor
    · rintro ⟨rfl⟩
      exact ⟨.visit (given.heap.getText result "value") (.error error) w, by simp, rfl⟩
    · rintro ⟨call, mem, failure⟩
      obtain rfl | rfl | later := by simpa using mem
      · cases failure
      · cases failure
        rfl
      · rw [harmless call later] at failure
        cases failure
  · intro element other w' mem
    obtain ⟨-, -, rfl⟩ | later : (element = given.heap.getText result "value" ∧ other = error ∧ w' = w) ∨
        WalkCall.visit element (.error other) w' ∈ closing := by simpa using mem
    · simp [WalkCall.isClose, count, once]
    · cases closes _ later
  · intro answer w' mem stops
    obtain here | later : WalkCall.next answer w' = .next (.ok (.object result)) given ∨
        WalkCall.next answer w' ∈ closing := by simpa using mem
    · rw [here] at stops
      simp [WalkCall.value?, unfinished] at stops
    · cases closes _ later

end WalkCloses

section Steps

variable (host : Host σ)

theorem outcome_attempt {β : Type} (s : Script σ β) (w : World σ) :
    outcome host (attempt s).run w = (.ok (outcome host s.run w).1, (outcome host s.run w).2) := rfl

theorem outcome_invoke (callee : ObjectId) (receiver : Value) (arguments : List Value) (w : World σ) :
    outcome host (invoke callee receiver arguments).run w = host.invoke callee receiver arguments w := rfl

theorem outcome_method?_return (iterator : ObjectId) (w : World σ) :
    ∃ found, outcome host (method? (.object iterator) (.ofText "return")).run w = (found, w) ∧
      found.toOption.join = w.closer? iterator := by
  have looked : outcome host (getHeap : Script σ Heap).run w = (.ok w.heap, w) := rfl
  rw [method?, outcome_run_bind host _ looked, World.closer?, Heap.getText]
  cases w.heap.get iterator (.ofText "return") with
  | object f =>
    simp only [Value.isNullish]
    cases w.heap.isCallable f <;> exact ⟨_, rfl, rfl⟩
  | _ => exact ⟨_, rfl, rfl⟩

/-- Closing an iterator is calling its method, if there is one, whatever it answers. -/
theorem closeIterator_calls (iterator next : ObjectId) (each : α → Value → Script σ α) (a : α)
    (w : World σ) : ∃ calls w', WalkCalls host iterator next each a w calls a w' ∧
      (∀ call ∈ calls, call.isClose = true) ∧
      calls.length = (if (w.closer? iterator).isSome then 1 else 0) ∧
      outcome host (closeIterator (.object iterator)).run w = (.ok ⟨⟩, w') := by
  obtain ⟨found, hmethod, hfound⟩ := outcome_method?_return host iterator w
  have looked : outcome host (attempt (method? (.object iterator) (.ofText "return"))).run w =
      (.ok found, w) := by rw [outcome_attempt, hmethod]
  rw [closeIterator, outcome_run_bind host _ looked, ← hfound]
  match found with
  | .error _ | .ok none => exact ⟨[], w, .nil a w, by simp, rfl, rfl⟩
  | .ok (some f) =>
    cases hcall : host.invoke f (.object iterator) [] w with
    | mk answer w' =>
      refine ⟨[.close answer w'], w', .close hfound.symm hcall (.nil a w'), by simp [WalkCall.isClose], rfl, ?_⟩
      have called : outcome host (attempt (invoke f (.object iterator) [])).run w = (.ok answer, w') := by
        rw [outcome_attempt, outcome_invoke, hcall]
      exact outcome_run_bind host _ called

section Taking

variable (iterator next : ObjectId) (each : α → Value → Script σ α) (a : α) {w given : World σ}

theorem outcome_takeElement_of_result {result : ObjectId}
    (hnext : host.invoke next (.object iterator) [] w = (.ok (.object result), given)) :
    outcome host (takeElement (.object iterator) next each a).run w =
      if (given.heap.getText result "done").toBoolean then (.ok (.done a), given)
      else
        match outcome host (each a (given.heap.getText result "value")).run given with
        | (.ok b, left) => (.ok (.yield b), left)
        | (.error error, left) => (.error error, after host (closeIterator (.object iterator)).run left) := by
  have asked : outcome host (invoke next (.object iterator) []).run w = (.ok (.object result), given) :=
    hnext
  have looked : outcome host (getHeap : Script σ Heap).run given = (.ok given.heap, given) := rfl
  rw [takeElement, outcome_run_bind host _ asked]
  dsimp only
  rw [outcome_run_bind host _ looked]
  split
  · rfl
  · cases hvisit : outcome host (each a (given.heap.getText result "value")).run given with
    | mk answer left =>
      have visited : outcome host (attempt (each a (given.heap.getText result "value"))).run given =
          (.ok answer, left) := by rw [outcome_attempt, hvisit]
      rw [outcome_run_bind host _ visited]
      cases answer with
      | ok b => rfl
      | error error =>
        obtain ⟨-, w', -, -, -, hclose⟩ := closeIterator_calls host iterator next each a left
        have closed : after host (closeIterator (.object iterator)).run left = w' := by rw [after, hclose]
        dsimp only
        rw [outcome_run_bind host _ hclose, closed]
        rfl

theorem outcome_takeElement_of_error {error : ScriptError}
    (hnext : host.invoke next (.object iterator) [] w = (.error error, given)) :
    outcome host (takeElement (.object iterator) next each a).run w = (.error error, given) := by
  have asked : outcome host (invoke next (.object iterator) []).run w = (.error error, given) := hnext
  rw [takeElement, outcome_run_bind_of_error host _ asked]

theorem outcome_takeElement_of_not_object {answer : Value} (primitive : answer.isObject = false)
    (hnext : host.invoke next (.object iterator) [] w = (.ok answer, given)) :
    outcome host (takeElement (.object iterator) next each a).run w =
      (.error (.fault .iterationResultNotObject), given) := by
  have asked : outcome host (invoke next (.object iterator) []).run w = (.ok answer, given) := hnext
  rw [takeElement, outcome_run_bind host _ asked]
  cases answer with
  | object result => cases primitive
  | _ => rfl

/-- Taking an element is a round that the walk goes on after, or it ends the walk. -/
theorem takeElement_cases (w : World σ) :
    (∃ b w', WalkRound host iterator next each a w b w' ∧
      outcome host (takeElement (.object iterator) next each a).run w = (.ok (.yield b), w')) ∨
    ∃ calls ending b w', WalkCalls host iterator next each a w calls b w' ∧
      WalkCloses iterator calls ending ∧ (∀ c, ending = .ok c → c = b) ∧
      outcome host (takeElement (.object iterator) next each a).run w = (ending.map .done, w') := by
  match hnext : host.invoke next (.object iterator) [] w with
  | (.error error, given) =>
    exact .inr ⟨_, .error error, a, given, .next hnext (.nil a given), .of_failure rfl, nofun,
      outcome_takeElement_of_error host iterator next each a hnext⟩
  | (.ok (.object result), given) =>
    have htake := outcome_takeElement_of_result host iterator next each a hnext
    rw [htake]
    cases hdone : (given.heap.getText result "done").toBoolean with
    | true =>
      exact .inr ⟨_, .ok a, a, given, .next hnext (.nil a given), .of_done hdone a, by simp, rfl⟩
    | false =>
      rw [if_neg nofun]
      match hvisit : outcome host (each a (given.heap.getText result "value")).run given with
      | (.ok b, left) => exact .inl ⟨b, left, ⟨result, given, hnext, hdone, hvisit⟩, rfl⟩
      | (.error error, left) =>
        obtain ⟨closing, w', calls, closes, once, hclose⟩ :=
          closeIterator_calls host iterator next each a left
        refine .inr ⟨_, .error error, a, w', .next hnext (.visit hvisit calls),
          .of_visit hdone error closes once, nofun, ?_⟩
        dsimp only [after]
        rw [hclose]
        rfl
  | (.ok .undefined, given) | (.ok .null, given) | (.ok (.boolean _), given) | (.ok (.number _), given)
  | (.ok (.string _), given) | (.ok (.bigInt _), given) | (.ok (.symbol _), given) =>
    exact .inr ⟨_, .error (.fault .iterationResultNotObject), a, given, .next hnext (.nil a given),
      .of_failure rfl, nofun, outcome_takeElement_of_not_object host iterator next each a rfl hnext⟩

end Taking

end Steps

section Runs

variable (host : Host σ)

theorem stepsFrom_takeElement (iterator next : ObjectId) (each : α → Value → Script σ α) {n : Nat} {a : α}
    {w : World σ} (bounded : ¬ WalkRounds host iterator next each n a w) :
    ∃ calls ending b w', WalkCalls host iterator next each a w calls b w' ∧
      WalkCloses iterator calls ending ∧ (∀ c, ending = .ok c → c = b) ∧
      w.stepsFrom host (takeElement (.object iterator) next each) a = (ending, w') := by
  induction n generalizing a w with
  | zero => exact (bounded ⟨⟩).elim
  | succ n ih =>
    rw [World.stepsFrom.eq_1]
    obtain ⟨b, left, round, htake⟩ | ⟨calls, ending, b, w', made, closes, combined, htake⟩ :=
      takeElement_cases host iterator next each a w
    · have fewer : ¬ WalkRounds host iterator next each n b left := fun rounds =>
        bounded ⟨b, left, round, rounds⟩
      obtain ⟨calls, ending, c, w', made, closes, combined, hsteps⟩ := ih fewer
      obtain ⟨result, given, hnext, unfinished, hvisit⟩ := round
      refine ⟨_, ending, c, w', .next hnext (.visit hvisit made), closes.round unfinished b left, combined, ?_⟩
      rw [outcome] at htake
      rw [htake]
      exact hsteps
    · refine ⟨calls, ending, b, w', made, closes, combined, ?_⟩
      rw [outcome] at htake
      rw [htake]
      cases ending <;> rfl

section Opening

variable {value : Value} {method : ObjectId} {w given : World σ} (start : α)
  (each : α → Value → Script σ α)

theorem outcome_iterate_of_error {error : ScriptError}
    (failed : host.invoke method value [] w = (.error error, given)) :
    outcome host (iterate value method start each).run w = (.error error, given) := by
  have asked : outcome host (invoke method value []).run w = (.error error, given) := failed
  rw [iterate, outcome_run_bind_of_error host _ asked]

theorem outcome_iterate_of_not_object {answer : Value} (primitive : answer.isObject = false)
    (answered : host.invoke method value [] w = (.ok answer, given)) :
    outcome host (iterate value method start each).run w =
      (.error (.fault .iteratorNotObject), given) := by
  have asked : outcome host (invoke method value []).run w = (.ok answer, given) := answered
  rw [iterate, outcome_run_bind host _ asked]
  cases answer with
  | object iterator => cases primitive
  | _ => rfl

theorem outcome_iterate_of_object {iterator : ObjectId}
    (opened : host.invoke method value [] w = (.ok (.object iterator), given)) :
    outcome host (iterate value method start each).run w =
      match given.heap.getText iterator "next" with
      | .object next => given.stepsFrom host (takeElement (.object iterator) next each) start
      | _ => (.error (.fault .iteratorWithoutNext), given) := by
  have asked : outcome host (invoke method value []).run w = (.ok (.object iterator), given) := opened
  have looked : outcome host (getHeap : Script σ Heap).run given = (.ok given.heap, given) := rfl
  rw [iterate, outcome_run_bind host _ asked]
  dsimp only
  rw [outcome_run_bind host _ looked]
  cases given.heap.getText iterator "next" <;> rfl

end Opening

/-- A walk whose iterator cannot be had raises an error and makes no further call. In any other one that
does not go round for ever, the values of the results that are not marked as done are visited in order,
each before the next result is asked for. The walk succeeds just when a result is marked as done, with what
was combined by then, and otherwise raises the error of the call that failed. The iterator is closed once if
a visit failed and it can be closed, and its closing never hides this error. It is not closed if it gives no
more values. -/
theorem walks_close_their_iterator (value : Value) (method : ObjectId) (start : α)
    (each : α → Value → Script σ α) (w : World σ) :
    let opened := host.invoke method value [] w
    let walked := outcome host (iterate value method start each).run w
    (∀ error, opened.1 = .error error → walked = (.error error, opened.2)) ∧
      (∀ answer, opened.1 = .ok answer → answer.isObject = false →
        walked = (.error (.fault .iteratorNotObject), opened.2)) ∧
      ∀ iterator, opened.1 = .ok (.object iterator) →
        ((opened.2.heap.getText iterator "next").isObject = false →
          walked = (.error (.fault .iteratorWithoutNext), opened.2)) ∧
        ∀ next, opened.2.heap.getText iterator "next" = .object next →
          (∀ n, WalkRounds host iterator next each n start opened.2) ∨
          ∃ calls last, WalkCalls host iterator next each start opened.2 calls last walked.2 ∧
            WalkCloses iterator calls walked.1 ∧ ∀ a, walked.1 = .ok a → a = last := by
  intro opened walked
  refine ⟨fun error failed => ?_, fun answer answered primitive => ?_, fun iterator found => ?_⟩
  · exact outcome_iterate_of_error host start each (Prod.ext failed rfl)
  · exact outcome_iterate_of_not_object host start each primitive (Prod.ext answered rfl)
  · have hiterate := outcome_iterate_of_object host start each (Prod.ext found rfl)
    refine ⟨fun primitive => hiterate.trans ?_, fun next hnext => ?_⟩
    · cases hnext : opened.2.heap.getText iterator "next" with
      | object next =>
        rw [hnext] at primitive
        cases primitive
      | _ => rfl
    · rw [hnext] at hiterate
      by_cases endless : ∀ n, WalkRounds host iterator next each n start opened.2
      · exact .inl endless
      · obtain ⟨n, bounded⟩ := not_forall.1 endless
        obtain ⟨calls, ending, last, w', made, closes, combined, hsteps⟩ :=
          stepsFrom_takeElement host iterator next each bounded
        have hwalked : walked = (ending, w') := hiterate.trans hsteps
        rw [hwalked]
        exact .inr ⟨calls, last, made, closes, combined⟩

end Runs

/-- An embedder of three functions: one gives an iterator, one always the same result, and one raises an
error when the iterator is to be closed, after it took a note in the iterator. -/
def Embedder.stubborn : Embedder Unit :=
  { Embedder.mute with
    call := fun index receiver _ w =>
      match index with
      | 0 => (.ok (.object ⟨1⟩), w)
      | 1 => (.ok (.object ⟨2⟩), w)
      | _ => (.error (.exception receiver), w.modifyHeap fun h => h.define ⟨1⟩ (.ofText "closed") (.data .null)) }

/-- The function that gives the iterator, the iterator, its result, and its two methods. -/
def stubbornWorld : World Unit :=
  let blank := Object.blank .function none
  { World.initial ⟨⟩ with
    heap := ⟨#[{ blank with behavior := some (.external 0) },
      (blank.define (.ofText "next") (.data (.object ⟨3⟩))).define (.ofText "return") (.data (.object ⟨4⟩)),
      blank.define (.ofText "value") (.data (.boolean true)),
      { blank with behavior := some (.external 1) },
      { blank with behavior := some (.external 2) }]⟩ }

/-- The iterator is closed when the first visit fails, and the error of the visit is raised although
closing raises another one. -/
theorem failed_visit_closes_stubborn_iterator :
    let each (_ : Unit) (v : Value) : Script Unit Unit := throw (.exception v)
    let walked := outcome Embedder.stubborn.host (iterate .null ⟨0⟩ () each).run stubbornWorld
    walked.1 = .error (.exception (.boolean true)) ∧
      walked.2.heap.own? ⟨1⟩ (.ofText "closed") = some (.data .null) ∧
      ∃ calls, WalkCalls Embedder.stubborn.host ⟨1⟩ ⟨3⟩ each () stubbornWorld calls () walked.2 ∧
        WalkCloses ⟨1⟩ calls walked.1 := by
  intro each walked
  have opened : Embedder.stubborn.host.invoke ⟨0⟩ .null [] stubbornWorld =
      (.ok (.object ⟨1⟩), stubbornWorld) := rfl
  have hnext : stubbornWorld.heap.getText ⟨1⟩ "next" = .object ⟨3⟩ := by decide +kernel
  have hwalked : walked = stubbornWorld.stepsFrom Embedder.stubborn.host
      (takeElement (.object ⟨1⟩) ⟨3⟩ each) () := by
    have hiterate := outcome_iterate_of_object Embedder.stubborn.host () each opened
    rwa [hnext] at hiterate
  have refused : ¬ WalkRounds Embedder.stubborn.host ⟨1⟩ ⟨3⟩ each 1 () stubbornWorld := by
    rintro ⟨b, w', ⟨result, given, -, -, hvisit⟩, -⟩
    cases hvisit
  obtain endless | ⟨calls, last, made, closes, -⟩ := ((walks_close_their_iterator Embedder.stubborn.host
    .null ⟨0⟩ () each stubbornWorld).2.2 ⟨1⟩ (congrArg Prod.fst opened)).2 ⟨3⟩ hnext
  · exact (refused (endless 1)).elim
  · refine ⟨?_, ?_, calls, made, closes⟩
    · rw [hwalked, World.stepsFrom.eq_1]
      rfl
    · rw [hwalked, World.stepsFrom.eq_1]
      rfl

end WebBindings
