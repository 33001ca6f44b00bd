import WebBindings.Idl.Collection
import WebBindings.Proofs.Heap.Arrays
import WebBindings.Proofs.Heap.Growth
import WebBindings.Proofs.Iteration
/-!
# Sequences of elements

Conversions of values one after the other, and the walk through an array by its own iterator, which comes
to such conversions of the array's elements. The iterator counts on nobody else stepping it, and on the
elements staying what they are.
-/

namespace WebBindings

variable {σ α : Type}

/-- Conversions of values, one after the other, until one fails. Between them the world may change in a
way that is given. -/
inductive ConvertsInTurn (host : Host σ) (pause : World σ → World σ → Prop) (convert : Value → Script σ α) :
    List Value → World σ → Except ScriptError (List α) → World σ → Prop
  | nil {w w' : World σ} (idle : pause w w') : ConvertsInTurn host pause convert [] w (.ok []) w'
  | ok {v : Value} {vs : List Value} {a : α} {w w₁ w₂ w' : World σ} {rest : Except ScriptError (List α)}
      (idle : pause w w₁) (converted : outcome host (convert v).run w₁ = (.ok a, w₂))
      (more : ConvertsInTurn host pause convert vs w₂ rest w') :
      ConvertsInTurn host pause convert (v :: vs) w (rest.map (a :: ·)) w'
  | fail {v : Value} {vs : List Value} {error : ScriptError} {w w₁ w' : World σ}
      (idle : pause w w₁) (failed : outcome host (convert v).run w₁ = (.error error, w')) :
      ConvertsInTurn host pause convert (v :: vs) w (.error error) w'

/-- The heap gets new objects, a function is among its objects, and nothing else changes but for what this
function does. -/
structure World.Grows (next : ObjectId) (w w' : World σ) : Prop where
  housed : next.index < w'.heap.objects.size
  rest : w' = { w with heap := w'.heap }
  size : w.heap.objects.size ≤ w'.heap.objects.size
  kept : ∀ p, p.index < w.heap.objects.size → ∃ b,
    w'.heap.object p = { w.heap.object p with behavior := b } ∧ (p ≠ next → b = (w.heap.object p).behavior)

/-- Conversions of values leave alone what an object has as elements, and the function that steps an
iterator, as long as nothing else happens between them than that objects are made and this function is
called. -/
inductive Undisturbed (host : Host σ) (convert : Value → Script σ α) (o next : ObjectId) :
    List Value → World σ → Prop
  | nil (w : World σ) : Undisturbed host convert o next [] w
  | cons {v : Value} {vs : List Value} {w : World σ}
      (kept : ∀ w₁ a w₂, w.Grows next w₁ → outcome host (convert v).run w₁ = (.ok a, w₂) →
        w₁.heap.Evolves w₂.heap ∧ w₂.heap.elements o = w₁.heap.elements o ∧
          (w₂.heap.object next).behavior = (w₁.heap.object next).behavior)
      (more : ∀ w₁ a w₂, w.Grows next w₁ → outcome host (convert v).run w₁ = (.ok a, w₂) →
        Undisturbed host convert o next vs w₂) : Undisturbed host convert o next (v :: vs) w

variable {host : Host σ} {convert : Value → Script σ α} {o next : ObjectId} {w w₁ w₂ w' : World σ}
  {vs : List Value}

theorem World.Grows.trans (first : w.Grows next w₁) (second : w₁.Grows next w₂) : w.Grows next w₂ where
  housed := second.housed
  rest := by rw [second.rest, first.rest]
  size := Nat.le_trans first.size second.size
  kept p housed := by
    obtain ⟨b, made, others⟩ := first.kept p housed
    obtain ⟨b', made', others'⟩ := second.kept p (Nat.lt_of_lt_of_le housed first.size)
    rw [made] at made' others'
    exact ⟨b', made', fun other => (others' other).trans (others other)⟩

theorem ConvertsInTurn.before {result : Except ScriptError (List α)} (first : w.Grows next w₁)
    (converts : ConvertsInTurn host (World.Grows next) convert vs w₁ result w') :
    ConvertsInTurn host (World.Grows next) convert vs w result w' := by
  cases converts with
  | nil idle => exact .nil (first.trans idle)
  | ok idle converted more => exact .ok (first.trans idle) converted more
  | fail idle failed => exact .fail (first.trans idle) failed

theorem Undisturbed.after (undisturbed : Undisturbed host convert o next vs w) (first : w.Grows next w₁) :
    Undisturbed host convert o next vs w₁ := by
  cases undisturbed with
  | nil => exact .nil w₁
  | cons kept more =>
    exact .cons (fun w₂ a w₃ idle => kept w₂ a w₃ (first.trans idle)) fun w₂ a w₃ idle =>
      more w₂ a w₃ (first.trans idle)

theorem World.Grows.evolves (grows : w.Grows next w₁) : w.heap.Evolves w₁.heap where
  size := grows.size
  prototype p housed := by
    obtain ⟨b, made, -⟩ := grows.kept p housed
    rw [made]

/-- Conversions disturb nothing if the objects that they change are others than the one that is read from,
those that it inherits from, and the function that steps the iterator. -/
theorem Undisturbed.of_changes {w₀ : World σ} (houses : w₀.heap.Houses o)
    (spared : ∀ v ∈ vs, ∀ w₁ a w₂, w₀.heap.Evolves w₁.heap → outcome host (convert v).run w₁ = (.ok a, w₂) →
      ∃ cs, w₂.heap = w₁.heap.changes cs ∧
        ∀ c ∈ cs, ∀ p, c.target? = some p → ¬ w₀.heap.Inherits o p ∧ p ≠ next)
    (later : w₀.heap.Evolves w.heap) : Undisturbed host convert o next vs w := by
  induction vs generalizing w with
  | nil => exact .nil w
  | cons v vs ih =>
    rw [List.forall_mem_cons] at spared
    refine .cons (fun w₁ a w₂ grows converted => ?_) fun w₁ a w₂ grows converted => ih spared.2 ?_
    · have later₁ := later.trans grows.evolves
      obtain ⟨cs, changed, others⟩ := spared.1 w₁ a w₂ later₁ converted
      have still (p : ObjectId) (inherits : w₁.heap.Inherits o p) :
          (w₁.heap.changes cs).object p = w₁.heap.object p := by
        have inherits₀ := (later₁.inherits_iff houses).1 inherits
        exact Heap.object_changes_of_ne_target (later₁.houses houses p inherits)
          fun c mem same => (others c mem p same).1 inherits₀
      have steps : (w₁.heap.changes cs).object next = w₁.heap.object next :=
        Heap.object_changes_of_ne_target grows.housed fun c mem same => (others c mem next same).2 rfl
      have evolves := w₁.heap.evolves_changes cs
      rw [changed, steps]
      refine ⟨evolves, evolves.elements_eq (later₁.houses houses) fun p inherits => ?_, rfl⟩
      rw [still p inherits]
    · have later₁ := later.trans grows.evolves
      obtain ⟨cs, changed, -⟩ := spared.1 w₁ a w₂ later₁ converted
      rw [changed]
      exact later₁.trans (w₁.heap.evolves_changes cs)

theorem ConvertsInTurn.eq_ok_map {pause : World σ → World σ → Prop} {f : Value → α}
    {result : Except ScriptError (List α)}
    (still : ∀ v ∈ vs, ∀ w, outcome host (convert v).run w = (.ok (f v), w))
    (converts : ConvertsInTurn host pause convert vs w result w') : result = .ok (vs.map f) := by
  induction converts with
  | nil => rfl
  | ok idle converted more ih =>
    rw [List.forall_mem_cons] at still
    obtain ⟨answer, -⟩ := Prod.mk.inj ((still.1 _).symm.trans converted)
    cases answer
    rw [ih still.2]
    rfl
  | fail idle failed =>
    rw [List.forall_mem_cons] at still
    obtain ⟨answer, -⟩ := Prod.mk.inj ((still.1 _).symm.trans failed)
    cases answer

theorem Embedder.invoke_of_behavior (e : Embedder σ) (depth : Nat) {callee : ObjectId} {b : Behavior}
    (behavior : (w.heap.object callee).behavior = some b) (receiver : Value) (arguments : List Value) :
    e.invoke (depth + 1) callee receiver arguments w =
      outcome { e with invoke := e.invoke depth } (b.run callee receiver arguments).run w := by
  change outcome { e with invoke := e.invoke depth } (callObject callee receiver arguments).run w = _
  rw [callObject, outcome_run_bind _ _ (outcome_getHeap _ w), behavior]

/-- The record of an iteration result. -/
def resultRecord (value : Value) (done : Bool) : Object :=
  ((Object.blank .ordinary (some Heap.objectPrototype)).define (.ofText "value") (.data value)).define
    (.ofText "done") (.data (.boolean done))

theorem outcome_newIterationResult (host : Host σ) (value : Value) (done : Bool) (w : World σ) :
    outcome host (newIterationResult value done).run w =
      (.ok (.object ⟨w.heap.objects.size⟩),
        w.modifyHeap fun h => (h.alloc (resultRecord value done)).2) := by
  have first : (Object.blank .ordinary (some Heap.objectPrototype)).assign? (.ofText "value") value =
      some ((Object.blank .ordinary (some Heap.objectPrototype)).define (.ofText "value") (.data value)) := rfl
  have second : ((Object.blank .ordinary (some Heap.objectPrototype)).define (.ofText "value")
      (.data value)).assign? (.ofText "done") (.boolean done) = some (resultRecord value done) := rfl
  have made : (((w.heap.newObject.2.set w.heap.newObject.1 (.ofText "value") value).2.set w.heap.newObject.1
      (.ofText "done") (.boolean done)).2) = (w.heap.alloc (resultRecord value done)).2 := by
    rw [Heap.newObject, w.heap.set_alloc first]
    exact w.heap.set_alloc second
  exact Prod.ext rfl (congrArg (fun heap => { w with heap }) made)

theorem getText_of_resultRecord {h : Heap} {result : ObjectId} {value : Value} {done : Bool}
    (record : h.object result = resultRecord value done) :
    h.getText result "done" = .boolean done ∧ h.getText result "value" = value := by
  have apart : PropertyKey.ofText "value" ≠ .ofText "done" := by decide
  have own (key : PropertyKey) : h.own? result key = (resultRecord value done).properties.get? key := by
    rw [Heap.own?, record]
  constructor
  · have found : h.own? result (.ofText "done") = some (.data (.boolean done)) := by
      rw [own]
      exact OrderedMap.get?_insert_self _ _ _
    exact Heap.get_eq_of_finds ⟨0, .own found⟩
  · have found : h.own? result (.ofText "value") = some (.data value) := by
      rw [own]
      exact (OrderedMap.get?_insert_of_ne _ _ apart).trans (OrderedMap.get?_insert_self _ _ _)
    exact Heap.get_eq_of_finds ⟨0, .own found⟩

/-- An array is in the heap with all that it inherits from, and a function is about to give the element at
a position. -/
structure World.StandsAt (w : World σ) (next o : ObjectId) (position : Nat) : Prop where
  behavior : (w.heap.object next).behavior = some (.arrayNext o position)
  houses : w.heap.Houses o

theorem World.StandsAt.housed {position : Nat} (stands : w.StandsAt next o position) :
    next.index < w.heap.objects.size := by
  by_contra absent
  have behavior := stands.behavior
  rw [Heap.object, Array.getElem?_eq_none (Nat.le_of_not_lt absent)] at behavior
  cases behavior

theorem World.Grows.of_changes (cs : List Heap.Change)
    (housed : next.index < (w.heap.changes cs).objects.size)
    (spared : ∀ p, p.index < w.heap.objects.size → ∃ b,
      cs.foldl (Heap.Change.on p) (w.heap.object p) = { w.heap.object p with behavior := b } ∧
        (p ≠ next → b = (w.heap.object p).behavior)) :
    w.Grows next (w.modifyHeap fun h => h.changes cs) where
  housed := housed
  rest := rfl
  size := (w.heap.evolves_changes cs).size
  kept p housed := by
    obtain ⟨b, made, others⟩ := spared p housed
    exact ⟨b, (Heap.object_changes housed cs).trans made, others⟩

section Steps

variable {position : Nat} (e : Embedder σ) (depth : Nat) (receiver : Value)

theorem invoke_next_of_lt (stands : w.StandsAt next o position) (below : position < w.heap.arrayLength o) :
    ∃ result given, e.invoke (depth + 1) next receiver [] w = (.ok (.object result), given) ∧
      w.Grows next given ∧ given.StandsAt next o (position + 1) ∧
      given.heap.elements o = w.heap.elements o ∧ given.heap.getText result "done" = .boolean false ∧
      given.heap.getText result "value" = w.heap.get o (.ofIndex position) := by
  let value := w.heap.get o (.ofIndex position)
  let cs : List Heap.Change :=
    [.behave next (.arrayNext o (position + 1)), .alloc (resultRecord value false)]
  have evolves : w.heap.Evolves (w.heap.changes cs) := w.heap.evolves_changes cs
  have objects (p : ObjectId) (housed : p.index < w.heap.objects.size) : (w.heap.changes cs).object p =
      if next = p then { w.heap.object p with behavior := some (.arrayNext o (position + 1)) }
      else w.heap.object p := Heap.object_changes housed cs
  have kept (p : ObjectId) (inherits : w.heap.Inherits o p) :
      ((w.heap.changes cs).object p).properties = (w.heap.object p).properties := by
    rw [objects p (stands.houses p inherits)]
    split <;> rfl
  have size : (w.heap.change (.behave next (.arrayNext o (position + 1)))).objects.size =
      w.heap.objects.size := Array.size_modify
  refine ⟨⟨w.heap.objects.size⟩, w.modifyHeap fun h => h.changes cs, ?_,
    .of_changes cs (Nat.lt_of_lt_of_le stands.housed evolves.size) fun p _ => ?_,
    ⟨?_, evolves.houses stands.houses⟩, evolves.elements_eq stands.houses kept, ?_⟩
  · let step (h : Heap) : Heap := h.change (.behave next (.arrayNext o (position + 1)))
    have stepped (host : Host σ) :
        outcome host (modifyHeap step).run w = (.ok ⟨⟩, w.modifyHeap step) := rfl
    rw [e.invoke_of_behavior depth stands.behavior, Behavior.run, stepArrayIterator,
      outcome_run_bind _ _ (outcome_getHeap _ w), if_pos below]
    refine (outcome_run_bind _ _ (stepped _)).trans ?_
    rw [outcome_newIterationResult]
    exact Prod.ext (congrArg (fun n => Except.ok (Value.object ⟨n⟩)) size) rfl
  · by_cases here : next = p
    · exact ⟨_, if_pos here, fun other => absurd here.symm other⟩
    · exact ⟨_, if_neg here, fun _ => rfl⟩
  · exact congrArg Object.behavior ((objects next stands.housed).trans (if_pos rfl))
  · have made := (w.heap.change (.behave next (.arrayNext o (position + 1)))).object_alloc_self
      (resultRecord value false)
    rw [Heap.alloc, size] at made
    exact getText_of_resultRecord made

theorem invoke_next_of_ge (stands : w.StandsAt next o position) (beyond : w.heap.arrayLength o ≤ position) :
    ∃ result given, e.invoke (depth + 1) next receiver [] w = (.ok (.object result), given) ∧
      w.Grows next given ∧ given.heap.getText result "done" = .boolean true := by
  let cs : List Heap.Change := [.alloc (resultRecord .undefined true)]
  have evolves : w.heap.Evolves (w.heap.changes cs) := w.heap.evolves_changes cs
  refine ⟨⟨w.heap.objects.size⟩, w.modifyHeap fun h => h.changes cs, ?_,
    .of_changes cs (Nat.lt_of_lt_of_le stands.housed evolves.size) fun _ _ => ⟨_, rfl, fun _ => rfl⟩, ?_⟩
  · rw [e.invoke_of_behavior depth stands.behavior, Behavior.run, stepArrayIterator,
      outcome_run_bind _ _ (outcome_getHeap _ w), if_neg (Nat.not_lt.2 beyond)]
    exact outcome_newIterationResult _ .undefined true w
  · exact (getText_of_resultRecord (w.heap.object_alloc_self (resultRecord .undefined true))).1

theorem invoke_values {f : ObjectId} (behavior : (w.heap.object f).behavior = some .arrayValues)
    (houses : w.heap.Houses o) :
    let next : ObjectId := ⟨w.heap.objects.size + 1⟩
    ∃ iterator given, e.invoke (depth + 1) f (.object o) [] w = (.ok (.object iterator), given) ∧
      given.heap.getText iterator "next" = .object next ∧ w.Grows next given ∧
      given.StandsAt next o 0 ∧ given.heap.elements o = w.heap.elements o := by
  intro next
  let iterator : ObjectId := ⟨w.heap.objects.size⟩
  let plain : Object := .blank .ordinary (some Heap.objectPrototype)
  let stepper : Object := (Object.function "next" (.arrayNext o 0) Heap.functionPrototype).define
    (.ofText "name") (.hidden (.ofText "next"))
  let link : Heap.Change := .define iterator (.ofText "next") (.hidden (.object next))
  let cs : List Heap.Change := [.alloc plain, .alloc stepper, link]
  have size : (w.heap.objects.push plain).size = w.heap.objects.size + 1 := Array.size_push plain
  have evolves : w.heap.Evolves (w.heap.changes cs) := w.heap.evolves_changes cs
  have spared (p : ObjectId) (housed : p.index < w.heap.objects.size) :
      cs.foldl (Heap.Change.on p) (w.heap.object p) = w.heap.object p := by
    refine if_neg ?_
    rintro rfl
    exact Nat.lt_irrefl _ housed
  have kept (p : ObjectId) (inherits : w.heap.Inherits o p) :
      ((w.heap.changes cs).object p).properties = (w.heap.object p).properties := by
    have housed := houses p inherits
    rw [Heap.object_changes housed, spared p housed]
  have standing : (w.modifyHeap fun h => h.changes cs).StandsAt next o 0 := by
    have made := (w.heap.alloc plain).2.object_changes_alloc stepper [link]
    have place : ((w.heap.alloc plain).2.alloc stepper).1 = next := congrArg ObjectId.mk size
    rw [place] at made
    refine ⟨congrArg Object.behavior (made.trans (if_neg fun same => ?_)), evolves.houses houses⟩
    exact Nat.ne_of_lt (Nat.lt_succ_self _) (congrArg ObjectId.index same)
  refine ⟨iterator, w.modifyHeap fun h => h.changes cs, ?_, ?_,
    .of_changes cs standing.housed fun p housed => ⟨_, spared p housed, fun _ => rfl⟩, standing,
    evolves.elements_eq houses kept⟩
  · have made : outcome { e with invoke := e.invoke depth } (newArrayIterator o).run w =
        (.ok iterator, w.modifyHeap fun h => h.changes [.alloc plain, .alloc stepper,
          .define iterator (.ofText "next") (.hidden (.object ⟨(w.heap.objects.push plain).size⟩))]) := rfl
    rw [size] at made
    rw [e.invoke_of_behavior depth behavior, Behavior.run]
    exact outcome_run_bind _ _ made
  · have made : (w.heap.changes cs).object iterator =
        plain.define (.ofText "next") (.hidden (.object next)) :=
      (w.heap.object_changes_alloc plain [.alloc stepper, link]).trans (if_pos rfl)
    have found : (w.heap.changes cs).own? iterator (.ofText "next") = some (.hidden (.object next)) := by
      rw [Heap.own?, made]
      exact OrderedMap.get?_insert_self _ _ _
    exact Heap.get_eq_of_finds ⟨0, .own found⟩

end Steps

theorem stepsFrom_of_outcome {β : Type} {step : β → Script σ (ForInStep β)} {a : β}
    {answer : Except ScriptError (ForInStep β)} (taken : outcome host (step a).run w = (answer, w₁)) :
    w.stepsFrom host step a =
      match answer with
      | .ok (.yield b) => w₁.stepsFrom host step b
      | .ok (.done b) => (.ok b, w₁)
      | .error error => (.error error, w₁) := by
  rw [outcome] at taken
  rw [World.stepsFrom.eq_1, taken]
  cases answer with
  | ok step => cases step <;> rfl
  | error error => rfl

/-- A walk by an array iterator converts the elements that are left in turn. -/
theorem stepsFrom_elements (e : Embedder σ) (depth : Nat) (iterator : ObjectId)
    (convert : Value → Script σ α) {position : Nat} (items : List α) (stands : w.StandsAt next o position)
    (left : (w.heap.elements o).drop position = vs)
    (undisturbed : Undisturbed { e with invoke := e.invoke (depth + 1) } convert o next vs w) :
    let host : Host σ := { e with invoke := e.invoke (depth + 1) }
    let each (items : List α) (v : Value) : Script σ (List α) := do return items ++ [← convert v]
    let walked := w.stepsFrom host (takeElement (.object iterator) next each) items
    ∃ result w', ConvertsInTurn host (World.Grows next) convert vs w result w' ∧
      walked.1 = result.map (items ++ ·) ∧ ∀ as, result = .ok as → walked.2 = w' := by
  intro host each walked
  have visit (items : List α) (v : Value) (w : World σ) : outcome host (each items v).run w =
      ((outcome host (convert v).run w).1.map fun a => items ++ [a], (outcome host (convert v).run w).2) := by
    cases converted : outcome host (convert v).run w with
    | mk answer after =>
      cases answer with
      | ok a => exact outcome_run_bind host _ converted
      | error error => exact outcome_run_bind_of_error host _ converted
  induction vs generalizing w position items with
  | nil =>
    have beyond : w.heap.arrayLength o ≤ position := by
      have short := List.drop_eq_nil_iff.1 left
      rwa [Heap.elements, List.length_map, List.length_range] at short
    obtain ⟨result, given, hnext, grows, done⟩ :=
      invoke_next_of_ge e depth (.object iterator) stands beyond
    have taken := outcome_takeElement_of_result host iterator next each items hnext
    rw [done] at taken
    have hwalked : walked = (.ok items, given) := stepsFrom_of_outcome taken
    rw [hwalked]
    exact ⟨.ok [], given, .nil grows, congrArg Except.ok (List.append_nil items).symm, fun _ _ => rfl⟩
  | cons v vs ih =>
    have here : (w.heap.elements o)[position]? = some v := by
      rw [← List.head?_drop, left, List.head?_cons]
    rw [Heap.getElem?_elements, Option.ite_none_right_eq_some, Option.some.injEq] at here
    obtain ⟨below, rfl⟩ := here
    obtain ⟨result, given, hnext, grows, stands', same, done, value⟩ :=
      invoke_next_of_lt e depth (.object iterator) stands below
    have taken := outcome_takeElement_of_result host iterator next each items hnext
    rw [done, value, visit] at taken
    obtain ⟨converted, w₂, hconvert⟩ : ∃ converted w₂,
        outcome host (convert (w.heap.get o (.ofIndex position))).run given = (converted, w₂) := ⟨_, _, rfl⟩
    rw [hconvert] at taken
    cases converted with
    | error error =>
      have hwalked : walked = (.error error, _) := stepsFrom_of_outcome taken
      rw [hwalked]
      exact ⟨.error error, w₂, .fail grows hconvert, rfl, fun _ succeeded => by cases succeeded⟩
    | ok a =>
      have hwalked : walked = w₂.stepsFrom host _ (items ++ [a]) := stepsFrom_of_outcome taken
      obtain _ | ⟨kept, more⟩ := undisturbed
      obtain ⟨evolves, unchanged, behavior⟩ := kept given a w₂ grows hconvert
      have onward : w₂.StandsAt next o (position + 1) :=
        ⟨behavior.trans stands'.behavior, evolves.houses stands'.houses⟩
      have left' : (w₂.heap.elements o).drop (position + 1) = vs := by
        rw [unchanged, same, ← List.tail_drop, left, List.tail_cons]
      obtain ⟨rest, w', converts, answer, last⟩ :=
        ih (items ++ [a]) onward left' (more given a w₂ grows hconvert)
      rw [hwalked]
      refine ⟨rest.map (a :: ·), w', .ok grows hconvert converts, ?_, ?_⟩
      · rw [answer]
        cases rest with
        | ok as => exact congrArg Except.ok (List.append_assoc items [a] as)
        | error error => rfl
      · intro as succeeded
        cases rest with
        | ok bs => exact last bs rfl
        | error error => cases succeeded

theorem toSequence_converts (e : Embedder σ) (depth : Nat) (convert : Value → Script σ α) {f : ObjectId}
    (method : w.heap.get o (.symbol .iterator) = .object f)
    (behavior : (w.heap.object f).behavior = some .arrayValues) (houses : w.heap.Houses o) :
    let host : Host σ := { e with invoke := e.invoke (depth + 1) }
    let next : ObjectId := ⟨w.heap.objects.size + 1⟩
    let answered := outcome host (toSequence convert (.object o)).run w
    Undisturbed host convert o next (w.heap.elements o) w →
      ∃ w', ConvertsInTurn host (World.Grows next) convert (w.heap.elements o) w answered.1 w' ∧
        ∀ as, answered.1 = .ok as → answered.2 = w' := by
  intro host next answered undisturbed
  obtain ⟨iterator, given, opened, hnext, grows, stands, same⟩ := invoke_values e depth behavior houses
  have found : outcome host (method? (.object o) (.symbol .iterator)).run w = (.ok (some f), w) := by
    have callable : w.heap.isCallable f = true := by rw [Heap.isCallable, behavior]; rfl
    rw [method?, outcome_run_bind host _ (outcome_getHeap host w), method]
    simp only [Value.isNullish, callable]
    rfl
  let each (items : List α) (v : Value) : Script σ (List α) := do return items ++ [← convert v]
  have walked : answered = given.stepsFrom host (takeElement (.object iterator) next each) [] := by
    have iterated := outcome_iterate_of_object host [] each opened
    rw [hnext] at iterated
    exact (outcome_run_bind host _ found).trans iterated
  obtain ⟨result, w', converts, answer, last⟩ := stepsFrom_elements e depth iterator convert [] stands
    (by rw [same, List.drop_zero]) (undisturbed.after grows)
  have hresult : answered.1 = result := by
    rw [walked, answer]
    cases result <;> rfl
  rw [hresult, walked]
  exact ⟨w', converts.before grows, last⟩

end WebBindings
