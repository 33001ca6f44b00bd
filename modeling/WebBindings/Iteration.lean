import WebBindings.Conversion
/-!
# Iteration

Walking through the elements of an iterable by way of its iterator, which is closed when the walk is
given up early. An iterator may go on for ever, and then so does the walk.
-/

namespace WebBindings

variable {σ : Type}

/-- Take steps until one is done. -/
def World.stepsFrom {α : Type} (host : Host σ) (step : α → Script σ (ForInStep α)) (before : α)
    (w : World σ) : Except ScriptError α × World σ :=
  match ((step before).run.run host).run w with
  | (.ok (.yield after), w') => w' |>.stepsFrom host step after
  | (.ok (.done last), w') => (.ok last, w')
  | (.error error, w') => (.error error, w')
partial_fixpoint

def repeatUntilDone {α : Type} (step : α → Script σ (ForInStep α)) (start : α) : Script σ α :=
  ExceptT.mk do
    let host ← read
    modifyGet fun w => w.stepsFrom host step start

/-- Close an iterator that is not finished. Nothing that happens on the way is raised. -/
def closeIterator (iterator : Value) : Script σ Unit := do
  match ← attempt (method? iterator (.ofText "return")) with
  | .ok (some close) => let _ ← attempt (invoke close iterator [])
  | _ => return

/-- Take one element, unless there are no more. -/
def takeElement {α : Type} (iterator : Value) (next : ObjectId) (each : α → Value → Script σ α)
    (before : α) : Script σ (ForInStep α) := do
  match ← invoke next iterator [] with
  | .object result =>
    let heap ← getHeap
    if (heap.getText result "done").toBoolean then return .done before
    else
      match ← attempt (each before (heap.getText result "value")) with
      | .ok after => return .yield after
      | .error error =>
        closeIterator iterator
        throw error
  | _ => raise .iterationResultNotObject

/-- Combine the elements of an iterable, whose iterator a method gives. -/
def iterate {α : Type} (value : Value) (method : ObjectId) (start : α)
    (each : α → Value → Script σ α) : Script σ α := do
  let iterator ← invoke method value []
  match iterator with
  | .object o =>
    match (← getHeap).getText o "next" with
    | .object next => repeatUntilDone (takeElement iterator next each) start
    | _ => raise .iteratorWithoutNext
  | _ => raise .iteratorNotObject

end WebBindings
