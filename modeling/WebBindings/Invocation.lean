import WebBindings.Node.Event
import WebBindings.Script.Evaluation
/-!
# Calling objects

What each kind of function does, and the host that an embedder becomes when its objects can be
called.
-/

namespace WebBindings

variable {σ : Type}

/-- An iterator over an array, with a hidden `next`. -/
def newArrayIterator (array : ObjectId) : Script σ ObjectId := do
  let iterator ← perform (allocate Heap.newObject)
  let next ← perform (allocate fun h => h.newFunction "next" (.arrayNext array 0))
  modifyHeap fun h => h.define iterator (.ofText "next") (.hidden (.object next))
  return iterator

def newIterationResult (value : Value) (done : Bool) : Script σ Value := do
  let result ← perform (allocate Heap.newObject)
  modifyHeap fun h => (h.set result (.ofText "value") value).2
  modifyHeap fun h => (h.set result (.ofText "done") (.boolean done)).2
  return .object result

/-- Step an array iterator, whose `next` is the function that is called. -/
def stepArrayIterator (next array : ObjectId) (position : Nat) : Script σ Value := do
  let heap ← getHeap
  if position < heap.arrayLength array then
    modifyHeap fun h => h.modify next fun record =>
      { record with behavior := some (.arrayNext array (position + 1)) }
    newIterationResult (heap.get array (.ofIndex position)) false
  else newIterationResult .undefined true

def functionText (name : String) : String :=
  "function " ++ name ++ "() \x7b [native code] \x7d"

namespace Behavior

def run (callee : ObjectId) (receiver : Value) (arguments : List Value) :
    Behavior → Script σ Value
  | .objectToString => do
    let heap ← getHeap
    return .ofText (match receiver.object? with
      | some o => heap.tag o
      | none => "[object Undefined]")
  | .objectValueOf => return receiver
  | .arrayToString => do
    match receiver.object? with
    | some array => return .string (← joinElements array)
    | none => raise .joinOfNonObject
  | .arrayValues => do
    match receiver.object? with
    | some array => return .object (← newArrayIterator array)
    | none => raise .iterationOfNonObject
  | .functionToString => do
    let heap ← getHeap
    return .ofText (functionText (match receiver.object? with
      | some o => (heap.object o).name
      | none => ""))
  | .arrayNext array position => stepArrayIterator callee array position
  | .preventDefault event => do
    modify fun w => if w.isEventLive event then w.cancelEvent event else w
    return .undefined
  | .handler program scope => program.run scope receiver (arguments.head?.getD .undefined)
  | .external index => ExceptT.mk do
    let host ← read
    modifyGet (host.call index receiver arguments)

end Behavior

def callObject (callee : ObjectId) (receiver : Value) (arguments : List Value) :
    Script σ Value := do
  let heap ← getHeap
  match (heap.object callee).behavior with
  | some behavior => behavior.run callee receiver arguments
  | none => raise (.notCallable (heap.tag callee))

namespace Embedder

def invoke (e : Embedder σ) : (depth : Nat) → ObjectId → Value → List Value → World σ →
    Except ScriptError Value × World σ
  | 0, _, _, _, w => (.error (.fault .callDepth), w)
  | depth + 1, callee, receiver, arguments, w =>
    (callObject callee receiver arguments).run.run { e with invoke := e.invoke depth } |>.run w

/-- How deeply calls may be nested. -/
def maxCallDepth : Nat := 2 ^ 32

def host (e : Embedder σ) : Host σ := { e with invoke := e.invoke maxCallDepth }

end Embedder

end WebBindings
