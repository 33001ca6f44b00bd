import WebBindings.Conversion
/-!
# Objects, symbols and callbacks

Types that take a value as it is, if it is of the right kind.
-/

namespace WebBindings

variable {σ : Type}

def toObject (value : Value) : Script σ ObjectId := do
  match value with
  | .object o => return o
  | other => raise (.notObject ((← getHeap).shown other))

def toSymbol (value : Value) : Script σ Symbol := do
  match value with
  | .symbol s => return s
  | other => raise (.notSymbol ((← getHeap).shown other))

def toCallback (value : Value) : Script σ ObjectId := do
  let heap ← getHeap
  match value with
  | .object o => if heap.isCallable o then return o else raise (.notCallable (heap.tag o))
  | other => raise (.notCallable (heap.shown other))

/-- A callback function or, for nullish values, none. -/
def toNullableCallback (value : Value) : Script σ (Option ObjectId) := do
  if value.isNullish then return none else return some (← toCallback value)

end WebBindings
