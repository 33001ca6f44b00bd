import WebBindings.Iteration
/-!
# Sequences, frozen arrays and records

Types made of other types: the elements of an iterable, an array of them that cannot change, and the
enumerable properties of an object.
-/

namespace WebBindings

variable {σ : Type}

/-- The converted elements of an iterable. -/
def toSequence {α : Type} (convert : Value → Script σ α) (value : Value) : Script σ (List α) := do
  if value.isObject then
    match ← method? value (.symbol .iterator) with
    | some method =>
      iterate value method [] fun items element => return items ++ [← convert element]
    | none => raise .notIterable
  else raise .noSequence

/-- A frozen array of the converted elements of an iterable. -/
def toFrozenArray (convert : Value → Script σ Value) (value : Value) : Script σ ObjectId := do
  let items ← toSequence convert value
  let array ← perform (allocate fun h => h.newArray items)
  modifyHeap fun h => h.freeze array
  return array

/-- The name of an own property that is enumerable now. -/
def enumerableName? (h : Heap) (o : ObjectId) (key : PropertyKey) : Option DOMString :=
  match key with
  | .symbol _ => none
  | .string name => if (h.own? o key).any Property.enumerable then some name else none

def addProperties {κ α : Type} [DecidableEq κ] (convertKey : Value → Script σ κ)
    (convert : Value → Script σ α) (o : ObjectId) :
    List PropertyKey → OrderedMap κ α → Script σ (OrderedMap κ α)
  | [], record => return record
  | key :: rest, record => do
    match enumerableName? (← getHeap) o key with
    | none => addProperties convertKey convert o rest record
    | some name =>
      let converted ← convertKey (.string name)
      let item ← convert ((← getHeap).get o key)
      addProperties convertKey convert o rest (record.insert converted item)

/-- A record of the enumerable properties that an object has when the conversion begins. -/
def toRecord {κ α : Type} [DecidableEq κ] (convertKey : Value → Script σ κ)
    (convert : Value → Script σ α) (value : Value) : Script σ (OrderedMap κ α) := do
  match value with
  | .object o => addProperties convertKey convert o ((← getHeap).ownKeys o) .empty
  | _ => raise .noRecord

end WebBindings
