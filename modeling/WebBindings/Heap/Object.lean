import WebBindings.Identity
import WebBindings.OrderedMap
import WebBindings.Script.Program
import WebBindings.Text.Quoted
import WebBindings.Number.Printed
/-!
# Objects

The heap of script objects: own properties in order, a prototype, and for functions what a call
does. Reading follows the prototypes; writing only ever touches own properties.
-/

namespace WebBindings

structure Property where
  value : Value
  writable : Bool
  enumerable : Bool
deriving DecidableEq

namespace Property

/-- A property that scripts may write and enumerate. -/
def data (value : Value) : Property := ⟨value, true, true⟩

/-- A property that is left out of enumerations. -/
def hidden (value : Value) : Property := ⟨value, true, false⟩

end Property

inductive ObjectClass
  | ordinary
  | array
  | function
deriving DecidableEq

namespace ObjectClass

def name : ObjectClass → String
  | .ordinary => "ordinary"
  | .array => "array"
  | .function => "function"

/-- The tag that `Object.prototype.toString` shows. -/
def tag : ObjectClass → String
  | .ordinary => "[object Object]"
  | .array => "[object Array]"
  | .function => "[object Function]"

end ObjectClass

inductive Behavior
  | objectToString
  | objectValueOf
  | arrayToString
  | arrayValues
  | functionToString
  /-- The `next` method of an array iterator, which stands before an element. -/
  | arrayNext (array : ObjectId) (position : Nat)
  | preventDefault (event : EventId)
  | handler (program : Script.Program) (scope : Script.ScopeChain)
  | external (index : Nat)

structure Object where
  kind : ObjectClass
  name : String
  properties : OrderedMap PropertyKey Property
  prototype : Option ObjectId
  extensible : Bool
  behavior : Option Behavior

namespace Object

def blank (kind : ObjectClass) (prototype : Option ObjectId) : Object :=
  ⟨kind, "", .empty, prototype, true, none⟩

instance : Inhabited Object := ⟨blank .ordinary none⟩

def function (name : String) (behavior : Behavior) (prototype : ObjectId) : Object :=
  { blank .function (some prototype) with name := name, behavior := some behavior }

def define (o : Object) (key : PropertyKey) (p : Property) : Object :=
  { o with properties := o.properties.insert key p }

/-- An assignment, unless it is refused: read-only properties keep their value, and an object that
is not extensible gets no new ones. -/
def assign? (o : Object) (key : PropertyKey) (v : Value) : Option Object :=
  match o.properties.get? key with
  | some p => if p.writable then some (o.define key { p with value := v }) else none
  | none => if o.extensible then some (o.define key (.data v)) else none

def freeze (o : Object) : Object :=
  { o with extensible := false
           properties := o.properties.mapValues fun p => { p with writable := false } }

def isFrozen (o : Object) : Bool := !o.extensible && o.properties.values.all fun p => !p.writable

def ownKeys (o : Object) : List PropertyKey := PropertyKey.enumerationOrder o.properties.keys

def shown (o : Object) : String :=
  match o.kind with
  | .function => "[Function: " ++ o.name ++ "]"
  | .array => "[Array(" ++ toString (o.properties.size - 1) ++ ")]"
  | .ordinary => "[Object; " ++ toString o.properties.size ++ " props]"

end Object

/-- All objects ever made. -/
structure Heap where
  objects : Array Object

namespace Heap

def object (h : Heap) (o : ObjectId) : Object := h.objects[o.index]?.getD default

def modify (h : Heap) (o : ObjectId) (f : Object → Object) : Heap :=
  ⟨h.objects.modify o.index f⟩

def alloc (h : Heap) (record : Object) : ObjectId × Heap :=
  (⟨h.objects.size⟩, ⟨h.objects.push record⟩)

/-- An object and its prototypes, nearest first. A prototype is older than the objects made from it,
so the number of objects bounds the chain. -/
def lineage (h : Heap) (o : ObjectId) : List ObjectId :=
  go h.objects.size o
where
  go : Nat → ObjectId → List ObjectId
    | 0, _ => []
    | n + 1, o =>
      match (h.object o).prototype with
      | none => [o]
      | some p => o :: go n p

def own? (h : Heap) (o : ObjectId) (key : PropertyKey) : Option Property :=
  (h.object o).properties.get? key

def has (h : Heap) (o : ObjectId) (key : PropertyKey) : Bool :=
  (h.lineage o).any fun p => (h.own? p key).isSome

/-- The value of the nearest property in the lineage, `undefined` without one. -/
def get (h : Heap) (o : ObjectId) (key : PropertyKey) : Value :=
  match (h.lineage o).findSome? fun p => h.own? p key with
  | some p => p.value
  | none => .undefined

def getText (h : Heap) (o : ObjectId) (name : String) : Value := h.get o (.ofText name)

/-- Give an own property, whatever was there before. -/
def define (h : Heap) (o : ObjectId) (key : PropertyKey) (p : Property) : Heap :=
  h.modify o fun record => record.define key p

/-- Assign to an own property; the flag tells whether the write was accepted. -/
def set (h : Heap) (o : ObjectId) (key : PropertyKey) (v : Value) : Bool × Heap :=
  match (h.object o).assign? key v with
  | some record => (true, h.modify o fun _ => record)
  | none => (false, h)

def freeze (h : Heap) (o : ObjectId) : Heap := h.modify o Object.freeze

def ownKeys (h : Heap) (o : ObjectId) : List PropertyKey := (h.object o).ownKeys

def isCallable (h : Heap) (o : ObjectId) : Bool := (h.object o).behavior.isSome

def tag (h : Heap) (o : ObjectId) : String := (h.object o).kind.tag

def objectPrototype : ObjectId := ⟨0⟩
def functionPrototype : ObjectId := ⟨1⟩
def arrayPrototype : ObjectId := ⟨2⟩
def objectToString : ObjectId := ⟨3⟩
def objectValueOf : ObjectId := ⟨4⟩
def arrayToString : ObjectId := ⟨5⟩
def arrayValues : ObjectId := ⟨6⟩
def functionToString : ObjectId := ⟨7⟩

def intrinsics : List (String × ObjectId) :=
  [("%Object.prototype%", objectPrototype), ("%Array.prototype%", arrayPrototype),
    ("%Function.prototype%", functionPrototype), ("%Object.prototype.toString%", objectToString),
    ("%Object.prototype.valueOf%", objectValueOf), ("%Array.prototype.toString%", arrayToString),
    ("%Array.prototype.@@iterator%", arrayValues),
    ("%Function.prototype.toString%", functionToString)]

/-- The heap that scripts start with: the three prototypes and their methods. -/
def initial : Heap :=
  let method (o : ObjectId) := Property.hidden (.object o)
  let make (name : String) (behavior : Behavior) := Object.function name behavior functionPrototype
  { objects := #[
      (((Object.blank .ordinary none).define (.ofText "toString") (method objectToString)).define
        (.ofText "valueOf") (method objectValueOf)),
      ((Object.blank .ordinary (some objectPrototype)).define
        (.ofText "toString") (method functionToString)),
      (((Object.blank .array (some objectPrototype)).define
        (.ofText "toString") (method arrayToString)).define
        (.symbol .iterator) (method arrayValues)),
      make "toString" .objectToString,
      make "valueOf" .objectValueOf,
      make "toString" .arrayToString,
      make "[Symbol.iterator]" .arrayValues,
      make "toString" .functionToString] }

def newObject (h : Heap) : ObjectId × Heap := h.alloc (.blank .ordinary (some objectPrototype))

/-- An object that inherits nothing. -/
def newOrphan (h : Heap) : ObjectId × Heap := h.alloc (.blank .ordinary none)

/-- An array of elements with a hidden `length`. -/
def newArray (h : Heap) (elements : List Value) : ObjectId × Heap :=
  let filled := elements.zipIdx.foldl (fun record e => record.define (.ofIndex e.2) (.data e.1))
    (Object.blank .array (some arrayPrototype))
  h.alloc (filled.define (.ofText "length") (.hidden (.ofInt elements.length)))

/-- A function with a hidden `name`. -/
def newFunction (h : Heap) (name : String) (behavior : Behavior) : ObjectId × Heap :=
  h.alloc ((Object.function name behavior functionPrototype).define
    (.ofText "name") (.hidden (.ofText name)))

/-- No array-like object has more elements. -/
def maxArrayLength : Nat := 2 ^ 64 - 1

/-- The integer part of a positive finite `length` within the limit, else zero. -/
def arrayLength (h : Heap) (o : ObjectId) : Nat :=
  match h.getText o "length" with
  | .number x => min (x.truncate?.getD 0).toNat maxArrayLength
  | _ => 0

/-- The values at the indices below the length. -/
def elements (h : Heap) (o : ObjectId) : List Value :=
  (List.range (h.arrayLength o)).map fun n => h.get o (.ofIndex n)

def callable (h : Heap) : Value → Bool
  | .object o => h.isCallable o
  | _ => false

def typeOf (h : Heap) : Value → String
  | .undefined => "undefined"
  | .null => "object"
  | .boolean _ => "boolean"
  | .number _ => "number"
  | .bigInt _ => "bigint"
  | .string _ => "string"
  | .symbol _ => "symbol"
  | .object o => if h.isCallable o then "function" else "object"

/-- The form in which messages show a value. No script runs for it. -/
def shown (h : Heap) : Value → String
  | .undefined => "undefined"
  | .null => "null"
  | .boolean b => if b then "true" else "false"
  | .number x => x.toText
  | .bigInt n => toString n ++ "n"
  | .string s => Quoted.encode s.text
  | .symbol s => s.shown
  | .object o => h.tag o

end Heap

end WebBindings
