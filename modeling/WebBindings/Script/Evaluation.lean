import WebBindings.Conversion
import WebBindings.Script.Scope
/-!
# Running handler programs

The meaning of statements and expressions. The only variable of a handler is its parameter `event`;
every other name belongs to the scope chain.
-/

namespace WebBindings.Script

variable {σ : Type}

/-- What does not change while a handler runs. -/
structure Frame where
  chain : ScopeChain
  this : Value

/-- A computation of a running handler, which may change its parameter. -/
abbrev Evaluation (σ : Type) := StateT Value (WebBindings.Script σ)

/-- A step that does not concern the parameter. -/
def lift {α : Type} (s : WebBindings.Script σ α) : Evaluation σ α := StateT.lift s

namespace Constant

def value : Constant → Value
  | .number x => .number x
  | .text s => .ofText s
  | .boolean b => .boolean b
  | .null => .null
  | .undefined => .undefined

end Constant

def parameterName : String := "event"

/-- The value of a name, and the receiver of calls through it. -/
def readName (f : Frame) (name : String) : Evaluation σ (Value × Value) := do
  if name = parameterName then return (← get, .undefined)
  else lift do settle (f.chain.lookup (← getHeap) name)

def writeName (f : Frame) (name : String) (v : Value) : Evaluation σ Unit := do
  if name = parameterName then set v
  else lift (modifyHeap fun h => f.chain.assign h name v)

def shownKey : PropertyKey → String
  | .string s => s.text
  | .symbol s => s.shown

/-- Refuse to look for properties of a nullish base. -/
def requireBase (base : Value) (key : PropertyKey) : WebBindings.Script σ Unit := do
  if base.isNullish then raise (.propertyOfNullish ((← getHeap).shown base) (shownKey key))

/-- The property of a base. Of the primitives only strings have one, their length. -/
def propertyOf (h : Heap) (base : Value) (key : PropertyKey) : Value :=
  match base with
  | .object o => h.get o key
  | .string s => if key = .ofText "length" then .ofInt s.length else .undefined
  | _ => .undefined

def readProperty (base : Value) (key : PropertyKey) : WebBindings.Script σ Value := do
  requireBase base key
  return propertyOf (← getHeap) base key

/-- Assign to the property of a base that must not be nullish; primitives ignore it. -/
def writeProperty (base : Value) (key : PropertyKey) (v : Value) : WebBindings.Script σ Unit := do
  requireBase base key
  match base with
  | .object o => modifyHeap fun h => (h.set o key v).2
  | _ => return

def callValue (function receiver : Value) (arguments : List Value) :
    WebBindings.Script σ Value := do
  let heap ← getHeap
  match function with
  | .object o =>
    if heap.isCallable o then invoke o receiver arguments else raise (.notCallable (heap.tag o))
  | other => raise (.notCallable (heap.shown other))

/-- The sum of two primitives: texts are joined, numbers and integers are added. -/
def addPrimitives (left right : Value) : Except Fault Value := do
  match left, right with
  | .string s, t => return .string (s ++ (← t.text?))
  | s, .string t => return .string ((← s.text?) ++ t)
  | .bigInt m, .bigInt n => return .bigInt (m + n)
  | .bigInt _, _ => throw .mixedBigInt
  | _, .bigInt _ => throw .mixedBigInt
  | x, y => return .number ((← x.number?).add (← y.number?))

/-- The sum of two values, which are both made primitive first. -/
def addValues (left right : Value) : WebBindings.Script σ Value := do
  let a ← toPrimitive left .default
  let b ← toPrimitive right .default
  settle (addPrimitives a b)

def negateValue (operand : Value) : WebBindings.Script σ Value := do
  match ← toPrimitive operand .number with
  | .bigInt n => return .bigInt (-n)
  | primitive => return .number (← settle primitive.number?).neg

def subtractValue (minuend : Double) (right : Value) : WebBindings.Script σ Value := do
  return .number (minuend.sub (← toNumber right))

def typeOfValue (v : Value) : WebBindings.Script σ Value := do
  return .ofText ((← getHeap).typeOf v)

def isReadable (f : Frame) (name : String) : WebBindings.Script σ Bool := do
  return name = parameterName || (f.chain.resolve? (← getHeap) name).isSome

def refuse : Evaluation σ Value := lift (raise .invalidTarget)

mutual

/-- Evaluate an expression. The refusal is what comes of an assignment to anything but a name or a
property, once the assigned value was computed. -/
def evaluate (refusal : Evaluation σ Value) (f : Frame) : Expression → Evaluation σ Value
  | .constant c => return c.value
  | .identifier name => return (← readName f name).1
  | .this => return f.this
  | .member object name => do
    let base ← evaluate refusal f object
    lift (readProperty base (.ofText name))
  | .index object index => do
    let base ← evaluate refusal f object
    let key ← evaluate refusal f index
    lift do readProperty base (← toPropertyKey key)
  | .call (.identifier name) arguments => do
    let (function, receiver) ← readName f name
    let values ← evaluateAll refusal f arguments
    lift (callValue function receiver values)
  | .call (.member object name) arguments => do
    let base ← evaluate refusal f object
    let function ← lift (readProperty base (.ofText name))
    let values ← evaluateAll refusal f arguments
    lift (callValue function base values)
  | .call (.index object index) arguments => do
    let base ← evaluate refusal f object
    let key ← evaluate refusal f index
    let function ← lift do readProperty base (← toPropertyKey key)
    let values ← evaluateAll refusal f arguments
    lift (callValue function base values)
  | .call callee arguments => do
    let function ← evaluate refusal f callee
    let values ← evaluateAll refusal f arguments
    lift (callValue function .undefined values)
  | .unary .not operand => return .boolean !(← evaluate refusal f operand).toBoolean
  | .unary .negate operand => do
    let value ← evaluate refusal f operand
    lift (negateValue value)
  | .unary .typeOf (.identifier name) => do
    if ← lift (isReadable f name) then
      let (value, _) ← readName f name
      lift (typeOfValue value)
    else return .ofText "undefined"
  | .unary .typeOf operand => do
    let value ← evaluate refusal f operand
    lift (typeOfValue value)
  | .binary .and left right => do
    let value ← evaluate refusal f left
    if value.toBoolean then evaluate refusal f right else return value
  | .binary .or left right => do
    let value ← evaluate refusal f left
    if value.toBoolean then return value else evaluate refusal f right
  | .binary .add left right => do
    let a ← evaluate refusal f left
    let b ← evaluate refusal f right
    lift (addValues a b)
  | .binary .subtract left right => do
    let a ← evaluate refusal f left
    let minuend ← lift (toNumber a)
    let b ← evaluate refusal f right
    lift (subtractValue minuend b)
  | .binary .strictEqual left right => do
    let a ← evaluate refusal f left
    let b ← evaluate refusal f right
    return .boolean (a.strictEquals b)
  | .binary .strictNotEqual left right => do
    let a ← evaluate refusal f left
    let b ← evaluate refusal f right
    return .boolean !(a.strictEquals b)
  | .assign (.identifier name) source => do
    let value ← evaluate refusal f source
    writeName f name value
    return value
  | .assign (.member object name) source => do
    let value ← evaluate refusal f source
    let base ← evaluate refusal f object
    lift (writeProperty base (.ofText name) value)
    return value
  | .assign (.index object index) source => do
    let value ← evaluate refusal f source
    let base ← evaluate refusal f object
    let key ← evaluate refusal f index
    lift do writeProperty base (← toPropertyKey key) value
    return value
  | .assign _ source => do
    let _ ← evaluate refusal f source
    refusal
termination_by structural e => e

def evaluateAll (refusal : Evaluation σ Value) (f : Frame) :
    List Expression → Evaluation σ (List Value)
  | [] => return []
  | e :: rest => do
    let value ← evaluate refusal f e
    return value :: (← evaluateAll refusal f rest)
termination_by structural es => es

end

mutual

/-- Run a statement with some meaning of expressions; the result tells whether it returned. -/
def execute (meaning : Expression → Evaluation σ Value) : Statement → Evaluation σ (Option Value)
  | .empty => return none
  | .expression e => do
    let _ ← meaning e
    return none
  | .ret none => return some .undefined
  | .ret (some e) => return some (← meaning e)
  | .throw e => do
    let value ← meaning e
    lift (throw (.exception value))
  | .ifThen test consequent => do
    if (← meaning test).toBoolean then execute meaning consequent else return none
  | .ifElse test consequent alternate => do
    if (← meaning test).toBoolean then execute meaning consequent else execute meaning alternate
  | .block body => executeAll meaning body
termination_by structural s => s

/-- Run statements until one returns. -/
def executeAll (meaning : Expression → Evaluation σ Value) :
    List Statement → Evaluation σ (Option Value)
  | [] => return none
  | s :: rest => do
    match ← execute meaning s with
    | some value => return some value
    | none => executeAll meaning rest
termination_by structural ss => ss

end

namespace Program

/-- Run a program with a receiver, its parameter and some meaning of its expressions. Without `return` the
result is `undefined`. -/
def runWith (meaning : Frame → Expression → Evaluation σ Value) (p : Program) (chain : ScopeChain)
    (this event : Value) : WebBindings.Script σ Value := do
  let (result, _) ← (executeAll (meaning ⟨chain, this⟩) p.body).run event
  return result.getD .undefined

def run (p : Program) (chain : ScopeChain) (this event : Value) : WebBindings.Script σ Value :=
  p.runWith (evaluate refuse) chain this event

end Program

end WebBindings.Script
