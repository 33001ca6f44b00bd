import WebBindings.Number.Literal
import WebBindings.World
/-!
# Conversions between values

Reading any value as a primitive, a number, a text or an integer. Objects are asked through their
methods, so a conversion may run scripts and raise whatever they raise.
-/

namespace WebBindings

variable {σ : Type}

/-- Which primitive an object is asked for. -/
inductive PreferredType
  | default
  | number
  | string
deriving DecidableEq

namespace PreferredType

/-- The word that `@@toPrimitive` methods are called with. -/
def hint : PreferredType → String
  | .default => "default"
  | .number => "number"
  | .string => "string"

/-- The methods that an object is asked through, the first one first. -/
def methodNames : PreferredType → List String
  | .string => ["toString", "valueOf"]
  | .default | .number => ["valueOf", "toString"]

end PreferredType

/-- The method that an object has under a key. Other values have no methods. -/
def method? (value : Value) (key : PropertyKey) : Script σ (Option ObjectId) := do
  match value with
  | .object o =>
    let heap ← getHeap
    let found := heap.get o key
    if found.isNullish then return none
    else
      match found with
      | .object f => if heap.isCallable f then return some f else raise (.notCallable (heap.tag f))
      | other => raise (.notCallable (heap.shown other))
  | _ => return none

/-- Ask an object through methods until one answers with a primitive. Methods that are missing or
cannot be called are passed over. -/
def primitiveByMethods (o : ObjectId) : List String → Script σ Value
  | [] => raise .noPrimitive
  | name :: rest => do
    let heap ← getHeap
    match heap.getText o name with
    | .object f =>
      if heap.isCallable f then
        let result ← invoke f (.object o) []
        if result.isObject then primitiveByMethods o rest else return result
      else primitiveByMethods o rest
    | _ => primitiveByMethods o rest

def toPrimitive (value : Value) (preferred : PreferredType) : Script σ Value := do
  match value with
  | .object o =>
    match ← method? value (.symbol .toPrimitive) with
    | some exotic =>
      let result ← invoke exotic value [.ofText preferred.hint]
      if result.isObject then raise .noPrimitive else return result
    | none => primitiveByMethods o preferred.methodNames
  | _ => return value

namespace Value

def number? : Value → Except Fault Double
  | .undefined => .ok .nan
  | .null => .ok (.zero false)
  | .boolean b => .ok (.ofNat (if b then 1 else 0))
  | .number x => .ok x
  | .string s => .ok (Literal.toNumber s)
  | .bigInt _ => .error .bigIntAsNumber
  | .symbol _ => .error .symbolAsNumber
  | .object _ => .error .noPrimitive

def text? : Value → Except Fault DOMString
  | .undefined => .ok (.ofString "undefined")
  | .null => .ok (.ofString "null")
  | .boolean b => .ok (.ofString (if b then "true" else "false"))
  | .number x => .ok (.ofString x.toText)
  | .bigInt n => .ok (.ofString (toString n))
  | .string s => .ok s
  | .symbol _ => .error .symbolAsString
  | .object _ => .error .noPrimitive

/-- The integer of a primitive. Numbers are refused, also whole ones. -/
def integer? : Value → Except Fault Int
  | .undefined => .error (.noBigInt "undefined")
  | .null => .error (.noBigInt "null")
  | .boolean b => .ok (if b then 1 else 0)
  | .bigInt n => .ok n
  | .number x => .error (.noBigInt x.toText)
  | .string s =>
    match Literal.toInteger? s with
    | some n => .ok n
    | none => .error (.noIntegerLiteral s.text)
  | .symbol _ => .error .symbolAsBigInt
  | .object _ => .error .noPrimitive

end Value

def toNumber (value : Value) : Script σ Double := do
  settle (← toPrimitive value .number).number?

def toText (value : Value) : Script σ DOMString := do
  settle (← toPrimitive value .string).text?

def toBigInt (value : Value) : Script σ Int := do
  settle (← toPrimitive value .number).integer?

def toPropertyKey (value : Value) : Script σ PropertyKey := do
  match ← toPrimitive value .string with
  | .symbol s => return .symbol s
  | primitive => return .string (← settle primitive.text?)

def joinTexts : List DOMString → DOMString
  | [] => .empty
  | [text] => text
  | text :: rest => text ++ .ofString "," ++ joinTexts rest

/-- The text of an array: those of its elements, nullish ones being empty. -/
def joinElements (array : ObjectId) : Script σ DOMString := do
  let elements := (← getHeap).elements array
  return joinTexts (← elements.mapM fun element =>
    if element.isNullish then pure .empty else toText element)

end WebBindings
