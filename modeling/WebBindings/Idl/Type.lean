import WebBindings.Idl.Collection
import WebBindings.Idl.Float
import WebBindings.Idl.Integer
import WebBindings.Idl.Object
import WebBindings.Idl.Text
/-!
# Interface types

The types of interfaces as data, and the conversion of a script value to each of them.
-/

namespace WebBindings

variable {σ : Type}

inductive TextType
  | domString
  | domStringOrEmpty
  | byteString
  | usvString
deriving DecidableEq

/-- Types without parts. Their values are script values too. -/
inductive ScalarType
  | integer (type : IntegerType) (mode : IntegerMode)
  | float
  | unrestrictedFloat
  | double
  | unrestrictedDouble
  | bigInt
  | boolean
  | any
  | object
  | symbol
  | callback
  | nullableCallback
  | legacyCallback
  | text (type : TextType)
deriving DecidableEq

inductive InterfaceType
  | scalar (type : ScalarType)
  | sequence (element : InterfaceType)
  | record (key : TextType) (element : InterfaceType)
  | frozenArray (element : ScalarType)
deriving DecidableEq

inductive ScalarValue
  | integer (n : Int)
  | single (x : Single)
  | other (value : Value)
deriving DecidableEq

inductive InterfaceValue
  | scalar (value : ScalarValue)
  | sequence (items : List InterfaceValue)
  | record (entries : List (DOMString × InterfaceValue))
  | frozenArray (array : ObjectId)

namespace ScalarValue

def toValue : ScalarValue → Value
  | .integer n => .ofInt n
  | .single x => .number x.toDouble
  | .other value => value

end ScalarValue

namespace TextType

def name : TextType → String
  | .domString => "DOMString"
  | .domStringOrEmpty => "DOMString legacy null"
  | .byteString => "ByteString"
  | .usvString => "USVString"

def all : List TextType := [.domString, .domStringOrEmpty, .byteString, .usvString]

def ofName? (name : String) : Option TextType := all.find? fun t => t.name = name

def convert (t : TextType) (value : Value) : Script σ DOMString :=
  match t with
  | .domString => toText value
  | .domStringOrEmpty => toTextOrEmpty value
  | .byteString => toByteString value
  | .usvString => toUSVString value

end TextType

namespace ScalarType

def name : ScalarType → String
  | .integer type _ => type.name
  | .float => "float"
  | .unrestrictedFloat => "unrestricted float"
  | .double => "double"
  | .unrestrictedDouble => "unrestricted double"
  | .bigInt => "bigint"
  | .boolean => "boolean"
  | .any => "any"
  | .object => "object"
  | .symbol => "symbol"
  | .callback => "callback"
  | .nullableCallback => "nullable callback"
  | .legacyCallback => "legacy callback"
  | .text type => type.name

def all (mode : IntegerMode) : List ScalarType :=
  [.float, .unrestrictedFloat, .double, .unrestrictedDouble, .bigInt, .boolean, .any, .object,
    .symbol, .callback, .nullableCallback, .legacyCallback] ++
  IntegerType.all.map (.integer · mode) ++ TextType.all.map .text

/-- The type of a name; the mode counts for integers only. -/
def ofName? (name : String) (mode : IntegerMode) : Option ScalarType :=
  (all mode).find? fun t => t.name = name

def convert (t : ScalarType) (value : Value) : Script σ ScalarValue := do
  match t with
  | .integer type mode => return .integer (← toInteger type mode value)
  | .float => return .single (← toFloat value)
  | .unrestrictedFloat => return .single (← toUnrestrictedFloat value)
  | .double => return .other (.number (← toDouble value))
  | .unrestrictedDouble => return .other (.number (← toNumber value))
  | .bigInt => return .other (.bigInt (← toBigInt value))
  | .boolean => return .other (.boolean value.toBoolean)
  | .any => return .other value
  | .object => return .other (.object (← toObject value))
  | .symbol => return .other (.symbol (← toSymbol value))
  | .callback => return .other (.object (← toCallback value))
  | .nullableCallback => return .other (.ofOption ((← toNullableCallback value).map .object))
  | .legacyCallback => return .other (.ofOption (value.object?.map .object))
  | .text type => return .other (.string (← type.convert value))

end ScalarType

namespace InterfaceType

def convert : InterfaceType → Value → Script σ InterfaceValue
  | .scalar type, value => return .scalar (← type.convert value)
  | .sequence element, value => return .sequence (← toSequence element.convert value)
  | .record key element, value =>
    return .record (← toRecord key.convert element.convert value).entries
  | .frozenArray element, value =>
    return .frozenArray (← toFrozenArray (fun v => return (← element.convert v).toValue) value)

end InterfaceType

end WebBindings
