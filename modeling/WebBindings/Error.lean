import WebBindings.Heap.Value
/-!
# Script errors

The errors that conversions, reflected attributes and handlers raise. Those of this library are
given by their cause; kind and wording follow from it.
-/

namespace WebBindings

inductive ErrorKind
  | type
  | range
  | reference
  | syntactic
  | internal
deriving DecidableEq

namespace ErrorKind

def name : ErrorKind → String
  | .type => "TypeError"
  | .range => "RangeError"
  | .reference => "ReferenceError"
  | .syntactic => "SyntaxError"
  | .internal => "InternalError"

def ofName? (name : String) : Option ErrorKind :=
  [type, range, reference, syntactic, internal].find? fun kind => kind.name = name

end ErrorKind

/-- The kinds of `DOMException`. -/
inductive ExceptionName
  | indexSize
  | syntactic
  | invalidCharacter
  | notSupported
deriving DecidableEq

namespace ExceptionName

def name : ExceptionName → String
  | .indexSize => "IndexSizeError"
  | .syntactic => "SyntaxError"
  | .invalidCharacter => "InvalidCharacterError"
  | .notSupported => "NotSupportedError"

def ofName? (name : String) : Option ExceptionName :=
  [indexSize, syntactic, invalidCharacter, notSupported].find? fun kind => kind.name = name

end ExceptionName

/-- What a script can tell an error by. -/
inductive Category
  | native (kind : ErrorKind)
  | dom (name : ExceptionName)
deriving DecidableEq

namespace Category

def name : Category → String
  | .native kind => kind.name
  | .dom name => name.name

end Category

/-- The causes of errors that the bindings raise themselves. -/
inductive Fault
  | notCallable (shown : String)
  | noPrimitive
  | bigIntAsNumber
  | symbolAsNumber
  | symbolAsString
  | symbolAsBigInt
  /-- A value of a type that never becomes an integer. -/
  | noBigInt (shown : String)
  /-- A string that is no integer literal. -/
  | noIntegerLiteral (text : String)
  | mixedBigInt
  | iteratorNotObject
  | iteratorWithoutNext
  | iterationResultNotObject
  | joinOfNonObject
  | iterationOfNonObject
  | notFiniteFor (typeName : String)
  | outsideRangeOf (typeName : String)
  | notFinite
  | outsideFloat
  /-- A code unit above one byte. -/
  | wideUnit (unit : UInt16)
  | noSequence
  | notIterable
  | noRecord
  | notObject (shown : String)
  | notSymbol (shown : String)
  | notElement
  | notReflected (property : String)
  | noSupportedTokens (name : String)
  | notHandlerProperty (property : String)
  | propertyOfNullish (shown key : String)
  | notDefined (name : String)
  | invalidTarget
  | indexSize (value name : String)
  | emptyToken
  | tokenWithSpace (token : String)
  | invalidAttributeName (name : String)
  | callDepth
deriving DecidableEq

namespace Fault

def category : Fault → Category
  | .noIntegerLiteral _ | .invalidTarget => .native .syntactic
  | .notDefined _ => .native .reference
  | .callDepth => .native .range
  | .indexSize .. => .dom .indexSize
  | .emptyToken => .dom .syntactic
  | .tokenWithSpace _ | .invalidAttributeName _ => .dom .invalidCharacter
  | _ => .native .type

private def hexDigit (n : Nat) : Char := (Nat.digitChar n).toUpper

/-- The four upper-case hexadecimal digits of a code unit. -/
def unitDigits (unit : UInt16) : String :=
  let n := unit.toNat
  String.ofList [hexDigit (n / 4096 % 16), hexDigit (n / 256 % 16), hexDigit (n / 16 % 16),
    hexDigit (n % 16)]

def message : Fault → String
  | .notCallable shown => shown ++ " is not a function"
  | .noPrimitive => "Cannot convert object to primitive value"
  | .bigIntAsNumber => "Cannot convert a BigInt value to a number"
  | .symbolAsNumber => "Cannot convert a Symbol value to a number"
  | .symbolAsString => "Cannot convert a Symbol value to a string"
  | .symbolAsBigInt => "Cannot convert a Symbol value to a BigInt"
  | .noBigInt shown => "Cannot convert " ++ shown ++ " to a BigInt"
  | .noIntegerLiteral text => "Cannot convert " ++ text ++ " to a BigInt"
  | .mixedBigInt => "Cannot mix BigInt and other types, use explicit conversions"
  | .iteratorNotObject => "Result of the Symbol.iterator method is not an object"
  | .iteratorWithoutNext => "iterator.next is not a function"
  | .iterationResultNotObject => "Iterator result is not an object"
  | .joinOfNonObject => "Array.prototype.toString called on non-object"
  | .iterationOfNonObject => "Array iterator called on non-object"
  | .notFiniteFor typeName =>
    "Value is not a finite number and cannot be converted to '" ++ typeName ++ "'"
  | .outsideRangeOf typeName => "Value is outside the '" ++ typeName ++ "' value range"
  | .notFinite => "The provided value is non-finite"
  | .outsideFloat => "The provided value is outside the range of float"
  | .wideUnit unit =>
    "Cannot convert to ByteString because the character U+" ++ unitDigits unit ++
      " is greater than 255"
  | .noSequence => "The provided value cannot be converted to a sequence"
  | .notIterable => "The object must have a callable @@iterator property"
  | .noRecord => "The provided value cannot be converted to a record"
  | .notObject shown => shown ++ " is not an object"
  | .notSymbol shown => shown ++ " is not a symbol"
  | .notElement => "Value is not of type 'Element'"
  | .notReflected property => "'" ++ property ++ "' is not a reflected property"
  | .noSupportedTokens name => "'" ++ name ++ "' attribute has no supported tokens"
  | .notHandlerProperty property => "'" ++ property ++ "' is not an event handler property"
  | .propertyOfNullish shown key =>
    "Cannot read properties of " ++ shown ++ " (reading '" ++ key ++ "')"
  | .notDefined name => name ++ " is not defined"
  | .invalidTarget => "Invalid left-hand side in assignment"
  | .indexSize value name =>
    "The value " ++ value ++ " provided for '" ++ name ++ "' is out of range"
  | .emptyToken => "The token provided must not be empty"
  | .tokenWithSpace token =>
    "The token provided ('" ++ token ++ "') contains HTML space characters"
  | .invalidAttributeName name => "'" ++ name ++ "' is not a valid attribute name"
  | .callDepth => "Maximum call stack size exceeded"

end Fault

/-- An error on its way to the caller. -/
inductive ScriptError
  | fault (cause : Fault)
  /-- Raised by a function of the embedder or an engine, with its own words. -/
  | raised (category : Category) (message : String)
  | exception (value : Value)
deriving DecidableEq

namespace ScriptError

def category? : ScriptError → Option Category
  | .fault cause => some cause.category
  | .raised category _ => some category
  | .exception _ => none

def isTypeError (e : ScriptError) : Bool := e.category? = some (.native .type)

end ScriptError

end WebBindings
