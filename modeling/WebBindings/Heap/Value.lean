import WebBindings.Number.Double
import WebBindings.Text.Ascii
import WebBindings.Text.Units
/-!
# Script values

The values that scripts pass to the bindings, and the keys of properties. Objects are named by their
place in the heap, so equal names mean the same object.
-/

namespace WebBindings

/-- A unique symbol. The three well-known ones are shared by all scripts. -/
inductive Symbol
  | iterator
  | toPrimitive
  | unscopables
  | unique (serial : Nat) (description : Option String)
deriving DecidableEq

namespace Symbol

def description : Symbol → Option String
  | .iterator => some "Symbol.iterator"
  | .toPrimitive => some "Symbol.toPrimitive"
  | .unscopables => some "Symbol.unscopables"
  | .unique _ d => d

def wellKnown : List (String × Symbol) :=
  [("iterator", .iterator), ("toPrimitive", .toPrimitive), ("unscopables", .unscopables)]

def shown (s : Symbol) : String := "Symbol(" ++ s.description.getD "" ++ ")"

end Symbol

structure ObjectId where
  index : Nat
deriving DecidableEq, Inhabited

inductive Value
  | undefined
  | null
  | boolean (b : Bool)
  | number (x : Double)
  | bigInt (n : Int)
  | string (s : DOMString)
  | symbol (s : Symbol)
  | object (o : ObjectId)
deriving DecidableEq, Inhabited

namespace Value

def ofText (text : String) : Value := .string (.ofString text)

def ofInt (n : Int) : Value := .number (.ofInt n)

/-- `null` for nothing. -/
def ofOption : Option Value → Value
  | some v => v
  | none => .null

def isNullish : Value → Bool
  | .undefined | .null => true
  | _ => false

def isObject : Value → Bool
  | .object _ => true
  | _ => false

def object? : Value → Option ObjectId
  | .object o => some o
  | _ => none

/-- The `===` relation: numbers compare as numbers, objects and symbols by identity. -/
def strictEquals : Value → Value → Bool
  | .number x, .number y => x.equals y
  | .undefined, .undefined => true
  | .null, .null => true
  | .boolean a, .boolean b => a = b
  | .bigInt m, .bigInt n => m = n
  | .string s, .string t => s = t
  | .symbol a, .symbol b => a = b
  | .object a, .object b => a = b
  | _, _ => false

/-- Truth in conditions: nullish values, `false`, zeros, `nan` and the empty string are false. -/
def toBoolean : Value → Bool
  | .undefined | .null => false
  | .boolean b => b
  | .number x => !(x.isNaN || x.isZero)
  | .bigInt n => n ≠ 0
  | .string s => !s.isEmpty
  | .symbol _ | .object _ => true

end Value

inductive PropertyKey
  | string (s : DOMString)
  | symbol (s : Symbol)
deriving DecidableEq

namespace PropertyKey

def ofText (name : String) : PropertyKey := .string (.ofString name)

def ofIndex (n : Nat) : PropertyKey := .ofText (String.ofList (Nat.toDigits 10 n))

def isSymbol : PropertyKey → Bool
  | .string _ => false
  | .symbol _ => true

/-- The array index that a key denotes: the decimal text of a number below `2 ^ 32 - 1`, without
sign or leading zeros. -/
def arrayIndex? : PropertyKey → Option Nat
  | .symbol _ => none
  | .string s =>
    let n := Ascii.natOf 10 s.chars
    if n < 2 ^ 32 - 1 ∧ s.chars = Nat.toDigits 10 n then some n else none

/-- Keys in enumeration order: array indices ascending, then other strings, then symbols, the latter
two in the order given. -/
def enumerationOrder (keys : List PropertyKey) : List PropertyKey :=
  let indexed := keys.filterMap fun k => k.arrayIndex?.map fun n => (n, k)
  let ascending := (indexed.mergeSort fun a b => a.1 ≤ b.1).map Prod.snd
  let strings := keys.filter fun k => !k.isSymbol && k.arrayIndex?.isNone
  ascending ++ strings ++ keys.filter isSymbol

end PropertyKey

end WebBindings
