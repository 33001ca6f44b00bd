import WebBindings.Attribute.Enumerated
import WebBindings.Attribute.Number
import WebBindings.Idl.Float
import WebBindings.Idl.Integer
import WebBindings.Idl.Text
import WebBindings.Node.Element
/-!
# Reflected attributes

Properties of scripts that read and write content attributes. Each kind of reflector has its own
type of values, reads one from the text of an attribute, and tells what writing one does to the
attribute.
-/

namespace WebBindings

variable {σ : Type}

/-- The kinds of reflection, with what is read without a proper attribute value. -/
inductive Reflector
  | string
  | nullableString
  /-- A URL, relative to a base of its own when the element has none. -/
  | url (resolver : Url.Resolver) (base : Option Url)
  | boolean
  | int (default : Int)
  | nonNegativeInt (default : Int)
  | unsignedInt (default : Int)
  | positiveInt (default : Int)
  | positiveIntOrDefault (default : Int)
  | clampedInt (lower upper default : Int)
  | double (default : Double)
  | positiveDouble (default : Double)
  | enumerated (keywords : Enumerated)
  | nullableEnumerated (keywords : Enumerated)

/-- What a reflector sees of an element: the attribute, and what it may refer to. -/
structure AttributeView where
  text : Option String
  base : Option Url
  find : String → Option ObjectId

namespace AttributeView

def alone (text : Option String) : AttributeView := ⟨text, none, fun _ => none⟩

end AttributeView

namespace World

def attributeView (w : World σ) (id : ElementId) (name : String) : AttributeView :=
  ⟨w.attribute? id name, w.baseUrl? id, w.objectById? id⟩

end World

inductive AttributeChange
  | set (text : String)
  | remove
  | keep
deriving DecidableEq

/-- A change of an attribute, with a note for the log. -/
structure AttributeWrite where
  note : Option String
  change : AttributeChange
deriving DecidableEq

namespace AttributeWrite

def ofText (text : String) : AttributeWrite := ⟨none, .set text⟩

def ofOption : Option String → AttributeWrite
  | some text => ofText text
  | none => ⟨none, .remove⟩

def apply (a : AttributeWrite) (id : ElementId) (name : String) : Script σ Unit := do
  match a.note with
  | some note => perform (log .debug note)
  | none => pure ()
  match a.change with
  | .set text => setAttribute id name text
  | .remove => perform (removeAttribute id name)
  | .keep => return

end AttributeWrite

namespace Reflector

def Content : Reflector → Type
  | .string | .url .. | .enumerated _ => String
  | .nullableString | .nullableEnumerated _ => Option String
  | .boolean => Bool
  | .int _ | .nonNegativeInt _ | .unsignedInt _ | .positiveInt _ | .positiveIntOrDefault _
  | .clampedInt .. => Int
  | .double _ | .positiveDouble _ => Double

def toValue : (r : Reflector) → r.Content → Value
  | .string, (text : String) | .url .., (text : String) | .enumerated _, (text : String) =>
    .ofText text
  | .nullableString, (text : Option String) | .nullableEnumerated _, (text : Option String) =>
    .ofOption (text.map .ofText)
  | .boolean, (b : Bool) => .boolean b
  | .int _, (n : Int) | .nonNegativeInt _, (n : Int) | .unsignedInt _, (n : Int)
  | .positiveInt _, (n : Int) | .positiveIntOrDefault _, (n : Int) | .clampedInt .., (n : Int) =>
    .ofInt n
  | .double _, (x : Double) | .positiveDouble _, (x : Double) => .number x

/-- The greatest integer that reflectors write. -/
def maxInt : Int := 2 ^ 31 - 1

/-- The integer of a text, if it is from `least` up to the greatest. -/
def intInRange? (least : Int) (text : Option String) : Option Int :=
  (text.bind AttributeNumber.nonNegative?).filter fun n => least ≤ n ∧ n ≤ maxInt

/-- The text of a URL resolved against a base; a text that is no URL stays as it is. -/
def resolveUrl (resolver : Url.Resolver) (base : Option Url) (text : String) : String :=
  match resolver base text with
  | some u => u.shown
  | none => text

/-- The value of the text of an attribute, or of its absence. -/
def ofText : (r : Reflector) → Option String → r.Content
  | .string, text => (text.getD "" : String)
  | .nullableString, text => text
  | .url resolver base, text => ((text.map (resolveUrl resolver base)).getD "" : String)
  | .boolean, text => text.isSome
  | .int default, text =>
    (((text.bind AttributeNumber.integer?).filter fun n =>
      IntegerType.long.least ≤ n ∧ n ≤ IntegerType.long.greatest).getD default : Int)
  | .nonNegativeInt default, text | .unsignedInt default, text =>
    ((intInRange? 0 text).getD default : Int)
  | .positiveInt default, text | .positiveIntOrDefault default, text =>
    ((intInRange? 1 text).getD default : Int)
  | .clampedInt lower upper default, text =>
    match text.bind AttributeNumber.nonNegative? with
    | none => default
    | some n => if n < lower then lower else if upper < n then upper else n
  | .double default, text => ((text.bind AttributeNumber.double?).getD default : Double)
  | .positiveDouble default, text =>
    (((text.bind AttributeNumber.double?).filter Double.isPositive).getD default : Double)
  | .enumerated keywords, text => ((keywords.lookup text).getD "" : String)
  | .nullableEnumerated keywords, text => keywords.lookup text

def default : (r : Reflector) → r.Content
  | .string => ("" : String)
  | .nullableString => (none : Option String)
  | .url .. => ("" : String)
  | .boolean => false
  | .int d | .nonNegativeInt d | .unsignedInt d | .positiveInt d | .positiveIntOrDefault d
  | .clampedInt _ _ d => d
  | .double d | .positiveDouble d => d
  | .enumerated keywords => ((keywords.lookup none).getD "" : String)
  | .nullableEnumerated keywords => keywords.lookup none

/-- Read the property. Only URLs look beyond the attribute. -/
def read (r : Reflector) (view : AttributeView) : r.Content :=
  match r with
  | .url resolver base =>
    match view.text with
    | none => ("" : String)
    | some text =>
      resolveUrl resolver (match view.base with
        | some own => some own
        | none => base) text
  | other => other.ofText view.text

def nullableText (value : Value) : Script σ (Option String) := do
  if value.isNullish then return none else return some (← toText value).text

def coerce (r : Reflector) (value : Value) : Script σ r.Content :=
  match r with
  | .string | .enumerated _ => (return (← toText value).text : Script σ String)
  | .url .. => (return (← toUSVString value).text : Script σ String)
  | .nullableString | .nullableEnumerated _ => nullableText value
  | .boolean => (return value.toBoolean : Script σ Bool)
  | .int _ | .nonNegativeInt _ => toInteger .long .modulo value
  | .unsignedInt _ | .positiveInt _ | .positiveIntOrDefault _ | .clampedInt .. =>
    toInteger .unsignedLong .modulo value
  | .double _ | .positiveDouble _ => toDouble value

/-- Write an integer, or the default for one that is too large. -/
def writeUnsigned (name : String) (default n : Int) : AttributeWrite :=
  if maxInt < n then
    ⟨some ("'" ++ name ++ "' = " ++ toString n ++ " is out of range, writing default " ++
      toString default), .set (toString default)⟩
  else .ofText (toString n)

/-- What writing a value does to the attribute of a name. -/
def writing : (r : Reflector) → (name : String) → r.Content → Except Fault AttributeWrite
  | .string, _, (text : String) | .url .., _, (text : String)
  | .enumerated _, _, (text : String) => .ok (.ofText text)
  | .nullableString, _, (text : Option String)
  | .nullableEnumerated _, _, (text : Option String) => .ok (.ofOption text)
  | .boolean, _, (b : Bool) => .ok (.ofOption (if b then some "" else none))
  | .int _, _, (n : Int) => .ok (.ofText (toString n))
  | .nonNegativeInt _, name, (n : Int) =>
    if n < 0 then .error (.indexSize (toString n) name) else .ok (.ofText (toString n))
  | .unsignedInt default, name, (n : Int) | .clampedInt _ _ default, name, (n : Int) =>
    .ok (writeUnsigned name default n)
  | .positiveInt default, name, (n : Int) =>
    if n = 0 then .error (.indexSize (toString n) name) else .ok (writeUnsigned name default n)
  | .positiveIntOrDefault default, name, (n : Int) =>
    .ok (if n = 0 then
        ⟨some ("'" ++ name ++ "' = 0 is out of range, writing default " ++ toString default),
          .set (toString default)⟩
      else writeUnsigned name default n)
  | .double _, _, (x : Double) => .ok (.ofText x.toText)
  | .positiveDouble _, name, (x : Double) =>
    .ok (if x.isPositive || x.isNaN then .ofText x.toText
      else ⟨some ("Ignoring non-positive value " ++ x.toLogText ++ " for '" ++ name ++ "'"), .keep⟩)

def write (r : Reflector) (id : ElementId) (name : String) (content : r.Content) :
    Script σ Unit := do
  (← settle (r.writing name content)).apply id name

def set (r : Reflector) (id : ElementId) (name : String) (value : Value) : Script σ Unit := do
  r.write id name (← r.coerce value)

def get (r : Reflector) (w : World σ) (id : ElementId) (name : String) : r.Content :=
  r.read (w.attributeView id name)

end Reflector

end WebBindings
