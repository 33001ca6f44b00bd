import WebBindings.Attribute.ElementReference
/-!
# Reflections

How a property reflects an attribute of any kind: as a value of its own, which several properties
may share, or as a reference to an element, which belongs to a single property because it remembers
the element that was set.
-/

namespace WebBindings

variable {σ : Type}

inductive Reflection
  | plain (r : Reflector)
  | reference (r : ElementReference)

namespace Reflection

/-- A reflection may be shared if it remembers nothing. -/
def isShareable : Reflection → Bool
  | .plain _ => true
  | .reference _ => false

def Content : Reflection → Type
  | .plain r => r.Content
  | .reference _ => Option ObjectId

def ofElement (element : Option ObjectId) : Value := .ofOption (element.map .object)

def default : Reflection → Value
  | .plain r => r.toValue r.default
  | .reference _ => .null

def ofText : Reflection → Option String → Value
  | .plain r, text => r.toValue (r.ofText text)
  | .reference r, text => ofElement (r.ofText text)

def read : Reflection → AttributeView → Value
  | .plain r, view => r.toValue (r.read view)
  | .reference r, view => ofElement (r.read view)

def get (r : Reflection) (w : World σ) (id : ElementId) (name : String) : Value :=
  r.read (w.attributeView id name)

def coerce : Reflection → Value → Script σ Value
  | .plain r, value => return r.toValue (← r.coerce value)
  | .reference _, value => return ofElement (← settle (ElementReference.coerce value))

/-- An attempt to write a value of the property, and the reflection afterwards, which an error leaves as
it is by then. -/
def write (id : ElementId) (name : String) :
    (r : Reflection) → r.Content → Action σ (Except ScriptError Unit × Reflection)
  | .plain r, (content : r.Content) => return (← (r.write id name content).run, .plain r)
  | .reference r, (content : Option ObjectId) => do
    let (result, changed) ← (ElementReference.write id name content).run.run r
    return (result, .reference changed)

def set (id : ElementId) (name : String) (value : Value) :
    Reflection → Action σ (Except ScriptError Unit × Reflection)
  | .plain r => return (← (r.set id name value).run, .plain r)
  | .reference r => do
    let (result, changed) ← (ElementReference.set id name value).run.run r
    return (result, .reference changed)

/-- After another change of the attribute. -/
def forget : Reflection → Reflection
  | .plain r => .plain r
  | .reference r => .reference r.forget

def explicit : Reflection → Option ObjectId
  | .plain _ => none
  | .reference r => r.explicit

end Reflection

end WebBindings
