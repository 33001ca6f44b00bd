import WebBindings.Attribute.Reflector
/-!
# Property tables

The reflected properties of an interface by name.
-/

namespace WebBindings

variable {σ : Type}

/-- A property, the attribute that it reflects, and how. -/
structure ReflectedProperty where
  attributeName : String
  reflector : Reflector

structure PropertyTable where
  properties : OrderedMap String ReflectedProperty

namespace PropertyTable

def empty : PropertyTable := ⟨.empty⟩

/-- Add a property; one of the same name is replaced in its place. -/
def reflect (t : PropertyTable) (property attributeName : String) (reflector : Reflector) :
    PropertyTable :=
  ⟨t.properties.insert property ⟨attributeName, reflector⟩⟩

def names (t : PropertyTable) : List String := t.properties.keys

def attributeOf? (t : PropertyTable) (property : String) : Option String :=
  (t.properties.get? property).map ReflectedProperty.attributeName

def property (t : PropertyTable) (name : String) : Except Fault ReflectedProperty :=
  match t.properties.get? name with
  | some p => .ok p
  | none => .error (.notReflected name)

def get (t : PropertyTable) (w : World σ) (id : ElementId) (name : String) :
    Except Fault Value := do
  let p ← t.property name
  return p.reflector.toValue (p.reflector.get w id p.attributeName)

def set (t : PropertyTable) (id : ElementId) (name : String) (value : Value) :
    Script σ Unit := do
  let p ← settle (t.property name)
  p.reflector.set id p.attributeName value

end PropertyTable

end WebBindings
