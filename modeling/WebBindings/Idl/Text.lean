import WebBindings.Conversion
/-!
# String types

The string types of interfaces, all of which begin with the text of a value.
-/

namespace WebBindings

variable {σ : Type}

/-- A text in which `null` counts as empty. -/
def toTextOrEmpty (value : Value) : Script σ DOMString := do
  match value with
  | .null => return .empty
  | other => toText other

namespace DOMString

/-- The string, unless a unit does not fit into a byte. -/
def bytes? (s : DOMString) : Except Fault DOMString :=
  match s.units.find? fun u => 0xFF < u.toNat with
  | some unit => .error (.wideUnit unit)
  | none => .ok s

end DOMString

def toByteString (value : Value) : Script σ DOMString := do
  settle (← toText value).bytes?

def toUSVString (value : Value) : Script σ DOMString := do
  return (← toText value).toWellFormed

end WebBindings
