import WebBindings.Attribute.Reflector
/-!
# Element references

A property that names another element, by its id or by an element that was set explicitly. The
explicit element is remembered for one element and attribute, and forgotten when the attribute
changes in any other way.
-/

namespace WebBindings

variable {σ : Type}

/-- The element that was set explicitly, if any. -/
structure ElementReference where
  explicit : Option ObjectId
deriving DecidableEq

/-- A computation beside a reference. What the reference remembers is not undone by an error. -/
abbrev Remembering (σ : Type) := ExceptT ScriptError (StateT ElementReference (Action σ))

/-- A part that does not touch the reference. -/
def aside {α : Type} (s : Script σ α) : Remembering σ α := ExceptT.mk (StateT.lift s.run)

namespace ElementReference

def none : ElementReference := ⟨.none⟩

/-- After another change of the attribute. -/
def forget (_ : ElementReference) : ElementReference := none

/-- The value of the text of an attribute, without a tree to look for an id in. -/
def ofText (r : ElementReference) (text : Option String) : Option ObjectId :=
  text.bind fun _ => r.explicit

def read (r : ElementReference) (view : AttributeView) : Option ObjectId :=
  match r.explicit with
  | some o => some o
  | .none => view.text.bind view.find

def coerce (value : Value) : Except Fault (Option ObjectId) :=
  match value with
  | .undefined | .null => .ok .none
  | .object o => .ok (some o)
  | _ => .error .notElement

def write (id : ElementId) (name : String) : Option ObjectId → Remembering σ Unit
  | .none => do
    MonadState.set none
    aside (perform (removeAttribute id name))
  | some o => do
    -- The element is remembered only when its attribute could be written.
    aside (setAttribute id name "")
    MonadState.set ⟨some o⟩

def set (id : ElementId) (name : String) (value : Value) : Remembering σ Unit := do
  write id name (← aside (settle (coerce value)))

end ElementReference

end WebBindings
