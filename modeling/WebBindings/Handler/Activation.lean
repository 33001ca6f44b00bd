import WebBindings.Node.Element
/-!
# Activating handlers

A handler registers one listener when it first gets a value and keeps it, whatever happens to the
value, until it is deactivated.
-/

namespace WebBindings.Activation

variable {σ : Type}

def inactive (type : String) : Activation := ⟨type, none⟩

/-- Register the listener unless there is one. At each event it runs the callback that the source
has then. -/
def activate (a : Activation) (target : ElementId) (source : CallbackSource)
    (reporter : Reporter) : Action σ Activation := do
  if a.isActive then return a
  else
    let id ← addListener target a.type (.runCallback source reporter)
    log .debug ("Activated on" ++ a.type ++ " handler listener " ++ id.shown)
    return { a with registration := some id }

def deactivate (a : Activation) (target : ElementId) : Action σ Activation := do
  match a.registration with
  | none => return a
  | some id =>
    removeListener target a.type id
    log .debug ("Deactivated on" ++ a.type ++ " handler listener " ++ id.shown)
    return { a with registration := none }

end WebBindings.Activation
