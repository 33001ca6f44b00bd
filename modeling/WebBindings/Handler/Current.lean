import WebBindings.Handler.Activation
import WebBindings.Handler.Gate
import WebBindings.Handler.Report
/-!
# The current value of a handler

The value of one handler: a callback that a script set, or the text of a content attribute, which is
compiled when the value is first read. A text that does not compile is reported once.
-/

namespace WebBindings

variable {σ : Type}

namespace EventHandler

def new (target : ElementId) (type : String) (environment : HandlerEnvironment) : EventHandler :=
  ⟨target, type, .none, .inactive type, environment⟩

end EventHandler

def createHandler (target : ElementId) (type : String) (environment : HandlerEnvironment) :
    Action σ HandlerId :=
  modifyGet fun w =>
    (⟨w.handlers.size⟩, { w with handlers := w.handlers.push (.new target type environment) })

namespace HandlerId

def setValue (h : HandlerId) (value : HandlerValue) : Action σ Unit :=
  modify fun w => w.modifyHandler h fun s => { s with value }

def setActivation (h : HandlerId) (activation : Activation) : Action σ Unit :=
  modify fun w => w.modifyHandler h fun s => { s with activation }

/-- Compile a text that was not read yet, and keep the function in its place. A text that does not
compile is dropped and reported. -/
def compilePending (h : HandlerId) (s : EventHandler) (source : String) :
    Action σ (Except CompileError ObjectId) := do
  let result ← s.environment.compile source s.type s.target
  match result with
  | .ok function => h.setValue (.compiled function)
  | .error error =>
    log .debug ("Failed to compile on" ++ s.type ++ " handler: " ++ error.shown)
    h.setValue .none
    s.environment.reporter.tell error.toScriptError
  return result

/-- The callback of a handler. -/
def current (h : HandlerId) : Action σ (Option ObjectId) := do
  match (← get).handler? h with
  | none => return none
  | some s =>
    match s.value with
    | .none => return none
    | .compiled callback => return some callback
    | .uncompiled source =>
      match ← h.compilePending s source with
      | .ok function => return some function
      | .error error =>
        s.environment.reporter.react error.toScriptError
        return none

def activate (h : HandlerId) (s : EventHandler) : Action σ Unit := do
  h.setActivation (← s.activation.activate s.target (.handler h) s.environment.reporter)

/-- Remove the listener of a handler together with its value. -/
def deactivate (h : HandlerId) (s : EventHandler) : Action σ Unit := do
  h.setActivation (← s.activation.deactivate s.target)
  h.setValue .none

/-- Set the value from a script. Everything but an object clears it. -/
def set (h : HandlerId) (value : Value) : Action σ Unit := do
  match (← get).handler? h with
  | none => return
  | some s =>
    match value.object? with
    | some callback =>
      h.setValue (.compiled callback)
      h.activate s
    | none => h.deactivate s

/-- Follow the content attribute: its text is kept unless it is blocked. -/
def followAttribute (h : HandlerId) (text : Option String) : Action σ Unit := do
  match (← get).handler? h with
  | none => return
  | some s =>
    match text with
    | none => h.deactivate s
    | some source =>
      if ← s.environment.isBlocked source s.type then h.deactivate s
      else
        h.setValue (.uncompiled source)
        h.activate s

end HandlerId

end WebBindings
