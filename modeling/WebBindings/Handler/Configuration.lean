import WebBindings.Handler.Gate
import WebBindings.Text.Unicode
/-!
# Configuring handlers

The settings of a document's handlers, as variables give them, and the environment that is assembled
from settings or from parts.
-/

namespace WebBindings

variable {σ : Type}

structure HandlerSettings where
  policy : Option String
  reportOnly : Bool
  logCompiles : Bool
deriving DecidableEq

namespace HandlerSettings

def default : HandlerSettings := ⟨none, false, false⟩

def disposition (s : HandlerSettings) : Disposition := if s.reportOnly then .report else .enforce

def isOn (value : Option String) : Bool :=
  value.any fun text => text = "1" || Ascii.sameFold text "true"

/-- The settings that variables give. A blank policy counts as none. -/
def ofVariables (lookup : String → Option String) : HandlerSettings where
  policy := (lookup "VALOR_CSP").filter fun text => !text.toList.all Unicode.isWhitespace
  reportOnly := isOn (lookup "VALOR_CSP_REPORT_ONLY")
  logCompiles := isOn (lookup "VALOR_LOG_HANDLER_COMPILES")

end HandlerSettings

/-- A setting that no environment can be made of. -/
structure SettingsFault where
  header : String
  cause : Policy.Fault
deriving DecidableEq

namespace SettingsFault

def message (f : SettingsFault) : String :=
  "Invalid Content-Security-Policy " ++ Quoted.encode f.header

def messages (f : SettingsFault) : List String := [f.message, f.cause.message]

end SettingsFault

namespace HandlerEnvironment

/-- The parts of an environment that are not the usual ones. -/
structure Parts where
  engine : Option Engine
  gate : Option Gate
  reporter : Option Reporter
  global : Option ObjectId
  logCompiles : Bool

namespace Parts

def none : Parts := ⟨.none, .none, .none, .none, false⟩

end Parts

/-- Assemble an environment. Usually the engine is built in, its own refusals decide, errors go to
the shared sink, and the global object is a new one. -/
def assemble (parts : Parts) : Action σ HandlerEnvironment := do
  let global ←
    match parts.global with
    | some o => pure o
    | none => allocate Heap.newObject
  return ⟨parts.engine.getD .builtin, parts.logCompiles, parts.gate.getD .bySyntaxCheck,
    parts.reporter.getD .shared, global⟩

def ofSettings (s : HandlerSettings) :
    Action σ (Except SettingsFault HandlerEnvironment) := do
  let parts := { Parts.none with logCompiles := s.logCompiles }
  match s.policy with
  | none => return .ok (← assemble parts)
  | some header =>
    match ← readPolicy header s.disposition with
    | .error cause => return .error ⟨header, cause⟩
    | .ok policy =>
      log .debug ("Inline handlers use a " ++ s.disposition.name ++ " policy")
      return .ok (← assemble { parts with gate := some (.policy policy) })

end HandlerEnvironment

end WebBindings
