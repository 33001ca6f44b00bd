import WebBindings.World
/-!
# Reporting errors

Errors that nobody can catch end in a sink: the script console, a logger, or the embedder. Reporters
without a sink of their own share one, which is the console until another is installed.
-/

namespace WebBindings

variable {σ : Type}

namespace ScriptError

/-- The form in which messages show an error. -/
def shown (h : Heap) : ScriptError → String
  | .fault cause => cause.category.name ++ ": " ++ cause.message
  | .raised category message => category.name ++ ": " ++ message
  | .exception value => h.shown value

end ScriptError

def logLine (level : LogLevel) (message : String) : Action σ Unit :=
  log level (LogLevel.consoleLine message)

def logException (message : String) (stack : Option String) : Action σ Unit :=
  log .error (LogLevel.exceptionLine message stack)

namespace Logger

def write (l : Logger) (level : LogLevel) (message : String) : Action σ Unit := do
  match l with
  | .console => logLine level message
  | .external index =>
    let host ← read
    modify fun w => { w with embedder := host.hostLog index level message w.embedder }

end Logger

namespace Sink

def report (s : Sink) (error : ScriptError) : Action σ Unit := do
  let line := "Uncaught " ++ error.shown (← get).heap
  match s with
  | .console => logException line none
  | .logger l => l.write .error line
  | .external index =>
    let host ← read
    modify fun w => { w with embedder := host.report index w.heap error w.embedder }

end Sink

namespace Reporter

def sink? (shared : Option Sink) : Reporter → Sink
  | .sink s => s
  | .shared => shared.getD .console

def tell (r : Reporter) (error : ScriptError) : Action σ Unit := do
  (r.sink? (← get).sharedSink).report error

/-- Let the sink act on the error that it was told of. -/
def react (r : Reporter) (error : ScriptError) : Action σ Unit := do
  let host ← read
  modify fun w => host.react (r.sink? w.sharedSink) error w

def report (r : Reporter) (error : ScriptError) : Action σ Unit := do
  r.tell error
  r.react error

end Reporter

/-- Install the sink that reporters share, unless there is one; the flag tells whether it was. -/
def installSharedSink (s : Sink) : Action σ Bool :=
  modifyGet fun w =>
    match w.sharedSink with
    | some _ => (false, w)
    | none => (true, { w with sharedSink := some s })

end WebBindings
