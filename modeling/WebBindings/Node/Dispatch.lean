import WebBindings.Handler.Current
import WebBindings.Node.Event
/-!
# Dispatching events

An event runs the listeners that its type had on the element when the dispatch began, in the order
of their registration, leaving out those that were removed on the way.
-/

namespace WebBindings

variable {σ : Type}

namespace CallbackSource

def current : CallbackSource → Action σ (Option ObjectId)
  | .handler h => do if (← get).isHandlerLive h then h.current else return none
  | .external index => do
    let host ← read
    modifyGet fun w =>
      let (answer, embedder) := host.callback index w.embedder
      (answer, { w with embedder })

end CallbackSource

/-- Run a callback for an event. The result `false` cancels the event, and errors are reported. -/
def runCallback (callback : ObjectId) (reporter : Reporter) (event : EventId) :
    Action σ Unit := do
  let record := (← get).event event
  let receiver : Value :=
    match record.currentTarget with
    | some o => .object o
    | none => .undefined
  match ← (invoke callback receiver [.object record.object]).run with
  | .ok (.boolean false) => modify fun w => w.cancelEvent event
  | .ok _ => return
  | .error error => reporter.report error

namespace Listener

def run (l : Listener) (event : EventId) : Action σ Unit := do
  match l.action with
  | .external index =>
    let host ← read
    modify (host.listen index event)
  | .runCallback source reporter =>
    match ← source.current with
    | none => log .trace ("on" ++ l.type ++ " fired with no handler value")
    | some callback =>
      if (← get).heap.isCallable callback then runCallback callback reporter event
      else log .trace ("on" ++ l.type ++ " holds a non-callable value; ignoring")

end Listener

/-- Run those listeners of an element that are still registered when their turn comes. -/
def runListeners (target : ElementId) (event : EventId) : List Listener → Action σ Unit
  | [] => return
  | l :: rest => do
    if ((← get).element target).isRegistered l.id then l.run event
    runListeners target event rest

/-- Run the listeners of an element for an event; the answer is `false` if it was canceled. -/
def deliver (target : ElementId) (event : EventId) : Action σ Bool := do
  let element := (← get).element target
  let type := ((← get).event event).type
  let listeners := element.listenersOf type
  log .debug ("Dispatching '" ++ type ++ "' to <" ++ element.localName ++ "> (" ++
    toString listeners.length ++ " listeners)")
  modify fun w => w.setCurrentTarget event (some element.object)
  runListeners target event listeners
  modify fun w => w.setCurrentTarget event none
  return !((← get).event event).canceled

/-- Dispatch an event to an element. Both stay in use until the dispatch ends. -/
def dispatch (target : ElementId) (event : EventId) : Action σ Bool := do
  modify fun w => (w.hold (.element target)).hold (.event event)
  let answer ← deliver target event
  modify fun w => (w.release (.event event)).release (.element target)
  return answer

end WebBindings
