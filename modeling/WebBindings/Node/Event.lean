import WebBindings.World
/-!
# Events

Making and canceling events. Each event has an object that scripts see it as, and both tell the same
about cancellation and the current target.
-/

namespace WebBindings

variable {σ : Type}

namespace Event

/-- The object that scripts see a new event as, on a heap that already has its function. -/
def describe (type : String) (cancelable : Bool) (preventDefault : ObjectId) : Object :=
  ((((Object.blank .ordinary (some Heap.objectPrototype)).define
    (.ofText "type") (.data (.ofText type))).define
    (.ofText "cancelable") (.data (.boolean cancelable))).define
    (.ofText "defaultPrevented") (.data (.boolean false))).define
    (.ofText "currentTarget") (.data .null) |>.define
    (.ofText "preventDefault") (.hidden (.object preventDefault))

end Event

namespace World

def createEvent (w : World σ) (type : String) (cancelable : Bool) : EventId × World σ :=
  let id : EventId := ⟨w.events.size⟩
  let (method, heap) := w.heap.newFunction "preventDefault" (.preventDefault id)
  let (object, heap) := heap.alloc (Event.describe type cancelable method)
  (id, { w with heap, events := w.events.push ⟨type, cancelable, false, none, object⟩ })

/-- Cancel an event if that is possible and did not happen before. -/
def cancelEvent (w : World σ) (id : EventId) : World σ :=
  let event := w.event id
  if event.cancelable && !event.canceled then
    (w.modifyEvent id fun e => { e with canceled := true }).modifyHeap fun h =>
      (h.set event.object (.ofText "defaultPrevented") (.boolean true)).2
  else w

def setCurrentTarget (w : World σ) (id : EventId) (target : Option ObjectId) : World σ :=
  let shown : Value :=
    match target with
    | some o => .object o
    | none => .null
  (w.modifyEvent id fun e => { e with currentTarget := target }).modifyHeap fun h =>
    (h.set (w.event id).object (.ofText "currentTarget") shown).2

end World

end WebBindings
