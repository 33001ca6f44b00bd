import WebBindings.Handler.Basic
import WebBindings.Url.Basic
/-!
# Documents, elements and events

The records of a small document tree: elements with attributes and listeners, documents that own
elements, and events on their way to listeners.
-/

namespace WebBindings

/-- Where a listener finds the callback that it runs. -/
inductive CallbackSource
  | handler (h : HandlerId)
  | external (index : Nat)
deriving DecidableEq

inductive ListenerAction
  /-- Run the callback that a source has at that moment. -/
  | runCallback (source : CallbackSource) (reporter : Reporter)
  | external (index : Nat)
deriving DecidableEq

structure Listener where
  id : ListenerId
  type : String
  action : ListenerAction
deriving DecidableEq

structure Element where
  localName : String
  object : ObjectId
  attributes : OrderedMap String String
  listeners : List Listener
  nextListener : Nat
  document : Option DocumentId
  form : Option ObjectId
deriving Inhabited

namespace Element

/-- The value of an attribute; the letter case of its name does not matter. -/
def attribute? (e : Element) (name : String) : Option String := e.attributes.get? (Ascii.lower name)

/-- The listeners of an event type, in the order of their registration. -/
def listenersOf (e : Element) (type : String) : List Listener :=
  e.listeners.filter fun l => l.type = type

end Element

structure Document where
  object : ObjectId
  url : Option Url
  /-- The elements that it created, in order. -/
  elements : List ElementId
deriving Inhabited

structure Event where
  type : String
  cancelable : Bool
  canceled : Bool
  currentTarget : Option ObjectId
  object : ObjectId
deriving Inhabited

end WebBindings
