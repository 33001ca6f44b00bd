import WebBindings.Heap.Object
import WebBindings.Log
import WebBindings.Node.Basic
/-!
# The world of scripts

All that bindings and scripts act on, the functions that an embedder adds, and the two kinds of
computations over them: actions, which always come to an end, and script computations, which may
raise an error and then keep what they did before.
-/

namespace WebBindings

/-- What somebody outside still refers to. -/
inductive Handle
  | element (id : ElementId)
  | event (id : EventId)
  | handler (id : HandlerId)
  | map (id : HandlerMapId)
deriving DecidableEq

/-- The state of all objects and nodes, and the embedder's own state. -/
structure World (σ : Type) where
  heap : Heap
  documents : Array Document
  elements : Array Element
  events : Array Event
  handlers : Array EventHandler
  maps : Array HandlerMap
  /-- One entry for each reference from outside. -/
  held : List Handle
  /-- The sink of errors that all reporters without one of their own share. -/
  sharedSink : Option Sink
  embedder : σ

/-- What the embedder supplies. Records, policies and engines only see their own state; functions and
listeners may act on the whole world, and so may a sink once it was told of an error. -/
structure Embedder (σ : Type) where
  record : LogLevel → String → σ → σ
  hostLog : Nat → LogLevel → String → σ → σ
  report : Nat → Heap → ScriptError → σ → σ
  blocks : Nat → String → σ → Bool × σ
  checkSyntax : Nat → String → σ → Except CompileError Unit × σ
  compile : Nat → String → String → HandlerScope → Heap → σ →
    Except CompileError ObjectId × Heap × σ
  callback : Nat → σ → Option ObjectId × σ
  call : Nat → Value → List Value → World σ → Except ScriptError Value × World σ
  listen : Nat → EventId → World σ → World σ
  react : Sink → ScriptError → World σ → World σ := fun _ _ w => w

/-- An embedder together with a way to call objects. -/
structure Host (σ : Type) extends Embedder σ where
  invoke : ObjectId → Value → List Value → World σ → Except ScriptError Value × World σ

abbrev Action (σ : Type) := ReaderT (Host σ) (StateM (World σ))

/-- A computation on the world that may raise an error. -/
abbrev Script (σ : Type) := ExceptT ScriptError (Action σ)

def raise {σ α : Type} (cause : Fault) : Script σ α := throw (.fault cause)

def settle {σ α : Type} : Except Fault α → Script σ α
  | .ok a => pure a
  | .error cause => raise cause

variable {σ : Type}

namespace World

def initial (embedder : σ) : World σ :=
  ⟨.initial, #[], #[], #[], #[], #[], [], none, embedder⟩

def document (w : World σ) (id : DocumentId) : Document := w.documents[id.index]?.getD default

def element (w : World σ) (id : ElementId) : Element := w.elements[id.index]?.getD default

def event (w : World σ) (id : EventId) : Event := w.events[id.index]?.getD default

def handler? (w : World σ) (id : HandlerId) : Option EventHandler := w.handlers[id.index]?

def map? (w : World σ) (id : HandlerMapId) : Option HandlerMap := w.maps[id.index]?

def modifyHeap (w : World σ) (f : Heap → Heap) : World σ := { w with heap := f w.heap }

def modifyDocument (w : World σ) (id : DocumentId) (f : Document → Document) : World σ :=
  { w with documents := w.documents.modify id.index f }

def modifyElement (w : World σ) (id : ElementId) (f : Element → Element) : World σ :=
  { w with elements := w.elements.modify id.index f }

def modifyEvent (w : World σ) (id : EventId) (f : Event → Event) : World σ :=
  { w with events := w.events.modify id.index f }

def modifyHandler (w : World σ) (id : HandlerId) (f : EventHandler → EventHandler) : World σ :=
  { w with handlers := w.handlers.modify id.index f }

def modifyMap (w : World σ) (id : HandlerMapId) (f : HandlerMap → HandlerMap) : World σ :=
  { w with maps := w.maps.modify id.index f }

def hold (w : World σ) (h : Handle) : World σ := { w with held := h :: w.held }

def release (w : World σ) (h : Handle) : World σ := { w with held := w.held.erase h }

def isMapLive (w : World σ) (id : HandlerMapId) : Bool := w.held.contains (.map id)

/-- A handler is in use if it is held, alone or through the map that it belongs to. -/
def isHandlerLive (w : World σ) (id : HandlerId) : Bool :=
  w.held.contains (.handler id) ||
    w.held.any fun h =>
      match h with
      | .map m => (w.map? m).any fun record => record.states.values.contains id
      | _ => false

/-- An element is in use if it is held, alone or as the target of a handler or map in use. -/
def isElementLive (w : World σ) (id : ElementId) : Bool :=
  w.held.any fun h =>
    match h with
    | .element e => e = id
    | .handler s => (w.handler? s).any fun record => record.target = id
    | .map m =>
      (w.map? m).any fun record =>
        record.target = id ||
          record.states.values.any fun s => (w.handler? s).any fun state => state.target = id
    | .event _ => false

def isEventLive (w : World σ) (id : EventId) : Bool := w.held.contains (.event id)

end World

def log (level : LogLevel) (message : String) : Action σ Unit := do
  let host ← read
  modify fun w => { w with embedder := host.record level message w.embedder }

def allocate (make : Heap → ObjectId × Heap) : Action σ ObjectId :=
  modifyGet fun w =>
    let (o, heap) := make w.heap
    (o, { w with heap })

/-- An action as a part of a script computation. -/
def perform {α : Type} (a : Action σ α) : Script σ α := ExceptT.lift a

/-- Run a script computation and keep its error as a value. -/
def attempt {α : Type} (s : Script σ α) : Script σ (Except ScriptError α) := ExceptT.lift s.run

def getHeap : Script σ Heap := do return (← get).heap

def modifyHeap (f : Heap → Heap) : Script σ Unit := modify fun w => w.modifyHeap f

def invoke (callee : ObjectId) (receiver : Value) (arguments : List Value) : Script σ Value :=
  ExceptT.mk do
    let host ← read
    modifyGet (host.invoke callee receiver arguments)

end WebBindings
