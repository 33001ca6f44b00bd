import WebBindings.Error
import WebBindings.Identity
import WebBindings.OrderedMap
import WebBindings.Policy
import WebBindings.Script.Program
import WebBindings.Script.Token
/-!
# Inline handlers

What an event handler of an element consists of: its value, the listener behind it, and the engine,
policy and reporter that it works with.
-/

namespace WebBindings

inductive CompileErrorKind
  | syntactic
  | blocked
  /-- A failure that the engine gave no kind to. -/
  | engine
deriving DecidableEq

namespace CompileErrorKind

def name : CompileErrorKind → String
  | .syntactic => "Syntax"
  | .blocked => "Blocked"
  | .engine => "Engine"

/-- The kind of a name in any letter case; names of no other kind are the engine's. -/
def ofName (name : String) : CompileErrorKind :=
  if Ascii.sameFold name "syntax" then .syntactic
  else if Ascii.sameFold name "blocked" then .blocked
  else .engine

end CompileErrorKind

/-- A failed compilation, with a cause of this library or in the words of another engine. -/
inductive CompileError
  | invalid (fault : Script.SyntaxFault)
  | reported (kind : CompileErrorKind) (message : String)
deriving DecidableEq

namespace CompileError

def kind : CompileError → CompileErrorKind
  | .invalid _ => .syntactic
  | .reported kind _ => kind

def message : CompileError → String
  | .invalid fault => fault.message
  | .reported _ message => message

/-- The message with the name that logs give to its kind. -/
def shown (e : CompileError) : String :=
  (match e.kind with
    | .syntactic => "SyntaxError: "
    | .blocked => "EvalError: "
    | .engine => "Error: ") ++ e.message

def toScriptError (e : CompileError) : ScriptError :=
  .raised (.native (if e.kind = .syntactic then .syntactic else .internal)) e.message

end CompileError

/-- Where a handler body finds its free names: its element, the form of the element, the document,
and at last the global object. -/
structure HandlerScope where
  target : ObjectId
  form : Option ObjectId
  document : Option ObjectId
  global : ObjectId
deriving DecidableEq

namespace HandlerScope

/-- The scope objects before the global one, innermost first. -/
def objects (s : HandlerScope) : List ObjectId := s.target :: (s.form.toList ++ s.document.toList)

def chain (s : HandlerScope) : Script.ScopeChain := ⟨s.objects, s.global⟩

end HandlerScope

inductive Engine
  | builtin
  | external (index : Nat)
deriving DecidableEq

/-- What decides whether a text may be compiled. -/
inductive Gate
  /-- The engine's own refusal. -/
  | bySyntaxCheck
  | policy (p : Policy)
  | external (index : Nat)

/-- Where log lines of the host go. -/
inductive Logger
  | console
  | external (index : Nat)
deriving DecidableEq

/-- Where reported errors end. -/
inductive Sink
  | console
  | logger (l : Logger)
  | external (index : Nat)
deriving DecidableEq

/-- How errors are reported: to a sink of its own or to the one that all share. -/
inductive Reporter
  | sink (s : Sink)
  | shared
deriving DecidableEq

structure HandlerEnvironment where
  engine : Engine
  logCompiles : Bool
  gate : Gate
  reporter : Reporter
  global : ObjectId

inductive HandlerValue
  | none
  | compiled (callback : ObjectId)
  /-- The text of a content attribute that was not read yet. -/
  | uncompiled (source : String)
deriving DecidableEq, Inhabited

namespace HandlerValue

def isNone : HandlerValue → Bool
  | .none => true
  | _ => false

end HandlerValue

/-- The one listener that a handler may have on its target. -/
structure Activation where
  type : String
  registration : Option ListenerId
deriving DecidableEq, Inhabited

namespace Activation

def isActive (a : Activation) : Bool := a.registration.isSome

end Activation

/-- The handler of one event type on one element. -/
structure EventHandler where
  target : ElementId
  type : String
  value : HandlerValue
  activation : Activation
  environment : HandlerEnvironment

/-- The handlers of an element, by property name in the order they were first touched. -/
structure HandlerMap where
  target : ElementId
  environment : HandlerEnvironment
  states : OrderedMap String HandlerId

end WebBindings
