import WebBindings.Error
import WebBindings.Heap.Object
/-!
# Scope chains

Where a free name of a handler is found. A scope object that lists a name as unscopable is passed
over for it.
-/

namespace WebBindings.Script

inductive Binding
  | object (o : ObjectId)
  | global
deriving DecidableEq

namespace ScopeChain

/-- Whether an object has a name and does not hide it from scopes. -/
def binds (h : Heap) (o : ObjectId) (key : PropertyKey) : Bool :=
  h.has o key &&
    match h.get o (.symbol .unscopables) with
    | .object hidden => !(h.get hidden key).toBoolean
    | _ => true

/-- The place of a name: the innermost scope that has it, at last the global object. -/
def resolve? (h : Heap) (chain : ScopeChain) (name : String) : Option Binding :=
  let key := PropertyKey.ofText name
  match chain.objects.find? fun o => binds h o key with
  | some o => some (.object o)
  | none => if h.has chain.global key then some .global else none

/-- The value of a name, and the receiver of calls through it. -/
def lookup (h : Heap) (chain : ScopeChain) (name : String) : Except Fault (Value × Value) :=
  match resolve? h chain name with
  | some (.object o) => .ok (h.getText o name, .object o)
  | some .global => .ok (h.getText chain.global name, .undefined)
  | none => .error (.notDefined name)

/-- Assign to a name where it is found; an unknown one becomes global. -/
def assign (h : Heap) (chain : ScopeChain) (name : String) (v : Value) : Heap :=
  let owner :=
    match resolve? h chain name with
    | some (.object o) => o
    | _ => chain.global
  (h.set owner (.ofText name) v).2

end ScopeChain

end WebBindings.Script
