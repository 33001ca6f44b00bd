import WebBindings.Proofs.Handler.Report
import WebBindings.Proofs.Handler.Upkeep
/-!
# What only engines change

Calls of an engine or a gate show in the embedder's state. What is observed of that state and left
alone by everything else of the embedder stays the same wherever neither of them is called.
-/

namespace WebBindings

variable {σ τ : Type}

/-- Everything of an embedder but its engines and gates leaves what is observed of its state. -/
structure Embedder.EnginesOnly (e : Embedder σ) (observe : σ → τ) : Prop where
  record (level : LogLevel) (message : String) (s : σ) :
    observe (e.record level message s) = observe s
  hostLog (index : Nat) (level : LogLevel) (message : String) (s : σ) :
    observe (e.hostLog index level message s) = observe s
  report (index : Nat) (heap : Heap) (error : ScriptError) (s : σ) :
    observe (e.report index heap error s) = observe s
  callback (index : Nat) (s : σ) : observe (e.callback index s).2 = observe s

/-- The same is observed in both worlds. -/
def World.SameObserved (observe : σ → τ) (w w' : World σ) : Prop :=
  observe w'.embedder = observe w.embedder

instance (observe : σ → τ) : IsPreorder (World σ) (World.SameObserved observe) where
  refl _ := rfl
  trans _ _ _ first second := second.trans first

section Quiet

variable {host : Host σ} {observe : σ → τ}

theorem addListener_observed (target : ElementId) (type : String) (action : ListenerAction) :
    Moves host (World.SameObserved observe) (addListener target type action) := fun _ => rfl

theorem removeListener_observed (target : ElementId) (type : String) (id : ListenerId) :
    Moves host (World.SameObserved observe) (removeListener target type id) := fun _ => rfl

end Quiet

namespace Embedder.EnginesOnly

variable {host : Host σ} {observe : σ → τ} (engines : host.EnginesOnly observe)

include engines

theorem recording : Recording host (World.SameObserved observe) where
  record level message w := engines.record level message w.embedder
  hostLog index level message w := engines.hostLog index level message w.embedder
  report index error w := engines.report index w.heap error w.embedder

theorem log (level : LogLevel) (message : String) :
    Moves host (World.SameObserved observe) (log level message) :=
  have := engines.recording
  Moves.log level message

theorem upkeep : Upkeep host (World.SameObserved observe) where
  record level _ message w := engines.record level message w.embedder
  handlers _ _ _ := rfl
  add _ _ _ _ := rfl
  remove _ _ _ _ := rfl

theorem set (h : HandlerId) (value : Value) : Moves host (World.SameObserved observe) (h.set value) :=
  have := engines.upkeep
  h.set_moves value

theorem followRemoval (h : HandlerId) :
    Moves host (World.SameObserved observe) (h.followAttribute none) :=
  have := engines.upkeep
  h.followRemoval_moves

theorem touch (m : HandlerMapId) (property : String) :
    Moves host (World.SameObserved observe) (m.handler? property) :=
  have := engines.upkeep
  m.handler?_moves property

end Embedder.EnginesOnly

end WebBindings
