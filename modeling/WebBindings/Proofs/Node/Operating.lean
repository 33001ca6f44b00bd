import WebBindings.Proofs.Handler.Computing
import WebBindings.Proofs.Handler.Session
/-!
# Motions of operations

A relation that goes along with the single changes which operations make, with calls and with what
listeners and sinks do goes along with every listener and every operation. Dispatches are set apart,
because not every such relation goes along with a change of the current target.
-/

namespace WebBindings

variable {σ : Type}

/-- A preorder on worlds that goes along with the single changes of operations and with whatever an
embedder does in between. -/
class Operating (host : Host σ) (R : World σ → World σ → Prop) : Prop extends Motion host R where
  /-- Neither elements nor events change. -/
  still {w w' : World σ} (elements : w'.elements = w.elements) (events : w'.events = w.events) : R w w'
  add (w : World σ) (t : ElementId) (type : String) (action : ListenerAction) :
    R w (w.modifyElement t fun e => (e.addListener type action).2)
  remove (w : World σ) (t : ElementId) (type : String) (id : ListenerId) :
    R w (w.modifyElement t fun e => e.removeListener type id)
  /-- An element changes, but not its listeners. -/
  revise (w : World σ) (t : ElementId) {f : Element → Element}
    (listeners : ∀ e, (f e).listeners = e.listeners)
    (next : ∀ e, (f e).nextListener = e.nextListener) : R w (w.modifyElement t f)
  cancel (w : World σ) (event : EventId) : R w (w.cancelEvent event)
  listen (index : Nat) (event : EventId) (w : World σ) : R w (host.listen index event w)
  react (sink : Sink) (error : ScriptError) (w : World σ) : R w (host.react sink error w)

/-- A preorder that only minds the events is left to care for their cancellation and for what functions,
listeners and sinks do. -/
theorem Embedder.operating_of_events {R : World σ → World σ → Prop} [IsPreorder (World σ) R]
    (e : Embedder σ) (events : ∀ {w w' : World σ}, w'.events = w.events → R w w')
    (cancel : ∀ w event, R w (w.cancelEvent event))
    (call : ∀ index receiver arguments w, R w (e.call index receiver arguments w).2)
    (listen : ∀ index event w, R w (e.listen index event w))
    (react : ∀ sink error w, R w (e.react sink error w)) : Operating e.host R where
  toMotion := e.host_motion (fun _ _ => events rfl) cancel call
  still _ same := events same
  add _ _ _ _ := events rfl
  remove _ _ _ _ := events rfl
  revise _ _ _ _ _ := events rfl
  cancel := cancel
  listen := listen
  react := react

variable {host : Host σ} {R : World σ → World σ → Prop} [Operating host R]

instance Operating.recording : Recording host R where
  record _ _ _ := Operating.still host rfl rfl
  hostLog _ _ _ _ := Operating.still host rfl rfl
  report _ _ _ := Operating.still host rfl rfl

theorem Moves.still {α : Type} {a : Action σ α}
    (elements : ∀ w, (after host a w).elements = w.elements)
    (events : ∀ w, (after host a w).events = w.events) : Moves host R a :=
  fun w => Operating.still host (elements w) (events w)

theorem Moves.computed {α : Type} {a : Action σ α} (computed : Moves host World.Computed a) :
    Moves host R a :=
  Moves.still (fun w => (computed w).sameRecords.elements) fun w => (computed w).events

instance Operating.upkeep : Upkeep host R where
  record _ _ _ _ := Operating.still host rfl rfl
  handlers _ _ _ := Operating.still host rfl rfl
  add := Operating.add host
  remove := Operating.remove host

namespace HandlerId

variable (h : HandlerId)

theorem followAttribute_moves (text : Option String) : Moves host R (h.followAttribute text) :=
  h.followAttribute_moves_of (fun env source type => (env.isBlocked_computed source type).computed) text

theorem compilePending_moves (s : EventHandler) (source : String) :
    Moves host R (h.compilePending s source) := by
  refine (s.environment.compile_computed _ _ _).computed.bind fun result => ?_
  cases result with
  | ok function => exact (h.setValue_moves _).bind fun _ => Moves.pure _
  | error error =>
    refine (Moves.log _ _).bind fun _ => ?_
    refine (h.setValue_moves _).bind fun _ => ?_
    refine (s.environment.reporter.tell_moves _).bind fun _ => ?_
    exact Moves.pure _

theorem current_moves : Moves host R h.current := by
  refine Moves.get.bind fun w => ?_
  split
  · exact Moves.pure _
  · split
    · exact Moves.pure _
    · exact Moves.pure _
    · refine (h.compilePending_moves _ _).bind fun result => ?_
      cases result with
      | ok function => exact Moves.pure _
      | error error => exact Moves.bind (fun w => Operating.react _ _ w) fun _ => Moves.pure _

end HandlerId

theorem setAttribute_moves (target : ElementId) (name text : String) :
    ScriptMoves host R (setAttribute target name text) := by
  rw [setAttribute]
  split
  · refine ScriptMoves.get.bind fun _ => ?_
    refine (ScriptMoves.perform (Moves.log _ _)).bind fun _ w => ?_
    exact Operating.revise host w target (fun _ => rfl) fun _ => rfl
  · exact ScriptMoves.raise _

theorem removeAttribute_moves (target : ElementId) (name : String) :
    Moves host R (removeAttribute target name) := fun w =>
  Operating.revise host w target (fun _ => rfl) fun _ => rfl

namespace HandlerMapId

variable (m : HandlerMapId)

theorem handler_moves (property : String) : ScriptMoves host R (m.handler property) := by
  refine (ScriptMoves.perform (m.handler?_moves property)).bind fun h => ?_
  cases h with
  | none => exact ScriptMoves.raise _
  | some h => exact ScriptMoves.pure _

theorem followAttribute_moves (name : String) (text : Option String) :
    Moves host R (m.followAttribute name text) := by
  refine (m.handler?_moves _).bind fun h => ?_
  cases h with
  | none => exact Moves.pure _
  | some h => exact (h.followAttribute_moves text).bind fun _ => Moves.pure _

theorem setAttribute_moves (name text : String) : ScriptMoves host R (m.setAttribute name text) := by
  refine ScriptMoves.get.bind fun w => ?_
  split
  · exact ScriptMoves.pure _
  · refine (WebBindings.setAttribute_moves _ _ _).bind fun _ => ?_
    refine (ScriptMoves.perform (m.followAttribute_moves _ _)).bind fun _ => ?_
    exact ScriptMoves.pure _

theorem removeAttribute_moves (name : String) : Moves host R (m.removeAttribute name) := by
  refine Moves.get.bind fun w => ?_
  split
  · exact Moves.pure _
  · refine (WebBindings.removeAttribute_moves _ _).bind fun _ => ?_
    refine (m.followAttribute_moves _ _).bind fun _ => ?_
    exact Moves.pure _

end HandlerMapId

theorem CallbackSource.current_moves (source : CallbackSource) : Moves host R source.current := by
  cases source with
  | handler h =>
    refine Moves.get.bind fun w => ?_
    split
    · exact h.current_moves
    · exact Moves.pure _
  | external index => exact Moves.still (fun _ => rfl) fun _ => rfl

instance Operating.listening : Listening host R where
  hold _ _ := Operating.still host rfl rfl
  cancel := Operating.cancel host
  current := CallbackSource.current_moves
  listen := Operating.listen
  react := Operating.react

theorem Operation.perform_moves (op : Operation)
    (dispatch : ∀ t u, op = .dispatch t u → Moves host R (WebBindings.dispatch t u)) :
    ScriptMoves host R op.perform := by
  have drop {α : Type} {s : Script σ α} (hs : ScriptMoves host R s) :
      ScriptMoves host R (do let _ ← s) := hs.bind fun _ => ScriptMoves.pure _
  have act {α : Type} {a : Action σ α} (ha : Moves host R a) :
      ScriptMoves host R (do let _ ← WebBindings.perform a) := drop (ScriptMoves.perform ha)
  cases op with
  | getProperty m property =>
    exact drop ((m.handler_moves property).bind fun h =>
      (ScriptMoves.perform h.current_moves).bind fun _ => ScriptMoves.pure _)
  | setProperty m property value =>
    exact (m.handler_moves property).bind fun h => ScriptMoves.perform (h.set_moves value)
  | setAttribute m name text => exact m.setAttribute_moves name text
  | removeAttribute m name => exact ScriptMoves.perform (m.removeAttribute_moves name)
  | attributeChanged m name text => exact act (m.followAttribute_moves name text)
  | getHandler h => exact act h.current_moves
  | setHandler h value => exact ScriptMoves.perform (h.set_moves value)
  | followAttribute h text => exact ScriptMoves.perform (h.followAttribute_moves text)
  | dispatch target event => exact act (dispatch target event rfl)
  | addListener target type action => exact act fun w => Operating.add host w target type action
  | removeListener target type id =>
    exact ScriptMoves.perform fun w => Operating.remove host w target type id
  | createHandler target type environment => exact act (Moves.still (fun _ => rfl) fun _ => rfl)
  | createMap target environment => exact act (Moves.still (fun _ => rfl) fun _ => rfl)
  | call callee receiver arguments => exact drop (ScriptMoves.invoke callee receiver arguments)

end WebBindings
