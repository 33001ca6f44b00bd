import WebBindings.Proofs.Handler.History
import WebBindings.Proofs.Node.Listening
/-!
# Sessions

A session is what can become of a world by operations on handlers, maps, events and listeners, in
any order, where functions, listeners and sinks of an embedder may themselves do all that operations
do. Every session has a history.
-/

namespace WebBindings

variable {σ τ : Type}

/-- What can be asked of handlers and of the elements that they listen on. -/
inductive Operation
  | getProperty (m : HandlerMapId) (property : String)
  | setProperty (m : HandlerMapId) (property : String) (value : Value)
  | setAttribute (m : HandlerMapId) (name text : String)
  | removeAttribute (m : HandlerMapId) (name : String)
  | attributeChanged (m : HandlerMapId) (name : String) (text : Option String)
  | getHandler (h : HandlerId)
  | setHandler (h : HandlerId) (value : Value)
  | followAttribute (h : HandlerId) (text : Option String)
  | dispatch (target : ElementId) (event : EventId)
  | addListener (target : ElementId) (type : String) (action : ListenerAction)
  | removeListener (target : ElementId) (type : String) (id : ListenerId)
  | createHandler (target : ElementId) (type : String) (environment : HandlerEnvironment)
  | createMap (target : ElementId) (environment : HandlerEnvironment)
  | call (callee : ObjectId) (receiver : Value) (arguments : List Value)

namespace Operation

def perform : Operation → Script σ Unit
  | .getProperty m property => do let _ ← m.get property
  | .setProperty m property value => m.set property value
  | .setAttribute m name text => m.setAttribute name text
  | .removeAttribute m name => WebBindings.perform (m.removeAttribute name)
  | .attributeChanged m name text => do
    let _ ← WebBindings.perform (m.followAttribute name text)
  | .getHandler h => do let _ ← WebBindings.perform h.current
  | .setHandler h value => WebBindings.perform (h.set value)
  | .followAttribute h text => WebBindings.perform (h.followAttribute text)
  | .dispatch target event => do let _ ← WebBindings.perform (WebBindings.dispatch target event)
  | .addListener target type action => do
    let _ ← WebBindings.perform (WebBindings.addListener target type action)
  | .removeListener target type id =>
    WebBindings.perform (WebBindings.removeListener target type id)
  | .createHandler target type environment => do
    let _ ← WebBindings.perform (WebBindings.createHandler target type environment)
  | .createMap target environment => do
    let _ ← WebBindings.perform (createHandlerMap target environment)
  | .call callee receiver arguments => do let _ ← invoke callee receiver arguments

/-- Handlers are made for elements that exist, and nobody adds or removes a listener in the place of
a handler. -/
def IsFair (w : World σ) : Operation → Prop
  | .addListener _ _ action => action.handler? = none
  | .removeListener target type id =>
    ∀ l ∈ (w.element target).listeners, l.id = id → l.type = type → l.action.handler? = none
  | .createHandler target _ _ | .createMap target _ => target.index < w.elements.size
  | _ => True

end Operation

def World.Reached (observe : σ → τ) (x : σ) (w : World σ) : Prop :=
  ∃ history, History observe (.initial x) history w

/-- A world comes from another by operations, which scripts, listeners and sinks of an embedder may
interrupt by operations of their own. Only engines change what is observed, and nobody else calls
them. Embedders have to keep to this in worlds with a history only: that they are called in no others
is part of what is shown of sessions. -/
inductive Session (observe : σ → τ) (x : σ) : World σ → World σ → Prop
  | refl (w) : Session observe x w w
  /-- Making elements, events and objects, and whatever else leaves handlers alone. -/
  | aside {w w' w''} (session : Session observe x w w') (aside : w'.Aside observe w'') :
    Session observe x w w''
  | operate {w w'} (session : Session observe x w w') (e : Embedder σ)
    (engines : e.EnginesOnly observe)
    (call : ∀ index receiver arguments w, w.Reached observe x →
      Session observe x w (e.call index receiver arguments w).2)
    (listen : ∀ index event w, w.Reached observe x → Session observe x w (e.listen index event w))
    (react : ∀ sink error w, w.Reached observe x → Session observe x w (e.react sink error w))
    (op : Operation) (fair : op.IsFair w') : Session observe x w (after e.host op.perform.run w')

/-- If a history leads to the first world, some history leads from there to the second. -/
def World.LeadsTo (observe : σ → τ) (x : σ) (w w' : World σ) : Prop :=
  w.Reached observe x → ∃ history, History observe w history w'

namespace World.LeadsTo

variable {observe : σ → τ} {x : σ} {w w' w'' : World σ}

theorem trans (first : w.LeadsTo observe x w') (second : w'.LeadsTo observe x w'') :
    w.LeadsTo observe x w'' := by
  intro reached
  obtain ⟨earlier, hearlier⟩ := reached
  obtain ⟨before, hbefore⟩ := first ⟨earlier, hearlier⟩
  obtain ⟨later, hlater⟩ := second ⟨earlier ++ before, hearlier.append hbefore⟩
  exact ⟨before ++ later, hbefore.append hlater⟩

instance : IsPreorder (World σ) (World.LeadsTo observe x) where
  refl _ _ := ⟨[], .nil⟩
  trans _ _ _ := trans

theorem of_happens {a : Happening} (happens : Happens observe w a w') : w.LeadsTo observe x w' :=
  fun _ => ⟨[a], .single happens⟩

theorem of_aside (aside : w.Aside observe w') : w.LeadsTo observe x w' := of_happens (.other aside)

theorem of_sameRecords (same : w.SameRecords w') (observed : w.SameObserved observe w') :
    w.LeadsTo observe x w' := of_aside ⟨.of_sameRecords same, observed⟩

end World.LeadsTo

theorem modifyElement_sameHandling (w : World σ) (t : ElementId) {f : Element → Element}
    (listeners : ∀ x, (f x).listeners = x.listeners)
    (nextListener : ∀ x, (f x).nextListener = x.nextListener) :
    w.SameHandling (w.modifyElement t f) where
  handlers := rfl
  maps := rfl
  size := by simp
  listeners u := by
    rw [World.element_modifyElement]
    split
    · exact listeners _
    · rfl
  nextListener u := by
    rw [World.element_modifyElement]
    split
    · exact nextListener _
    · rfl

theorem cancelEvent_leadsTo {observe : σ → τ} {x : σ} (w : World σ) (event : EventId) :
    w.LeadsTo observe x (w.cancelEvent event) := by
  rw [World.cancelEvent]
  split
  · exact .of_sameRecords ⟨rfl, rfl, rfl⟩ rfl
  · exact refl_of (World.LeadsTo observe x) w

section Operations

variable {host : Host σ} {observe : σ → τ} {x : σ} (engines : host.EnginesOnly observe)

include engines

theorem Embedder.EnginesOnly.history_recording : Recording host (World.LeadsTo observe x) where
  record level message _ := .of_sameRecords ⟨rfl, rfl, rfl⟩ (engines.record level message _)
  hostLog index level message _ :=
    .of_sameRecords ⟨rfl, rfl, rfl⟩ (engines.hostLog index level message _)
  report index error w := .of_sameRecords ⟨rfl, rfl, rfl⟩ (engines.report index w.heap error _)

theorem HandlerMapId.handler?_leadsTo (m : HandlerMapId) (property : String) :
    Moves host (World.LeadsTo observe x) (m.handler? property) := by
  intro w
  cases hnamed : eventTypeOf? property with
  | none =>
    have hsame : after host (m.handler? property) w = w := by
      simp [after, handler?, hnamed]
    rw [hsame]
    exact refl_of (World.LeadsTo observe x) w
  | some type =>
    cases hfound : w.map? m with
    | none =>
      have hsame : after host (m.handler? property) w = w := by
        simp [after, handler?, hnamed, hfound]
      rw [hsame]
      exact refl_of (World.LeadsTo observe x) w
    | some record => exact .of_happens (.touch engines hnamed hfound)

theorem HandlerId.set_leadsTo (h : HandlerId) (value : Value) :
    Moves host (World.LeadsTo observe x) (h.set value) := by
  intro w
  cases hfound : w.handler? h with
  | none =>
    have hsame : after host (h.set value) w = w := by simp [after, set, hfound]
    rw [hsame]
    exact refl_of (World.LeadsTo observe x) w
  | some s => exact .of_happens (.set engines hfound)

theorem HandlerId.followAttribute_leadsTo (h : HandlerId) (text : Option String) :
    Moves host (World.LeadsTo observe x) (h.followAttribute text) := by
  intro w
  cases hfound : w.handler? h with
  | none =>
    have hsame : after host (h.followAttribute text) w = w := by
      simp [after, followAttribute, hfound]
    rw [hsame]
    exact refl_of (World.LeadsTo observe x) w
  | some s => exact .of_happens (.follow engines hfound)

theorem setAttribute_leadsTo (target : ElementId) (name text : String) :
    ScriptMoves host (World.LeadsTo observe x) (setAttribute target name text) := by
  have : Recording host (World.LeadsTo observe x) := engines.history_recording
  rw [setAttribute]
  split
  · refine ScriptMoves.get.bind fun _ => ?_
    refine (ScriptMoves.perform (Moves.log _ _)).bind fun _ w => ?_
    exact .of_aside ⟨modifyElement_sameHandling w target (fun _ => rfl) fun _ => rfl, rfl⟩
  · exact ScriptMoves.raise _

namespace HandlerMapId

variable (m : HandlerMapId)

theorem followAttribute_leadsTo (name : String) (text : Option String) :
    Moves host (World.LeadsTo observe x) (m.followAttribute name text) := by
  refine (m.handler?_leadsTo engines _).bind fun h => ?_
  cases h with
  | none => exact Moves.pure _
  | some h => exact (h.followAttribute_leadsTo engines text).bind fun _ => Moves.pure _

theorem handler_leadsTo (property : String) :
    ScriptMoves host (World.LeadsTo observe x) (m.handler property) := by
  refine (ScriptMoves.perform (m.handler?_leadsTo engines property)).bind fun h => ?_
  cases h with
  | none => exact ScriptMoves.raise _
  | some h => exact ScriptMoves.pure _

theorem setAttribute_leadsTo (name text : String) :
    ScriptMoves host (World.LeadsTo observe x) (m.setAttribute name text) := by
  refine ScriptMoves.get.bind fun w => ?_
  split
  · exact ScriptMoves.pure _
  · refine (WebBindings.setAttribute_leadsTo engines _ _ _).bind fun _ => ?_
    refine (ScriptMoves.perform (m.followAttribute_leadsTo engines _ _)).bind fun _ => ?_
    exact ScriptMoves.pure _

theorem removeAttribute_leadsTo (name : String) :
    Moves host (World.LeadsTo observe x) (m.removeAttribute name) := by
  have remove (target : ElementId) :
      Moves host (World.LeadsTo observe x) (WebBindings.removeAttribute target name) := fun w =>
    .of_aside ⟨modifyElement_sameHandling w target (fun _ => rfl) fun _ => rfl, rfl⟩
  refine Moves.get.bind fun w => ?_
  split
  · exact Moves.pure _
  · refine (remove _).bind fun _ => ?_
    refine (m.followAttribute_leadsTo engines _ _).bind fun _ => ?_
    exact Moves.pure _

end HandlerMapId

end Operations

/-- What functions, listeners and sinks of an embedder do has a history, and only engines change what
is observed. -/
structure Embedder.Obeys (e : Embedder σ) (observe : σ → τ) (x : σ) : Prop where
  engines : e.host.EnginesOnly observe
  call (index : Nat) (receiver : Value) (arguments : List Value) (w : World σ) :
    w.LeadsTo observe x (e.call index receiver arguments w).2
  listen (index : Nat) (event : EventId) (w : World σ) : w.LeadsTo observe x (e.listen index event w)
  react (sink : Sink) (error : ScriptError) (w : World σ) :
    w.LeadsTo observe x (e.react sink error w)

namespace Embedder.Obeys

variable {e : Embedder σ} {observe : σ → τ} {x : σ} (obeys : e.Obeys observe x)

include obeys

theorem current (h : HandlerId) : Moves e.host (World.LeadsTo observe x) h.current := by
  intro w
  cases hfound : w.handler? h with
  | none =>
    have hsame : after e.host h.current w = w := by simp [after, HandlerId.current, hfound]
    rw [hsame]
    exact refl_of (World.LeadsTo observe x) w
  | some s =>
    cases hvalue : s.value with
    | none =>
      have hsame : after e.host h.current w = w := by
        simp [after, HandlerId.current, hfound, hvalue]
      rw [hsame]
      exact refl_of (World.LeadsTo observe x) w
    | compiled callback =>
      have hsame : after e.host h.current w = w := by
        simp [after, HandlerId.current, hfound, hvalue]
      rw [hsame]
      exact refl_of (World.LeadsTo observe x) w
    | uncompiled source =>
      have hcompile : w.LeadsTo observe x (after e.host (h.compilePending s source) w) :=
        .of_happens (.compile obeys.engines hfound hvalue)
      cases hresult : (outcome e.host (h.compilePending s source) w).1 with
      | ok function =>
        have hsame : after e.host h.current w = after e.host (h.compilePending s source) w := by
          simp [after, HandlerId.current, hfound, hvalue, hresult]
        rw [hsame]
        exact hcompile
      | error error =>
        have hreact : after e.host h.current w = after e.host
            (s.environment.reporter.react error.toScriptError)
            (after e.host (h.compilePending s source) w) := by
          simp [after, HandlerId.current, hfound, hvalue, hresult]
        rw [hreact]
        exact hcompile.trans (obeys.react _ _ _)

theorem motion : Motion e.host (World.LeadsTo observe x) :=
  e.host_motion (fun _ _ => .of_sameRecords ⟨rfl, rfl, rfl⟩ rfl)
    (fun w event => cancelEvent_leadsTo w event) obeys.call

theorem source_current (source : CallbackSource) :
    Moves e.host (World.LeadsTo observe x) source.current := by
  cases source with
  | handler h =>
    refine Moves.get.bind fun w => ?_
    split
    · exact obeys.current h
    · exact Moves.pure _
  | external index =>
    exact fun w => .of_sameRecords ⟨rfl, rfl, rfl⟩ (obeys.engines.callback index w.embedder)

theorem listening : Listening e.host (World.LeadsTo observe x) where
  toMotion := obeys.motion
  record := obeys.engines.history_recording.record
  hostLog := obeys.engines.history_recording.hostLog
  report := obeys.engines.history_recording.report
  hold _ _ := .of_sameRecords ⟨rfl, rfl, rfl⟩ rfl
  cancel := cancelEvent_leadsTo
  current := obeys.source_current
  listen := obeys.listen
  react := obeys.react

theorem dispatch (target : ElementId) (event : EventId) :
    Moves e.host (World.LeadsTo observe x) (dispatch target event) :=
  have := obeys.listening
  dispatch_moves target fun _ _ => .of_sameRecords ⟨rfl, rfl, rfl⟩ rfl

theorem perform {w : World σ} {op : Operation} (fair : op.IsFair w) :
    w.LeadsTo observe x (after e.host op.perform.run w) := by
  have := obeys.motion
  have engines := obeys.engines
  have drop {α : Type} {s : Script σ α} (hs : ScriptMoves e.host (World.LeadsTo observe x) s) :
      ScriptMoves e.host (World.LeadsTo observe x) (do let _ ← s) :=
    hs.bind fun _ => ScriptMoves.pure _
  cases op with
  | getProperty m property =>
    exact drop ((m.handler_leadsTo engines property).bind fun h =>
      (ScriptMoves.perform (obeys.current h)).bind fun _ => ScriptMoves.pure _) w
  | setProperty m property value =>
    exact ((m.handler_leadsTo engines property).bind fun h =>
      ScriptMoves.perform (h.set_leadsTo engines value)) w
  | setAttribute m name text => exact m.setAttribute_leadsTo engines name text w
  | removeAttribute m name => exact m.removeAttribute_leadsTo engines name w
  | attributeChanged m name text => exact m.followAttribute_leadsTo engines name text w
  | getHandler h => exact obeys.current h w
  | setHandler h value => exact h.set_leadsTo engines value w
  | followAttribute h text => exact h.followAttribute_leadsTo engines text w
  | dispatch target event => exact obeys.dispatch target event w
  | addListener target type action => exact .of_happens (.listen e.host fair)
  | removeListener target type id => exact .of_happens (.unlisten e.host fair)
  | createHandler target type environment => exact .of_happens (.create e.host fair)
  | createMap target environment => exact .of_happens (.createMap e.host fair)
  | call callee receiver arguments => exact drop (ScriptMoves.invoke callee receiver arguments) w

end Embedder.Obeys

/-- Every session has a history: whatever is nested happens one after the other. -/
theorem Session.leadsTo {observe : σ → τ} {x : σ} {w w' : World σ}
    (session : Session observe x w w') : w.LeadsTo observe x w' := by
  induction session with
  | refl w => exact refl_of (World.LeadsTo observe x) w
  | aside _ aside ih => exact ih.trans (.of_aside aside)
  | operate _ e engines _ _ _ op fair ih call listen react =>
    -- What is nested is called in worlds with a history only, so that its own sessions count.
    have obeys : e.Obeys observe x :=
      { engines
        call := fun index receiver arguments w reached =>
          call index receiver arguments w reached reached
        listen := fun index event w reached => listen index event w reached reached
        react := fun sink error w reached => react sink error w reached reached }
    exact ih.trans (obeys.perform fair)

theorem Session.reached {observe : σ → τ} {x : σ} {w : World σ}
    (session : Session observe x (.initial x) w) : w.Reached observe x :=
  session.leadsTo ⟨[], .nil⟩

/-- An embedder that only counts the calls of its engine, which knows no language. -/
def Embedder.idle : Embedder Nat where
  record _ _ s := s
  hostLog _ _ _ s := s
  report _ _ _ s := s
  blocks _ _ s := (false, s)
  checkSyntax _ _ s := (.error (.reported .engine "no engine"), s + 1)
  compile _ _ _ _ heap s := (.error (.reported .engine "no engine"), heap, s + 1)
  callback _ s := (none, s)
  call _ _ _ w := (.ok .undefined, w)
  listen _ _ w := w

theorem Embedder.idle_engines : Embedder.idle.host.EnginesOnly id :=
  ⟨fun _ _ _ => rfl, fun _ _ _ _ => rfl, fun _ _ _ _ => rfl, fun _ _ => rfl⟩

/-- The environment of handlers that leaves all to the embedder. -/
def HandlerEnvironment.idle : HandlerEnvironment :=
  ⟨.external 0, false, .external 0, .sink .console, ⟨0⟩⟩

end WebBindings
