import WebBindings.Handler.Map
import WebBindings.Node.Dispatch
import WebBindings.Proofs.Handler.Handling
import WebBindings.Proofs.Likeness.Call
/-!
# Agreement of handlers

Setting a handler, following its content attribute, compiling its text, touching a property of a map and
dispatching an event agree in worlds that look alike. A map asks for properties in lower case, so the
letter case in which a content attribute is named makes no difference to it.
-/

namespace WebBindings

variable {σ : Type} {o : Observer σ} {host host' : Host σ}

namespace World.Alike

variable {w w' : World σ} (alike : w.Alike o w')

include alike

theorem handler? (h : HandlerId) : w'.handler? h = w.handler? h :=
  alike.reads (·.handler? h) fun _ _ _ => rfl

theorem map? (m : HandlerMapId) : w'.map? m = w.map? m := alike.reads (·.map? m) fun _ _ _ => rfl

theorem element (id : ElementId) : w'.element id = w.element id :=
  alike.reads (·.element id) fun _ _ _ => rfl

theorem modifyElement (id : ElementId) (f : Element → Element) :
    (w.modifyElement id f).Alike o (w'.modifyElement id f) :=
  alike.revise (·.modifyElement id f) (fun _ _ _ => rfl) alike.pending

theorem hold (handle : Handle) : (w.hold handle).Alike o (w'.hold handle) :=
  alike.revise (·.hold handle) (fun _ _ _ => rfl) alike.pending

theorem release (handle : Handle) : (w.release handle).Alike o (w'.release handle) :=
  alike.revise (·.release handle) (fun _ _ _ => rfl) alike.pending

theorem modifyHandler (h : HandlerId) {f : EventHandler → EventHandler}
    (pending : ∀ s, o.FollowsValue s.value → o.FollowsValue (f s).value) :
    (w.modifyHandler h f).Alike o (w'.modifyHandler h f) := by
  refine alike.revise (·.modifyHandler h f) (fun _ _ _ => rfl) fun k s found => ?_
  rw [World.handler?_modifyHandler] at found
  split at found
  · obtain ⟨s', found', rfl⟩ := Option.map_eq_some_iff.1 found
    exact pending s' (alike.pending k s' found')
  · exact alike.pending k s found

end World.Alike

section Engines

variable [agreeing : Agreeing o host host']

theorem Engine.checkSyntax_agrees (engine : Engine) (body : String) :
    Agrees o host host' (engine.checkSyntax body) := by
  cases engine with
  | builtin =>
    rw [Engine.checkSyntax]
    generalize Script.Program.ofText? body = result
    cases result <;> exact .pure rfl
  | external index =>
    intro w w' alike
    obtain ⟨same, states⟩ := agreeing.embedders.checkSyntax index body alike.embedder
    exact ⟨same.symm, alike.update alike.heap states⟩

theorem Engine.compile_agrees (engine : Engine) {body : String} (followed : o.FollowsText body)
    (name : String) (scope : HandlerScope) :
    Agrees o host host' (engine.compile body name scope) := by
  cases engine with
  | builtin =>
    rw [Engine.compile]
    cases read : Script.Program.ofText? body with
    | ok program =>
      have made : Agrees o host host' (allocate fun h => h.newFunction name (.handler program scope.chain)) :=
        .allocate fun _ _ alike => alike.newFunction name (followed program read)
      refine (Agree.log _ _ _).bind fun _ => ?_
      refine made.bind fun _ => ?_
      exact .pure rfl
    | error fault => exact .pure rfl
  | external index =>
    intro w w' alike
    obtain ⟨same, heaps, states⟩ :=
      agreeing.embedders.compile index body name scope alike.heap alike.embedder
    exact ⟨same.symm, alike.update heaps states⟩

namespace HandlerEnvironment

variable (env : HandlerEnvironment)

theorem logCompiled_agrees (name source : String) :
    Agrees o host host' (env.logCompiled name source) :=
  .ite (.log _ _ _) (.log _ _ _)

theorem compile_agrees {source : String} (followed : o.FollowsText source) (type : String)
    (target : ElementId) : Agrees o host host' (env.compile source type target) := by
  refine (env.engine.checkSyntax_agrees source).bind fun checked => ?_
  cases checked with
  | error error => exact .pure rfl
  | ok _ =>
    refine Agree.get.bind_of fun w w' alike => ?_
    have scope : w'.handlerScope target env.global = w.handlerScope target env.global :=
      alike.reads (·.handlerScope target env.global) fun _ _ _ => rfl
    rw [scope]
    refine (env.engine.compile_agrees followed _ _).bind fun compiled => ?_
    cases compiled with
    | error error => exact .pure rfl
    | ok function => exact (env.logCompiled_agrees _ _).bind fun _ => .pure rfl

theorem refuses_agrees (source : String) : Agrees o host host' (env.refuses source) := by
  rw [refuses]
  cases env.gate with
  | policy p =>
    dsimp only
    rw [Policy.check]
    cases p.violation? source with
    | none => exact .pure rfl
    | some violation => exact (Agree.log _ _ _).bind fun _ => .pure rfl
  | external index =>
    intro w w' alike
    obtain ⟨same, states⟩ := agreeing.embedders.blocks index source alike.embedder
    exact ⟨same.symm, alike.update alike.heap states⟩
  | bySyntaxCheck =>
    refine (env.engine.checkSyntax_agrees source).bind fun checked => ?_
    cases checked <;> exact .pure rfl

theorem isBlocked_agrees (source type : String) : Agrees o host host' (env.isBlocked source type) := by
  refine (env.refuses_agrees source).bind fun _ => ?_
  refine .ite ?_ ?_
  · refine (Agree.log _ _ _).bind fun _ => ?_
    exact .pure rfl
  · exact .pure rfl

end HandlerEnvironment

end Engines

theorem addListener_agrees (id : ElementId) (type : String) (action : ListenerAction) :
    Agrees o host host' (addListener id type action) := fun w w' alike => by
  refine ⟨?_, alike.modifyElement id _⟩
  change ((w.element id).addListener type action).1 = ((w'.element id).addListener type action).1
  rw [alike.element]

theorem removeListener_agrees (id : ElementId) (type : String) (listener : ListenerId) :
    Agrees o host host' (removeListener id type listener) :=
  .modify fun _ _ alike => alike.modifyElement id _

namespace HandlerId

variable (h : HandlerId)

theorem setValue_agrees (value : HandlerValue) (followed : o.FollowsValue value) :
    Agrees o host host' (h.setValue value) :=
  .modify fun _ _ alike => alike.modifyHandler h fun _ _ => followed

theorem setActivation_agrees (activation : Activation) :
    Agrees o host host' (h.setActivation activation) :=
  .modify fun _ _ alike => alike.modifyHandler h fun _ kept => kept

end HandlerId

theorem createHandler_agrees (target : ElementId) (type : String) (environment : HandlerEnvironment) :
    Agrees o host host' (createHandler target type environment) := fun w w' alike => by
  have size : w'.handlers.size = w.handlers.size := alike.reads (·.handlers.size) fun _ _ _ => rfl
  let add (w : World σ) : World σ :=
    { w with handlers := w.handlers.push (.new target type environment) }
  refine ⟨congrArg HandlerId.mk size.symm, alike.revise add (fun _ _ _ => rfl) ?_⟩
  intro h s found
  change (w.handlers.push _)[h.index]? = some s at found
  rw [Array.getElem?_push] at found
  split at found
  · exact Option.some.inj found ▸ trivial
  · exact alike.pending h s found

theorem createHandlerMap_agrees (target : ElementId) (environment : HandlerEnvironment) :
    Agrees o host host' (createHandlerMap target environment) := fun w w' alike => by
  have size : w'.maps.size = w.maps.size := alike.reads (·.maps.size) fun _ _ _ => rfl
  let add (w : World σ) : World σ := { w with maps := w.maps.push ⟨target, environment, .empty⟩ }
  exact ⟨congrArg HandlerMapId.mk size.symm, alike.revise add (fun _ _ _ => rfl) alike.pending⟩

variable [agreeing : Agreeing o host host']

namespace Activation

theorem activate_agrees (a : Activation) (target : ElementId) (source : CallbackSource)
    (reporter : Reporter) : Agrees o host host' (a.activate target source reporter) := by
  refine .ite ?_ ?_
  · exact .pure rfl
  · refine (addListener_agrees _ _ _).bind fun _ => ?_
    refine (Agree.log _ _ _).bind fun _ => ?_
    exact .pure rfl

theorem deactivate_agrees (a : Activation) (target : ElementId) :
    Agrees o host host' (a.deactivate target) := by
  rw [deactivate]
  cases a.registration with
  | none => exact .pure rfl
  | some id =>
    refine (removeListener_agrees _ _ _).bind fun _ => ?_
    refine (Agree.log _ _ _).bind fun _ => ?_
    exact .pure rfl

end Activation

namespace HandlerId

variable (h : HandlerId)

theorem compilePending_agrees (s : EventHandler) {source : String} (followed : o.FollowsText source) :
    Agrees o host host' (h.compilePending s source) := by
  refine (s.environment.compile_agrees followed _ _).bind fun result => ?_
  cases result with
  | ok function => exact (h.setValue_agrees (.compiled function) trivial).bind fun _ => .pure rfl
  | error error =>
    refine (Agree.log _ _ _).bind fun _ => ?_
    refine (h.setValue_agrees .none trivial).bind fun _ => ?_
    refine (s.environment.reporter.tell_agree ⟨rfl, rfl⟩).bind fun _ => ?_
    exact .pure rfl

theorem current_agrees : Agrees o host host' h.current := by
  refine Agree.get.bind_of fun w w' alike => ?_
  rw [alike.handler?]
  cases found : w.handler? h with
  | none => exact .pure rfl
  | some s =>
    dsimp only
    cases value : s.value with
    | none => exact .pure rfl
    | compiled callback => exact .pure rfl
    | uncompiled source =>
      have followed := alike.pending h s found
      rw [value] at followed
      refine (h.compilePending_agrees s followed).bind fun result => ?_
      cases result with
      | ok function => exact .pure rfl
      | error error => exact (s.environment.reporter.react_agree ⟨rfl, rfl⟩).bind fun _ => .pure rfl

theorem activate_agrees (s : EventHandler) : Agrees o host host' (h.activate s) :=
  (s.activation.activate_agrees _ _ _).bind fun _ => h.setActivation_agrees _

theorem deactivate_agrees (s : EventHandler) : Agrees o host host' (h.deactivate s) := by
  refine (s.activation.deactivate_agrees _).bind fun _ => ?_
  refine (h.setActivation_agrees _).bind fun _ => ?_
  exact h.setValue_agrees .none trivial

theorem set_agrees (value : Value) : Agrees o host host' (h.set value) := by
  refine Agree.get.bind_of fun w w' alike => ?_
  rw [alike.handler?]
  cases w.handler? h with
  | none => exact .pure rfl
  | some s =>
    dsimp only
    cases value.object? with
    | some callback => exact (h.setValue_agrees (.compiled callback) trivial).bind fun _ => h.activate_agrees s
    | none => exact h.deactivate_agrees s

theorem followAttribute_agrees {text : Option String}
    (followed : ∀ source ∈ text, o.FollowsText source) :
    Agrees o host host' (h.followAttribute text) := by
  refine Agree.get.bind_of fun w w' alike => ?_
  rw [alike.handler?]
  cases w.handler? h with
  | none => exact .pure rfl
  | some s =>
    cases text with
    | none => exact h.deactivate_agrees s
    | some source =>
      refine (s.environment.isBlocked_agrees _ _).bind fun blocked => .ite (h.deactivate_agrees s) ?_
      have kept : Agrees o host host' (h.setValue (.uncompiled source)) :=
        h.setValue_agrees _ (followed source rfl)
      exact kept.bind fun _ => h.activate_agrees s

end HandlerId

namespace HandlerMapId

variable (m : HandlerMapId)

theorem handler?_agrees (property : String) : Agrees o host host' (m.handler? property) := by
  refine Agree.get.bind_of fun w w' alike => ?_
  rw [alike.map?]
  cases eventTypeOf? property with
  | none => exact .pure rfl
  | some type =>
    cases w.map? m with
    | none => exact .pure rfl
    | some record =>
      dsimp only
      cases record.states.get? property with
      | some h => exact .pure rfl
      | none =>
        have listed (h : HandlerId) : Agrees o host host' (modify fun w =>
            w.modifyMap m fun r => { r with states := r.states.insert property h } : Action σ Unit) :=
          .modify fun _ _ alike => alike.revise (·.modifyMap m fun r =>
            { r with states := r.states.insert property h }) (fun _ _ _ => rfl) alike.pending
        refine (Agree.log _ _ _).bind fun _ => ?_
        refine (createHandler_agrees _ _ _).bind fun h => ?_
        refine (listed h).bind fun _ => ?_
        exact .pure rfl

theorem handler_agrees (property : String) : ScriptAgrees o host host' (m.handler property) := by
  refine (ScriptAgree.perform (m.handler?_agrees property)).bind fun h => ?_
  cases h with
  | some h => exact .pure rfl
  | none => exact .raise _

theorem get_agrees (property : String) : ScriptAgrees o host host' (m.get property) := by
  refine (m.handler_agrees property).bind fun h => ?_
  refine (ScriptAgree.perform h.current_agrees).bind fun _ => ?_
  exact .pure rfl

theorem set_agrees (property : String) (value : Value) :
    ScriptAgrees o host host' (m.set property value) :=
  (m.handler_agrees property).bind fun h => .perform (h.set_agrees value)

theorem followAttribute_agree {name name' : String} (same : Ascii.lower name' = Ascii.lower name)
    {text : Option String} (followed : ∀ source ∈ text, o.FollowsText source) :
    Agree o host host' Eq (m.followAttribute name text) (m.followAttribute name' text) := by
  rw [followAttribute, followAttribute, same]
  refine (m.handler?_agrees _).bind fun h => ?_
  cases h with
  | some h => exact (h.followAttribute_agrees followed).bind fun _ => .pure rfl
  | none => exact .pure rfl

end HandlerMapId

theorem CallbackSource.current_agrees (source : CallbackSource) :
    Agrees o host host' source.current := by
  cases source with
  | handler h =>
    refine Agree.get.bind_of fun w w' alike => ?_
    rw [show w'.isHandlerLive h = w.isHandlerLive h from
      alike.reads (·.isHandlerLive h) fun _ _ _ => rfl]
    exact .ite h.current_agrees (.pure rfl)
  | external index =>
    intro w w' alike
    obtain ⟨same, states⟩ := agreeing.embedders.callback index alike.embedder
    exact ⟨same.symm, alike.update alike.heap states⟩

theorem runCallback_agrees (callback : ObjectId) (reporter : Reporter) (event : EventId) :
    Agrees o host host' (runCallback callback reporter event) := by
  refine Agree.get.bind_of fun w w' alike => ?_
  rw [alike.event]
  refine Agree.bind_of (ScriptAgree.invoke callback _ _) fun result result' same => ?_
  cases same with
  | ok same =>
    subst same
    rename_i answer
    cases answer with
    | boolean b =>
      cases b with
      | false => exact .modify fun _ _ alike => alike.cancelEvent event
      | true => exact .pure rfl
    | _ => exact .pure rfl
  | error errors => exact reporter.report_agree errors

theorem Listener.run_agrees (l : Listener) (event : EventId) :
    Agrees o host host' (l.run event) := by
  rw [Listener.run]
  cases l.action with
  | external index => exact fun w w' alike => ⟨rfl, agreeing.embedders.listen index event alike⟩
  | runCallback source reporter =>
    refine source.current_agrees.bind fun callback => ?_
    cases callback with
    | none => exact .log _ _ _
    | some callback =>
      refine Agree.get.bind_of fun w w' alike => ?_
      rw [alike.heap.isCallable]
      exact .ite (runCallback_agrees _ _ _) (.log _ _ _)

theorem runListeners_agrees (target : ElementId) (event : EventId) (listeners : List Listener) :
    Agrees o host host' (runListeners target event listeners) := by
  induction listeners with
  | nil => exact .pure rfl
  | cons l rest ih =>
    refine Agree.get.bind_of fun w w' alike => ?_
    rw [alike.element]
    exact .ite ((l.run_agrees event).bind fun _ => ih) ih

theorem World.Alike.setCurrentTarget {w w' : World σ} (alike : w.Alike o w') (id : EventId)
    (target : Option ObjectId) : (w.setCurrentTarget id target).Alike o (w'.setCurrentTarget id target) := by
  simp only [World.setCurrentTarget, alike.event]
  exact (alike.modifyEvent id _).modifyHeap (alike.heap.set _ _ _).2

theorem dispatch_agrees (target : ElementId) (event : EventId) :
    Agrees o host host' (dispatch target event) := by
  have deliver : Agrees o host host' (deliver target event) := by
    refine Agree.get.bind_of fun w w' alike => Agree.get.bind_of fun v v' also => ?_
    dsimp only
    rw [alike.element, also.event]
    refine (Agree.log _ _ _).bind fun _ => ?_
    refine (Agree.modify fun _ _ alike => alike.setCurrentTarget event _).bind fun _ => ?_
    refine (runListeners_agrees _ _ _).bind fun _ => ?_
    refine (Agree.modify fun _ _ alike => alike.setCurrentTarget event _).bind fun _ => ?_
    refine Agree.get.bind_of fun u u' last => .pure ?_
    rw [last.event]
  refine (Agree.modify fun _ _ alike => (alike.hold _).hold _).bind fun _ => deliver.bind fun _ => ?_
  exact (Agree.modify fun _ _ alike => (alike.release _).release _).bind fun _ => .pure rfl

end WebBindings
