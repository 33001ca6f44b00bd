import WebBindings.Proofs.Node.Events
import WebBindings.Proofs.Node.Turns
/-!
# What handlers answer to events

A handler answers an event with the callback that it has when the turn of its listener comes, after
all that the listeners before it did. Whatever comes of the call, the listeners behind it have their
turns.
-/

namespace WebBindings

variable {σ τ : Type} {observe : σ → τ} {x : σ}

theorem Embedder.Obeys.midway {e : Embedder σ} (obeys : e.Obeys observe x) (w : World σ)
    (target : ElementId) (event : EventId) (listeners : List Listener) :
    w.LeadsTo observe x (w.midway e.host target event listeners) := by
  have begun : w.LeadsTo observe x (w.midway e.host target event []) :=
    .of_sameRecords ⟨rfl, rfl, rfl⟩ (obeys.engines.record _ _ _)
  have := obeys.listening
  exact begun.trans (w.midway_moves target event listeners)

/-- A listener that is registered at its turn is the listener of the handler whose callback it runs. -/
theorem World.Linked.handler_of_listener {w : World σ} (linked : w.Linked) {target : ElementId}
    {l : Listener} (registered : l ∈ (w.element target).listeners) {h : HandlerId}
    {reporter : Reporter} (made : l.action = .runCallback (.handler h) reporter) :
    ∃ s, w.handler? h = some s ∧ s.target = target ∧ s.activation.registration = some l.id ∧
      s.environment.reporter = reporter := by
  have hmade : l ∈ (w.element target).madeBy h := by
    rw [Element.mem_madeBy, made]
    exact ⟨registered, rfl⟩
  obtain ⟨s, found, htarget⟩ := linked.made (List.ne_nil_of_mem hmade)
  have hlistener := (linked.eq_listener found hmade).2
  have hreporter : s.environment.reporter = reporter := by
    rw [hlistener] at made
    cases made
    rfl
  have hregistration : s.activation.registration = some l.id := by
    rw [← htarget, (linked.linked found).made, Option.mem_toList] at hmade
    obtain ⟨id, hid, hl⟩ := Option.map_eq_some_iff.1 hmade
    rw [hid, ← hl]
    rfl
  exact ⟨s, found, htarget, hregistration, hreporter⟩

/-- At its turn in a dispatch, a registered listener of a handler finds the callback that the handler
has then, by all that happened before the dispatch and since it began, and compiles its text if that
is pending. A callback that can be called is called once, for the current target and with the event;
the event is canceled if the result is `false` and the event is cancelable, and an error is reported
once. Then the listeners behind it have their turns. -/
theorem handlers_answer_with_current_callbacks (observe : σ → τ) (x : σ) (e : Embedder σ)
    (engines : e.EnginesOnly observe)
    (call : ∀ index receiver arguments w, w.Reached observe x →
      Session observe x w (e.call index receiver arguments w).2)
    (listen : ∀ index event w, w.Reached observe x → Session observe x w (e.listen index event w))
    (react : ∀ sink error w, w.Reached observe x → Session observe x w (e.react sink error w)) :
    (∀ w, Session observe x (.initial x) w → ∃ history, History observe (.initial x) history w) ∧
    (∀ (w : World σ) event, (w.cancelEvent event).event event =
      { w.event event with canceled := (w.event event).canceled || (w.event event).cancelable }) ∧
    ∀ before w, History observe (.initial x) before w → ∀ target event earlier l later,
      (w.element target).listenersOf (w.event event).type = earlier ++ l :: later →
      let turn := w.midway e.host target event earlier
      let next := l.turn e.host target event turn
      after e.host (dispatch target event) w =
        (later.foldl (Listener.turn e.host target event) next).ended target event ∧
      ∃ during, History observe w during turn ∧ ∀ h reporter,
        l.action = .runCallback (.handler h) reporter →
        (turn.element target).isRegistered l.id = true →
        ∃ s callback found, turn.handler? h = some s ∧ s.target = target ∧
          s.activation.registration = some l.id ∧ s.environment.reporter = reporter ∧
          s.value = ((before ++ during).foldl (Standing.next h) .cleared).value ∧
          Finds e.host h s turn callback found ∧
          Response e.host reporter event (turn.event event).receiver callback found next := by
  have obeys : e.Obeys observe x :=
    { engines
      call := fun index receiver arguments w reached =>
        (call index receiver arguments w reached).leadsTo reached
      listen := fun index event w reached => (listen index event w reached).leadsTo reached
      react := fun sink error w reached => (react sink error w reached).leadsTo reached }
  refine ⟨fun w session => session.reached, fun w event => ?_, ?_⟩
  · rw [World.event_cancelEvent, if_pos rfl]
  · intro before w run target event earlier l later waiting turn next
    refine ⟨?_, ?_⟩
    · rw [after, outcome_dispatch_midway, waiting, World.midway_append]
      rfl
    · obtain ⟨during, hduring⟩ := obeys.midway w target event earlier ⟨before, run⟩
      refine ⟨during, hduring, fun h reporter made registered => ?_⟩
      obtain ⟨linked, mapped⟩ := run.linked (.initial x) (.initial x)
      obtain ⟨linked', -⟩ := hduring.linked linked mapped
      have hwaiting : l ∈ (w.element target).listeners := by
        apply (w.element target).listenersOf_sublist (w.event event).type |>.subset
        rw [waiting]
        exact List.mem_append_right earlier List.mem_cons_self
      have hedited : (w.element target).Edited (turn.element target) :=
        ⟨hduring.continues target, fun _ => linked'.orderly target⟩
      have hregistered : l ∈ (turn.element target).listeners :=
        (hedited.isRegistered_iff (linked.orderly target) hwaiting).1 registered
      obtain ⟨s, found, htarget, hregistration, hreporter⟩ :=
        linked'.handler_of_listener hregistered made
      have hstands := (World.Stands.initial x h).history (run.append hduring)
      have hfinds := Finds.of_current e.host found
      have hresponse := Listener.run_response e.host event made (w := turn) rfl
      have hnext : next = after e.host (l.run event) turn := by
        simp only [next, Listener.turn, registered, if_true]
      rw [← hnext] at hresponse
      exact ⟨s, _, _, found, htarget, hregistration, hreporter, (hstands.of_found found).1, hfinds,
        hresponse⟩

/-- The listener `0` of this embedder sets another callback. -/
def Embedder.replacer : Embedder Nat :=
  { Embedder.idle with
    listen := fun index _ w =>
      if index = 0 then (Operation.setHandler ⟨0⟩ (.object ⟨4⟩)).alone w else w }

theorem Embedder.replacer_engines : Embedder.replacer.EnginesOnly id :=
  ⟨fun _ _ _ => rfl, fun _ _ _ _ => rfl, fun _ _ _ _ => rfl, fun _ _ => rfl⟩

theorem Embedder.replacer_listen (index : Nat) (event : EventId) (w : World Nat) :
    Session id 0 w (Embedder.replacer.listen index event w) := by
  rw [replacer]
  dsimp only
  split
  · exact .operate (.refl w) Embedder.idle Embedder.idle_engines (fun _ _ _ w _ => .refl w)
      (fun _ _ w _ => .refl w) (fun _ _ w _ => .refl w) _ trivial
  · exact .refl w

/-- An element with a listener and, behind it, the listener of a handler that is in use, and an event. -/
def World.awaiting : World Nat :=
  let made := ((World.initial 0).createElement "div" none).2
  let ready := (made.createEvent "click" true).2.hold (.handler ⟨0⟩)
  (Operation.setHandler ⟨0⟩ (.object ⟨3⟩)).alone
    ((Operation.createHandler ⟨0⟩ "click" .idle).alone
      ((Operation.addListener ⟨0⟩ "click" (.external 0)).alone ready))

theorem World.awaiting_history : History id (.initial 0) [.other,
    .listen ⟨0⟩ "click" (.external 0), .create ⟨0⟩ "click" .idle, .set ⟨0⟩ (.object ⟨3⟩)]
    World.awaiting := by
  have same := World.createElement_sameHandling (World.initial 0) "div" none
  have ready : (World.initial 0).Aside id
      ((((World.initial 0).createElement "div" none).2.createEvent "click" true).2.hold
        (.handler ⟨0⟩)) :=
    ⟨⟨same.handlers, same.maps, same.size, same.listeners, same.nextListener⟩, rfl⟩
  exact .cons (.other ready) (.cons (.listen Embedder.idle.host rfl)
    (.cons (.create Embedder.idle.host Nat.zero_lt_one)
      (.single (.set Embedder.idle_engines (s := .new ⟨0⟩ "click" .idle) rfl))))

/-- The handler has one callback when the dispatch begins, and another one is called. -/
theorem replaced_callback_is_called :
    (World.awaiting.handler? ⟨0⟩).map EventHandler.value = some (.compiled ⟨3⟩) ∧
    let turn := World.awaiting.midway Embedder.replacer.host ⟨0⟩ ⟨0⟩ [⟨⟨0⟩, "click", .external 0⟩]
    ∃ next, Response Embedder.replacer.host (.sink .console) ⟨0⟩
      (.object (World.awaiting.element ⟨0⟩).object) (some ⟨4⟩) turn next := by
  refine ⟨rfl, ?_⟩
  intro turn
  obtain ⟨-, -, dispatches⟩ := handlers_answer_with_current_callbacks id 0 Embedder.replacer
    Embedder.replacer_engines (fun _ _ _ w _ => .refl w)
    (fun index event w _ => Embedder.replacer_listen index event w) (fun _ _ w _ => .refl w)
  have waiting : (World.awaiting.element ⟨0⟩).listenersOf (World.awaiting.event ⟨0⟩).type =
      [⟨⟨0⟩, "click", .external 0⟩] ++
        ⟨⟨1⟩, "click", .runCallback (.handler ⟨0⟩) (.sink .console)⟩ :: [] := rfl
  obtain ⟨-, during, -, turns⟩ := dispatches _ _ World.awaiting_history ⟨0⟩ ⟨0⟩ _ _ _ waiting
  obtain ⟨s, callback, found, hs, -, -, -, -, finds, response⟩ := turns ⟨0⟩ (.sink .console) rfl rfl
  have hturn : turn.handler? ⟨0⟩ =
      some ⟨⟨0⟩, "click", .compiled ⟨4⟩, ⟨"click", some ⟨1⟩⟩, .idle⟩ := rfl
  have hlive : turn.isHandlerLive ⟨0⟩ = true := rfl
  rw [hturn] at hs
  cases hs
  cases finds with
  | unused unused => exact absurd (hlive.symm.trans unused) (by decide)
  | empty live value => cases value
  | compiled live pending success => cases pending
  | failed live pending failure => cases pending
  | given live value =>
    cases value
    exact ⟨_, response⟩

end WebBindings
