import Mathlib.Data.List.Induction
import WebBindings.Proofs.Handler.Reading
import WebBindings.Proofs.Node.Delivery
/-!
# Turns of listeners

A dispatch is a sequence of turns: whatever one listener does, the next one has its turn in the world
that it leaves. A listener that runs a callback calls it for the current target of the event, and the
result decides what follows.
-/

namespace WebBindings

variable {σ : Type}

/-- The world after the turn of a listener, which only runs if it is still registered. -/
def Listener.turn (host : Host σ) (target : ElementId) (event : EventId) (w : World σ)
    (l : Listener) : World σ :=
  if (w.element target).isRegistered l.id then after host (l.run event) w else w

theorem after_runListeners (host : Host σ) (target : ElementId) (event : EventId)
    (listeners : List Listener) (w : World σ) : after host (runListeners target event listeners) w =
      listeners.foldl (Listener.turn host target event) w := by
  induction listeners generalizing w with
  | nil => rfl
  | cons l rest ih =>
    rw [List.foldl_cons, ← ih, Listener.turn]
    cases hregistered : (w.element target).isRegistered l.id <;>
      simp [after, runListeners, hregistered]

namespace World

/-- The world in the middle of a dispatch, when the turns of some of its listeners are over. -/
def midway (w : World σ) (host : Host σ) (target : ElementId) (event : EventId)
    (earlier : List Listener) : World σ :=
  let element := w.element target
  let type := (w.event event).type
  let begun := w.begun host target event ("Dispatching '" ++ type ++ "' to <" ++ element.localName ++
    "> (" ++ toString (element.listenersOf type).length ++ " listeners)")
  earlier.foldl (Listener.turn host target event) begun

section Midway

variable (w : World σ) (host : Host σ) (target : ElementId) (event : EventId)

theorem midway_append (earlier later : List Listener) : w.midway host target event (earlier ++ later) =
    later.foldl (Listener.turn host target event) (w.midway host target event earlier) :=
  List.foldl_append

/-- What holds when a dispatch begins and is kept by each turn holds in the middle of the dispatch. -/
theorem midway_induction {P : World σ → Prop} {listeners : List Listener}
    (begun : P (w.midway host target event []))
    (turn : ∀ earlier l later, listeners = earlier ++ l :: later →
      P (w.midway host target event earlier) →
      P (l.turn host target event (w.midway host target event earlier))) :
    P (w.midway host target event listeners) := by
  induction listeners using List.reverseRecOn with
  | nil => exact begun
  | append_singleton earlier l ih =>
    rw [midway_append]
    refine turn earlier l [] rfl (ih fun before k rest hearlier => ?_)
    exact turn before k (rest ++ [l]) (by rw [hearlier, List.append_assoc, List.cons_append])

end Midway

end World

section Motions

variable {host : Host σ} {R : World σ → World σ → Prop} [Listening host R]

theorem Listener.turn_moves (target : ElementId) (event : EventId) (w : World σ) (l : Listener) :
    R w (l.turn host target event w) := by
  rw [turn]
  split
  · exact l.run_moves event w
  · exact refl_of R w

theorem World.midway_moves (w : World σ) (target : ElementId) (event : EventId)
    (listeners : List Listener) :
    R (w.midway host target event []) (w.midway host target event listeners) := by
  refine w.midway_induction host target event (P := R (w.midway host target event [])) ?_ ?_
  · exact refl_of R _
  · intro earlier l later _ hearlier
    exact trans_of R hearlier (l.turn_moves target event _)

end Motions

theorem outcome_dispatch_midway (host : Host σ) (target : ElementId) (event : EventId) (w : World σ) :
    outcome host (dispatch target event) w =
      let final := (w.midway host target event
        ((w.element target).listenersOf (w.event event).type)).ended target event
      (!(final.event event).canceled, final) := by
  simp only [dispatch, deliver, outcome_bind, outcome_get, outcome_modify, outcome_log, outcome_pure]
  rw [World.midway, ← after_runListeners]
  rfl

/-- What callbacks for an event see as `this`. -/
def Event.receiver (e : Event) : Value :=
  match e.currentTarget with
  | some o => .object o
  | none => .undefined

/-- What a listener does with the callback that it found, if any: one call with the event as the only
argument, unless the callback cannot be called. Only the result `false` cancels the event, and an
error is reported. -/
inductive Response (host : Host σ) (reporter : Reporter) (event : EventId) (receiver : Value) :
    Option ObjectId → World σ → World σ → Prop
  | nothing {callback w} (idle : ∀ c, callback = some c → w.heap.isCallable c = false)
    (message : String) :
    Response host reporter event receiver callback w (after host (log .trace message) w)
  | cancels {callback w w'} (callable : w.heap.isCallable callback = true)
    (called : host.invoke callback receiver [.object (w.event event).object] w =
      (.ok (.boolean false), w')) :
    Response host reporter event receiver (some callback) w (w'.cancelEvent event)
  | answers {callback w w' value} (callable : w.heap.isCallable callback = true)
    (called : host.invoke callback receiver [.object (w.event event).object] w = (.ok value, w'))
    (other : value ≠ .boolean false) :
    Response host reporter event receiver (some callback) w w'
  | fails {callback w w' error} (callable : w.heap.isCallable callback = true)
    (called : host.invoke callback receiver [.object (w.event event).object] w =
      (.error error, w')) :
    Response host reporter event receiver (some callback) w (after host (reporter.report error) w')

theorem Response.of_callable (host : Host σ) (reporter : Reporter) (event : EventId)
    {callback : ObjectId} {w : World σ} (callable : w.heap.isCallable callback = true) :
    Response host reporter event (w.event event).receiver (some callback) w
      (after host (runCallback callback reporter event) w) := by
  simp only [after, runCallback, invoke, outcome_bind, outcome_get, ExceptT.run_mk, outcome_read,
    outcome_modifyGet]
  generalize called : host.invoke callback _ _ w = answer
  obtain ⟨result, w'⟩ := answer
  cases result with
  | error error => exact .fails callable called
  | ok value =>
    cases value with
    | boolean b =>
      cases b with
      | false => exact .cancels callable called
      | true => exact .answers callable called (by simp)
    | _ => exact .answers callable called (by simp)

/-- The callback that the listener of a handler finds at its turn, and the world that this leaves: none
if nobody uses the handler, else the value that the handler has at that moment, for which a text is
compiled. -/
inductive Finds (host : Host σ) (h : HandlerId) (s : EventHandler) (w : World σ) :
    Option ObjectId → World σ → Prop
  | unused (unused : w.isHandlerLive h = false) : Finds host h s w none w
  | empty (live : w.isHandlerLive h = true) (value : s.value = .none) : Finds host h s w none w
  | given {callback} (live : w.isHandlerLive h = true) (value : s.value = .compiled callback) :
    Finds host h s w (some callback) w
  | compiled {source function w'} (live : w.isHandlerLive h = true)
    (pending : s.value = .uncompiled source)
    (success : outcome host (s.environment.compile source s.type s.target) w = (.ok function, w')) :
    Finds host h s w (some function) (after host (h.setValue (.compiled function)) w')
  | failed {source error w'} (live : w.isHandlerLive h = true)
    (pending : s.value = .uncompiled source)
    (failure : outcome host (s.environment.compile source s.type s.target) w = (.error error, w')) :
    Finds host h s w none (after host (do
      log .debug ("Failed to compile on" ++ s.type ++ " handler: " ++ error.shown)
      h.setValue .none
      s.environment.reporter.report error.toScriptError) w')

theorem Finds.of_current (host : Host σ) {h : HandlerId} {s : EventHandler} {w : World σ}
    (found : w.handler? h = some s) : Finds host h s w
      (outcome host (CallbackSource.handler h).current w).1
      (outcome host (CallbackSource.handler h).current w).2 := by
  cases live : w.isHandlerLive h with
  | false =>
    have hcurrent : outcome host (CallbackSource.handler h).current w = (none, w) := by
      simp [CallbackSource.current, live]
    rw [hcurrent]
    exact .unused live
  | true =>
    have hcurrent : outcome host (CallbackSource.handler h).current w = outcome host h.current w := by
      simp [CallbackSource.current, live]
    rw [hcurrent]
    cases value : s.value with
    | none =>
      rw [h.current_of_none host found value]
      exact .empty live value
    | compiled callback =>
      rw [h.current_of_compiled host found value]
      exact .given live value
    | uncompiled source =>
      obtain ⟨⟨result, w'⟩, compiled⟩ : ∃ answer,
          outcome host (s.environment.compile source s.type s.target) w = answer := ⟨_, rfl⟩
      cases result with
      | ok function =>
        rw [h.current_of_success host found value compiled]
        exact .compiled live value compiled
      | error error =>
        rw [h.current_of_failure host found value compiled]
        exact .failed live value compiled

theorem Finds.events {host : Host σ} {h : HandlerId} {s : EventHandler} {w w' : World σ}
    {callback : ObjectId} (finds : Finds host h s w (some callback) w') : w'.events = w.events := by
  cases finds with
  | given _ _ => rfl
  | @compiled source _ w' _ _ success =>
    have hcomputed : w.Computed (after host (s.environment.compile source s.type s.target) w) :=
      s.environment.compile_computed source s.type s.target w
    rw [after, success] at hcomputed
    exact hcomputed.events

theorem CallbackSource.events_of_current {host : Host σ} {source : CallbackSource} {w w' : World σ}
    {callback : ObjectId} (current : outcome host source.current w = (some callback, w')) :
    w'.events = w.events := by
  cases source with
  | handler h =>
    cases found : w.handler? h with
    | none =>
      cases live : w.isHandlerLive h <;>
        simp [CallbackSource.current, HandlerId.current, live, found] at current
    | some s =>
      have finds := Finds.of_current host found
      rw [current] at finds
      exact finds.events
  | external index =>
    have hevents : (outcome host (external index).current w).2.events = w.events := rfl
    rw [current] at hevents
    exact hevents

theorem Listener.run_response (host : Host σ) (event : EventId) {l : Listener}
    {source : CallbackSource} {reporter : Reporter} (made : l.action = .runCallback source reporter)
    {w w' : World σ} {callback : Option ObjectId}
    (current : outcome host source.current w = (callback, w')) :
    Response host reporter event (w.event event).receiver callback w'
      (after host (l.run event) w) := by
  cases callback with
  | none =>
    have hrun : after host (l.run event) w =
        after host (log .trace ("on" ++ l.type ++ " fired with no handler value")) w' := by
      simp [after, run, made, current]
    rw [hrun]
    exact .nothing (fun c hc => absurd hc (Option.some_ne_none c).symm) _
  | some callback =>
    cases callable : w'.heap.isCallable callback with
    | false =>
      have hrun : after host (l.run event) w =
          after host (log .trace ("on" ++ l.type ++ " holds a non-callable value; ignoring")) w' := by
        simp [after, run, made, current, callable]
      rw [hrun]
      refine .nothing (fun c hc => ?_) _
      rw [← Option.some.inj hc]
      exact callable
    | true =>
      have hrun : after host (l.run event) w = after host (runCallback callback reporter event) w' := by
        simp [after, run, made, current, callable]
      have hevent : w'.event event = w.event event := by
        rw [World.event, World.event, CallbackSource.events_of_current current]
      rw [hrun, ← hevent]
      exact .of_callable host reporter event callable

end WebBindings
