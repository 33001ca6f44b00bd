import WebBindings.Proofs.Node.Events
import WebBindings.Proofs.Node.Turns
/-!
# The current target of an event

While an event is dispatched to an element, its current target is the object of this element, whatever
listeners do, as long as they do not dispatch the same event again. An event has one current target
only: a dispatch of the same event in between ends without one, and then the listeners that still wait
find none.
-/

namespace WebBindings

variable {σ : Type}

/-- The current target of an event is the same, unless the event was dispatched again and has none. -/
def World.Retargets (event : EventId) (again : Bool) (w w' : World σ) : Prop :=
  (w'.event event).currentTarget = (w.event event).currentTarget ∨
    again = true ∧ (w'.event event).currentTarget = none

namespace World.Retargets

variable {event : EventId} {again : Bool} {w w' w'' : World σ}

theorem of_events (same : w'.events = w.events) : w.Retargets event again w' := by
  refine .inl ?_
  rw [World.event, World.event, same]

theorem trans (first : w.Retargets event again w') (second : w'.Retargets event again w'') :
    w.Retargets event again w'' := by
  obtain hsame | hnone := second
  · rw [World.Retargets, hsame]
    exact first
  · exact .inr hnone

instance : IsPreorder (World σ) (World.Retargets event again) where
  refl _ := of_events rfl
  trans _ _ _ := trans

theorem cancelEvent (w : World σ) (other : EventId) :
    w.Retargets event again (w.cancelEvent other) := by
  refine .inl ?_
  rw [event_cancelEvent]
  split <;> rfl

theorem setCurrentTarget (w : World σ) {other : EventId} (different : other ≠ event)
    (target : Option ObjectId) : w.Retargets event again (w.setCurrentTarget other target) := by
  refine .inl ?_
  rw [event_setCurrentTarget, if_neg fun same => different same.1]

end World.Retargets

/-- What functions, listeners and sinks of an embedder do leaves the current target of an event, or
dispatches this event again. -/
structure Embedder.Retargets (e : Embedder σ) (event : EventId) (again : Bool) : Prop where
  call (index : Nat) (receiver : Value) (arguments : List Value) (w : World σ) :
    w.Retargets event again (e.call index receiver arguments w).2
  listen (index : Nat) (other : EventId) (w : World σ) :
    w.Retargets event again (e.listen index other w)
  react (sink : Sink) (error : ScriptError) (w : World σ) :
    w.Retargets event again (e.react sink error w)

theorem World.event_ended (w : World σ) (target : ElementId) (event : EventId) :
    (w.ended target event).event event = (w.setCurrentTarget event none).event event := rfl

theorem currentTarget_dispatch (host : Host σ) (target : ElementId) (event : EventId) (w : World σ) :
    ((after host (dispatch target event) w).event event).currentTarget = none := by
  simp only [after, outcome_dispatch_midway, World.event_ended]
  exact World.currentTarget_setCurrentTarget_none _ event

namespace Embedder.Retargets

variable {e : Embedder σ} {event : EventId} {again : Bool} (retargets : e.Retargets event again)

include retargets

theorem operating : Operating e.host (World.Retargets event again) :=
  e.operating_of_events .of_events World.Retargets.cancelEvent retargets.call retargets.listen
    retargets.react

theorem dispatch (target : ElementId) {other : EventId} (permitted : again = false → other ≠ event) :
    Moves e.host (World.Retargets event again) (dispatch target other) := by
  have := retargets.operating
  by_cases hother : other = event
  · subst other
    have hagain : again = true := Bool.of_not_eq_false fun h => permitted h rfl
    exact fun w => .inr ⟨hagain, currentTarget_dispatch e.host target event w⟩
  · exact dispatch_moves target fun w shown => .setCurrentTarget w hother shown

theorem perform (op : Operation) (permitted : again = false → ∀ t, op ≠ .dispatch t event) :
    ScriptMoves e.host (World.Retargets event again) op.perform := by
  have := retargets.operating
  refine op.perform_moves fun t other hop => retargets.dispatch t fun h hother => ?_
  exact permitted h t (hother ▸ hop)

end Embedder.Retargets

/-- What can become of a world in the middle of a dispatch: any operations, also dispatches of other
events, and of the same event if it may be dispatched again. Nothing else changes the current target
of the event. -/
inductive Interlude (event : EventId) (again : Bool) : World σ → World σ → Prop
  | refl (w) : Interlude event again w w
  | aside {w w' w''} (interlude : Interlude event again w w')
    (same : (w''.event event).currentTarget = (w'.event event).currentTarget) :
    Interlude event again w w''
  | operate {w w'} (interlude : Interlude event again w w') (e : Embedder σ)
    (call : ∀ index receiver arguments w,
      Interlude event again w (e.call index receiver arguments w).2)
    (listen : ∀ index other w, Interlude event again w (e.listen index other w))
    (react : ∀ sink error w, Interlude event again w (e.react sink error w)) (op : Operation)
    (permitted : again = false → ∀ t, op ≠ .dispatch t event) :
    Interlude event again w (after e.host op.perform.run w')

theorem Interlude.retargets {event : EventId} {again : Bool} {w w' : World σ}
    (interlude : Interlude event again w w') : w.Retargets event again w' := by
  induction interlude with
  | refl w => exact refl_of (World.Retargets event again) w
  | aside _ same ih => exact ih.trans (.inl same)
  | operate _ e _ _ _ op permitted ih call listen react =>
    have retargets : e.Retargets event again := ⟨call, listen, react⟩
    exact ih.trans (retargets.perform op permitted _)

section Midway

variable {w : World σ} {host : Host σ} {target : ElementId} {event : EventId}

theorem World.event_begun (present : event.index < w.events.size) :
    (w.midway host target event []).event event =
      { w.event event with currentTarget := some (w.element target).object } := by
  refine (World.event_setCurrentTarget _ event event _).trans ?_
  exact if_pos ⟨rfl, present⟩

/-- An event that is faithful when a dispatch begins stays so if the listeners keep it faithful. -/
theorem World.Faithful.midway {other : EventId} {listeners : List Listener} (faithful : w.Faithful event)
    (kept : ∀ earlier l later, listeners = earlier ++ l :: later →
      (w.midway host target other earlier).Faithful event →
      (l.turn host target other (w.midway host target other earlier)).Faithful event) :
    (w.midway host target other listeners).Faithful event := by
  refine w.midway_induction host target other (P := fun w => w.Faithful event) ?_ kept
  refine World.Faithful.setCurrentTarget ?_ other _
  exact faithful.congr rfl rfl

theorem World.Faithful.dispatch {other : EventId} (faithful : w.Faithful event)
    (kept : ∀ earlier l later, (w.element target).listenersOf (w.event other).type =
      earlier ++ l :: later → (w.midway host target other earlier).Faithful event →
      (l.turn host target other (w.midway host target other earlier)).Faithful event) :
    (after host (dispatch target other) w).Faithful event := by
  have hturns := (faithful.midway kept).setCurrentTarget other none
  rw [after, outcome_dispatch_midway]
  exact hturns.congr rfl rfl

end Midway

/-- Where no listener dispatches the event again, each of its listeners starts with the object of the
element as the current target, which callbacks receive as `this`; otherwise it starts with this object
or without a current target. Scripts see the same as long as the turns of listeners keep the event
faithful. After a dispatch there is no current target. -/
theorem current_target_at_turns (e : Embedder σ) {event : EventId} {again : Bool}
    (call : ∀ index receiver arguments w,
      Interlude event again w (e.call index receiver arguments w).2)
    (listen : ∀ index other w, Interlude event again w (e.listen index other w))
    (react : ∀ sink error w, Interlude event again w (e.react sink error w)) {w : World σ}
    (present : event.index < w.events.size) (target : ElementId) :
    let object := (w.element target).object
    let listeners := (w.element target).listenersOf (w.event event).type
    let ended := after e.host (dispatch target event) w
    (∀ earlier l later, listeners = earlier ++ l :: later →
      let turn := w.midway e.host target event earlier
      ((turn.event event).currentTarget = some object ∨
        again = true ∧ (turn.event event).currentTarget = none) ∧
      ∀ source reporter, l.action = .runCallback source reporter → ∀ callback w',
        outcome e.host source.current turn = (some callback, w') →
        Response e.host reporter event (turn.event event).receiver (some callback) w'
          (after e.host (l.run event) turn)) ∧
    (ended.event event).currentTarget = none ∧
    (w.Faithful event →
      (∀ earlier l later, listeners = earlier ++ l :: later →
        (w.midway e.host target event earlier).Faithful event →
        (l.turn e.host target event (w.midway e.host target event earlier)).Faithful event) →
      (∀ earlier l later, listeners = earlier ++ l :: later →
        let turn := w.midway e.host target event earlier
        turn.heap.getText (turn.event event).object "currentTarget" =
          (turn.event event).shownTarget) ∧
      ended.Faithful event ∧
      ended.heap.getText (ended.event event).object "currentTarget" = .null) := by
  have retargets : e.Retargets event again :=
    ⟨fun index receiver arguments w => (call index receiver arguments w).retargets,
      fun index other w => (listen index other w).retargets,
      fun sink error w => (react sink error w).retargets⟩
  have := retargets.operating
  have hended := currentTarget_dispatch e.host target event w
  intro object listeners ended
  refine ⟨fun earlier l later _ => ⟨?_, fun source reporter made callback w' current => ?_⟩, hended,
    fun faithful kept => ⟨fun earlier l later hwaiting => ?_, faithful.dispatch kept, ?_⟩⟩
  · have hturn : (w.midway e.host target event []).Retargets event again
        (w.midway e.host target event earlier) := w.midway_moves target event earlier
    obtain hsame | hnone := hturn
    · rw [hsame, World.event_begun present]
      exact .inl rfl
    · exact .inr hnone
  · exact Listener.run_response e.host event made current
  · refine World.Faithful.get (faithful.midway fun before k after hbefore => ?_)
    refine kept before k (after ++ l :: later) ?_
    rw [hwaiting, hbefore, List.append_assoc, List.cons_append]
  · rw [(faithful.dispatch kept).get, Event.shownTarget, hended]

/-- The listener `0` of this embedder dispatches an event to another element. -/
def Embedder.relay (event : EventId) : Embedder Nat :=
  { Embedder.idle with
    listen := fun index _ w => if index = 0 then (Operation.dispatch ⟨1⟩ event).alone w else w }

theorem Embedder.relay_listen {event other : EventId} (different : other ≠ event) (index : Nat)
    (u : EventId) (w : World Nat) : Interlude event false w ((relay other).listen index u w) := by
  rw [relay]
  dsimp only
  split
  · refine .operate (.refl w) Embedder.idle (fun _ _ _ w => .refl w) (fun _ _ w => .refl w)
      (fun _ _ w => .refl w) _ fun _ t hsame => ?_
    cases hsame
    exact different rfl
  · exact .refl w

/-- Two elements, one of them with two listeners. -/
def World.listening : World Nat :=
  let made := (((World.initial 0).createElement "div" none).2.createElement "div" none).2
  (Operation.addListener ⟨0⟩ "click" (.external 1)).alone
    ((Operation.addListener ⟨0⟩ "click" (.external 0)).alone made)

/-- The same with two events. -/
def World.paired : World Nat :=
  ((World.listening.createEvent "click" true).2.createEvent "click" true).2

theorem World.listening_housed : World.listening.Housed := by
  intro v
  rw [World.event_of_absent _ (Nat.not_lt_zero v.index)]
  decide

theorem World.paired_faithful : World.paired.Faithful ⟨1⟩ := by
  have hsize : (World.listening.createEvent "click" true).2.events.size = 1 := by decide
  have faithful := (World.listening_housed.createEvent "click" true).faithful "click" true
  rw [hsize] at faithful
  exact faithful

theorem World.paired_listeners :
    (World.paired.element ⟨0⟩).listenersOf (World.paired.event ⟨1⟩).type =
      [⟨⟨0⟩, "click", .external 0⟩, ⟨⟨1⟩, "click", .external 1⟩] := by decide

/-- The first listener dispatches another event, and the second one still sees its element. -/
theorem second_listener_sees_its_element :
    let turn := World.paired.midway (Embedder.relay ⟨0⟩).host ⟨0⟩ ⟨1⟩ [⟨⟨0⟩, "click", .external 0⟩]
    (turn.event ⟨1⟩).currentTarget = some (World.paired.element ⟨0⟩).object ∧
      turn.heap.getText (turn.event ⟨1⟩).object "currentTarget" =
        .object (World.paired.element ⟨0⟩).object := by
  have different : (⟨0⟩ : EventId) ≠ ⟨1⟩ := by decide
  obtain ⟨turns, -, shows⟩ := current_target_at_turns (Embedder.relay ⟨0⟩)
    (fun _ _ _ w => .refl w) (Embedder.relay_listen different)
    (fun _ _ w => .refl w) (w := World.paired) (by decide) ⟨0⟩
  obtain ⟨htarget, -⟩ := turns [_] _ [] World.paired_listeners
  obtain htarget | ⟨hagain, -⟩ := htarget
  · refine ⟨htarget, ?_⟩
    have hshows := (shows World.paired_faithful fun earlier l later hwaiting faithful => ?_).1 [_] _ []
      World.paired_listeners
    · rw [hshows, Event.shownTarget, htarget]
    · rw [World.paired_listeners] at hwaiting
      obtain _ | ⟨first, _ | ⟨second, rest⟩⟩ := earlier
      · cases hwaiting
        let begun := World.paired.midway (Embedder.relay ⟨0⟩).host ⟨0⟩ ⟨1⟩ []
        have hturn : Listener.turn (Embedder.relay ⟨0⟩).host ⟨0⟩ ⟨1⟩ begun
            ⟨⟨0⟩, "click", .external 0⟩ = after Embedder.idle.host (dispatch ⟨1⟩ ⟨0⟩) begun := rfl
        have hunheard : (begun.element ⟨1⟩).listenersOf (begun.event ⟨0⟩).type = [] := by decide
        rw [hturn]
        refine faithful.dispatch fun before k rest hheard => ?_
        rw [hunheard] at hheard
        simp at hheard
      · cases hwaiting
        exact faithful
      · simp at hwaiting
  · cases hagain

/-- If the first listener dispatches the same event to another element, the second one finds no
current target, and a callback would be called for `undefined`. -/
theorem second_listener_finds_no_target :
    (World.paired.element ⟨0⟩).listenersOf (World.paired.event ⟨1⟩).type =
      [⟨⟨0⟩, "click", .external 0⟩, ⟨⟨1⟩, "click", .external 1⟩] ∧
    let turn := World.paired.midway (Embedder.relay ⟨1⟩).host ⟨0⟩ ⟨1⟩ [⟨⟨0⟩, "click", .external 0⟩]
    (turn.element ⟨0⟩).isRegistered ⟨1⟩ = true ∧ (turn.event ⟨1⟩).currentTarget = none ∧
      (turn.event ⟨1⟩).receiver = .undefined ∧
      turn.heap.getText (turn.event ⟨1⟩).object "currentTarget" = .null := by
  refine ⟨World.paired_listeners, ?_⟩
  decide +kernel

end WebBindings
