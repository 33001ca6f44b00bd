import Mathlib.Data.Set.Defs
import WebBindings.Proofs.Heap.Inheritance
import WebBindings.Proofs.Node.CurrentTarget
/-!
# Events and what scripts see of them

An event keeps its cancellation and its current target twice, in its record and in two properties of its
object. The record alone decides about cancellation, whatever operations, programs and listeners do.
Scripts see what it holds as long as nobody else changes the two properties, however deeply dispatches
are nested.
-/

namespace WebBindings

variable {σ : Type}

/-- An event stays what it is, and a cancellation is only added, to an event that can be canceled. -/
structure Event.Advances (e e' : Event) : Prop where
  object : e'.object = e.object
  cancelable : e'.cancelable = e.cancelable
  kept : e.canceled = true → e'.canceled = true
  sound : (e.canceled = true → e.cancelable = true) → e'.canceled = true → e'.cancelable = true

/-- An event stays there and advances. -/
def World.Advances (event : EventId) (w w' : World σ) : Prop :=
  event.index < w.events.size →
    event.index < w'.events.size ∧ (w.event event).Advances (w'.event event)

namespace Event.Advances

variable {e e' e'' : Event}

theorem refl (e : Event) : e.Advances e := ⟨rfl, rfl, id, id⟩

theorem trans (first : e.Advances e') (second : e'.Advances e'') : e.Advances e'' where
  object := second.object.trans first.object
  cancelable := second.cancelable.trans first.cancelable
  kept := second.kept ∘ first.kept
  sound sound := second.sound (first.sound sound)

theorem cancel (e : Event) : e.Advances { e with canceled := e.canceled || e.cancelable } where
  object := rfl
  cancelable := rfl
  kept canceled := by simp [canceled]
  sound sound := by
    intro canceled
    cases before : e.canceled with
    | true => exact sound before
    | false => simpa [before] using canceled

theorem retarget (e : Event) (target : Option ObjectId) :
    e.Advances { e with currentTarget := target } := ⟨rfl, rfl, id, id⟩

end Event.Advances

namespace World

variable (w : World σ)

theorem size_events_cancelEvent (event : EventId) : (w.cancelEvent event).events.size = w.events.size := by
  rw [cancelEvent]
  split
  · simp [modifyHeap, modifyEvent]
  · rfl

theorem size_events_setCurrentTarget (event : EventId) (target : Option ObjectId) :
    (w.setCurrentTarget event target).events.size = w.events.size := by
  simp [setCurrentTarget, modifyHeap, modifyEvent]

theorem size_events_createEvent (type : String) (cancelable : Bool) :
    (w.createEvent type cancelable).2.events.size = w.events.size + 1 := by
  simp [createEvent]

end World

namespace World.Advances

variable {event : EventId} {w w' w'' : World σ}

theorem of_events (same : w'.events = w.events) : w.Advances event w' := by
  intro present
  rw [World.event, World.event, same]
  exact ⟨present, .refl _⟩

theorem trans (first : w.Advances event w') (second : w'.Advances event w'') : w.Advances event w'' := by
  intro present
  obtain ⟨present', advances⟩ := first present
  obtain ⟨present'', advances'⟩ := second present'
  exact ⟨present'', advances.trans advances'⟩

instance : IsPreorder (World σ) (World.Advances event) where
  refl _ := of_events rfl
  trans _ _ _ := trans

theorem cancelEvent (w : World σ) (other : EventId) : w.Advances event (w.cancelEvent other) := by
  intro present
  rw [size_events_cancelEvent, event_cancelEvent]
  split
  · exact ⟨present, .cancel _⟩
  · exact ⟨present, .refl _⟩

theorem setCurrentTarget (w : World σ) (other : EventId) (target : Option ObjectId) :
    w.Advances event (w.setCurrentTarget other target) := by
  intro present
  rw [size_events_setCurrentTarget, event_setCurrentTarget]
  split
  · exact ⟨present, .retarget _ _⟩
  · exact ⟨present, .refl _⟩

theorem createEvent (w : World σ) (type : String) (cancelable : Bool) :
    w.Advances event (w.createEvent type cancelable).2 := by
  intro present
  have different : event ≠ ⟨w.events.size⟩ := by
    rintro rfl
    exact Nat.lt_irrefl _ present
  rw [size_events_createEvent, event_createEvent, if_neg different]
  exact ⟨Nat.lt_succ_of_lt present, .refl _⟩

end World.Advances

/-- What can become of a world: events are made, canceled and given targets, there are other changes that
leave the events alone, and any operations happen, in which functions, listeners and sinks of an embedder
do the same. -/
inductive Proceeding : World σ → World σ → Prop
  | refl (w) : Proceeding w w
  | aside {w w' w''} (proceeding : Proceeding w w') (events : w''.events = w'.events) : Proceeding w w''
  | make {w w'} (proceeding : Proceeding w w') (type : String) (cancelable : Bool) :
    Proceeding w (w'.createEvent type cancelable).2
  | cancel {w w'} (proceeding : Proceeding w w') (event : EventId) : Proceeding w (w'.cancelEvent event)
  | retarget {w w'} (proceeding : Proceeding w w') (event : EventId) (target : Option ObjectId) :
    Proceeding w (w'.setCurrentTarget event target)
  | operate {w w'} (proceeding : Proceeding w w') (e : Embedder σ)
    (call : ∀ index receiver arguments w, Proceeding w (e.call index receiver arguments w).2)
    (listen : ∀ index event w, Proceeding w (e.listen index event w))
    (react : ∀ sink error w, Proceeding w (e.react sink error w)) (op : Operation) :
    Proceeding w (after e.host op.perform.run w')

theorem Proceeding.advances {w w' : World σ} (proceeding : Proceeding w w') (event : EventId) :
    w.Advances event w' := by
  induction proceeding with
  | refl w => exact refl_of (World.Advances event) w
  | aside _ events ih => exact ih.trans (.of_events events)
  | make _ type cancelable ih => exact ih.trans (.createEvent _ type cancelable)
  | cancel _ other ih => exact ih.trans (.cancelEvent _ other)
  | retarget _ other target ih => exact ih.trans (.setCurrentTarget _ other target)
  | operate _ e _ _ _ op ih call listen react =>
    have : Operating e.host (World.Advances event) :=
      e.operating_of_events .of_events World.Advances.cancelEvent call listen react
    have performs : ScriptMoves e.host (World.Advances event) op.perform :=
      op.perform_moves fun target other _ =>
        dispatch_moves target fun w shown => .setCurrentTarget w other shown
    exact ih.trans (performs _)

/-- The record of an event is sound, and its object shows its cancellation and its current target. -/
structure World.Coherent (w : World σ) (event : EventId) : Prop extends w.Faithful event where
  sound : (w.event event).canceled = true → (w.event event).cancelable = true
  prevented : w.heap.own? (w.event event).object (.ofText "defaultPrevented") =
    some (.data (.boolean (w.event event).canceled))

/-- An object keeps its properties that show the state of an event, also their flags. -/
def World.Spares (object : ObjectId) (w w' : World σ) : Prop :=
  ∀ name ∈ ["defaultPrevented", "currentTarget"],
    w'.heap.own? object (.ofText name) = w.heap.own? object (.ofText name)

namespace World.Coherent

variable {w w' : World σ} {event : EventId}

theorem defaultPrevented (coherent : w.Coherent event) :
    w.heap.getText (w.event event).object "defaultPrevented" = .boolean (w.event event).canceled :=
  Heap.get_of_own? coherent.prevented coherent.housed

theorem aside (coherent : w.Coherent event) (events : w'.events = w.events)
    (spares : w.Spares (w.event event).object w') : w'.Coherent event := by
  have hevent (v : EventId) : w'.event v = w.event v := by rw [World.event, World.event, events]
  have hprevented := (spares "defaultPrevented" (by simp)).trans coherent.prevented
  have hshows := (spares "currentTarget" (by simp)).trans coherent.shows
  refine ⟨⟨?_, ?_, ?_, ?_⟩, ?_, ?_⟩
  · rw [events]
    exact coherent.present
  · rw [hevent]
    exact Heap.housed_of_own? hprevented
  · rw [hevent]
    exact hshows
  · simpa only [hevent] using coherent.apart
  · rw [hevent]
    exact coherent.sound
  · rw [hevent]
    exact hprevented

theorem setCurrentTarget (coherent : w.Coherent event) (other : EventId) (target : Option ObjectId) :
    (w.setCurrentTarget other target).Coherent event := by
  obtain ⟨-, advances⟩ := World.Advances.setCurrentTarget w other target coherent.present
  have canceled : ((w.setCurrentTarget other target).event event).canceled = (w.event event).canceled := by
    rw [event_setCurrentTarget]
    split <;> rfl
  refine ⟨coherent.toFaithful.setCurrentTarget other target, advances.sound coherent.sound, ?_⟩
  rw [advances.object, canceled, ← coherent.prevented]
  exact (Heap.sameBut_set ..).own?_eq (.inr (by decide))

theorem cancelEvent (coherent : w.Coherent event) (other : EventId) :
    (w.cancelEvent other).Coherent event := by
  by_cases hcancel : ((w.event other).cancelable && !(w.event other).canceled) = true
  · obtain ⟨present, advances⟩ := World.Advances.cancelEvent w other coherent.present
    have heap : (w.cancelEvent other).heap =
        (w.heap.set (w.event other).object (.ofText "defaultPrevented") (.boolean true)).2 := by
      rw [World.cancelEvent, if_pos hcancel]
      rfl
    have same := Heap.sameBut_set w.heap (w.event other).object (.ofText "defaultPrevented") (.boolean true)
    have hobject (v : EventId) : ((w.cancelEvent other).event v).object = (w.event v).object := by
      rw [event_cancelEvent]
      split <;> rfl
    have shown : ((w.cancelEvent other).event event).shownTarget = (w.event event).shownTarget := by
      rw [event_cancelEvent]
      split <;> rfl
    refine ⟨⟨present, ?_, ?_, ?_⟩, advances.sound coherent.sound, ?_⟩
    · rw [hobject, heap, same.size]
      exact coherent.housed
    · rw [hobject, shown, heap, same.own?_eq (.inr (by decide))]
      exact coherent.shows
    · simpa only [hobject] using coherent.apart
    · rw [hobject, heap, event_cancelEvent]
      by_cases here : other = event
      · subst other
        obtain ⟨cancelable, -⟩ := Bool.and_eq_true_iff.1 hcancel
        rw [if_pos rfl, Heap.own?_set_self coherent.prevented rfl coherent.housed]
        simp only [cancelable, Bool.or_true]
        rfl
      · rw [if_neg here, same.own?_eq (.inl (coherent.apart other here).symm)]
        exact coherent.prevented
  · rw [World.cancelEvent, if_neg hcancel]
    exact coherent

theorem createEvent (coherent : w.Coherent event) (type : String) (cancelable : Bool) :
    (w.createEvent type cancelable).2.Coherent event := by
  obtain ⟨present, -⟩ := World.Advances.createEvent w type cancelable coherent.present
  have different : event ≠ ⟨w.events.size⟩ := by
    rintro rfl
    exact Nat.lt_irrefl _ coherent.present
  have record : (w.createEvent type cancelable).2.event event = w.event event := by
    rw [event_createEvent, if_neg different]
  have hobject := w.object_createEvent type cancelable coherent.housed
  refine ⟨⟨present, ?_, ?_, ?_⟩, ?_, ?_⟩
  · rw [record, size_createEvent]
    exact Nat.lt_add_right 2 coherent.housed
  · rw [record, Heap.own?, hobject]
    exact coherent.shows
  · intro other hother
    rw [record, event_createEvent]
    split
    · intro same
      have housed := coherent.housed
      rw [← same] at housed
      exact Nat.not_succ_lt_self housed
    · exact coherent.apart other hother
  · rw [record]
    exact coherent.sound
  · rw [record, Heap.own?, hobject]
    exact coherent.prevented

end World.Coherent

theorem World.Housed.coherent {w : World σ} (housed : w.Housed) (type : String) (cancelable : Bool) :
    (w.createEvent type cancelable).2.Coherent ⟨w.events.size⟩ := by
  have record : (w.createEvent type cancelable).2.event ⟨w.events.size⟩ =
      ⟨type, cancelable, false, none, ⟨w.heap.objects.size + 1⟩⟩ := by
    rw [event_createEvent, if_pos rfl]
  refine ⟨housed.faithful type cancelable, ?_, ?_⟩
  · simp [record]
  · rw [record, Heap.own?, object_createEvent_self, Event.describe]
    simp only [Object.define]
    rw [OrderedMap.get?_insert_of_ne _ _ (by decide), OrderedMap.get?_insert_of_ne _ _ (by decide),
      OrderedMap.get?_insert_self]

/-- What can become of a world while nobody but the events themselves changes the two properties of an
object: events are made, canceled, by scripts as well, given targets and dispatched to listeners whose
turns are of the same kind, and there are other changes that spare the object and leave the events
alone. A run may end between the turns of a dispatch. -/
inductive Passage (object : ObjectId) : World σ → World σ → Prop
  | refl (w) : Passage object w w
  | aside {w w' w''} (passage : Passage object w w') (events : w''.events = w'.events)
    (spares : w'.Spares object w'') : Passage object w w''
  | make {w w'} (passage : Passage object w w') (type : String) (cancelable : Bool) :
    Passage object w (w'.createEvent type cancelable).2
  | cancel {w w'} (passage : Passage object w w') (event : EventId) :
    Passage object w (w'.cancelEvent event)
  | call {w w'} (passage : Passage object w w') (e : Embedder σ) (depth : Nat) {f : ObjectId}
    {event : EventId} (function : (w'.heap.object f).behavior = some (.preventDefault event))
    (receiver : Value) (arguments : List Value) :
    Passage object w (e.invoke depth f receiver arguments w').2
  | retarget {w w'} (passage : Passage object w w') (event : EventId) (target : Option ObjectId) :
    Passage object w (w'.setCurrentTarget event target)
  | between {w w'} (passage : Passage object w w') (host : Host σ) (target : ElementId) (event : EventId)
    {earlier later : List Listener}
    (listeners : (w'.element target).listenersOf (w'.event event).type = earlier ++ later)
    (turns : ∀ before l rest, earlier = before ++ l :: rest →
      Passage object (w'.midway host target event before)
        (l.turn host target event (w'.midway host target event before))) :
    Passage object w (w'.midway host target event earlier)
  | dispatch {w w'} (passage : Passage object w w') (host : Host σ) (target : ElementId) (event : EventId)
    (turns : ∀ before l rest, (w'.element target).listenersOf (w'.event event).type = before ++ l :: rest →
      Passage object (w'.midway host target event before)
        (l.turn host target event (w'.midway host target event before))) :
    Passage object w (after host (WebBindings.dispatch target event) w')

/-- A coherent event with a given object stays coherent and advances. -/
def World.Upholds (event : EventId) (object : ObjectId) (w w' : World σ) : Prop :=
  w.Coherent event → (w.event event).object = object →
    w'.Coherent event ∧ (w.event event).Advances (w'.event event)

namespace World.Upholds

variable {event : EventId} {object : ObjectId} {w w' w'' : World σ}

theorem trans (first : w.Upholds event object w') (second : w'.Upholds event object w'') :
    w.Upholds event object w'' := by
  intro coherent hobject
  obtain ⟨coherent', advances⟩ := first coherent hobject
  obtain ⟨coherent'', advances'⟩ := second coherent' (advances.object.trans hobject)
  exact ⟨coherent'', advances.trans advances'⟩

instance : IsPreorder (World σ) (World.Upholds event object) where
  refl _ coherent _ := ⟨coherent, .refl _⟩
  trans _ _ _ := trans

theorem of_advances (advances : w.Advances event w') (coherent : w.Coherent event → w'.Coherent event) :
    w.Upholds event object w' :=
  fun before _ => ⟨coherent before, (advances before.present).2⟩

theorem aside (events : w'.events = w.events) (spares : w.Spares object w') :
    w.Upholds event object w' := by
  rintro coherent rfl
  exact ⟨coherent.aside events spares, (World.Advances.of_events events coherent.present).2⟩

theorem of_eq (events : w'.events = w.events) (heap : w'.heap = w.heap) : w.Upholds event object w' :=
  aside events fun name _ => by rw [heap]

theorem cancelEvent (w : World σ) (other : EventId) : w.Upholds event object (w.cancelEvent other) :=
  of_advances (.cancelEvent w other) fun coherent => coherent.cancelEvent other

theorem setCurrentTarget (w : World σ) (other : EventId) (target : Option ObjectId) :
    w.Upholds event object (w.setCurrentTarget other target) :=
  of_advances (.setCurrentTarget w other target) fun coherent => coherent.setCurrentTarget other target

theorem createEvent (w : World σ) (type : String) (cancelable : Bool) :
    w.Upholds event object (w.createEvent type cancelable).2 :=
  of_advances (.createEvent w type cancelable) fun coherent => coherent.createEvent type cancelable

theorem begun (w : World σ) (host : Host σ) (target : ElementId) (other : EventId) :
    w.Upholds event object (w.midway host target other []) := by
  refine trans ?_ (setCurrentTarget _ other _)
  exact of_eq rfl rfl

theorem midway {host : Host σ} {target : ElementId} {other : EventId} {listeners : List Listener}
    (turns : ∀ before l rest, listeners = before ++ l :: rest →
      (w.midway host target other before).Upholds event object
        (l.turn host target other (w.midway host target other before))) :
    w.Upholds event object (w.midway host target other listeners) := by
  apply w.midway_induction host target other (P := fun w' => w.Upholds event object w')
  · exact begun w host target other
  · intro before l rest hlisteners upheld
    exact upheld.trans (turns before l rest hlisteners)

end World.Upholds

theorem Embedder.invoke_preventDefault (e : Embedder σ) (depth : Nat) {w : World σ} {f : ObjectId}
    {event : EventId} (function : (w.heap.object f).behavior = some (.preventDefault event))
    (receiver : Value) (arguments : List Value) : e.invoke (depth + 1) f receiver arguments w =
      (.ok .undefined, if w.isEventLive event then w.cancelEvent event else w) := by
  let inner : Host σ := { e with invoke := e.invoke depth }
  change outcome inner (callObject f receiver arguments).run w = _
  rw [callObject, outcome_run_bind inner _ (outcome_getHeap inner w)]
  simp only [function]
  rfl

theorem Passage.upholds {object : ObjectId} {w w' : World σ} (passage : Passage object w w')
    (event : EventId) : w.Upholds event object w' := by
  induction passage with
  | refl w => exact refl_of (World.Upholds event object) w
  | aside _ events spares ih => exact ih.trans (.aside events spares)
  | make _ type cancelable ih => exact ih.trans (.createEvent _ type cancelable)
  | cancel _ other ih => exact ih.trans (.cancelEvent _ other)
  | call _ e depth function receiver arguments ih =>
    apply ih.trans
    cases depth with
    | zero => exact refl_of (World.Upholds event object) _
    | succ depth =>
      rw [e.invoke_preventDefault depth function]
      split
      · exact .cancelEvent _ _
      · exact refl_of (World.Upholds event object) _
  | retarget _ other target ih => exact ih.trans (.setCurrentTarget _ other target)
  | between _ host target other listeners _ ih turns => exact ih.trans (.midway turns)
  | dispatch _ host target other _ ih turns =>
    apply ih.trans
    apply (World.Upholds.midway turns).trans
    rw [after, outcome_dispatch_midway]
    exact (World.Upholds.setCurrentTarget _ other none).trans (.of_eq rfl rfl)

/-- Whatever happens after an event was made, it is canceled only if it can be, and stays canceled. The
answer of a dispatch tells whether the event is canceled in the end. As long as nobody but events changes
the two properties of its object, scripts see there whether the event is canceled and its current
target; and at any time the event can be given any target, and can be canceled if it was made so, also by
a call of its function for any receiver and arguments. -/
theorem events_and_objects_agree {w : World σ} (housed : w.Housed) (type : String) (cancelable : Bool) :
    let event : EventId := ⟨w.events.size⟩
    let made := (w.createEvent type cancelable).2
    let object := (made.event event).object
    (∀ w', Proceeding made w' → (w'.event event).cancelable = cancelable ∧
      ((w'.event event).canceled = true → cancelable = true) ∧
      ∀ w'', Proceeding w' w'' → (w'.event event).canceled = true → (w''.event event).canceled = true) ∧
    (∀ (host : Host σ) target w', let ended := outcome host (dispatch target event) w'
      ended.1 = !(ended.2.event event).canceled) ∧
    ∀ w', Passage object made w' →
      (w'.event event).object = object ∧ (w'.event event).cancelable = cancelable ∧
      ((w'.event event).canceled = true → cancelable = true) ∧
      (∀ w'', Passage object w' w'' →
        (w'.event event).canceled = true → (w''.event event).canceled = true) ∧
      w'.heap.getText object "defaultPrevented" = .boolean (w'.event event).canceled ∧
      w'.heap.getText object "currentTarget" = (w'.event event).shownTarget ∧
      (∀ target, ((w'.setCurrentTarget event target).event event).currentTarget = target) ∧
      ((w'.cancelEvent event).event event).canceled = cancelable ∧
      ∀ (e : Embedder σ) depth f, (w'.heap.object f).behavior = some (.preventDefault event) →
        w'.isEventLive event = true → ∀ receiver arguments,
          e.invoke (depth + 1) f receiver arguments w' = (.ok .undefined, w'.cancelEvent event) := by
  intro event made object
  have coherent : made.Coherent event := housed.coherent type cancelable
  have record : (made.event event).cancelable = cancelable := by
    rw [World.event_createEvent, if_pos rfl]
  have sound {w' : World σ} (advances : (made.event event).Advances (w'.event event)) :
      (w'.event event).canceled = true → cancelable = true := by
    rw [← record, ← advances.cancelable]
    exact advances.sound coherent.sound
  refine ⟨fun w' proceeding => ?_, fun host target w' => ?_, fun w' passage => ?_⟩
  · obtain ⟨present, advances⟩ := proceeding.advances event coherent.present
    refine ⟨advances.cancelable.trans record, sound advances, fun w'' later => ?_⟩
    exact (later.advances event present).2.kept
  · simp only [outcome_dispatch_midway]
  · obtain ⟨coherent', advances⟩ := passage.upholds event coherent rfl
    refine ⟨advances.object, advances.cancelable.trans record, sound advances, fun w'' later => ?_, ?_, ?_,
      fun target => ?_, ?_, fun e depth f function live receiver arguments => ?_⟩
    · exact (later.upholds event coherent' advances.object).2.kept
    · rw [← coherent'.defaultPrevented, advances.object]
    · rw [← coherent'.toFaithful.get, advances.object]
    · rw [World.event_setCurrentTarget, if_pos ⟨rfl, coherent'.present⟩]
    · rw [World.event_cancelEvent, if_pos rfl, advances.cancelable, record]
      exact Bool.or_eq_right_iff_imp.2 (sound advances)
    · rw [e.invoke_preventDefault depth function, if_pos live]

/-- The listeners of this embedder call the function `preventDefault` of their event. -/
def Embedder.preventing : Embedder Nat :=
  { Embedder.idle with
    listen := fun _ event w =>
      match w.heap.getText (w.event event).object "preventDefault" with
      | .object f => (Embedder.idle.host.invoke f .undefined [] w).2
      | _ => w }

theorem Embedder.preventing_turn {w : World Nat} {f : ObjectId} {l : Listener} {event : EventId}
    {index : Nat} (action : l.action = .external index)
    (found : w.heap.getText (w.event event).object "preventDefault" = .object f)
    (function : (w.heap.object f).behavior = some (.preventDefault event)) (object : ObjectId)
    (target : ElementId) : Passage object w (l.turn Embedder.preventing.host target event w) := by
  rw [Listener.turn]
  split
  · have hrun : after Embedder.preventing.host (l.run event) w =
        (Embedder.idle.invoke Embedder.maxCallDepth f .undefined [] w).2 := by
      simp [after, Listener.run, action, Embedder.host, Embedder.preventing, found]
    rw [hrun]
    exact .call (.refl w) Embedder.idle _ function _ _
  · exact .refl w

/-- Two listeners prevent the default of an event, which is canceled once. -/
theorem listeners_prevent_default :
    let ended := outcome Embedder.preventing.host (dispatch ⟨0⟩ ⟨1⟩) World.paired
    let object := (World.paired.event ⟨1⟩).object
    ended.1 = false ∧ (ended.2.event ⟨1⟩).canceled = true ∧
      ended.2.heap.getText object "defaultPrevented" = .boolean true ∧
      ended.2.heap.getText object "currentTarget" = .null := by
  intro ended object
  have hsize : (World.listening.createEvent "click" true).2.events.size = 1 := by decide
  obtain ⟨-, answers, agree⟩ :=
    events_and_objects_agree (World.listening_housed.createEvent "click" true) "click" true
  rw [hsize] at answers agree
  have passage : Passage object World.paired ended.2 := by
    apply Passage.dispatch (.refl _) _ _ _
    intro before l rest hlisteners
    rw [World.paired_listeners] at hlisteners
    obtain _ | ⟨first, _ | ⟨second, more⟩⟩ := before
    · cases hlisteners
      apply Embedder.preventing_turn (f := ⟨12⟩) rfl
      · decide +kernel
      · rfl
    · cases hlisteners
      apply Embedder.preventing_turn (f := ⟨12⟩) rfl
      · decide +kernel
      · rfl
    · simp at hlisteners
  obtain ⟨-, -, -, -, prevented, target, -⟩ := agree ended.2 passage
  have canceled : (ended.2.event ⟨1⟩).canceled = true := by decide +kernel
  have answer : ended.1 = !(ended.2.event ⟨1⟩).canceled := answers _ _ _
  have untargeted : (ended.2.event ⟨1⟩).currentTarget = none := currentTarget_dispatch _ _ _ _
  rw [canceled] at prevented answer
  rw [Event.shownTarget, untargeted] at target
  exact ⟨answer, canceled, prevented, target⟩

end WebBindings
