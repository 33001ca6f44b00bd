import WebBindings.Proofs.Node.Editing
/-!
# Which listeners a dispatch runs

A dispatch gives a turn to each listener that its type had when it began, in the order of their
registration. At its turn a listener runs exactly if it is still registered, whatever the listeners
before it did; listeners that were registered meanwhile wait for another dispatch.
-/

namespace WebBindings

variable {σ : Type}

/-- Listeners have their turns one after the other: those that are still registered then are invoked,
the others are passed over. -/
inductive Delivery (host : Host σ) (target : ElementId) (event : EventId) :
    World σ → (waiting invoked : List Listener) → World σ → Prop
  | done {w} : Delivery host target event w [] [] w
  | invoke {w l waiting invoked w'} (registered : l ∈ (w.element target).listeners)
    (rest : Delivery host target event (after host (l.run event) w) waiting invoked w') :
    Delivery host target event w (l :: waiting) (l :: invoked) w'
  | pass {w l waiting invoked w'} (removed : l ∉ (w.element target).listeners)
    (rest : Delivery host target event w waiting invoked w') :
    Delivery host target event w (l :: waiting) invoked w'

theorem Delivery.sublist {host : Host σ} {target : ElementId} {event : EventId} {w w' : World σ}
    {waiting invoked : List Listener} (delivery : Delivery host target event w waiting invoked w') :
    invoked.Sublist waiting := by
  induction delivery with
  | done => exact .slnil
  | invoke _ _ ih => exact ih.cons_cons _
  | pass _ _ ih => exact ih.cons _

theorem Element.listenersOf_sublist (e : Element) (type : String) :
    (e.listenersOf type).Sublist e.listeners := List.filter_sublist

/-- Looking for the number of a waiting listener finds this listener, because lists were only edited
since it was registered. -/
theorem Embedder.Edits.delivery {e : Embedder σ} (edits : e.Edits) (target : ElementId)
    (event : EventId) {w₀ : World σ} (orderly : (w₀.element target).Orderly) {waiting : List Listener}
    (known : ∀ l ∈ waiting, l ∈ (w₀.element target).listeners) {w : World σ} (edited : w₀.Edited w) :
    ∃ invoked, Delivery e.host target event w waiting invoked
      (after e.host (WebBindings.runListeners target event waiting) w) := by
  induction waiting generalizing w with
  | nil => exact ⟨[], .done⟩
  | cons l rest ih =>
    have hrest : ∀ k ∈ rest, k ∈ (w₀.element target).listeners :=
      fun k hk => known k (List.mem_cons_of_mem l hk)
    have hregistered := (edited target).isRegistered_iff orderly (known l List.mem_cons_self)
    by_cases hl : l ∈ (w.element target).listeners
    · have hrun : after e.host (WebBindings.runListeners target event (l :: rest)) w =
          after e.host (WebBindings.runListeners target event rest) (after e.host (l.run event) w) := by
        simp [after, WebBindings.runListeners, hregistered.2 hl]
      obtain ⟨invoked, hdelivery⟩ := ih hrest (edited.trans (edits.listener_run l event w))
      exact ⟨l :: invoked, .invoke hl (hrun ▸ hdelivery)⟩
    · have hpass : after e.host (WebBindings.runListeners target event (l :: rest)) w =
          after e.host (WebBindings.runListeners target event rest) w := by
        simp [after, WebBindings.runListeners, mt hregistered.1 hl]
      obtain ⟨invoked, hdelivery⟩ := ih hrest edited
      exact ⟨invoked, .pass hl (hpass ▸ hdelivery)⟩

/-- The world in which the listeners of a dispatch begin to have their turns. -/
def World.begun (w : World σ) (host : Host σ) (target : ElementId) (event : EventId)
    (message : String) : World σ :=
  (after host (log .debug message) ((w.hold (.element target)).hold (.event event))).setCurrentTarget
    event (some (w.element target).object)

/-- The world that a dispatch leaves after all turns. -/
def World.ended (w : World σ) (target : ElementId) (event : EventId) : World σ :=
  ((w.setCurrentTarget event none).release (.event event)).release (.element target)

theorem outcome_dispatch (host : Host σ) (target : ElementId) (event : EventId) (w : World σ) :
    ∃ message, outcome host (dispatch target event) w =
      let final := (after host (runListeners target event
        ((w.element target).listenersOf (w.event event).type))
        (w.begun host target event message)).ended target event
      (!(final.event event).canceled, final) := by
  simp only [dispatch, deliver, outcome_bind, outcome_get, outcome_modify, outcome_log, outcome_pure]
  exact ⟨_, rfl⟩

/-- A dispatch runs exactly the listeners of its type that were registered when it began and are still
registered at their turns, in the order of their registration and none of them twice. What is
registered later, also again, has another number and is not run. The answer is `false` exactly if the
event is canceled in the end. -/
theorem dispatch_runs_registered_listeners (e : Embedder σ)
    (call : ∀ index receiver arguments w, Course w (e.call index receiver arguments w).2)
    (listen : ∀ index event w, Course w (e.listen index event w))
    (react : ∀ sink error w, Course w (e.react sink error w)) {x : σ} {w : World σ}
    (course : Course (.initial x) w) (target : ElementId) (event : EventId) :
    ∃ message invoked w', Delivery e.host target event (w.begun e.host target event message)
        ((w.element target).listenersOf (w.event event).type) invoked w' ∧
      outcome e.host (dispatch target event) w =
        (!((w'.ended target event).event event).canceled, w'.ended target event) ∧
      invoked.Sublist (w.element target).listeners ∧ (invoked.map Listener.id).Nodup ∧
      ∀ later, Course w later → ∀ l ∈ (later.element target).listeners,
        l.id ∈ invoked.map Listener.id → l ∈ (w.element target).listeners := by
  have edits : e.Edits := ⟨fun index receiver arguments w => (call index receiver arguments w).edited,
    fun index event w => (listen index event w).edited,
    fun sink error w => (react sink error w).edited⟩
  have orderly := course.orderly target
  have hlisteners := (w.element target).listenersOf_sublist (w.event event).type
  obtain ⟨message, houtcome⟩ := outcome_dispatch e.host target event w
  have hbegun : w.Edited (w.begun e.host target event message) := .of_elements rfl
  obtain ⟨invoked, hdelivery⟩ := edits.delivery target event orderly hlisteners.subset hbegun
  have hinvoked : invoked.Sublist (w.element target).listeners := hdelivery.sublist.trans hlisteners
  refine ⟨message, invoked, _, hdelivery, houtcome, hinvoked,
    (hinvoked.map Listener.id).nodup orderly.ids_nodup, fun later hlater l hl hid => ?_⟩
  obtain ⟨k, hk, hsame⟩ := List.mem_map.1 hid
  refine (hlater.edited target).mem_of_given hl ?_
  rw [← hsame]
  exact orderly.bounded k (hinvoked.subset hk)

/-- An operation without an embedder's help. -/
def Operation.alone (op : Operation) (w : World Nat) : World Nat :=
  after Embedder.idle.host op.perform.run w

theorem Course.alone {w w' : World Nat} (course : Course w w') (op : Operation) :
    Course w (op.alone w') :=
  .operate course Embedder.idle (fun _ _ _ w => .refl w) (fun _ _ w => .refl w)
    (fun _ _ w => .refl w) op

/-- The listener `0` of this embedder registers the listener `1` again, and every other listener
dispatches another event. -/
def Embedder.meddler : Embedder Nat :=
  { Embedder.idle with
    listen := fun index _ w =>
      if index = 0 then
        (Operation.addListener ⟨0⟩ "click" (.external 1)).alone
          ((Operation.removeListener ⟨0⟩ "click" ⟨1⟩).alone w)
      else (Operation.dispatch ⟨0⟩ ⟨1⟩).alone w }

theorem Embedder.meddler_listen (index : Nat) (event : EventId) (w : World Nat) :
    Course w (Embedder.meddler.listen index event w) := by
  rw [Embedder.meddler]
  dsimp only
  split
  · exact ((Course.refl w).alone _).alone _
  · exact (Course.refl w).alone _

/-- An element with three listeners of one type, and two events of this type. -/
def World.crowded : World Nat :=
  let made := ((World.initial 0).createElement "div" none).2
  let events := ((made.createEvent "click" true).2.createEvent "click" true).2
  (Operation.addListener ⟨0⟩ "click" (.external 2)).alone
    ((Operation.addListener ⟨0⟩ "click" (.external 1)).alone
      ((Operation.addListener ⟨0⟩ "click" (.external 0)).alone events))

theorem World.crowded_course : Course (.initial 0) World.crowded := by
  have same := World.createElement_sameHandling (World.initial 0) "div" none
  have made : Course (World.initial 0) _ := .aside (.refl _) same.listeners same.nextListener
  have events : Course (World.initial 0)
      ((((World.initial 0).createElement "div" none).2.createEvent "click" true).2.createEvent
        "click" true).2 := made.aside (fun _ => rfl) fun _ => rfl
  exact ((events.alone _).alone _).alone _

/-- The second listener is registered again before its turn, and is not run. -/
theorem second_listener_is_passed_over : ∃ w', Delivery Embedder.meddler.host ⟨0⟩ ⟨0⟩
    (World.crowded.begun Embedder.meddler.host ⟨0⟩ ⟨0⟩ "")
    [⟨⟨0⟩, "click", .external 0⟩, ⟨⟨1⟩, "click", .external 1⟩, ⟨⟨2⟩, "click", .external 2⟩]
    [⟨⟨0⟩, "click", .external 0⟩, ⟨⟨2⟩, "click", .external 2⟩] w' := by
  obtain ⟨message, invoked, w', delivery, -⟩ := dispatch_runs_registered_listeners Embedder.meddler
    (fun _ _ _ w => .refl w) Embedder.meddler_listen (fun _ _ w => .refl w) World.crowded_course
    ⟨0⟩ ⟨0⟩
  -- This embedder keeps no log.
  have hbegun : World.crowded.begun Embedder.meddler.host ⟨0⟩ ⟨0⟩ message =
      World.crowded.begun Embedder.meddler.host ⟨0⟩ ⟨0⟩ "" := rfl
  have hwaiting : (World.crowded.element ⟨0⟩).listenersOf (World.crowded.event ⟨0⟩).type =
    [⟨⟨0⟩, "click", .external 0⟩, ⟨⟨1⟩, "click", .external 1⟩, ⟨⟨2⟩, "click", .external 2⟩] := by decide
  rw [hbegun, hwaiting] at delivery
  have hinvoked : invoked = [⟨⟨0⟩, "click", .external 0⟩, ⟨⟨2⟩, "click", .external 2⟩] := by
    cases delivery with
    | pass removed => exact absurd (by decide) removed
    | invoke _ rest =>
      cases rest with
      | invoke registered => exact absurd registered (by decide)
      | pass _ rest =>
        cases rest with
        | pass removed => exact absurd (by decide) removed
        | invoke _ rest =>
          cases rest
          rfl
  exact ⟨w', hinvoked ▸ delivery⟩

end WebBindings
