import WebBindings.Proofs.Handler.Standing
/-!
# Consistency of handlers

What holds of handlers, of their listeners and of the properties of maps after every session, and
after every history.
-/

namespace WebBindings

variable {σ τ : Type} {observe : σ → τ}

theorem HandlerMapId.handler?_touched (host : Host σ) {w : World σ} {m : HandlerMapId}
    {property type : String} {record : HandlerMap} (named : eventTypeOf? property = some type)
    (found : w.map? m = some record) :
    ∃ h, (after host (m.handler? property) w).touched? m property = some h := by
  cases htouched : record.states.get? property with
  | some h =>
    refine ⟨h, ?_⟩
    simp [after, handler?, named, found, htouched, World.touched?]
  | none =>
    refine ⟨⟨w.handlers.size⟩, ?_⟩
    have hafter := (m.handler?_of_untouched host named found htouched).2
    rw [World.touched?, hafter.map?, ← World.touched?, World.touched?_addProperty w found]
    exact if_pos ⟨rfl, rfl⟩

theorem HandlerMapId.handler?_of_touched (host : Host σ) {w : World σ} {m : HandlerMapId}
    {property type : String} {h : HandlerId} (named : eventTypeOf? property = some type)
    (touched : w.touched? m property = some h) :
    outcome host (m.handler? property) w = (some h, w) := by
  obtain ⟨record, found, hget⟩ := Option.bind_eq_some_iff.1 touched
  simp [handler?, named, found, hget]

theorem History.touched {w w' : World σ} {history : List Happening} {m : HandlerMapId}
    {property : String} (run : History observe w history w') (touch : .touch m property ∈ history) :
    ∃ h, w'.touched? m property = some h := by
  obtain ⟨before, later, rfl⟩ := List.append_of_mem touch
  obtain ⟨w₁, -, hrest⟩ := run.split
  cases hrest with
  | cons happens hlater =>
    cases happens with
    | touch engines named found =>
      obtain ⟨h, touched⟩ := m.handler?_touched _ named found
      exact ⟨h, hlater.retains.touched touched⟩

/-- The listener of a handler is the one that it recorded, and without one it has no value. -/
theorem World.Linked.listeners {w : World σ} (linked : w.Linked) {h : HandlerId} {s : EventHandler}
    (found : w.handler? h = some s) :
    match s.activation.registration with
    | some id => (w.element s.target).madeBy h =
        [⟨id, s.type, .runCallback (.handler h) s.environment.reporter⟩]
    | none => (w.element s.target).madeBy h = [] ∧ s.value = .none := by
  have hlinked := linked.linked found
  cases hreg : s.activation.registration with
  | some id => exact hlinked.madeBy_eq hreg
  | none =>
    refine ⟨by rw [hlinked.made, EventHandler.listener?, hreg]; rfl, ?_⟩
    by_contra hvalue
    have hactive := hlinked.active hvalue
    simp [Activation.isActive, hreg] at hactive

theorem World.Linked.elsewhere {w : World σ} (linked : w.Linked) {h : HandlerId} {s : EventHandler}
    (found : w.handler? h = some s) {t : ElementId} (other : t ≠ s.target) :
    (w.element t).madeBy h = [] := by
  by_contra hmade
  obtain ⟨s', found', htarget⟩ := linked.made hmade
  rw [found] at found'
  exact other (htarget.symm.trans (congrArg _ (Option.some.inj found').symm))

end WebBindings
