import WebBindings.Proofs.Handler.Position
import WebBindings.Proofs.Node.Operating
/-!
# Editing lists of listeners

Whatever is done with handlers, events and listeners, and whoever does it, lists of listeners are only
edited: listeners are removed, and new ones come behind the others under numbers that were never
given before.
-/

namespace WebBindings

variable {σ : Type}

/-- The listeners of an element after an edit, which keeps them in order. -/
structure Element.Edited (e₀ e : Element) : Prop where
  continues : e₀.Continues e
  orderly : e₀.Orderly → e.Orderly

namespace Element.Edited

variable {e₀ e e' : Element}

theorem of_eq (listeners : e.listeners = e₀.listeners) (next : e.nextListener = e₀.nextListener) :
    e₀.Edited e where
  continues := .of_eq listeners next
  orderly orderly := ⟨listeners ▸ orderly.ascending, by
    rw [listeners, next]
    exact orderly.bounded⟩

theorem trans (first : e₀.Edited e) (second : e.Edited e') : e₀.Edited e' :=
  ⟨first.continues.trans second.continues, fun orderly => second.orderly (first.orderly orderly)⟩

theorem addListener (e : Element) (type : String) (action : ListenerAction) :
    e.Edited (e.addListener type action).2 :=
  ⟨.addListener e type action, fun orderly => orderly.addListener type action⟩

theorem removeListener (e : Element) (type : String) (id : ListenerId) :
    e.Edited (e.removeListener type id) :=
  ⟨.removeListener e type id, fun orderly => orderly.removeListener type id⟩

/-- Numbers are never given again: what is registered under a number that was given before is the
listener that had the number then. -/
theorem mem_of_given (edited : e₀.Edited e) {l : Listener} (registered : l ∈ e.listeners)
    (given : l.id.number < e₀.nextListener) : l ∈ e₀.listeners := by
  obtain ⟨-, kept, added, hlisteners, hkept, hadded⟩ := edited.continues
  rw [hlisteners, List.mem_append] at registered
  obtain hl | hl := registered
  · exact hkept.subset hl
  · exact absurd given (Nat.not_lt_of_le (hadded l hl))

theorem isRegistered_iff (edited : e₀.Edited e) (orderly : e₀.Orderly) {l : Listener}
    (hl : l ∈ e₀.listeners) : e.isRegistered l.id = true ↔ l ∈ e.listeners := by
  constructor
  · intro registered
    obtain ⟨k, hk, hid⟩ := List.any_eq_true.1 registered
    have hid : k.id = l.id := of_decide_eq_true hid
    have hgiven : k.id.number < e₀.nextListener := hid ▸ orderly.bounded l hl
    rwa [← orderly.eq_of_id (edited.mem_of_given hk hgiven) hl hid]
  · exact fun registered => List.any_eq_true.2 ⟨l, registered, decide_eq_true rfl⟩

end Element.Edited

/-- In a later world, every element has an edited list of listeners. -/
def World.Edited (w w' : World σ) : Prop := ∀ t, (w.element t).Edited (w'.element t)

namespace World.Edited

variable {w w' w'' : World σ}

theorem of_elements (same : w'.elements = w.elements) : w.Edited w' := fun t => by
  rw [World.element, World.element, same]
  exact .of_eq rfl rfl

theorem trans (first : w.Edited w') (second : w'.Edited w'') : w.Edited w'' :=
  fun t => (first t).trans (second t)

instance : IsPreorder (World σ) World.Edited where
  refl _ := of_elements rfl
  trans _ _ _ := trans

theorem modifyElement (w : World σ) (t : ElementId) {f : Element → Element}
    (edit : ∀ e : Element, e.Edited (f e)) : w.Edited (w.modifyElement t f) := fun u => by
  rw [element_modifyElement]
  split
  · exact edit _
  · exact .of_eq rfl rfl

end World.Edited

theorem World.cancelEvent_edited (w : World σ) (event : EventId) : w.Edited (w.cancelEvent event) := by
  rw [World.cancelEvent]
  split <;> exact .of_elements rfl

/-- What functions, listeners and sinks of an embedder do only edits lists of listeners. -/
structure Embedder.Edits (e : Embedder σ) : Prop where
  call (index : Nat) (receiver : Value) (arguments : List Value) (w : World σ) :
    w.Edited (e.call index receiver arguments w).2
  listen (index : Nat) (event : EventId) (w : World σ) : w.Edited (e.listen index event w)
  react (sink : Sink) (error : ScriptError) (w : World σ) : w.Edited (e.react sink error w)

namespace Embedder.Edits

variable {e : Embedder σ} (edits : e.Edits)

include edits

theorem operating : Operating e.host World.Edited where
  toMotion := e.host_motion (fun _ _ => .of_elements rfl) World.cancelEvent_edited edits.call
  still elements _ := .of_elements elements
  add w t type action := .modifyElement w t fun e => .addListener e type action
  remove w t type id := .modifyElement w t fun e => .removeListener e type id
  revise w t _ listeners next := .modifyElement w t fun e => .of_eq (listeners e) (next e)
  cancel := World.cancelEvent_edited
  listen := edits.listen
  react := edits.react

theorem listener_run (l : Listener) (event : EventId) : Moves e.host World.Edited (l.run event) :=
  have := edits.operating
  l.run_moves event

theorem perform (op : Operation) : ScriptMoves e.host World.Edited op.perform :=
  have := edits.operating
  op.perform_moves fun t _ _ => dispatch_moves t fun _ _ => .of_elements rfl

end Embedder.Edits

/-- What can become of a world: operations by anybody, who may remove any listener, with those that
functions, listeners and sinks of an embedder do meanwhile, and whatever else leaves lists of listeners
alone. -/
inductive Course : World σ → World σ → Prop
  | refl (w) : Course w w
  | aside {w w' w''} (course : Course w w')
    (listeners : ∀ t, (w''.element t).listeners = (w'.element t).listeners)
    (next : ∀ t, (w''.element t).nextListener = (w'.element t).nextListener) : Course w w''
  | operate {w w'} (course : Course w w') (e : Embedder σ)
    (call : ∀ index receiver arguments w, Course w (e.call index receiver arguments w).2)
    (listen : ∀ index event w, Course w (e.listen index event w))
    (react : ∀ sink error w, Course w (e.react sink error w)) (op : Operation) :
    Course w (after e.host op.perform.run w')

theorem Course.edited {w w' : World σ} (course : Course w w') : w.Edited w' := by
  induction course with
  | refl w => exact refl_of World.Edited w
  | aside _ listeners next ih => exact ih.trans fun t => .of_eq (listeners t) (next t)
  | operate _ e _ _ _ op ih call listen react =>
    have edits : e.Edits := ⟨call, listen, react⟩
    exact ih.trans (edits.perform op _)

theorem Course.orderly {x : σ} {w : World σ} (course : Course (.initial x) w) (t : ElementId) :
    (w.element t).Orderly := (course.edited t).orderly .default

end WebBindings
