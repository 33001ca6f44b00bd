import WebBindings.Node.Event
/-!
# Events and the objects that show them

An event keeps its cancellation and its current target in its record, and tells scripts about them
through the properties of an object. An event is faithful as long as scripts find there what the
record holds.
-/

namespace WebBindings

variable {σ : Type}

theorem World.event_modifyEvent (w : World σ) (u v : EventId) (f : Event → Event) :
    (w.modifyEvent u f).event v =
      if u = v ∧ u.index < w.events.size then f (w.event v) else w.event v := by
  have hindex : u.index = v.index ↔ u = v := by cases u; cases v; simp
  simp only [World.event, World.modifyEvent, Array.getElem?_modify, hindex]
  by_cases huv : u = v
  · subst v
    by_cases hlt : u.index < w.events.size
    · simp [hlt]
    · simp [hlt]
  · simp [huv]

namespace World

variable (w : World σ)

theorem event_of_absent {v : EventId} (absent : ¬v.index < w.events.size) : w.event v = default := by
  simp [World.event, Nat.le_of_not_lt absent]

/-- Cancelling an event only matters if the event is cancelable, and only to this event. -/
theorem event_cancelEvent (u v : EventId) : (w.cancelEvent u).event v =
    if u = v then { w.event v with canceled := (w.event v).canceled || (w.event v).cancelable }
    else w.event v := by
  by_cases hcancel : ((w.event u).cancelable && !(w.event u).canceled) = true
  · have hevent : (w.cancelEvent u).event v =
        (w.modifyEvent u fun e => { e with canceled := true }).event v := by
      rw [cancelEvent, if_pos hcancel]
      rfl
    have hcancelable : (w.event u).cancelable = true := by simp_all
    have present : u.index < w.events.size := by
      refine Decidable.byContradiction fun habsent => ?_
      rw [w.event_of_absent habsent] at hcancelable
      cases hcancelable
    rw [hevent, event_modifyEvent]
    by_cases huv : u = v
    · subst v
      simp [present, hcancelable]
    · simp [huv]
  · have hevent : (w.cancelEvent u).event v = w.event v := by rw [cancelEvent, if_neg hcancel]
    rw [hevent]
    split
    · rename_i huv
      subst v
      have hkept : ((w.event u).canceled || (w.event u).cancelable) = (w.event u).canceled := by
        cases hc : (w.event u).canceled <;> simp_all
      rw [hkept]
    · rfl

theorem event_setCurrentTarget (u v : EventId) (target : Option ObjectId) :
    (w.setCurrentTarget u target).event v =
      if u = v ∧ u.index < w.events.size then { w.event v with currentTarget := target }
      else w.event v := w.event_modifyEvent u v _

theorem currentTarget_setCurrentTarget_none (event : EventId) :
    ((w.setCurrentTarget event none).event event).currentTarget = none := by
  rw [event_setCurrentTarget]
  split
  · rfl
  · rename_i habsent
    rw [w.event_of_absent fun present => habsent ⟨rfl, present⟩]
    rfl

end World

namespace Heap

variable (h : Heap) (o p : ObjectId) (key : PropertyKey)

theorem object_modify (f : Object → Object) : (h.modify o f).object p =
    if o = p ∧ o.index < h.objects.size then f (h.object p) else h.object p := by
  have hindex : o.index = p.index ↔ o = p := by cases o; cases p; simp
  simp only [object, modify, Array.getElem?_modify, hindex]
  by_cases hop : o = p
  · subst p
    by_cases hlt : o.index < h.objects.size
    · simp [hlt]
    · simp [hlt]
  · simp [hop]

theorem size_set (v : Value) : (h.set o key v).2.objects.size = h.objects.size := by
  rw [set]
  split
  · simp [modify]
  · rfl

variable {h o p key}

theorem own?_set_of_ne (other : o ≠ p) (v : Value) (k : PropertyKey) :
    (h.set o key v).2.own? p k = h.own? p k := by
  rw [set]
  split
  · rw [own?, own?, object_modify, if_neg fun same => other same.1]
  · rfl

theorem own?_set_self {property : Property} (found : h.own? o key = some property)
    (writable : property.writable = true) (housed : o.index < h.objects.size) (v : Value) :
    (h.set o key v).2.own? o key = some { property with value := v } := by
  have hassign : (h.object o).assign? key v =
      some ((h.object o).define key { property with value := v }) := by
    rw [own?] at found
    simp [Object.assign?, found, writable]
  simp only [set, hassign]
  rw [own?, object_modify, if_pos ⟨rfl, housed⟩]
  exact OrderedMap.get?_insert_self _ _ _

theorem get_of_own? {property : Property} (found : h.own? o key = some property)
    (housed : o.index < h.objects.size) : h.get o key = property.value := by
  obtain ⟨rest, hlineage⟩ : ∃ rest, h.lineage o = o :: rest := by
    obtain ⟨n, hn⟩ := Nat.exists_eq_succ_of_ne_zero (Nat.ne_of_gt (Nat.zero_lt_of_lt housed))
    rw [lineage, hn, lineage.go]
    split
    · exact ⟨_, rfl⟩
    · exact ⟨_, rfl⟩
  rw [get, hlineage, List.findSome?_cons, found]

end Heap

/-- The value that scripts should find as the current target of an event. -/
def Event.shownTarget (e : Event) : Value :=
  match e.currentTarget with
  | some o => .object o
  | none => .null

/-- The object of an event shows its current target, and belongs to no other event. -/
structure World.Faithful (w : World σ) (event : EventId) : Prop where
  present : event.index < w.events.size
  housed : (w.event event).object.index < w.heap.objects.size
  shows : w.heap.own? (w.event event).object (.ofText "currentTarget") =
    some (.data (w.event event).shownTarget)
  apart (other : EventId) (different : other ≠ event) :
    (w.event other).object ≠ (w.event event).object

namespace World.Faithful

variable {w : World σ} {event : EventId}

theorem get (faithful : w.Faithful event) :
    w.heap.getText (w.event event).object "currentTarget" = (w.event event).shownTarget :=
  Heap.get_of_own? faithful.shows faithful.housed

theorem congr {w' : World σ} (faithful : w.Faithful event) (heap : w'.heap = w.heap)
    (events : w'.events = w.events) : w'.Faithful event := by
  have hevent (v : EventId) : w'.event v = w.event v := by rw [World.event, World.event, events]
  refine ⟨?_, ?_, ?_, fun other different => ?_⟩
  · rw [events]
    exact faithful.present
  · rw [hevent, heap]
    exact faithful.housed
  · rw [hevent, heap]
    exact faithful.shows
  · rw [hevent, hevent]
    exact faithful.apart other different

theorem setCurrentTarget (faithful : w.Faithful event) (other : EventId) (target : Option ObjectId) :
    (w.setCurrentTarget other target).Faithful event := by
  have hobject (v : EventId) : ((w.setCurrentTarget other target).event v).object =
      (w.event v).object := by
    rw [event_setCurrentTarget]
    split <;> rfl
  refine ⟨?_, ?_, ?_, fun v different => ?_⟩
  · simpa [World.setCurrentTarget, modifyHeap, modifyEvent] using faithful.present
  · rw [hobject]
    exact Nat.lt_of_lt_of_eq faithful.housed (Heap.size_set ..).symm
  · rw [hobject, event_setCurrentTarget]
    by_cases hother : other = event
    · subst other
      rw [if_pos ⟨rfl, faithful.present⟩]
      exact Heap.own?_set_self faithful.shows rfl faithful.housed _
    · rw [if_neg fun same => hother same.1]
      exact (Heap.own?_set_of_ne (faithful.apart other hother) _ _).trans faithful.shows
  · rw [hobject, hobject]
    exact faithful.apart v different

end World.Faithful

/-- The objects of all events exist. -/
def World.Housed (w : World σ) : Prop := ∀ v, (w.event v).object.index < w.heap.objects.size

section Making

variable (w : World σ) (type : String) (cancelable : Bool)

theorem World.event_createEvent (v : EventId) : (w.createEvent type cancelable).2.event v =
    if v = ⟨w.events.size⟩ then
      ⟨type, cancelable, false, none, ⟨w.heap.objects.size + 1⟩⟩
    else w.event v := by
  have hindex : v.index = w.events.size ↔ v = ⟨w.events.size⟩ := by cases v; simp
  by_cases hv : v.index = w.events.size
  · rw [if_pos (hindex.1 hv)]
    simp [World.event, World.createEvent, Heap.newFunction, Heap.alloc, hv]
  · rw [if_neg fun same => hv (hindex.2 same)]
    simp [World.event, World.createEvent, Array.getElem?_push, hv]

theorem World.size_createEvent :
    (w.createEvent type cancelable).2.heap.objects.size = w.heap.objects.size + 2 := by
  simp [World.createEvent, Heap.newFunction, Heap.alloc]

theorem World.object_createEvent_self :
    (w.createEvent type cancelable).2.heap.object ⟨w.heap.objects.size + 1⟩ =
      Event.describe type cancelable ⟨w.heap.objects.size⟩ := by
  simp [createEvent, Heap.newFunction, Heap.alloc, Heap.object, Array.getElem_push]

theorem World.object_createEvent {o : ObjectId} (housed : o.index < w.heap.objects.size) :
    (w.createEvent type cancelable).2.heap.object o = w.heap.object o := by
  have old : o.index ≠ w.heap.objects.size ∧ o.index ≠ w.heap.objects.size + 1 := by omega
  simp [createEvent, Heap.newFunction, Heap.alloc, Heap.object, Array.getElem?_push, old]

variable {w}

theorem World.Housed.createEvent (housed : w.Housed) :
    (w.createEvent type cancelable).2.Housed := by
  intro v
  rw [event_createEvent, size_createEvent]
  split
  · exact Nat.lt_succ_self _
  · exact Nat.lt_add_right 2 (housed v)

theorem World.Housed.faithful (housed : w.Housed) :
    (w.createEvent type cancelable).2.Faithful ⟨w.events.size⟩ := by
  refine ⟨?_, housed.createEvent type cancelable _, ?_, fun other different => ?_⟩
  · simp [World.createEvent]
  · rw [event_createEvent, if_pos rfl]
    rw [Heap.own?, object_createEvent_self, Event.describe]
    simp only [Object.define]
    rw [OrderedMap.get?_insert_of_ne _ _ (by decide), OrderedMap.get?_insert_self]
    rfl
  · rw [event_createEvent, event_createEvent, if_neg different, if_pos rfl]
    intro same
    have hindex := housed other
    rw [same] at hindex
    exact absurd hindex (Nat.not_lt_of_lt (Nat.lt_succ_self _))

end Making

end WebBindings
