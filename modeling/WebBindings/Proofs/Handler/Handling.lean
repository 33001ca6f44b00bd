import WebBindings.Proofs.Motion
import WebBindings.Proofs.Node.Listeners
/-!
# What handlers are part of the world

Handlers, handler maps and the listeners of elements make one part of the world. Most computations
leave it alone; those that do not revise one handler and the element that it listens on.
-/

namespace WebBindings

variable {σ : Type}

/-- Handlers, maps and elements are the same. -/
structure World.SameRecords (w w' : World σ) : Prop where
  handlers : w'.handlers = w.handlers
  maps : w'.maps = w.maps
  elements : w'.elements = w.elements

namespace World.SameRecords

variable {w w' w'' : World σ}

theorem trans (first : w.SameRecords w') (second : w'.SameRecords w'') : w.SameRecords w'' :=
  ⟨second.handlers.trans first.handlers, second.maps.trans first.maps,
    second.elements.trans first.elements⟩

instance : IsPreorder (World σ) World.SameRecords where
  refl _ := ⟨rfl, rfl, rfl⟩
  trans _ _ _ := trans

theorem element (same : w.SameRecords w') (t : ElementId) : w'.element t = w.element t := by
  rw [World.element, World.element, same.elements]

theorem handler? (same : w.SameRecords w') (h : HandlerId) : w'.handler? h = w.handler? h := by
  rw [World.handler?, World.handler?, same.handlers]

theorem map? (same : w.SameRecords w') (m : HandlerMapId) : w'.map? m = w.map? m := by
  rw [World.map?, World.map?, same.maps]

end World.SameRecords

/-- Handlers, maps and listeners are the same; only elements without listeners may be new. -/
structure World.SameHandling (w w' : World σ) : Prop where
  handlers : w'.handlers = w.handlers
  maps : w'.maps = w.maps
  size : w.elements.size ≤ w'.elements.size
  listeners : ∀ t, (w'.element t).listeners = (w.element t).listeners
  nextListener : ∀ t, (w'.element t).nextListener = (w.element t).nextListener

namespace World.SameHandling

variable {w w' : World σ}

theorem refl (w : World σ) : w.SameHandling w := ⟨rfl, rfl, Nat.le_refl _, fun _ => rfl, fun _ => rfl⟩

theorem of_sameRecords (same : w.SameRecords w') : w.SameHandling w' where
  handlers := same.handlers
  maps := same.maps
  size := Nat.le_of_eq (congrArg Array.size same.elements.symm)
  listeners t := by rw [same.element]
  nextListener t := by rw [same.element]

theorem handler? (same : w.SameHandling w') (h : HandlerId) : w'.handler? h = w.handler? h := by
  rw [World.handler?, World.handler?, same.handlers]

theorem madeBy (same : w.SameHandling w') (t : ElementId) (h : HandlerId) :
    (w'.element t).madeBy h = (w.element t).madeBy h := by
  rw [Element.madeBy, Element.madeBy, same.listeners]

theorem orderly (same : w.SameHandling w') {t : ElementId} (orderly : (w.element t).Orderly) :
    (w'.element t).Orderly := by
  constructor
  · rw [same.listeners]
    exact orderly.ascending
  · rw [same.listeners, same.nextListener]
    exact orderly.bounded

end World.SameHandling

section Records

variable (w : World σ)

@[simp] theorem World.modifyElement_elements (t : ElementId) (f : Element → Element) :
    (w.modifyElement t f).elements = w.elements.modify t.index f := rfl

@[simp] theorem World.modifyElement_handlers (t : ElementId) (f : Element → Element) :
    (w.modifyElement t f).handlers = w.handlers := rfl

@[simp] theorem World.modifyHandler_elements (h : HandlerId) (f : EventHandler → EventHandler) :
    (w.modifyHandler h f).elements = w.elements := rfl

@[simp] theorem World.modifyHandler_handlers (h : HandlerId) (f : EventHandler → EventHandler) :
    (w.modifyHandler h f).handlers = w.handlers.modify h.index f := rfl

theorem World.element_modifyElement (t u : ElementId) (f : Element → Element) :
    (w.modifyElement t f).element u =
      if t = u ∧ t.index < w.elements.size then f (w.element u) else w.element u := by
  have hindex : t.index = u.index ↔ t = u := by cases t; cases u; simp
  simp only [World.element, World.modifyElement, Array.getElem?_modify, hindex]
  by_cases htu : t = u
  · subst u
    by_cases hlt : t.index < w.elements.size
    · simp [hlt]
    · simp [hlt]
  · simp [htu]

theorem World.handler?_modifyHandler (h k : HandlerId) (f : EventHandler → EventHandler) :
    (w.modifyHandler h f).handler? k = if h = k then (w.handler? k).map f else w.handler? k := by
  have hindex : h.index = k.index ↔ h = k := by cases h; cases k; simp
  simp only [World.handler?, World.modifyHandler, Array.getElem?_modify, hindex]

theorem World.map?_modifyMap (m n : HandlerMapId) (f : HandlerMap → HandlerMap) :
    (w.modifyMap m f).map? n = if m = n then (w.map? n).map f else w.map? n := by
  have hindex : m.index = n.index ↔ m = n := by cases m; cases n; simp
  simp only [World.map?, World.modifyMap, Array.getElem?_modify, hindex]

end Records

theorem World.createElement_sameHandling (w : World σ) (name : String)
    (document : Option DocumentId) : w.SameHandling (w.createElement name document).2 := by
  obtain ⟨e, hlisteners, hnext, helements⟩ : ∃ e : Element, e.listeners = [] ∧
      e.nextListener = 0 ∧ (w.createElement name document).2.elements = w.elements.push e := by
    cases document <;> exact ⟨_, rfl, rfl, rfl⟩
  have helement (t : ElementId) : (w.createElement name document).2.element t =
      if t.index = w.elements.size then e else w.element t := by
    rw [World.element, helements, Array.getElem?_push]
    split <;> rfl
  have hdefault (t : ElementId) (ht : t.index = w.elements.size) : w.element t = default := by
    simp [World.element, ht]
  refine ⟨?_, ?_, ?_, fun t => ?_, fun t => ?_⟩
  · cases document <;> rfl
  · cases document <;> rfl
  · rw [helements, Array.size_push]
    exact Nat.le_succ _
  · rw [helement]
    split
    · rename_i ht
      rw [hdefault t ht, hlisteners]
      rfl
    · rfl
  · rw [helement]
    split
    · rename_i ht
      rw [hdefault t ht, hnext]
      rfl
    · rfl

end WebBindings
