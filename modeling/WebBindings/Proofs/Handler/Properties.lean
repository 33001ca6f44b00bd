import WebBindings.Proofs.Handler.Linkage
/-!
# Properties of handler maps

Handlers keep the element, event type and environment that they were made for. Each property of a
map that was touched has one handler from then on, which no other property has.
-/

namespace WebBindings

variable {σ τ : Type} {observe : σ → τ}

/-- The handler of a property that was touched. -/
def World.touched? (w : World σ) (m : HandlerMapId) (property : String) : Option HandlerId :=
  (w.map? m).bind fun record => record.states.get? property

/-- Handlers keep what they were made for, and properties keep their handlers. -/
structure World.Retains (w w' : World σ) : Prop where
  size : w.elements.size ≤ w'.elements.size
  handler {h : HandlerId} {s : EventHandler} (found : w.handler? h = some s) :
    ∃ s', w'.handler? h = some s' ∧ s'.target = s.target ∧ s'.type = s.type ∧
      s'.environment = s.environment
  touched {m : HandlerMapId} {property : String} {h : HandlerId}
    (touched : w.touched? m property = some h) : w'.touched? m property = some h

namespace World.Retains

variable {w w' w'' : World σ}

theorem refl (w : World σ) : w.Retains w :=
  ⟨Nat.le_refl _, fun found => ⟨_, found, rfl, rfl, rfl⟩, fun touched => touched⟩

theorem trans (first : w.Retains w') (second : w'.Retains w'') : w.Retains w'' where
  size := Nat.le_trans first.size second.size
  handler found := by
    obtain ⟨s', found', htarget', htype', henvironment'⟩ := first.handler found
    obtain ⟨s'', found'', htarget'', htype'', henvironment''⟩ := second.handler found'
    exact ⟨s'', found'', htarget''.trans htarget', htype''.trans htype',
      henvironment''.trans henvironment'⟩
  touched touched := second.touched (first.touched touched)

theorem of_eq (handlers : w'.handlers = w.handlers) (maps : w'.maps = w.maps)
    (size : w.elements.size ≤ w'.elements.size) : w.Retains w' where
  size := size
  handler {h s} found := by
    rw [World.handler?, ← handlers] at found
    exact ⟨s, found, rfl, rfl, rfl⟩
  touched {m p h} touched := by
    rw [World.touched?, World.map?, ← maps] at touched
    exact touched

theorem of_sameHandling (same : w.SameHandling w') : w.Retains w' :=
  of_eq same.handlers same.maps same.size

theorem of_sameRecords (same : w.SameRecords w') : w.Retains w' :=
  of_sameHandling (.of_sameRecords same)

theorem modifyElement (w : World σ) (t : ElementId) (f : Element → Element) :
    w.Retains (w.modifyElement t f) := of_eq rfl rfl (by simp)

theorem addHandler (w : World σ) (target : ElementId) (type : String)
    (environment : HandlerEnvironment) : w.Retains (w.addHandler target type environment) where
  size := Nat.le_refl _
  handler {h s} found := by
    have hne : h ≠ ⟨w.handlers.size⟩ := fun hh => by simp [hh, w.handler?_size] at found
    exact ⟨s, by rw [World.handler?_addHandler, if_neg hne, found], rfl, rfl, rfl⟩
  touched touched := touched

theorem addMap (w : World σ) (target : ElementId) (environment : HandlerEnvironment) :
    w.Retains (w.addMap target environment) where
  size := Nat.le_refl _
  handler found := ⟨_, found, rfl, rfl, rfl⟩
  touched {m p h} touched := by
    have hne : m ≠ ⟨w.maps.size⟩ := fun hm => by simp [World.touched?, hm, w.map?_size] at touched
    rw [World.touched?, World.map?_addMap, if_neg hne]
    exact touched

end World.Retains

theorem World.touched?_addProperty (w : World σ) {m : HandlerMapId} {record : HandlerMap}
    (found : w.map? m = some record) (property type : String) (n : HandlerMapId) (q : String) :
    (w.addProperty m record property type).touched? n q =
      if m = n ∧ q = property then some ⟨w.handlers.size⟩ else w.touched? n q := by
  have hmap : (w.addHandler record.target type record.environment).map? n = w.map? n := rfl
  rw [World.touched?, World.touched?, World.addProperty, World.map?_modifyMap, hmap]
  by_cases hn : m = n
  · subst n
    by_cases hq : q = property
    · simp [hq, found, OrderedMap.get?_insert_self]
    · simp [hq, found, OrderedMap.get?_insert_of_ne]
  · simp [hn]

theorem World.Retains.addProperty {w : World σ} {m : HandlerMapId} {record : HandlerMap}
    (found : w.map? m = some record) {property : String}
    (untouched : record.states.get? property = none) (type : String) :
    w.Retains (w.addProperty m record property type) where
  size := Nat.le_refl _
  handler found := (addHandler w record.target type record.environment).handler found
  touched {n q h} touched := by
    rw [World.touched?_addProperty w found, if_neg]
    · exact touched
    · rintro ⟨rfl, rfl⟩
      simp [World.touched?, found, untouched] at touched

theorem World.Retains.revise {w : World σ} {h : HandlerId} {s : EventHandler}
    (found : w.handler? h = some s) (effect : HandlerEffect) : w.Retains (w.revise h s effect) where
  size := Nat.le_of_eq (World.size_revise effect).symm
  handler {k r} hk := by
    rw [World.handler?_revise effect found]
    by_cases hhk : h = k
    · subst k
      rw [found] at hk
      rw [← Option.some.inj hk]
      exact ⟨_, if_pos rfl, s.revised_target .., s.revised_type .., s.revised_environment ..⟩
    · exact ⟨r, by rw [if_neg hhk, hk], rfl, rfl, rfl⟩
  touched touched := touched

theorem Change.retains {w w' : World σ} {a : Happening} (change : Change w a w') :
    w.Retains w' := by
  cases change with
  | other _ same => exact .of_sameHandling same
  | listen _ same =>
    exact (World.Retains.modifyElement w _ _).trans (.of_sameRecords same)
  | unlisten _ same =>
    exact (World.Retains.modifyElement w _ _).trans (.of_sameRecords same)
  | create _ same => exact (World.Retains.addHandler w _ _ _).trans (.of_sameRecords same)
  | createMap _ same => exact (World.Retains.addMap w _ _).trans (.of_sameRecords same)
  | touch _ found untouched same =>
    exact (World.Retains.addProperty found untouched _).trans (.of_sameRecords same)
  | revise _ found _ same => exact (World.Retains.revise found _).trans (.of_sameRecords same)

theorem History.retains {w w' : World σ} {history : List Happening}
    (run : History observe w history w') : w.Retains w' := by
  induction run with
  | nil => exact .refl _
  | cons happens _ ih => exact happens.change.retains.trans ih

/-- Every property that was touched has a handler of its own, made for the property and for the
element of its map. -/
structure World.Mapped (w : World σ) : Prop where
  housed {m : HandlerMapId} {record : HandlerMap} (found : w.map? m = some record) :
    record.target.index < w.elements.size
  handled {m : HandlerMapId} {property : String} {h : HandlerId}
    (touched : w.touched? m property = some h) : ∃ record s, w.map? m = some record ∧
      w.handler? h = some s ∧ s.target = record.target ∧ eventTypeOf? property = some s.type ∧
      s.environment = record.environment
  apart {m n : HandlerMapId} {p q : String} {h : HandlerId} (first : w.touched? m p = some h)
    (second : w.touched? n q = some h) : m = n ∧ p = q

namespace World.Mapped

variable {w w' : World σ}

theorem initial (x : σ) : (World.initial x).Mapped where
  housed found := absurd found (by simp [World.map?, World.initial])
  handled touched := absurd touched (by simp [World.touched?, World.map?, World.initial])
  apart touched := absurd touched (by simp [World.touched?, World.map?, World.initial])

theorem of_maps (mapped : w.Mapped) (maps : w'.maps = w.maps) (retains : w.Retains w') :
    w'.Mapped := by
  have hmap (m : HandlerMapId) : w'.map? m = w.map? m := by rw [World.map?, World.map?, maps]
  have htouched (m : HandlerMapId) (p : String) : w'.touched? m p = w.touched? m p := by
    rw [World.touched?, World.touched?, hmap]
  refine ⟨fun {m record} found => ?_, fun {m p h} touched => ?_, fun {m n p q h} first second => ?_⟩
  · rw [hmap] at found
    exact Nat.lt_of_lt_of_le (mapped.housed found) retains.size
  · rw [htouched] at touched
    obtain ⟨record, s, hrecord, hs, htarget, htype, henvironment⟩ := mapped.handled touched
    obtain ⟨s', hs', htarget', htype', henvironment'⟩ := retains.handler hs
    exact ⟨record, s', (hmap m).trans hrecord, hs', htarget'.trans htarget, htype' ▸ htype,
      henvironment'.trans henvironment⟩
  · rw [htouched] at first second
    exact mapped.apart first second

theorem of_sameRecords (mapped : w.Mapped) (same : w.SameRecords w') : w'.Mapped :=
  mapped.of_maps same.maps (.of_sameRecords same)

theorem addMap (mapped : w.Mapped) {target : ElementId} (environment : HandlerEnvironment)
    (present : target.index < w.elements.size) : (w.addMap target environment).Mapped := by
  have htouched (m : HandlerMapId) (p : String) :
      (w.addMap target environment).touched? m p = w.touched? m p := by
    rw [World.touched?, World.map?_addMap, World.touched?]
    split
    · rename_i hm
      rw [hm, w.map?_size]
      rfl
    · rfl
  refine ⟨fun {m record} found => ?_, fun {m p h} touched => ?_, fun {m n p q h} first second => ?_⟩
  · rw [World.map?_addMap] at found
    split at found
    · rw [← Option.some.inj found]
      exact present
    · exact mapped.housed found
  · rw [htouched] at touched
    obtain ⟨record, s, hrecord, hs⟩ := mapped.handled touched
    refine ⟨record, s, ?_, hs⟩
    rw [World.map?_addMap, if_neg]
    · exact hrecord
    · rintro rfl
      simp [w.map?_size] at hrecord
  · rw [htouched] at first second
    exact mapped.apart first second

theorem addProperty (mapped : w.Mapped) {m : HandlerMapId} {record : HandlerMap}
    (found : w.map? m = some record) {property type : String}
    (named : eventTypeOf? property = some type)
    (untouched : record.states.get? property = none) :
    (w.addProperty m record property type).Mapped := by
  have retains := World.Retains.addProperty found untouched type
  have hmap (n : HandlerMapId) : (w.addProperty m record property type).map? n = if m = n then
      (w.map? n).map fun r => { r with states := r.states.insert property ⟨w.handlers.size⟩ }
      else w.map? n := World.map?_modifyMap _ m n _
  have hfresh {n : HandlerMapId} {q : String} : w.touched? n q ≠ some ⟨w.handlers.size⟩ := by
    intro touched
    obtain ⟨_, s, _, hs, _⟩ := mapped.handled touched
    simp [w.handler?_size] at hs
  have hkept {n : HandlerMapId} {r : HandlerMap} (hr : w.map? n = some r) :
      ∃ r', (w.addProperty m record property type).map? n = some r' ∧ r'.target = r.target ∧
        r'.environment = r.environment := by
    rw [hmap, hr]
    by_cases hn : m = n
    · exact ⟨_, if_pos hn, rfl, rfl⟩
    · exact ⟨r, if_neg hn, rfl, rfl⟩
  refine ⟨fun {n r} hr => ?_, fun {n q h} touched => ?_, fun {n k p q h} first second => ?_⟩
  · rw [hmap] at hr
    split at hr
    · obtain ⟨r', hr', rfl⟩ := Option.map_eq_some_iff.1 hr
      have housed := mapped.housed hr'
      exact housed
    · exact mapped.housed hr
  · rw [World.touched?_addProperty w found] at touched
    split at touched
    · rename_i hnq
      obtain ⟨r', hr', htarget, henvironment⟩ := hkept found
      refine ⟨r', .new record.target type record.environment, hnq.1 ▸ hr', ?_, htarget.symm,
        hnq.2 ▸ named, henvironment.symm⟩
      rw [← Option.some.inj touched]
      exact (World.handler?_addHandler w _ _ _ _).trans (if_pos rfl)
    · obtain ⟨r, s, hr, hs, htarget, htype, henvironment⟩ := mapped.handled touched
      obtain ⟨r', hr', htarget', henvironment'⟩ := hkept hr
      obtain ⟨s', hs', hstarget, hstype, hsenvironment⟩ := retains.handler hs
      exact ⟨r', s', hr', hs', by rw [hstarget, htarget, htarget'], hstype ▸ htype,
        by rw [hsenvironment, henvironment, henvironment']⟩
  · rw [World.touched?_addProperty w found] at first second
    split at first <;> split at second
    · rename_i hn hk
      exact ⟨hn.1.symm.trans hk.1, hn.2.trans hk.2.symm⟩
    · exact absurd (second.trans first.symm) hfresh
    · exact absurd (first.trans second.symm) hfresh
    · exact mapped.apart first second

theorem change {a : Happening} (mapped : w.Mapped) (change : Change w a w') : w'.Mapped := by
  have retains := change.retains
  cases change with
  | other _ same => exact mapped.of_maps same.maps retains
  | listen _ same => exact mapped.of_maps same.maps retains
  | unlisten _ same => exact mapped.of_maps same.maps retains
  | create _ same => exact mapped.of_maps same.maps retains
  | createMap present same => exact (mapped.addMap _ present).of_sameRecords same
  | touch named found untouched same =>
    exact (mapped.addProperty found named untouched).of_sameRecords same
  | revise _ _ _ same => exact mapped.of_maps same.maps retains

end World.Mapped

/-- Handlers, listeners and maps belong together after every history. -/
theorem History.linked {w w' : World σ} {history : List Happening} (linked : w.Linked)
    (mapped : w.Mapped) (run : History observe w history w') : w'.Linked ∧ w'.Mapped := by
  induction run with
  | nil => exact ⟨linked, mapped⟩
  | cons happens _ ih =>
    exact ih (linked.change mapped.housed happens.change) (mapped.change happens.change)

end WebBindings
