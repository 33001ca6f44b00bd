import WebBindings.Proofs.Handler.Isolation
/-!
# Removing attributes that are not there

A handler map that removes an attribute clears the handler of its name, whether the attribute was there
or not. What is removed in vain therefore keeps everything only where this handler is idle; a callback
that a script has set is lost together with its listener.
-/

namespace WebBindings

variable {σ τ : Type}

/-- Handlers, attributes and listeners are as before. Properties may have been touched for the first
time, but have nothing yet. -/
structure World.Keeps (w w' : World σ) : Prop where
  handler {h : HandlerId} {s : EventHandler} (found : w.handler? h = some s) : w'.handler? h = some s
  stored (m : HandlerMapId) (property : String) : w'.stored m property = w.stored m property
  element (t : ElementId) : w'.element t = w.element t

/-- A handler has lost its value and its listener. Other handlers, all attributes and all other listeners
are as before. -/
structure World.Drops (w : World σ) (h : HandlerId) (s : EventHandler) (id : ListenerId)
    (w' : World σ) : Prop where
  active : s.activation.registration = some id
  dropped : w'.handler? h =
    some { s with value := .none, activation := { s.activation with registration := none } }
  others (k : HandlerId) (other : k ≠ h) : w'.handler? k = w.handler? k
  listeners : ∃ before behind, (w.element s.target).listeners = before ++ s.listener h id :: behind ∧
    w'.element s.target = { w.element s.target with listeners := before ++ behind }
  elsewhere (t : ElementId) (other : t ≠ s.target) : w'.element t = w.element t

namespace World

variable {w w' w'' : World σ}

theorem Keeps.of_sameRecords (same : w.SameRecords w') : w.Keeps w' where
  handler found := (same.handler? _).trans found
  stored m property := stored_congr ((SameHandling.of_sameRecords same).touched? m property)
    fun h _ => same.handler? h
  element := same.element

theorem Keeps.trans (first : w.Keeps w') (second : w'.Keeps w'') : w.Keeps w'' where
  handler found := second.handler (first.handler found)
  stored m property := (second.stored m property).trans (first.stored m property)
  element t := (second.element t).trans (first.element t)

theorem Drops.not_keeps {h : HandlerId} {s : EventHandler} {id : ListenerId}
    (drops : w.Drops h s id w') (found : w.handler? h = some s) : ¬ w.Keeps w' := by
  intro keeps
  have kept := keeps.handler found
  rw [drops.dropped] at kept
  have registration := congrArg (fun s => s.activation.registration) (Option.some.inj kept)
  rw [drops.active] at registration
  cases registration

theorem Mapped.keeps_addProperty (mapped : w.Mapped) {m : HandlerMapId} {record : HandlerMap}
    (found : w.map? m = some record) {property : String}
    (untouched : record.states.get? property = none) (type : String) :
    w.Keeps (w.addProperty m record property type) := by
  have handler (h : HandlerId) : (w.addProperty m record property type).handler? h =
      if h = ⟨w.handlers.size⟩ then some (.new record.target type record.environment)
      else w.handler? h := handler?_addHandler w record.target type record.environment h
  have old {h : HandlerId} {s : EventHandler} (known : w.handler? h = some s) :
      (w.addProperty m record property type).handler? h = some s := by
    rw [handler, if_neg]
    · exact known
    · rintro rfl
      simp [w.handler?_size] at known
  refine ⟨old, fun n q => ?_, fun t => rfl⟩
  have touched := w.touched?_addProperty found property type n q
  by_cases own : m = n ∧ q = property
  · obtain ⟨rfl, rfl⟩ := own
    have before : w.touched? m q = none := by simp [World.touched?, found, untouched]
    rw [if_pos ⟨rfl, rfl⟩] at touched
    rw [stored_of_untouched before, stored_of_touched touched (by rw [handler, if_pos rfl])]
    rfl
  · rw [if_neg own] at touched
    refine stored_congr touched fun h known => ?_
    obtain ⟨-, s, -, there, -⟩ := mapped.handled known
    rw [old there, there]

theorem Mapped.keeps_touch (mapped : w.Mapped) (host : Host σ) {m : HandlerMapId}
    {property type : String} {record : HandlerMap} (named : eventTypeOf? property = some type)
    (found : w.map? m = some record) : w.Keeps (after host (m.handler? property) w) := by
  cases known : record.states.get? property with
  | some h =>
    have touched : w.touched? m property = some h := by simp [World.touched?, found, known]
    rw [after, m.handler?_of_touched host named touched]
    exact .of_sameRecords (refl_of SameRecords w)
  | none =>
    have records := (m.handler?_of_untouched host named found known).2
    exact (mapped.keeps_addProperty found known type).trans (.of_sameRecords records)

namespace Linked

variable (linked : w.Linked) {h : HandlerId} {s : EventHandler} (found : w.handler? h = some s)

include linked found

theorem clear_of_idle (idle : s.activation.registration = none) :
    w.SameRecords (w.revise h s .clear) := by
  have valueless : s.value = .none := by
    by_contra valued
    have active := (linked.linked found).active valued
    simp [Activation.isActive, idle] at active
  have same : s.revised h (w.element s.target) .clear = (s, w.element s.target) := by
    obtain ⟨target, type, value, ⟨name, registration⟩, environment⟩ := s
    cases idle
    cases valueless
    rfl
  have handlers : (w.handlers.modify h.index fun _ => s) = w.handlers :=
    modify_of_fixed fun r read => Option.some.inj (found.symm.trans read)
  have elements : (w.elements.modify s.target.index fun _ => w.element s.target) = w.elements :=
    modify_of_fixed fun e read => by simp [World.element, read]
  constructor
  · simp only [World.revise, same]
    exact handlers
  · rfl
  · simp only [World.revise, same]
    exact elements

theorem clear_of_active {id : ListenerId} (active : s.activation.registration = some id)
    (same : (w.revise h s .clear).SameRecords w') : w.Drops h s id w' := by
  have present := linked.present found
  have type : s.activation.type = s.type := (linked.linked found).type
  have revised : s.revised h (w.element s.target) .clear =
      ({ s with value := .none, activation := { s.activation with registration := none } },
        (w.element s.target).removeListener s.type id) := by
    simp only [EventHandler.revised, active, type]
  refine ⟨active, ?_, fun k other => ?_, ?_, fun t other => ?_⟩
  · rw [same.handler?, handler?_revise .clear found, if_pos rfl, revised]
  · rw [same.handler?, handler?_revise .clear found, if_neg (Ne.symm other)]
  · obtain ⟨before, behind, place⟩ := List.append_of_mem (linked.listener_mem found active)
    refine ⟨before, behind, place, ?_⟩
    rw [same.element, element_revise .clear present, if_pos rfl, revised]
    have removed := (linked.orderly s.target).removeListener_of_place place
    exact congrArg (fun listeners => { w.element s.target with listeners }) removed
  · rw [same.element, element_revise .clear present, if_neg (Ne.symm other)]

end Linked

end World

section Removals

variable {host : Host σ} {w : World σ} {m : HandlerMapId} {target : ElementId}
  {environment : HandlerEnvironment}

theorem removeAttribute_of_absent {name : String} (absent : w.attribute? target name = none) :
    outcome host (removeAttribute target name) w = (⟨⟩, w) := by
  have missing : (w.element target).attributes.erase (Ascii.lower name) =
      (w.element target).attributes := OrderedMap.erase_of_absent absent
  have same : w.modifyElement target (fun e =>
      { e with attributes := e.attributes.erase (Ascii.lower name) }) = w := by
    rw [World.modifyElement, modify_of_fixed]
    intro e read
    have here : w.element target = e := by simp [World.element, read]
    rw [here] at missing
    rw [missing]
  rw [removeAttribute, outcome_modify, same]

/-- The map tells the handler of the name all the same. -/
theorem HandlerMapId.removeAttribute_of_absent {record : HandlerMap} (found : w.map? m = some record)
    {name : String} (absent : w.attribute? record.target name = none) :
    after host (m.removeAttribute name) w = after host (m.followAttribute name none) w := by
  have removed : outcome host (WebBindings.removeAttribute record.target name) w = (⟨⟩, w) :=
    WebBindings.removeAttribute_of_absent absent
  rw [after, m.outcome_removeAttribute host found removed rfl]
  rfl

namespace World.Houses

variable (houses : w.Houses m target environment)

include houses

theorem handler_of_active {property : String} (active : (w.stored m property).active = true) :
    ∃ h s id, w.touched? m property = some h ∧ w.handler? h = some s ∧ s.target = target ∧
      eventTypeOf? property = some s.type ∧ s.activation.registration = some id := by
  cases touched : w.touched? m property with
  | none =>
    rw [stored_of_untouched touched] at active
    cases active
  | some h =>
    obtain ⟨s, found, inTarget, named, -⟩ := houses.handler touched
    rw [stored_of_touched touched found] at active
    obtain ⟨id, registration⟩ := Option.isSome_iff_exists.1 active
    exact ⟨h, s, id, rfl, found, inTarget, named, registration⟩

theorem follow_of_active {name : String} (active : (w.stored m (Ascii.lower name)).active = true) :
    ∃ h s id, w.touched? m (Ascii.lower name) = some h ∧ w.handler? h = some s ∧ s.target = target ∧
      w.Drops h s id (after host (m.followAttribute name none) w) := by
  obtain ⟨h, s, id, touched, found, inTarget, named, registration⟩ := houses.handler_of_active active
  have known : outcome host (m.handler? (Ascii.lower name)) w = (some h, w) :=
    m.handler?_of_touched host named touched
  have followed : after host (m.followAttribute name none) w = after host (h.followAttribute none) w := by
    rw [after, m.outcome_followAttribute host (congrArg Prod.fst known), after, after, after, known]
  refine ⟨h, s, id, touched, found, inTarget, houses.linked.clear_of_active found registration ?_⟩
  rw [followed]
  exact h.followAttribute_revise host found none

theorem follow_of_idle {name : String} (idle : (w.stored m (Ascii.lower name)).active = false) :
    w.Keeps (after host (m.followAttribute name none) w) := by
  cases named : eventTypeOf? (Ascii.lower name) with
  | none =>
    rw [after, m.outcome_followAttribute_of_unnamed host w named]
    exact .of_sameRecords (refl_of World.SameRecords w)
  | some type =>
    obtain ⟨states, home⟩ := houses.home
    obtain ⟨h, s, answer, touched, found, -, -, -, updates⟩ := houses.touch host named
    have touching := houses.mapped.keeps_touch host named home
    have inactive : s.activation.registration = none := by
      rw [← updates.stored, stored_of_touched touched found] at idle
      exact Option.isNone_iff_eq_none.1 (Option.isSome_eq_false_iff.1 idle)
    rw [after, m.outcome_followAttribute host answer]
    have cleared := updates.houses.linked.clear_of_idle found inactive
    exact touching.trans (.of_sameRecords (cleared.trans (h.followAttribute_revise host found none)))

end World.Houses

end Removals

/-- In every world that can be reached, removing an attribute that an element does not have keeps every
handler, every attribute and every listener exactly if the handler of its name is idle. An active one is
dropped, wherever its callback came from: it loses its value and its listener, and nothing else changes. -/
theorem vain_removal_clears {observe : σ → τ} {x : σ} (host : Host σ) {w : World σ}
    (reached : w.Reached observe x) {m : HandlerMapId} {record : HandlerMap}
    (found : w.map? m = some record) {name : String}
    (absent : w.attribute? record.target name = none) :
    let w' := after host (m.removeAttribute name) w
    let v := w.stored m (Ascii.lower name)
    (w.Keeps w' ↔ v.active = false) ∧
      (v.active = true → ∃ h s id, w.touched? m (Ascii.lower name) = some h ∧
        w.handler? h = some s ∧ s.target = record.target ∧ w.Drops h s id w') := by
  intro w' v
  obtain ⟨history, run⟩ := reached
  obtain ⟨linked, mapped⟩ := run.linked (.initial x) (.initial x)
  have houses : w.Houses m record.target record.environment := ⟨linked, mapped, record.states, found⟩
  have told : w' = after host (m.followAttribute name none) w := m.removeAttribute_of_absent found absent
  rw [told]
  refine ⟨⟨fun keeps => ?_, houses.follow_of_idle⟩, houses.follow_of_active⟩
  by_contra idle
  have active : v.active = true := by simpa using idle
  obtain ⟨h, s, id, -, there, -, drops⟩ := houses.follow_of_active active
  exact drops.not_keeps there keeps

/-- A script has set a callback, and the element has no attributes. -/
def World.clicked : World (List String) :=
  after Embedder.scribe.host (HandlerMapId.set ⟨0⟩ "onclick" (.object ⟨0⟩)).run .furnished

theorem World.clicked_reached : World.clicked.Reached (fun _ => ()) [] := by
  have engines : Embedder.scribe.host.EnginesOnly fun _ => () :=
    ⟨fun _ _ _ => rfl, fun _ _ _ _ => rfl, fun _ _ _ _ => rfl, fun _ _ => rfl⟩
  have obeys : Embedder.scribe.Obeys (fun _ => ()) [] :=
    ⟨engines, fun _ _ _ w => refl_of (LeadsTo _ _) w, fun _ _ w => refl_of (LeadsTo _ _) w,
      fun _ _ w => refl_of (LeadsTo _ _) w⟩
  obtain ⟨earlier, run⟩ := furnished_reached
  let op : Operation := .setProperty ⟨0⟩ "onclick" (.object ⟨0⟩)
  have leads : World.furnished.LeadsTo _ _ (after Embedder.scribe.host op.perform.run _) :=
    obeys.perform trivial
  obtain ⟨later, set⟩ := leads ⟨earlier, run⟩
  exact ⟨earlier ++ later, run.append set⟩

/-- Only the removal of an attribute of its own name drops the callback. -/
theorem vain_removals_of_two_names : ∃ w : World (List String),
    w.stored ⟨0⟩ "onclick" = ⟨.compiled ⟨0⟩, true⟩ ∧
      w.Keeps (after Embedder.scribe.host (HandlerMapId.removeAttribute ⟨0⟩ "onload") w) ∧
      ¬ w.Keeps (after Embedder.scribe.host (HandlerMapId.removeAttribute ⟨0⟩ "onClick") w) := by
  have found : ∃ record, World.clicked.map? ⟨0⟩ = some record ∧ record.target = ⟨0⟩ := ⟨_, rfl, rfl⟩
  obtain ⟨record, found, target⟩ := found
  have absent (name : String) : World.clicked.attribute? record.target name = none := by
    rw [target]
    rfl
  have load := (vain_removal_clears Embedder.scribe.host World.clicked_reached found (absent "onload")).1
  have click := (vain_removal_clears Embedder.scribe.host World.clicked_reached found (absent "onClick")).1
  refine ⟨World.clicked, by decide +kernel, load.2 (by decide +kernel), fun keeps => ?_⟩
  exact absurd (click.1 keeps) (by decide +kernel)

/-- A callback that a script has set does not survive the removal of an attribute that was never there. -/
theorem set_callback_is_lost : ∃ (w : World (List String)) (record : HandlerMap),
    w.Reached (fun _ => ()) [] ∧ w.map? ⟨0⟩ = some record ∧
      w.attribute? record.target "onclick" = none ∧
      w.stored ⟨0⟩ "onclick" = ⟨.compiled ⟨0⟩, true⟩ ∧
      ((w.element record.target).listenersOf "click").length = 1 ∧
      let w' := after Embedder.scribe.host (HandlerMapId.removeAttribute ⟨0⟩ "onclick") w
      w'.stored ⟨0⟩ "onclick" = .blank ∧ (w'.element record.target).listeners = [] ∧ ¬ w.Keeps w' := by
  have stored : World.clicked.stored ⟨0⟩ "onclick" = ⟨.compiled ⟨0⟩, true⟩ := by decide +kernel
  have lost : (after Embedder.scribe.host (HandlerMapId.removeAttribute ⟨0⟩ "onclick")
      World.clicked).stored ⟨0⟩ "onclick" = .blank := by decide +kernel
  have bare : ((after Embedder.scribe.host (HandlerMapId.removeAttribute ⟨0⟩ "onclick")
      World.clicked).element ⟨0⟩).listeners = [] := by decide +kernel
  refine ⟨World.clicked, _, World.clicked_reached, rfl, rfl, stored, rfl, lost, bare, fun keeps => ?_⟩
  have kept := keeps.stored ⟨0⟩ "onclick"
  rw [lost, stored] at kept
  cases kept

end WebBindings
