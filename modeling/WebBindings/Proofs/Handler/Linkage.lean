import WebBindings.Proofs.Handler.Session
/-!
# Handlers and their listeners

A handler is active exactly when one listener on its target runs its callback, under its event type
and under the number that it recorded; a handler with a value is active.
-/

namespace WebBindings

variable {σ : Type}

/-- A handler and the element that it listens on agree. -/
structure EventHandler.LinkedTo (s : EventHandler) (h : HandlerId) (e : Element) : Prop where
  type : s.activation.type = s.type
  made : e.madeBy h = (s.listener? h).toList
  active : s.value ≠ .none → s.activation.isActive = true

namespace EventHandler.LinkedTo

variable {s : EventHandler} {h : HandlerId} {e : Element}

theorem of_madeBy {e' : Element} (linked : s.LinkedTo h e) (same : e'.madeBy h = e.madeBy h) :
    s.LinkedTo h e' := ⟨linked.type, same.trans linked.made, linked.active⟩

theorem new (target : ElementId) (type : String) (environment : HandlerEnvironment)
    (unmade : e.madeBy h = []) : (EventHandler.new target type environment).LinkedTo h e :=
  ⟨rfl, unmade, fun hvalue => absurd rfl hvalue⟩

theorem madeBy_eq {id : ListenerId} (linked : s.LinkedTo h e)
    (active : s.activation.registration = some id) : e.madeBy h = [s.listener h id] := by
  rw [linked.made, listener?, active]
  rfl

theorem revised (linked : s.LinkedTo h e) (effect : HandlerEffect)
    (keeps : ∀ value, effect = .keep value → s.activation.isActive = true) :
    (s.revised h e effect).1.LinkedTo h (s.revised h e effect).2 := by
  cases effect with
  | keep value => exact ⟨linked.type, linked.made, fun _ => keeps value rfl⟩
  | take value =>
    cases hreg : s.activation.registration with
    | some id =>
      simp only [EventHandler.revised, hreg]
      exact ⟨linked.type, linked.made, fun _ => by simp [Activation.isActive, hreg]⟩
    | none =>
      simp only [EventHandler.revised, hreg]
      refine ⟨linked.type, ?_, fun _ => rfl⟩
      rw [Element.madeBy_addListener, linked.made, listener?, hreg, linked.type]
      simp [ListenerAction.handler?, listener?, listener, Element.addListener]
  | clear =>
    cases hreg : s.activation.registration with
    | some id =>
      simp only [EventHandler.revised, hreg]
      refine ⟨linked.type, ?_, fun hvalue => absurd rfl hvalue⟩
      rw [Element.madeBy_removeListener, linked.madeBy_eq hreg]
      simp [listener, listener?, linked.type]
    | none =>
      simp only [EventHandler.revised, hreg]
      refine ⟨linked.type, ?_, fun hvalue => absurd rfl hvalue⟩
      rw [linked.made]
      simp [listener?, hreg]

theorem madeBy_revised (linked : s.LinkedTo h e) (orderly : e.Orderly) (effect : HandlerEffect)
    {k : HandlerId} (other : h ≠ k) : (s.revised h e effect).2.madeBy k = e.madeBy k := by
  obtain hsame | hadded | ⟨id, hreg, hremoved⟩ := s.revised_element h e effect
  · rw [hsame]
  · rw [hadded, Element.madeBy_addListener]
    simp [ListenerAction.handler?, other]
  · rw [hremoved]
    apply Element.madeBy_removeListener_of_foreign
    -- The number that was recorded is one of this handler's own listener.
    intro l hl hid _ hmade
    have hown : s.listener h id ∈ e.madeBy h := by simp [linked.madeBy_eq hreg]
    have heq : l = s.listener h id :=
      orderly.eq_of_id hl ((e.mem_madeBy h _).1 hown).1 (by rw [hid, listener])
    rw [heq] at hmade
    exact other (Option.some.inj hmade)

end EventHandler.LinkedTo

theorem EventHandler.orderly_revised (s : EventHandler) (h : HandlerId) {e : Element}
    (orderly : e.Orderly) (effect : HandlerEffect) :
    (s.revised h e effect).2.Orderly := by
  obtain hsame | hadded | ⟨id, -, hremoved⟩ := s.revised_element h e effect
  · rw [hsame]
    exact orderly
  · rw [hadded]
    exact orderly.addListener _ _
  · rw [hremoved]
    exact orderly.removeListener _ _

/-- Every handler and its listener belong together, and there are no other listeners of handlers. -/
structure World.Linked (w : World σ) : Prop where
  orderly (t : ElementId) : (w.element t).Orderly
  present {h : HandlerId} {s : EventHandler} (found : w.handler? h = some s) :
    s.target.index < w.elements.size
  linked {h : HandlerId} {s : EventHandler} (found : w.handler? h = some s) :
    s.LinkedTo h (w.element s.target)
  /-- Only a handler on this element has made listeners of it. -/
  made {h : HandlerId} {t : ElementId} (some_made : (w.element t).madeBy h ≠ []) :
    ∃ s, w.handler? h = some s ∧ s.target = t

namespace World.Linked

variable {w w' : World σ}

theorem initial (x : σ) : (World.initial x).Linked where
  orderly t := Element.Orderly.default
  present found := absurd found (by simp [World.handler?, World.initial])
  linked found := absurd found (by simp [World.handler?, World.initial])
  made some_made := absurd rfl some_made

theorem eq_listener (linked : w.Linked) {h : HandlerId} {s : EventHandler}
    (found : w.handler? h = some s) {t : ElementId} {l : Listener}
    (made : l ∈ (w.element t).madeBy h) : s.target = t ∧ l = s.listener h l.id := by
  obtain ⟨s', found', htarget⟩ := linked.made (List.ne_nil_of_mem made)
  rw [found] at found'
  cases found'
  rw [← htarget, (linked.linked found).made, Option.mem_toList] at made
  obtain ⟨id, -, hl⟩ := Option.map_eq_some_iff.1 made
  exact ⟨htarget, by rw [← hl]; rfl⟩

theorem listener_mem (linked : w.Linked) {h : HandlerId} {s : EventHandler}
    (found : w.handler? h = some s) {id : ListenerId}
    (active : s.activation.registration = some id) :
    s.listener h id ∈ (w.element s.target).listeners := by
  have hmade : s.listener h id ∈ (w.element s.target).madeBy h := by
    simp [(linked.linked found).madeBy_eq active]
  exact ((Element.mem_madeBy _ h _).1 hmade).1

theorem of_sameHandling (linked : w.Linked) (same : w.SameHandling w') : w'.Linked where
  orderly t := same.orderly (linked.orderly t)
  present {h s} found := Nat.lt_of_lt_of_le
    (linked.present ((same.handler? h).symm.trans found)) same.size
  linked {h s} found :=
    (linked.linked ((same.handler? h).symm.trans found)).of_madeBy (same.madeBy _ _)
  made {h t} some_made := by
    rw [same.madeBy] at some_made
    rw [same.handler?]
    exact linked.made some_made

theorem of_sameRecords (linked : w.Linked) (same : w.SameRecords w') : w'.Linked :=
  linked.of_sameHandling (.of_sameRecords same)

theorem modifyElement (linked : w.Linked) (t : ElementId) {f : Element → Element}
    (orderly : (f (w.element t)).Orderly)
    (same : ∀ h, (f (w.element t)).madeBy h = (w.element t).madeBy h) :
    (w.modifyElement t f).Linked := by
  have hmade (u : ElementId) (h : HandlerId) :
      ((w.modifyElement t f).element u).madeBy h = (w.element u).madeBy h := by
    rw [World.element_modifyElement]
    split
    · rename_i hu
      rw [← hu.1]
      exact same h
    · rfl
  refine ⟨fun u => ?_, fun found => ?_, fun found => ?_, fun some_made => ?_⟩
  · rw [World.element_modifyElement]
    split
    · rename_i hu
      rw [← hu.1]
      exact orderly
    · exact linked.orderly u
  · simpa using linked.present found
  · exact (linked.linked found).of_madeBy (hmade _ _)
  · rw [hmade] at some_made
    exact linked.made some_made

theorem addHandler (linked : w.Linked) {target : ElementId} (type : String)
    (environment : HandlerEnvironment) (present : target.index < w.elements.size) :
    (w.addHandler target type environment).Linked := by
  have hunmade (t : ElementId) : (w.element t).madeBy ⟨w.handlers.size⟩ = [] := by
    by_contra hmade
    obtain ⟨s, found, -⟩ := linked.made hmade
    exact absurd found (by simp [w.handler?_size])
  refine ⟨linked.orderly, fun {h s} found => ?_, fun {h s} found => ?_, fun {h t} some_made => ?_⟩
  · rw [World.handler?_addHandler] at found
    split at found
    · rw [← Option.some.inj found]
      exact present
    · exact linked.present found
  · rw [World.handler?_addHandler] at found
    split at found
    · rename_i hh
      rw [← Option.some.inj found, hh]
      exact .new target type environment (hunmade target)
    · exact linked.linked found
  · have hne : h ≠ ⟨w.handlers.size⟩ := fun hh => some_made (hh ▸ hunmade t)
    rw [World.handler?_addHandler, if_neg hne]
    exact linked.made some_made

theorem revise (linked : w.Linked) {h : HandlerId} {s : EventHandler}
    (found : w.handler? h = some s) (effect : HandlerEffect)
    (keeps : ∀ value, effect = .keep value → s.activation.isActive = true) :
    (w.revise h s effect).Linked := by
  have present := linked.present found
  have hown := linked.linked found
  have hother (k : HandlerId) (hk : h ≠ k) (t : ElementId) :
      ((w.revise h s effect).element t).madeBy k = (w.element t).madeBy k := by
    rw [World.element_revise effect present]
    split
    · rename_i ht
      rw [← ht]
      exact hown.madeBy_revised (linked.orderly _) effect hk
    · rfl
  refine ⟨fun t => ?_, fun {k r} hk => ?_, fun {k r} hk => ?_, fun {k t} some_made => ?_⟩
  · rw [World.element_revise effect present]
    split
    · exact s.orderly_revised h (linked.orderly _) effect
    · exact linked.orderly t
  · rw [World.size_revise]
    rw [World.handler?_revise effect found] at hk
    split at hk
    · rw [← Option.some.inj hk, EventHandler.revised_target]
      exact present
    · exact linked.present hk
  · rw [World.handler?_revise effect found] at hk
    split at hk
    · rename_i hhk
      rw [← Option.some.inj hk, ← hhk, EventHandler.revised_target,
        World.element_revise effect present, if_pos rfl]
      exact hown.revised effect keeps
    · rename_i hhk
      exact (linked.linked hk).of_madeBy (hother k hhk _)
  · rw [World.handler?_revise effect found]
    by_cases hhk : h = k
    · subst k
      refine ⟨_, if_pos rfl, ?_⟩
      rw [EventHandler.revised_target]
      by_contra ht
      rw [World.element_revise effect present, if_neg ht] at some_made
      obtain ⟨r, hr, hrt⟩ := linked.made some_made
      rw [found] at hr
      exact ht (Option.some.inj hr ▸ hrt)
    · rw [if_neg hhk]
      rw [hother k hhk] at some_made
      exact linked.made some_made

/-- Nothing that happens tears a handler from its listener. -/
theorem change {a : Happening} (linked : w.Linked)
    (housed : ∀ {m record}, w.map? m = some record → record.target.index < w.elements.size)
    (change : Change w a w') : w'.Linked := by
  cases change with
  | other _ same => exact linked.of_sameHandling same
  | @listen target type action _ foreign same =>
    refine (linked.modifyElement target ((linked.orderly _).addListener _ _) ?_).of_sameRecords same
    intro h
    rw [Element.madeBy_addListener, foreign]
    simp
  | @unlisten target type id _ foreign same =>
    refine (linked.modifyElement target ((linked.orderly _).removeListener _ _) ?_).of_sameRecords
      same
    intro h
    apply Element.madeBy_removeListener_of_foreign
    intro l hl hid htype
    simp [foreign l hl hid htype]
  | create present same => exact (linked.addHandler _ _ present).of_sameRecords same
  | @createMap target environment _ present same =>
    have hlinked : (w.addMap target environment).Linked :=
      ⟨linked.orderly, linked.present, linked.linked, linked.made⟩
    exact hlinked.of_sameRecords same
  | @touch m property type record _ named found untouched same =>
    have hadded := linked.addHandler type record.environment (housed found)
    have hlinked : (w.addProperty m record property type).Linked :=
      ⟨hadded.orderly, hadded.present, hadded.linked, hadded.made⟩
    exact hlinked.of_sameRecords same
  | revise named found pending same =>
    refine (linked.revise found _ ?_).of_sameRecords same
    -- Only a compilation keeps the listener as it is, and what it compiles is a value.
    intro value hkeep
    rw [hkeep] at named
    obtain ⟨source, result, ha⟩ := Happening.compile_of_keep named
    apply (linked.linked found).active
    rw [pending _ _ _ ha]
    exact HandlerValue.noConfusion

end World.Linked

end WebBindings
