import WebBindings.Proofs.Handler.Setting
import WebBindings.Proofs.Node.Attributes
/-!
# Where operations of a map go

An operation that a handler map routes to a property does to the handler of this property what the
operation is for, adds or removes the one listener of this handler, and leaves the handlers of all
other properties and all other listeners alone.
-/

namespace WebBindings

variable {σ τ : Type}

theorem Element.listenersOf_addListener (e : Element) (type : String) (action : ListenerAction)
    (counted : String) : (e.addListener type action).2.listenersOf counted = e.listenersOf counted ++
      if type = counted then [⟨⟨e.nextListener⟩, type, action⟩] else [] := by
  rw [listenersOf, addListener_listeners, List.filter_append, ← listenersOf, List.filter_cons]
  simp

theorem Element.Orderly.removeListener_of_place {e : Element} (orderly : e.Orderly)
    {before behind : List Listener} {l : Listener} (place : e.listeners = before ++ l :: behind) :
    (e.removeListener l.type l.id).listeners = before ++ behind := by
  obtain ⟨smaller, greater⟩ := orderly.around place
  have kept {k : Listener} (apart : k.id.number ≠ l.id.number) :
      (!(k.id = l.id && k.type = l.type)) = true := by
    have other : k.id ≠ l.id := fun same => apart (congrArg ListenerId.number same)
    simp [other]
  simp only [Element.removeListener, place, List.filter_append, List.filter_cons, decide_true,
    Bool.and_self, Bool.not_true, Bool.false_eq_true, if_false]
  rw [List.filter_eq_self.2 fun k mem => kept (Nat.ne_of_lt (smaller k mem)),
    List.filter_eq_self.2 fun k mem => kept (Nat.ne_of_gt (greater k mem))]

theorem EventHandler.LinkedTo.count_revised {s : EventHandler} {h : HandlerId} {e : Element}
    (linked : s.LinkedTo h e) (orderly : e.Orderly) (effect : HandlerEffect) (type : String) :
    ((s.revised h e effect).2.listenersOf type).length +
        (if s.type = type then s.activation.isActive.toNat else 0) =
      (e.listenersOf type).length +
        if s.type = type then (effect.isActive s.activation.isActive).toNat else 0 := by
  cases effect with
  | keep value => rfl
  | take value =>
    cases hreg : s.activation.registration with
    | some id => simp [EventHandler.revised, hreg, HandlerEffect.isActive, Activation.isActive]
    | none =>
      simp only [EventHandler.revised, hreg, Element.listenersOf_addListener, linked.type,
        Activation.isActive, HandlerEffect.isActive, List.length_append]
      split <;> simp
  | clear =>
    cases hreg : s.activation.registration with
    | none => simp [EventHandler.revised, hreg, HandlerEffect.isActive, Activation.isActive]
    | some id =>
      have own : s.listener h id ∈ e.madeBy h := by simp [linked.madeBy_eq hreg]
      obtain ⟨before, behind, place⟩ := List.append_of_mem ((e.mem_madeBy h _).1 own).1
      have removed : (e.removeListener s.type id).listeners = before ++ behind :=
        orderly.removeListener_of_place place
      simp only [EventHandler.revised, hreg, linked.type, Element.listenersOf, removed, place,
        Activation.isActive, HandlerEffect.isActive, List.filter_append, List.filter_cons,
        List.length_append, listener]
      split
      · rename_i same
        simp [same]
        omega
      · rename_i other
        simp [other]

/-- What the handler of a property has. -/
def World.stored (w : World σ) (m : HandlerMapId) (property : String) : Stored :=
  match (w.touched? m property).bind w.handler? with
  | some s => ⟨s.value, s.activation.isActive⟩
  | none => .blank

/-- How many of the listeners of a type are due to what a handler has. -/
def Stored.share (v : Stored) (property type : String) : Nat :=
  if eventTypeOf? property = some type then v.active.toNat else 0

namespace World

variable {w w' : World σ} {m : HandlerMapId} {property : String} {h : HandlerId} {s : EventHandler}

theorem stored_of_touched (touched : w.touched? m property = some h) (found : w.handler? h = some s) :
    w.stored m property = ⟨s.value, s.activation.isActive⟩ := by
  simp [stored, touched, found]

theorem stored_of_untouched (untouched : w.touched? m property = none) :
    w.stored m property = .blank := by
  simp [stored, untouched]

theorem stored_congr (touched : w'.touched? m property = w.touched? m property)
    (same : ∀ h, w.touched? m property = some h → w'.handler? h = w.handler? h) :
    w'.stored m property = w.stored m property := by
  cases known : w.touched? m property with
  | none => rw [stored_of_untouched known, stored_of_untouched (touched.trans known)]
  | some h => rw [stored, stored, touched, known, Option.bind_some, Option.bind_some, same h known]

theorem SameHandling.touched? (same : w.SameHandling w') (m : HandlerMapId) (property : String) :
    w'.touched? m property = w.touched? m property := by
  rw [World.touched?, World.touched?, World.map?, World.map?, same.maps]

/-- A map of an element, in a world where handlers and listeners belong together. -/
structure Houses (w : World σ) (m : HandlerMapId) (target : ElementId)
    (environment : HandlerEnvironment) : Prop where
  linked : w.Linked
  mapped : w.Mapped
  home : ∃ states, w.map? m = some ⟨target, environment, states⟩

/-- Of all that belongs to a map, only the handler of one property and its listener have changed, and
this is what the handler has now. -/
structure Updates (w : World σ) (m : HandlerMapId) (target : ElementId)
    (environment : HandlerEnvironment) (property : String) (v : Stored) (w' : World σ) : Prop where
  houses : w'.Houses m target environment
  stored : w'.stored m property = v
  others (other : String) (apart : other ≠ property) : w'.stored m other = w.stored m other
  listeners (type : String) :
    ((w'.element target).listenersOf type).length + (w.stored m property).share property type =
      ((w.element target).listenersOf type).length + v.share property type

end World

section Updates

variable {w w' w'' : World σ} {m : HandlerMapId} {target : ElementId}
  {environment : HandlerEnvironment} {property : String}

theorem World.Updates.trans {v v' : Stored} (first : w.Updates m target environment property v w')
    (second : w'.Updates m target environment property v' w'') :
    w.Updates m target environment property v' w'' where
  houses := second.houses
  stored := second.stored
  others other apart := (second.others other apart).trans (first.others other apart)
  listeners type := by
    have early := first.listeners type
    have late := second.listeners type
    rw [first.stored] at late
    omega

namespace World.Houses

variable (houses : w.Houses m target environment)

include houses

theorem handler {h : HandlerId} (touched : w.touched? m property = some h) : ∃ s,
    w.handler? h = some s ∧ s.target = target ∧ eventTypeOf? property = some s.type ∧
      s.environment = environment := by
  obtain ⟨states, home⟩ := houses.home
  obtain ⟨record, s, known, found, inTarget, named, inEnvironment⟩ := houses.mapped.handled touched
  rw [home] at known
  cases known
  exact ⟨s, found, inTarget, named, inEnvironment⟩

theorem of_sameHandling (same : w.SameHandling w') : w'.Houses m target environment where
  linked := houses.linked.of_sameHandling same
  mapped := houses.mapped.of_maps same.maps (.of_sameHandling same)
  home := by
    rw [World.map?, same.maps]
    exact houses.home

theorem unchanged (same : w.SameHandling w') :
    w.Updates m target environment property (w.stored m property) w' := by
  have stored (p : String) : w'.stored m p = w.stored m p :=
    stored_congr (same.touched? m p) fun h _ => same.handler? h
  refine ⟨houses.of_sameHandling same, stored _, fun other _ => stored other, fun type => ?_⟩
  rw [Element.listenersOf, Element.listenersOf, same.listeners]

theorem addProperty {type : String} {states : OrderedMap String HandlerId}
    (found : w.map? m = some ⟨target, environment, states⟩)
    (named : eventTypeOf? property = some type) (untouched : states.get? property = none)
    (same : (w.addProperty m ⟨target, environment, states⟩ property type).SameRecords w') :
    w'.touched? m property = some ⟨w.handlers.size⟩ ∧
      w.Updates m target environment property (w.stored m property) w' := by
  have change : Change w (.touch m property) w' := .touch named found untouched same
  have touched (p : String) : w'.touched? m p =
      if p = property then some ⟨w.handlers.size⟩ else w.touched? m p := by
    rw [(SameHandling.of_sameRecords same).touched?, touched?_addProperty w found]
    simp
  have handler (h : HandlerId) : w'.handler? h =
      if h = ⟨w.handlers.size⟩ then some (.new target type environment) else w.handler? h :=
    (same.handler? h).trans (handler?_addHandler w target type environment h)
  have new : w'.touched? m property = some ⟨w.handlers.size⟩ := by rw [touched, if_pos rfl]
  refine ⟨new, ⟨houses.linked.change houses.mapped.housed change, houses.mapped.change change, ?_⟩,
    ?_, fun other apart => ?_, fun type => ?_⟩
  · rw [same.map?, World.addProperty, World.map?_modifyMap, if_pos rfl]
    exact ⟨_, congrArg _ found⟩
  · have before : w.touched? m property = none := by simp [World.touched?, found, untouched]
    rw [stored_of_untouched before, stored_of_touched new (by rw [handler, if_pos rfl])]
    rfl
  · refine stored_congr (by rw [touched, if_neg apart]) fun h known => ?_
    obtain ⟨s, old, -⟩ := houses.handler known
    rw [handler, if_neg]
    rintro rfl
    simp [w.handler?_size] at old
  · rw [same.element]
    rfl

theorem revise {h : HandlerId} {s : EventHandler} (touched : w.touched? m property = some h)
    (found : w.handler? h = some s) {effect : HandlerEffect}
    (keeps : ∀ value, effect = .keep value → s.activation.isActive = true)
    (same : (w.revise h s effect).SameRecords w') :
    w.Updates m target environment property ((w.stored m property).revised effect) w' := by
  obtain ⟨s', found', rfl, named, -⟩ := houses.handler touched
  rw [found] at found'
  cases found'
  have present := houses.linked.present found
  have routes (p : String) : w'.touched? m p = w.touched? m p :=
    (SameHandling.of_sameRecords same).touched? m p
  have handler (k : HandlerId) := (same.handler? k).trans (handler?_revise effect found k)
  have linked : w'.Linked := (houses.linked.revise found effect keeps).of_sameRecords same
  have mapped : w'.Mapped := houses.mapped.of_maps same.maps
    ((World.Retains.revise found effect).trans (.of_sameRecords same))
  have before := stored_of_touched touched found
  refine ⟨⟨linked, mapped, ?_⟩, ?_, fun other apart => ?_, fun type => ?_⟩
  · rw [same.map?]
    exact houses.home
  · rw [before, stored_of_touched ((routes _).trans touched) ((handler h).trans (if_pos rfl))]
    simp [Stored.revised]
  · refine stored_congr (routes other) fun k known => ?_
    rw [handler, if_neg]
    rintro rfl
    exact apart (houses.mapped.apart known touched).2
  · have counted := (houses.linked.linked found).count_revised (houses.linked.orderly _) effect type
    rw [same.element, World.element_revise effect present, if_pos rfl, before]
    simpa [Stored.share, Stored.revised, named] using counted

theorem touch (host : Host σ) {type : String} (named : eventTypeOf? property = some type) : ∃ h s,
    (outcome host (m.handler? property) w).1 = some h ∧
      (after host (m.handler? property) w).touched? m property = some h ∧
      (after host (m.handler? property) w).handler? h = some s ∧
      s.type = type ∧ s.target = target ∧ s.environment = environment ∧
      w.Updates m target environment property (w.stored m property)
        (after host (m.handler? property) w) := by
  suffices moved : ∃ h, (outcome host (m.handler? property) w).1 = some h ∧
      (after host (m.handler? property) w).touched? m property = some h ∧
      w.Updates m target environment property (w.stored m property)
        (after host (m.handler? property) w) by
    obtain ⟨h, answer, touched, updates⟩ := moved
    obtain ⟨s, found, inTarget, known, inEnvironment⟩ := updates.houses.handler touched
    rw [named] at known
    exact ⟨h, s, answer, touched, found, (Option.some.inj known).symm, inTarget, inEnvironment, updates⟩
  obtain ⟨states, found⟩ := houses.home
  cases known : states.get? property with
  | some h =>
    have touched : w.touched? m property = some h := by simp [World.touched?, found, known]
    have idle := m.handler?_of_touched host named touched
    rw [after, idle]
    exact ⟨h, rfl, touched, houses.unchanged (.refl w)⟩
  | none =>
    obtain ⟨answer, records⟩ := m.handler?_of_untouched host named found known
    exact ⟨⟨w.handlers.size⟩, answer, houses.addProperty found named known records⟩

end World.Houses

end Updates

theorem HandlerEffect.ofSetting_ne_keep (value : Value) (kept : HandlerValue) :
    ofSetting value ≠ .keep kept := by
  rw [ofSetting]
  split <;> exact HandlerEffect.noConfusion

theorem HandlerEffect.ofAttribute_ne_keep (text : Option String) (blocked : Bool)
    (kept : HandlerValue) : ofAttribute text blocked ≠ .keep kept := by
  cases text <;> cases blocked <;> exact HandlerEffect.noConfusion

namespace HandlerEnvironment

/-- Whether a text is blocked, as it is asked in a world. -/
def blocksAt (environment : HandlerEnvironment) (host : Host σ) (type : String) (w : World σ)
    (source : String) : Bool := (outcome host (environment.isBlocked source type) w).1

/-- Whether a text compiles, as it is tried in a world. -/
def compilesAt (environment : HandlerEnvironment) (host : Host σ) (type : String) (target : ElementId)
    (w : World σ) (source : String) : Except CompileError Unit :=
  compileOutcome (outcome host (environment.compile source type target) w).1

end HandlerEnvironment

section Steps

variable {host : Host σ} {noted : σ → List τ} {entry : Sink → CompileError → τ} {w w₀ : World σ}
  {m : HandlerMapId} {target : ElementId} {environment : HandlerEnvironment} {property type : String}

namespace World.Houses

variable (houses : w.Houses m target environment) (impartial : host.Impartial)
  (notes : host.Notes noted entry)

include houses notes

theorem set (named : eventTypeOf? property = some type) (value : Value) : ∃ h,
    (outcome host (m.handler? property) w).1 = some h ∧
    let w' := after host (h.set value) (after host (m.handler? property) w)
    w.Updates m target environment property ((w.stored m property).revised (.ofSetting value)) w' ∧
      w.SameSetting noted w' := by
  obtain ⟨h, s, answer, touched, found, -, -, -, updates⟩ := houses.touch host named
  have changed := updates.houses.revise touched found
    (fun kept keep => absurd keep (HandlerEffect.ofSetting_ne_keep value kept))
    (h.set_revise host found value)
  rw [updates.stored] at changed
  exact ⟨h, answer, updates.trans changed, (notes.touch m property w).trans (notes.set h value _)⟩

include impartial

theorem follow (w₀ : World σ) (named : eventTypeOf? property = some type) (text : Option String) : ∃ h,
    (outcome host (m.handler? property) w).1 = some h ∧
    let w' := after host (h.followAttribute text) (after host (m.handler? property) w)
    w.Updates m target environment property ((w.stored m property).revised
        (.ofAttribute text (text.any (environment.blocksAt host type w₀)))) w' ∧
      w.SameSetting noted w' := by
  obtain ⟨h, s, answer, touched, found, rfl, -, rfl, updates⟩ := houses.touch host named
  -- The gate is asked behind the touch, and answers as it does anywhere.
  have blocked (u : World σ) :
      s.blocks host text u = text.any (s.environment.blocksAt host s.type w₀) := by
    cases text with
    | none => rfl
    | some source => exact impartial.isBlocked w₀ u s.environment source s.type
  have records := h.followAttribute_revise host found text
  rw [blocked] at records
  have changed := updates.houses.revise touched found
    (fun kept keep => absurd keep (HandlerEffect.ofAttribute_ne_keep _ _ kept)) records
  rw [updates.stored] at changed
  exact ⟨h, answer, updates.trans changed,
    (notes.touch m property w).trans (notes.followAttribute h text _)⟩

theorem current {h : HandlerId} (touched : w.touched? m property = some h)
    (named : eventTypeOf? property = some type)
    (scope : w.handlerScope target environment.global = w₀.handlerScope target environment.global) :
    ∃ result, (∀ source, (w.stored m property).value = .uncompiled source →
        compileOutcome result = environment.compilesAt host type target w₀ source) ∧
      let op := MapOperation.get property
      let v := op.next (w.stored m property) false result
      (outcome host h.current w).1 = v.callback? ∧
        w.Updates m target environment property v (after host h.current w) ∧
        w.Reported noted ((op.failures (w.stored m property) result).map
          (entry (environment.reporter.sink? w.sharedSink))) (after host h.current w) := by
  obtain ⟨s, found, rfl, known, rfl⟩ := houses.handler touched
  obtain rfl : s.type = type := Option.some.inj (known.symm.trans named)
  have before := World.stored_of_touched touched found
  have idle (answered : outcome host h.current w = ((w.stored m property).callback?, w)) :
      (outcome host h.current w).1 = (w.stored m property).callback? ∧
        w.Updates m s.target s.environment property (w.stored m property)
          (after host h.current w) ∧
        w.Reported noted [] (after host h.current w) := by
    rw [after, answered]
    exact ⟨rfl, houses.unchanged (.refl w), (refl_of (World.SameSetting noted) w).reported_nil⟩
  cases value : s.value with
  | none =>
    rw [before, value] at idle ⊢
    exact ⟨.error (.reported .engine ""), fun _ pending => HandlerValue.noConfusion pending,
      idle (h.current_of_none host found value)⟩
  | compiled callback =>
    rw [before, value] at idle ⊢
    exact ⟨.error (.reported .engine ""), fun _ pending => HandlerValue.noConfusion pending,
      idle (h.current_of_compiled host found value)⟩
  | uncompiled source =>
    obtain ⟨read, records, reported⟩ := notes.current found value
    have active : s.activation.isActive = true :=
      (houses.linked.linked found).active (by simp [value])
    have changed := houses.revise touched found (fun _ _ => active) records
    have outcomes := impartial.environment_compile w₀ w s.environment source s.type scope
    rw [before, value] at changed ⊢
    generalize (outcome host (s.environment.compile source s.type s.target) w).1 = result at *
    refine ⟨result, ?_, ?_⟩
    · intro _ pending
      cases pending
      exact outcomes
    · cases result with
      | ok function => exact ⟨read, changed, reported⟩
      | error error => exact ⟨read, changed, reported⟩

end World.Houses

namespace HandlerMapId

theorem outcome_handler (host : Host σ) {h : HandlerId}
    (answer : (outcome host (m.handler? property) w).1 = some h) :
    outcome host (m.handler property).run w = (.ok h, after host (m.handler? property) w) := by
  rw [handler, outcome_run_bind host _ (outcome_perform host w _), answer]
  rfl

theorem outcome_followAttribute (host : Host σ) {name : String} {h : HandlerId}
    (answer : (outcome host (m.handler? (Ascii.lower name)) w).1 = some h) (text : Option String) :
    outcome host (m.followAttribute name text) w =
      (true, after host (h.followAttribute text) (after host (m.handler? (Ascii.lower name)) w)) := by
  rw [followAttribute, outcome_bind, answer]
  rfl

theorem outcome_handler?_of_unnamed (host : Host σ) (w : World σ)
    (unnamed : eventTypeOf? property = none) : outcome host (m.handler? property) w = (none, w) := by
  rw [handler?, unnamed]
  rfl

theorem outcome_handler_of_unnamed (host : Host σ) (w : World σ)
    (unnamed : eventTypeOf? property = none) :
    outcome host (m.handler property).run w = (.error (.fault (.notHandlerProperty property)), w) := by
  rw [handler, outcome_run_bind host _ (outcome_perform host w _),
    m.outcome_handler?_of_unnamed host w unnamed]
  rfl

theorem outcome_followAttribute_of_unnamed (host : Host σ) (w : World σ) {name : String}
    (unnamed : eventTypeOf? (Ascii.lower name) = none) (text : Option String) :
    outcome host (m.followAttribute name text) w = (false, w) := by
  rw [followAttribute, outcome_bind, m.outcome_handler?_of_unnamed host w unnamed]
  rfl

end HandlerMapId

theorem outcome_setAttribute (notes : host.Notes noted entry) (w : World σ) (target : ElementId)
    {name : String} (valid : Element.isValidAttributeName name = true) (text : String) : ∃ w',
    outcome host (setAttribute target name text).run w = (.ok ⟨⟩, w') ∧ w.SameHandling w' ∧
      w.SameSetting noted w' := by
  simp only [setAttribute, valid, if_true]
  refine ⟨_, rfl, ?_, ?_⟩
  · have same := modifyElement_sameHandling w target
      (f := fun e => { e with attributes := e.attributes.insert (Ascii.lower name) text })
      (fun _ => rfl) fun _ => rfl
    exact ⟨same.handlers, same.maps, same.size, same.listeners, same.nextListener⟩
  · exact (notes.log (by decide) _ w).trans
      (.modifyElement _ target (fun _ => rfl) (fun _ => rfl) fun _ => rfl)

theorem outcome_removeAttribute (host : Host σ) (noted : σ → List τ) (w : World σ) (target : ElementId)
    (name : String) : ∃ w', outcome host (removeAttribute target name) w = (⟨⟩, w') ∧
      w.SameHandling w' ∧ w.SameSetting noted w' :=
  ⟨_, rfl, modifyElement_sameHandling w target (fun _ => rfl) fun _ => rfl,
    .modifyElement w target (fun _ => rfl) (fun _ => rfl) fun _ => rfl⟩

namespace HandlerMapId

variable {states : OrderedMap String HandlerId} {w₁ w' : World σ} {name text : String} {flag : Bool}

theorem outcome_setAttribute (host : Host σ) (home : w.map? m = some ⟨target, environment, states⟩)
    (written : outcome host (WebBindings.setAttribute target name text).run w = (.ok ⟨⟩, w₁))
    (followed : outcome host (m.followAttribute name (some text)) w₁ = (flag, w')) :
    outcome host (m.setAttribute name text).run w = (.ok ⟨⟩, w') := by
  have start : outcome host (MonadState.get : Script σ (World σ)).run w = (.ok w, w) := rfl
  rw [setAttribute, outcome_run_bind host _ start, home]
  rw [outcome_run_bind host _ written, outcome_run_bind host _ (outcome_perform host _ _), followed]
  rfl

theorem outcome_setAttribute_of_invalid (host : Host σ)
    (home : w.map? m = some ⟨target, environment, states⟩)
    (invalid : Element.isValidAttributeName name = false) (text : String) :
    outcome host (m.setAttribute name text).run w =
      (.error (.fault (.invalidAttributeName name)), w) := by
  have start : outcome host (MonadState.get : Script σ (World σ)).run w = (.ok w, w) := rfl
  rw [setAttribute, outcome_run_bind host _ start, home]
  exact outcome_run_bind_of_error host _
    (WebBindings.outcome_setAttribute_of_invalid host w target invalid text)

theorem outcome_removeAttribute (host : Host σ) (home : w.map? m = some ⟨target, environment, states⟩)
    (removed : outcome host (WebBindings.removeAttribute target name) w = (⟨⟩, w₁))
    (followed : outcome host (m.followAttribute name none) w₁ = (flag, w')) :
    outcome host (m.removeAttribute name) w = (⟨⟩, w') := by
  simp only [removeAttribute, outcome_bind, outcome_get, home, removed, followed, outcome_pure]

end HandlerMapId

theorem World.Houses.followAttribute (houses : w.Houses m target environment)
    (impartial : host.Impartial) (notes : host.Notes noted entry) (w₀ : World σ) {name : String}
    (named : eventTypeOf? (Ascii.lower name) = some type) (text : Option String) {w₁ : World σ}
    (same : w.SameHandling w₁) (kept : w.SameSetting noted w₁) : ∃ w',
    outcome host (m.followAttribute name text) w₁ = (true, w') ∧
      w.Updates m target environment (Ascii.lower name) ((w.stored m (Ascii.lower name)).revised
        (.ofAttribute text (text.any (environment.blocksAt host type w₀)))) w' ∧
      w.SameSetting noted w' := by
  have written : w.Updates m target environment (Ascii.lower name) _ w₁ := houses.unchanged same
  obtain ⟨h, answer, updates, setting⟩ := written.houses.follow impartial notes w₀ named text
  rw [written.stored] at updates
  exact ⟨_, m.outcome_followAttribute host answer text, written.trans updates, kept.trans setting⟩

/-- An operation does to the handler of its property what it does to a handler by itself. -/
structure MapOperation.Routed (op : MapOperation) (host : Host σ) (noted : σ → List τ)
    (entry : Sink → CompileError → τ) (m : HandlerMapId) (target : ElementId)
    (environment : HandlerEnvironment) (blocked : Bool) (result : Except CompileError ObjectId)
    (w : World σ) : Prop where
  answer : (outcome host (op.perform m).run w).1 =
    op.answer (op.next (w.stored m op.property) blocked result)
  updates : w.Updates m target environment op.property (op.next (w.stored m op.property) blocked result)
    (after host (op.perform m).run w)
  reported : w.Reported noted ((op.failures (w.stored m op.property) result).map
    (entry (environment.reporter.sink? w.sharedSink))) (after host (op.perform m).run w)

namespace MapOperation

theorem exists_result (environment : HandlerEnvironment) (host : Host σ) (type : String)
    (target : ElementId) (w : World σ) (v : Stored) : ∃ result, ∀ source, v.value = .uncompiled source →
      compileOutcome result = environment.compilesAt host type target w source := by
  cases value : v.value with
  | uncompiled source =>
    refine ⟨(outcome host (environment.compile source type target) w).1, ?_⟩
    rintro _ ⟨⟩
    rfl
  | _ => exact ⟨.error (.reported .engine ""), fun _ => nofun⟩

theorem Routed.of_outcome {op : MapOperation} {blocked : Bool} {result : Except CompileError ObjectId}
    {w' : World σ} (performed : outcome host (op.perform m).run w =
      (op.answer (op.next (w.stored m op.property) blocked result), w'))
    (updates : w.Updates m target environment op.property
      (op.next (w.stored m op.property) blocked result) w')
    (reported : w.Reported noted ((op.failures (w.stored m op.property) result).map
      (entry (environment.reporter.sink? w.sharedSink))) w') :
    op.Routed host noted entry m target environment blocked result w := by
  constructor
  · rw [performed]
  · rw [after, performed]
    exact updates
  · rw [after, performed]
    exact reported

section Routed

variable (houses : w.Houses m target environment) (impartial : host.Impartial)
  (notes : host.Notes noted entry)

include houses impartial notes

theorem routed_get (named : eventTypeOf? property = some type)
    (scope : w.handlerScope target environment.global = w₀.handlerScope target environment.global) :
    ∃ result, (∀ source, (w.stored m property).value = .uncompiled source →
        compileOutcome result = environment.compilesAt host type target w₀ source) ∧
      (get property).Routed host noted entry m target environment false result w := by
  obtain ⟨h, s, answer, touched, -, -, -, -, updates⟩ := houses.touch host named
  have setting := notes.touch m property w
  obtain ⟨result, outcomes, read, changed, reported⟩ := updates.houses.current impartial notes
    touched named ((setting.scope _ _).trans scope)
  rw [updates.stored] at outcomes read changed reported
  rw [setting.sharedSink] at reported
  refine ⟨result, outcomes, .of_outcome ?_ (updates.trans changed) (setting.reported_after reported)⟩
  change outcome host (m.get property).run w = _
  rw [HandlerMapId.get, outcome_run_bind host _ (m.outcome_handler host answer),
    outcome_run_bind host _ (outcome_perform host _ _), read]
  rfl

variable (w₀) (result : Except CompileError ObjectId)

theorem routed_setAttribute {name : String} (named : eventTypeOf? (Ascii.lower name) = some type)
    (text : String) : (setAttribute name text).Routed host noted entry m target environment
      (environment.blocksAt host type w₀ text) result w := by
  obtain ⟨states, home⟩ := houses.home
  cases valid : Element.isValidAttributeName name with
  | true =>
    obtain ⟨w₁, written, same, kept⟩ := outcome_setAttribute notes w target valid text
    obtain ⟨w', followed, updates, setting⟩ :=
      houses.followAttribute impartial notes w₀ named (some text) same kept
    refine .of_outcome ?_ ?_ setting.reported_nil
    · rw [perform, outcome_run_bind host _ (m.outcome_setAttribute host home written followed)]
      simp [answer, valid]
    · simp only [next, effect?, valid, if_true]
      exact updates
  | false =>
    refine .of_outcome ?_ ?_ (refl_of (World.SameSetting noted) w).reported_nil
    · rw [perform,
        outcome_run_bind_of_error host _ (m.outcome_setAttribute_of_invalid host home valid text)]
      simp [answer, valid]
    · simpa [next, effect?, valid] using houses.unchanged (.refl w)

theorem routed_removeAttribute {name : String}
    (named : eventTypeOf? (Ascii.lower name) = some type) :
    (removeAttribute name).Routed host noted entry m target environment false result w := by
  obtain ⟨states, home⟩ := houses.home
  obtain ⟨w₁, removed, same, kept⟩ := outcome_removeAttribute host noted w target name
  obtain ⟨w', followed, updates, setting⟩ :=
    houses.followAttribute impartial notes w named none same kept
  refine .of_outcome ?_ updates setting.reported_nil
  rw [perform, outcome_run_bind host _ (outcome_perform host _ _),
    m.outcome_removeAttribute host home removed followed]
  rfl

/-- Every operation on a property of handlers does to its handler what it does to a handler by itself. -/
theorem routed {op : MapOperation} (named : eventTypeOf? op.property = some type)
    (scope : w.handlerScope target environment.global = w₀.handlerScope target environment.global) :
    ∃ result, (∀ source, (w.stored m op.property).value = .uncompiled source →
        compileOutcome result = environment.compilesAt host type target w₀ source) ∧
      op.Routed host noted entry m target environment
        (op.text?.any (environment.blocksAt host type w₀)) result w := by
  -- Nothing but a read uses a result: for all else, any that fits will do.
  obtain ⟨result, outcomes⟩ :=
    exists_result environment host type target w₀ (w.stored m op.property)
  cases op with
  | touch property =>
    obtain ⟨h, s, answer, -, -, -, -, -, updates⟩ := houses.touch host named
    refine ⟨result, outcomes, .of_outcome ?_ updates (notes.touch m property w).reported_nil⟩
    exact outcome_run_bind host _ (m.outcome_handler host answer)
  | get property => exact routed_get houses impartial notes named scope
  | set property value =>
    obtain ⟨h, answer, updates, setting⟩ := houses.set notes named value
    have performed : outcome host (m.set property value).run w =
        (.ok ⟨⟩, after host (h.set value) (after host (m.handler? property) w)) :=
      outcome_run_bind host _ (m.outcome_handler host answer)
    refine ⟨result, outcomes, .of_outcome ?_ updates setting.reported_nil⟩
    exact outcome_run_bind host _ performed
  | follow property text =>
    obtain ⟨h, answer, updates, setting⟩ := houses.follow impartial notes w₀ named text
    refine ⟨result, outcomes, .of_outcome ?_ updates setting.reported_nil⟩
    exact outcome_run_bind host _ (m.outcome_handler host answer)
  | attributeChanged name text =>
    obtain ⟨w', followed, updates, setting⟩ := houses.followAttribute impartial notes w₀ named text
      (.refl w) (refl_of (World.SameSetting noted) w)
    refine ⟨result, outcomes, .of_outcome ?_ updates setting.reported_nil⟩
    rw [perform, outcome_run_bind host _ (outcome_perform host _ _), followed]
    rfl
  | setAttribute name text =>
    exact ⟨result, outcomes, routed_setAttribute w₀ houses impartial notes result named text⟩
  | removeAttribute name =>
    exact ⟨result, outcomes, routed_removeAttribute houses impartial notes result named⟩

end Routed

/-- An operation under a name that is none of a handler leaves handlers and their setting alone. -/
theorem unrouted (houses : w.Houses m target environment) (notes : host.Notes noted entry)
    {op : MapOperation} (unnamed : eventTypeOf? op.property = none) :
    w.SameHandling (after host (op.perform m).run w) ∧
      w.SameSetting noted (after host (op.perform m).run w) := by
  obtain ⟨states, home⟩ := houses.home
  have same : w.SameHandling w ∧ w.SameSetting noted w :=
    ⟨.refl w, refl_of (World.SameSetting noted) w⟩
  cases op with
  | touch property | follow property text =>
    have refused : outcome host (m.handler property).run w = _ :=
      m.outcome_handler_of_unnamed host w unnamed
    rw [after, perform, outcome_run_bind_of_error host _ refused]
    exact same
  | get property =>
    have refused : outcome host (m.handler property).run w = _ :=
      m.outcome_handler_of_unnamed host w unnamed
    rw [after, perform, HandlerMapId.get, outcome_run_bind_of_error host _ refused]
    exact same
  | set property value =>
    have refused : outcome host (m.set property value).run w = _ :=
      outcome_run_bind_of_error host _ (m.outcome_handler_of_unnamed host w unnamed)
    rw [after, perform, outcome_run_bind_of_error host _ refused]
    exact same
  | attributeChanged name text =>
    rw [after, perform, outcome_run_bind host _ (outcome_perform host _ _),
      m.outcome_followAttribute_of_unnamed host w unnamed]
    exact same
  | setAttribute name text =>
    cases valid : Element.isValidAttributeName name with
    | true =>
      obtain ⟨w₁, written, changed⟩ := outcome_setAttribute notes w target valid text
      have performed := m.outcome_setAttribute host home written
        (m.outcome_followAttribute_of_unnamed host w₁ unnamed _)
      rw [after, perform, outcome_run_bind host _ performed]
      exact changed
    | false =>
      have performed := m.outcome_setAttribute_of_invalid host home valid text
      rw [after, perform, outcome_run_bind_of_error host _ performed]
      exact same
  | removeAttribute name =>
    obtain ⟨w₁, removed, changed⟩ := outcome_removeAttribute host noted w target name
    have performed := m.outcome_removeAttribute host home removed
      (m.outcome_followAttribute_of_unnamed host w₁ unnamed _)
    rw [after, perform, outcome_run_bind host _ (outcome_perform host _ _), performed]
    exact changed

end MapOperation

end Steps

end WebBindings
