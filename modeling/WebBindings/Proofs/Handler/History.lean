import WebBindings.Proofs.Handler.Effect
import WebBindings.Proofs.Handler.Observation
/-!
# Histories of handlers

A run is a history of happenings, each of which is one uninterrupted change of handlers, maps and
listeners. Operations that scripts or listeners interrupt are several happenings, with those of the
scripts and listeners between them. Engines are only called by happenings that follow or compile a
text.
-/

namespace WebBindings

variable {σ τ : Type}

/-- What can happen to handlers. -/
inductive Happening
  /-- Something that leaves handlers, maps and listeners alone and calls no engine. -/
  | other
  | listen (target : ElementId) (type : String) (action : ListenerAction)
  | unlisten (target : ElementId) (type : String) (id : ListenerId)
  | create (target : ElementId) (type : String) (environment : HandlerEnvironment)
  | createMap (target : ElementId) (environment : HandlerEnvironment)
  /-- A property of a map is touched. -/
  | touch (m : HandlerMapId) (property : String)
  | set (h : HandlerId) (value : Value)
  /-- A handler follows its content attribute, whose text may be blocked. -/
  | follow (h : HandlerId) (text : Option String) (blocked : Bool)
  /-- The text of a handler is compiled, and a failure is reported. -/
  | compile (h : HandlerId) (source : String) (result : Except CompileError ObjectId)

namespace Happening

def effect? : Happening → Option (HandlerId × HandlerEffect)
  | .set h value => some (h, .ofSetting value)
  | .follow h text blocked => some (h, .ofAttribute text blocked)
  | .compile h _ result => some (h, .ofCompilation result)
  | _ => none

/-- Whether a happening writes a handler. -/
def writes (h : HandlerId) : Happening → Bool
  | .set k _ | .follow k _ _ => k = h
  | _ => false

theorem compile_of_keep {a : Happening} {h : HandlerId} {value : HandlerValue}
    (named : a.effect? = some (h, .keep value)) : ∃ source result, a = .compile h source result := by
  cases a with
  | set k setting =>
    simp only [effect?, HandlerEffect.ofSetting] at named
    split at named <;> simp at named
  | follow k text blocked =>
    simp only [effect?, HandlerEffect.ofAttribute] at named
    split at named <;> simp at named
  | compile k source result =>
    simp only [effect?, Option.some.injEq, Prod.mk.injEq] at named
    exact ⟨source, result, by rw [named.1]⟩
  | _ => simp [effect?] at named

/-- Whether a happening compiles the text of a handler. -/
def compiles (h : HandlerId) : Happening → Bool
  | .compile k _ _ => k = h
  | _ => false

/-- Whether a happening may call an engine. -/
def engages : Happening → Bool
  | .follow _ (some _) _ | .compile _ _ _ => true
  | _ => false

end Happening

/-- Handlers, maps and listeners are the same, and so is what is observed. -/
structure World.Aside (observe : σ → τ) (w w' : World σ) : Prop where
  handling : w.SameHandling w'
  observed : w.SameObserved observe w'

/-- One happening leads from a world to another. Listeners that others register or remove are none
that a handler made, and elements exist before handlers do. -/
inductive Happens (observe : σ → τ) : World σ → Happening → World σ → Prop
  | other {w w'} (aside : w.Aside observe w') : Happens observe w .other w'
  | listen {w} (host : Host σ) {target type action} (foreign : action.handler? = none) :
    Happens observe w (.listen target type action) (after host (addListener target type action) w)
  | unlisten {w} (host : Host σ) {target type id}
    (foreign : ∀ l ∈ (w.element target).listeners, l.id = id → l.type = type →
      l.action.handler? = none) :
    Happens observe w (.unlisten target type id) (after host (removeListener target type id) w)
  | create {w} (host : Host σ) {target type environment}
    (present : target.index < w.elements.size) :
    Happens observe w (.create target type environment)
      (after host (createHandler target type environment) w)
  | createMap {w} (host : Host σ) {target environment}
    (present : target.index < w.elements.size) :
    Happens observe w (.createMap target environment)
      (after host (createHandlerMap target environment) w)
  | touch {w} {host : Host σ} (engines : host.EnginesOnly observe) {m property type record}
    (named : eventTypeOf? property = some type) (found : w.map? m = some record) :
    Happens observe w (.touch m property) (after host (m.handler? property) w)
  | set {w} {host : Host σ} (engines : host.EnginesOnly observe) {h value s}
    (found : w.handler? h = some s) :
    Happens observe w (.set h value) (after host (h.set value) w)
  | follow {w} {host : Host σ} (engines : host.EnginesOnly observe) {h text s}
    (found : w.handler? h = some s) :
    Happens observe w (.follow h text (s.blocks host text w))
      (after host (h.followAttribute text) w)
  | compile {w} {host : Host σ} (engines : host.EnginesOnly observe) {h source s}
    (found : w.handler? h = some s) (pending : s.value = .uncompiled source) :
    Happens observe w (.compile h source (outcome host (h.compilePending s source) w).1)
      (after host (h.compilePending s source) w)

/-- Happenings lead one after the other from a world to another. -/
inductive History (observe : σ → τ) : World σ → List Happening → World σ → Prop
  | nil {w} : History observe w [] w
  | cons {w w' w'' a later} (happens : Happens observe w a w') (rest : History observe w' later w'') :
    History observe w (a :: later) w''

namespace History

variable {observe : σ → τ} {w w' w'' : World σ} {first second : List Happening} {a : Happening}

theorem single (happens : Happens observe w a w') : History observe w [a] w' := .cons happens .nil

theorem append (hfirst : History observe w first w') (hsecond : History observe w' second w'') :
    History observe w (first ++ second) w'' := by
  induction hfirst with
  | nil => exact hsecond
  | cons happens _ ih => exact .cons happens (ih hsecond)

theorem split (history : History observe w (first ++ second) w'') :
    ∃ w', History observe w first w' ∧ History observe w' second w'' := by
  induction first generalizing w with
  | nil => exact ⟨w, .nil, history⟩
  | cons a first ih =>
    cases history with
    | cons happens rest =>
      obtain ⟨w', hfirst, hsecond⟩ := ih rest
      exact ⟨w', .cons happens hfirst, hsecond⟩

end History

namespace World

def addHandler (w : World σ) (target : ElementId) (type : String)
    (environment : HandlerEnvironment) : World σ :=
  { w with handlers := w.handlers.push (.new target type environment) }

def addMap (w : World σ) (target : ElementId) (environment : HandlerEnvironment) : World σ :=
  { w with maps := w.maps.push ⟨target, environment, .empty⟩ }

/-- The world in which a property of a map has a new handler. -/
def addProperty (w : World σ) (m : HandlerMapId) (record : HandlerMap) (property type : String) :
    World σ :=
  (w.addHandler record.target type record.environment).modifyMap m fun r =>
    { r with states := r.states.insert property ⟨w.handlers.size⟩ }

theorem handler?_addHandler (w : World σ) (target : ElementId) (type : String)
    (environment : HandlerEnvironment) (h : HandlerId) :
    (w.addHandler target type environment).handler? h =
      if h = ⟨w.handlers.size⟩ then some (.new target type environment) else w.handler? h := by
  have hindex : h.index = w.handlers.size ↔ h = ⟨w.handlers.size⟩ := by cases h; simp
  simp only [handler?, addHandler, Array.getElem?_push, hindex]

theorem handler?_size (w : World σ) : w.handler? ⟨w.handlers.size⟩ = none := by
  simp [handler?]

theorem map?_addMap (w : World σ) (target : ElementId) (environment : HandlerEnvironment)
    (m : HandlerMapId) : (w.addMap target environment).map? m =
      if m = ⟨w.maps.size⟩ then some ⟨target, environment, .empty⟩ else w.map? m := by
  have hindex : m.index = w.maps.size ↔ m = ⟨w.maps.size⟩ := by cases m; simp
  simp only [map?, addMap, Array.getElem?_push, hindex]

theorem map?_size (w : World σ) : w.map? ⟨w.maps.size⟩ = none := by
  simp [map?]

end World

theorem HandlerMapId.handler?_of_untouched (host : Host σ) {w : World σ} {m : HandlerMapId}
    {property type : String} {record : HandlerMap} (named : eventTypeOf? property = some type)
    (found : w.map? m = some record) (untouched : record.states.get? property = none) :
    (outcome host (m.handler? property) w).1 = some ⟨w.handlers.size⟩ ∧
      (w.addProperty m record property type).SameRecords (after host (m.handler? property) w) := by
  simp only [after, handler?, named, found, untouched, outcome_bind, outcome_get, outcome_log,
    outcome_modify, outcome_pure]
  exact ⟨rfl, rfl, rfl, rfl⟩

/-- The change that a happening makes, as one of few functions of the world. -/
inductive Change (w : World σ) : Happening → World σ → Prop
  | other {a w'} (plain : a.effect? = none) (same : w.SameHandling w') : Change w a w'
  | listen {target type action w'} (foreign : action.handler? = none)
    (same : (w.modifyElement target fun e => (e.addListener type action).2).SameRecords w') :
    Change w (.listen target type action) w'
  | unlisten {target type id w'}
    (foreign : ∀ l ∈ (w.element target).listeners, l.id = id → l.type = type →
      l.action.handler? = none)
    (same : (w.modifyElement target fun e => e.removeListener type id).SameRecords w') :
    Change w (.unlisten target type id) w'
  | create {target type environment w'} (present : target.index < w.elements.size)
    (same : (w.addHandler target type environment).SameRecords w') :
    Change w (.create target type environment) w'
  | createMap {target environment w'} (present : target.index < w.elements.size)
    (same : (w.addMap target environment).SameRecords w') :
    Change w (.createMap target environment) w'
  | touch {m property type record w'} (named : eventTypeOf? property = some type)
    (found : w.map? m = some record) (untouched : record.states.get? property = none)
    (same : (w.addProperty m record property type).SameRecords w') :
    Change w (.touch m property) w'
  | revise {a h effect s w'} (named : a.effect? = some (h, effect)) (found : w.handler? h = some s)
    (pending : ∀ k source result, a = .compile k source result → s.value = .uncompiled source)
    (same : (w.revise h s effect).SameRecords w') : Change w a w'

section Inversion

variable {observe : σ → τ} {w w' : World σ} {a : Happening}

theorem Change.follow (host : Host σ) {h : HandlerId} {s : EventHandler}
    (found : w.handler? h = some s) (text : Option String) :
    Change w (.follow h text (s.blocks host text w)) (after host (h.followAttribute text) w) :=
  .revise rfl found (fun _ _ _ ha => nomatch ha) (h.followAttribute_revise host found text)

theorem Happens.change (happens : Happens observe w a w') : Change w a w' := by
  cases happens with
  | other aside => exact .other rfl aside.handling
  | listen host foreign => exact .listen foreign (refl_of World.SameRecords _)
  | unlisten host foreign => exact .unlisten foreign (refl_of World.SameRecords _)
  | create host present => exact .create present (refl_of World.SameRecords _)
  | createMap host present => exact .createMap present (refl_of World.SameRecords _)
  | @touch host engines m property type record named found =>
    cases htouched : record.states.get? property with
    | some h =>
      have hsame : after host (m.handler? property) w = w := by
        simp [after, HandlerMapId.handler?, named, found, htouched]
      rw [hsame]
      exact .other rfl (.refl w)
    | none => exact .touch named found htouched (m.handler?_of_untouched host named found htouched).2
  | set engines found =>
    exact .revise rfl found (by rintro _ _ _ ⟨⟩) (HandlerId.set_revise _ found _)
  | follow engines found => exact .follow _ found _
  | compile engines found pending =>
    refine .revise rfl found ?_ (HandlerId.compilePending_revise _ found _)
    intro k source result h
    cases h
    exact pending

/-- Where no text is followed or compiled, no engine is called. -/
theorem Happens.observed (happens : Happens observe w a w') (idle : a.engages = false) :
    w.SameObserved observe w' := by
  cases happens with
  | other aside => exact aside.observed
  | listen host foreign => exact addListener_observed _ _ _ w
  | unlisten host foreign => exact removeListener_observed _ _ _ w
  | create host present => rfl
  | createMap host present => rfl
  | touch engines named found => exact engines.touch _ _ w
  | set engines found => exact engines.set _ _ w
  | @follow host engines h text s found =>
    cases text with
    | none => exact engines.followRemoval h w
    | some source => exact absurd idle Bool.noConfusion
  | compile engines found pending => exact absurd idle Bool.noConfusion

theorem History.observed {history : List Happening} (run : History observe w history w')
    (idle : ∀ a ∈ history, a.engages = false) : w.SameObserved observe w' := by
  induction run with
  | nil => rfl
  | @cons _ _ _ a later happens _ ih =>
    have hfirst := happens.observed (idle a List.mem_cons_self)
    exact (ih fun b hb => idle b (List.mem_cons_of_mem a hb)).trans hfirst

end Inversion

end WebBindings
