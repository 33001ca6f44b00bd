import WebBindings.Proofs.Handler.Computing
/-!
# Effects on a handler

Setting a handler, following its content attribute and compiling its text each take one of three
effects: the handler takes a value and has a listener, it only keeps another value, or it is cleared
together with its listener. Logs and engines leave handlers alone.
-/

namespace WebBindings

variable {σ : Type}

/-- What an operation does to one handler. -/
inductive HandlerEffect
  /-- Take a value and register a listener unless there is one. -/
  | take (value : HandlerValue)
  /-- Have a value instead of another, whatever the listener is. -/
  | keep (value : HandlerValue)
  /-- Drop the value and the listener. -/
  | clear
deriving DecidableEq

def HandlerEffect.value : HandlerEffect → HandlerValue
  | .take value | .keep value => value
  | .clear => .none

/-- Whether a handler is active after an effect, given whether it was before. -/
def HandlerEffect.isActive (before : Bool) : HandlerEffect → Bool
  | .take _ => true
  | .keep _ => before
  | .clear => false

namespace EventHandler

/-- The listener that a handler makes under a number. -/
def listener (s : EventHandler) (h : HandlerId) (id : ListenerId) : Listener :=
  ⟨id, s.type, .runCallback (.handler h) s.environment.reporter⟩

def listener? (s : EventHandler) (h : HandlerId) : Option Listener :=
  s.activation.registration.map (s.listener h)

/-- The record of a handler and its element after an effect. -/
def revised (s : EventHandler) (h : HandlerId) (e : Element) : HandlerEffect → EventHandler × Element
  | .take value =>
    match s.activation.registration with
    | some _ => ({ s with value }, e)
    | none =>
      let (id, element) :=
        e.addListener s.activation.type (.runCallback (.handler h) s.environment.reporter)
      ({ s with value, activation := { s.activation with registration := some id } }, element)
  | .keep value => ({ s with value }, e)
  | .clear =>
    match s.activation.registration with
    | some id =>
      ({ s with value := .none, activation := { s.activation with registration := none } },
        e.removeListener s.activation.type id)
    | none => ({ s with value := .none }, e)

end EventHandler

def HandlerEffect.ofSetting (value : Value) : HandlerEffect :=
  match value.object? with
  | some callback => .take (.compiled callback)
  | none => .clear

/-- The effect of a content attribute, given whether its text is blocked. -/
def HandlerEffect.ofAttribute (text : Option String) (blocked : Bool) : HandlerEffect :=
  match text, blocked with
  | some source, false => .take (.uncompiled source)
  | _, _ => .clear

def HandlerEffect.ofCompilation (result : Except CompileError ObjectId) : HandlerEffect :=
  match result with
  | .ok function => .keep (.compiled function)
  | .error _ => .keep .none

/-- The world after an effect on a handler with a record. -/
def World.revise (w : World σ) (h : HandlerId) (s : EventHandler) (effect : HandlerEffect) :
    World σ :=
  let (record, element) := s.revised h (w.element s.target) effect
  (w.modifyElement s.target fun _ => element).modifyHandler h fun _ => record

/-- Whether the gate of a handler blocks the text of a content attribute now. -/
def EventHandler.blocks (s : EventHandler) (host : Host σ) (text : Option String) (w : World σ) :
    Bool :=
  match text with
  | some source => (outcome host (s.environment.isBlocked source s.type) w).1
  | none => false

theorem World.SameRecords.revise {w w' : World σ} (same : w.SameRecords w') (h : HandlerId)
    (s : EventHandler) (effect : HandlerEffect) :
    (w.revise h s effect).SameRecords (w'.revise h s effect) where
  handlers := by simp [World.revise, same.element, same.handlers]
  maps := same.maps
  elements := by simp [World.revise, same.element, same.elements]

namespace EventHandler

variable (s : EventHandler) (h : HandlerId) (e : Element) (effect : HandlerEffect)

theorem revised_record : ∃ registration, (s.revised h e effect).1 =
    { s with value := effect.value, activation := { s.activation with registration } } := by
  cases effect with
  | keep value => exact ⟨s.activation.registration, rfl⟩
  | take value =>
    simp only [revised]
    split
    · exact ⟨s.activation.registration, rfl⟩
    · exact ⟨_, rfl⟩
  | clear =>
    simp only [revised]
    split
    · exact ⟨_, rfl⟩
    · exact ⟨s.activation.registration, rfl⟩

/-- Of the element, an effect changes nothing, adds a listener behind all others or removes the one
that was recorded. -/
theorem revised_element : (s.revised h e effect).2 = e ∨
    (s.revised h e effect).2 = (e.addListener s.activation.type
      (.runCallback (.handler h) s.environment.reporter)).2 ∨
    ∃ id, s.activation.registration = some id ∧
      (s.revised h e effect).2 = e.removeListener s.activation.type id := by
  cases effect with
  | keep value => exact .inl rfl
  | take value =>
    simp only [revised]
    split
    · exact .inl rfl
    · exact .inr (.inl rfl)
  | clear =>
    simp only [revised]
    split
    · rename_i id hreg
      exact .inr (.inr ⟨id, hreg, rfl⟩)
    · exact .inl rfl

@[simp] theorem revised_target : (s.revised h e effect).1.target = s.target := by
  obtain ⟨_, hrecord⟩ := s.revised_record h e effect
  rw [hrecord]

@[simp] theorem revised_type : (s.revised h e effect).1.type = s.type := by
  obtain ⟨_, hrecord⟩ := s.revised_record h e effect
  rw [hrecord]

@[simp] theorem revised_environment : (s.revised h e effect).1.environment = s.environment := by
  obtain ⟨_, hrecord⟩ := s.revised_record h e effect
  rw [hrecord]

@[simp] theorem revised_value : (s.revised h e effect).1.value = effect.value := by
  obtain ⟨_, hrecord⟩ := s.revised_record h e effect
  rw [hrecord]

@[simp] theorem revised_isActive : (s.revised h e effect).1.activation.isActive =
    effect.isActive s.activation.isActive := by
  cases effect with
  | keep value => rfl
  | take value =>
    simp only [revised]
    split
    · rename_i hreg
      simp [Activation.isActive, hreg, HandlerEffect.isActive]
    · rfl
  | clear =>
    simp only [revised]
    split
    · rfl
    · rename_i hreg
      simp [Activation.isActive, hreg, HandlerEffect.isActive]

end EventHandler

namespace World

variable {w : World σ} {h : HandlerId} {s : EventHandler} (effect : HandlerEffect)

theorem handler?_revise (found : w.handler? h = some s) (k : HandlerId) :
    (w.revise h s effect).handler? k =
      if h = k then some (s.revised h (w.element s.target) effect).1 else w.handler? k := by
  have hsame : (w.modifyElement s.target fun _ =>
      (s.revised h (w.element s.target) effect).2).handler? k = w.handler? k := rfl
  rw [revise, handler?_modifyHandler, hsame]
  by_cases hk : h = k
  · subst k
    simp [found]
  · simp [hk]

theorem element_revise (present : s.target.index < w.elements.size) (t : ElementId) :
    (w.revise h s effect).element t =
      if s.target = t then (s.revised h (w.element s.target) effect).2 else w.element t := by
  have hsame : (w.revise h s effect).element t = (w.modifyElement s.target fun _ =>
      (s.revised h (w.element s.target) effect).2).element t := rfl
  rw [hsame, element_modifyElement]
  simp [present]

theorem size_revise : (w.revise h s effect).elements.size = w.elements.size := by
  simp [revise]

end World

section Unchanged

variable {host : Host σ}

instance : Recording host World.SameRecords where
  record _ _ _ := ⟨rfl, rfl, rfl⟩
  hostLog _ _ _ _ := ⟨rfl, rfl, rfl⟩
  report _ _ _ := ⟨rfl, rfl, rfl⟩

namespace HandlerEnvironment

variable (env : HandlerEnvironment)

theorem compile_sameRecords (source type : String) (target : ElementId) :
    Moves host World.SameRecords (env.compile source type target) :=
  (env.compile_computed source type target).mono fun _ _ => World.Computed.sameRecords

theorem isBlocked_sameRecords (source type : String) :
    Moves host World.SameRecords (env.isBlocked source type) :=
  (env.isBlocked_computed source type).mono fun _ _ => World.Computed.sameRecords

end HandlerEnvironment

end Unchanged

section Modifications

variable {α : Type}

private theorem modify_eq_const [Inhabited α] (xs : Array α) (i : Nat) (f : α → α) :
    xs.modify i f = xs.modify i fun _ => f (xs[i]?.getD default) := by
  apply Array.ext_getElem?
  intro j
  rw [Array.getElem?_modify, Array.getElem?_modify]
  split
  · subst j
    cases xs[i]? with
    | none => rfl
    | some a => rfl
  · rfl

theorem modify_of_fixed {xs : Array α} {i : Nat} {f : α → α}
    (fixed : ∀ a, xs[i]? = some a → f a = a) : xs.modify i f = xs := by
  apply Array.ext_getElem?
  intro j
  rw [Array.getElem?_modify]
  split
  · subst j
    cases read : xs[i]? with
    | none => rfl
    | some a => exact congrArg some (fixed a read)
  · rfl

private theorem modify_eq_self [Inhabited α] (xs : Array α) (i : Nat) :
    xs.modify i (fun _ => xs[i]?.getD default) = xs :=
  modify_of_fixed fun a read => by rw [read, Option.getD_some]

private theorem modify_modify_of_found {xs : Array α} {i : Nat} {a b : α} (found : xs[i]? = some a)
    {f g : α → α} (result : g (f a) = b) : (xs.modify i f).modify i g = xs.modify i fun _ => b := by
  apply Array.ext_getElem?
  intro j
  rw [Array.getElem?_modify, Array.getElem?_modify, Array.getElem?_modify]
  by_cases hij : i = j
  · subst j
    simp [found, result]
  · simp [hij]

private theorem modify_of_found {xs : Array α} {i : Nat} {a b : α} (found : xs[i]? = some a)
    {f : α → α} (result : f a = b) : xs.modify i f = xs.modify i fun _ => b := by
  apply Array.ext_getElem?
  intro j
  rw [Array.getElem?_modify, Array.getElem?_modify]
  by_cases hij : i = j
  · subst j
    simp [found, result]
  · simp [hij]

end Modifications

section Operations

variable (host : Host σ) {w : World σ}

namespace Activation

variable {a : Activation} {id : ListenerId} (target : ElementId) (source : CallbackSource)
  (reporter : Reporter)

theorem outcome_activate_of_active (active : a.registration = some id) :
    outcome host (a.activate target source reporter) w = (a, w) := by
  simp [activate, isActive, active]

theorem outcome_activate_of_inactive (inactive : a.registration = none) :
    ∃ message, outcome host (a.activate target source reporter) w =
      ({ a with registration := some ⟨(w.element target).nextListener⟩ },
        after host (log .debug message) (w.modifyElement target fun e =>
          (e.addListener a.type (.runCallback source reporter)).2)) := by
  simp only [activate, isActive, inactive, Option.isSome_none, Bool.false_eq_true, if_false]
  exact ⟨_, rfl⟩

theorem outcome_deactivate_of_active (active : a.registration = some id) :
    ∃ message, outcome host (a.deactivate target) w =
      ({ a with registration := none },
        after host (log .debug message) (w.modifyElement target fun e =>
          e.removeListener a.type id)) := by
  simp only [deactivate, active]
  exact ⟨_, rfl⟩

theorem outcome_deactivate_of_inactive (inactive : a.registration = none) :
    outcome host (a.deactivate target) w = (a, w) := by
  simp [deactivate, inactive]

end Activation

namespace HandlerId

variable {h : HandlerId} {s : EventHandler}

theorem activate_revise (found : w.handler? h = some s) (value : HandlerValue) :
    (w.revise h s (.take value)).SameRecords
      (after host (do h.setValue value; h.activate s) w) := by
  cases hreg : s.activation.registration with
  | some id =>
    simp only [after, setValue, activate, setActivation, outcome_bind, outcome_modify,
      Activation.outcome_activate_of_active host _ _ _ hreg, World.revise, EventHandler.revised, hreg]
    refine ⟨?_, rfl, ?_⟩
    · simp only [World.modifyHandler_handlers, World.modifyElement_handlers]
      exact modify_modify_of_found found rfl
    · simp only [World.modifyHandler_elements, World.modifyElement_elements]
      exact (modify_eq_self _ _).symm
  | none =>
    obtain ⟨message, hactivate⟩ := Activation.outcome_activate_of_inactive host
      (w := w.modifyHandler h fun s => { s with value }) s.target (.handler h)
      s.environment.reporter hreg
    simp only [after, setValue, activate, setActivation, outcome_bind, outcome_modify, hactivate,
      outcome_log, World.revise, EventHandler.revised, hreg]
    refine ⟨?_, rfl, ?_⟩
    · simp only [World.modifyHandler_handlers, World.modifyElement_handlers]
      exact modify_modify_of_found found rfl
    · simp only [World.modifyHandler_elements, World.modifyElement_elements]
      exact modify_eq_const _ _ _

theorem deactivate_revise (found : w.handler? h = some s) :
    (w.revise h s .clear).SameRecords (after host (h.deactivate s) w) := by
  cases hreg : s.activation.registration with
  | some id =>
    obtain ⟨message, hdeactivate⟩ := Activation.outcome_deactivate_of_active host
      (w := w) s.target hreg
    simp only [after, setValue, deactivate, setActivation, outcome_bind, outcome_modify,
      hdeactivate, outcome_log, World.revise, EventHandler.revised, hreg]
    refine ⟨?_, rfl, ?_⟩
    · simp only [World.modifyHandler_handlers, World.modifyElement_handlers]
      exact modify_modify_of_found found rfl
    · simp only [World.modifyHandler_elements, World.modifyElement_elements]
      exact modify_eq_const _ _ _
  | none =>
    simp only [after, setValue, deactivate, setActivation, outcome_bind, outcome_modify,
      Activation.outcome_deactivate_of_inactive host _ hreg, World.revise, EventHandler.revised, hreg]
    refine ⟨?_, rfl, ?_⟩
    · simp only [World.modifyHandler_handlers, World.modifyElement_handlers]
      exact modify_modify_of_found found rfl
    · simp only [World.modifyHandler_elements, World.modifyElement_elements]
      exact (modify_eq_self _ _).symm

theorem setValue_revise (found : w.handler? h = some s) (value : HandlerValue) :
    (w.revise h s (.keep value)).SameRecords (after host (h.setValue value) w) := by
  simp only [after, setValue, outcome_modify, World.revise, EventHandler.revised]
  refine ⟨?_, rfl, ?_⟩
  · simp only [World.modifyHandler_handlers, World.modifyElement_handlers]
    exact modify_of_found found rfl
  · simp only [World.modifyHandler_elements, World.modifyElement_elements]
    exact (modify_eq_self _ _).symm

theorem set_revise (found : w.handler? h = some s) (value : Value) :
    (w.revise h s (.ofSetting value)).SameRecords (after host (h.set value) w) := by
  cases hobject : value.object? with
  | some callback =>
    have hset : after host (h.set value) w =
        after host (do h.setValue (.compiled callback); h.activate s) w := by
      simp [after, set, found, hobject]
    rw [hset, HandlerEffect.ofSetting, hobject]
    exact activate_revise host found _
  | none =>
    have hset : after host (h.set value) w = after host (h.deactivate s) w := by
      simp [after, set, found, hobject]
    rw [hset, HandlerEffect.ofSetting, hobject]
    exact deactivate_revise host found

theorem followAttribute_revise (found : w.handler? h = some s) (text : Option String) :
    (w.revise h s (.ofAttribute text (s.blocks host text w))).SameRecords
      (after host (h.followAttribute text) w) := by
  cases text with
  | none =>
    have hfollow : after host (h.followAttribute none) w = after host (h.deactivate s) w := by
      simp [after, followAttribute, found]
    rw [hfollow]
    exact deactivate_revise host found
  | some source =>
    let w' := after host (s.environment.isBlocked source s.type) w
    have same : w.SameRecords w' := s.environment.isBlocked_sameRecords source s.type w
    have found' : w'.handler? h = some s := (same.handler? h).trans found
    cases hblocked : (outcome host (s.environment.isBlocked source s.type) w).1 with
    | true =>
      have hfollow : after host (h.followAttribute (some source)) w =
          after host (h.deactivate s) w' := by
        simp [after, followAttribute, found, hblocked, w']
      rw [hfollow, EventHandler.blocks, hblocked]
      exact (same.revise h s .clear).trans (deactivate_revise host found')
    | false =>
      have hfollow : after host (h.followAttribute (some source)) w =
          after host (do h.setValue (.uncompiled source); h.activate s) w' := by
        simp [after, followAttribute, found, hblocked, w']
      rw [hfollow, EventHandler.blocks, hblocked]
      exact (same.revise h s _).trans (activate_revise host found' _)

theorem compilePending_revise (found : w.handler? h = some s) (source : String) :
    (w.revise h s (.ofCompilation (outcome host (h.compilePending s source) w).1)).SameRecords
      (after host (h.compilePending s source) w) := by
  let w₁ := after host (s.environment.compile source s.type s.target) w
  have same₁ : w.SameRecords w₁ := s.environment.compile_sameRecords source s.type s.target w
  cases hresult : (outcome host (s.environment.compile source s.type s.target) w).1 with
  | ok function =>
    have hcompile : outcome host (h.compilePending s source) w =
        (.ok function, after host (h.setValue (.compiled function)) w₁) := by
      simp [compilePending, hresult, after, w₁]
    have found₁ : w₁.handler? h = some s := (same₁.handler? h).trans found
    rw [after, hcompile]
    exact (same₁.revise h s _).trans (setValue_revise host found₁ _)
  | error error =>
    let message := "Failed to compile on" ++ s.type ++ " handler: " ++ error.shown
    let w₂ := after host (log .debug message) w₁
    have same₂ : w.SameRecords w₂ := same₁.trans (Moves.log _ _ w₁)
    have hcompile : outcome host (h.compilePending s source) w = (.error error, after host
        (s.environment.reporter.tell error.toScriptError) (after host (h.setValue .none) w₂)) := by
      simp [compilePending, hresult, after, w₁, w₂, message]
    have found₂ : w₂.handler? h = some s := (same₂.handler? h).trans found
    have dropped := (same₂.revise h s _).trans (setValue_revise host found₂ .none)
    rw [after, hcompile]
    exact dropped.trans (s.environment.reporter.tell_moves _ _)

end HandlerId

end Operations

end WebBindings
