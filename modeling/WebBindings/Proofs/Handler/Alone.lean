import WebBindings.Handler.Map
import WebBindings.Proofs.Handler.Effect
/-!
# A property by itself

What operations on a handler map do to the handler of one property, answer and report, told from the
value and the listener of this handler alone. Two such runs over the same operations only differ in
which functions the engine made of the same texts.
-/

namespace WebBindings

variable {σ τ : Type}

/-- What can be asked of a handler map and of the handlers in it. -/
inductive MapOperation
  | touch (property : String)
  | get (property : String)
  | set (property : String) (value : Value)
  /-- The handler of a property follows a text. -/
  | follow (property : String) (text : Option String)
  | attributeChanged (name : String) (text : Option String)
  | setAttribute (name text : String)
  | removeAttribute (name : String)

namespace MapOperation

/-- The property that an operation is routed to. Attributes go by their names in lower case. -/
def property : MapOperation → String
  | .touch property | .get property | .set property _ | .follow property _ => property
  | .attributeChanged name _ | .setAttribute name _ | .removeAttribute name => Ascii.lower name

/-- Perform an operation. Those without an answer of their own answer `undefined`. -/
def perform (m : HandlerMapId) : MapOperation → Script σ Value
  | .touch property => do
    let _ ← m.handler property
    return .undefined
  | .get property => m.get property
  | .set property value => do
    m.set property value
    return .undefined
  | .follow property text => do
    let h ← m.handler property
    WebBindings.perform (h.followAttribute text)
    return .undefined
  | .attributeChanged name text => do
    return .boolean (← WebBindings.perform (m.followAttribute name text))
  | .setAttribute name text => do
    m.setAttribute name text
    return .undefined
  | .removeAttribute name => do
    WebBindings.perform (m.removeAttribute name)
    return .undefined

/-- The text that a handler follows with an operation. -/
def text? : MapOperation → Option String
  | .follow _ text | .attributeChanged _ text => text
  | .setAttribute _ text => some text
  | _ => none

end MapOperation

/-- The value of a handler, and whether it has a listener. -/
structure Stored where
  value : HandlerValue
  active : Bool
deriving DecidableEq

namespace Stored

/-- What a property has that was not touched yet. -/
def blank : Stored := ⟨.none, false⟩

def revised (v : Stored) (effect : HandlerEffect) : Stored := ⟨effect.value, effect.isActive v.active⟩

def callback? (v : Stored) : Option ObjectId :=
  match v.value with
  | .compiled callback => some callback
  | _ => none

end Stored

namespace MapOperation

/-- The effect of an operation on a handler, given whether its text is blocked and what an engine makes
of the text that was not read yet. -/
def effect? (v : Stored) (blocked : Bool) (result : Except CompileError ObjectId) :
    MapOperation → Option HandlerEffect
  | .touch _ => none
  | .get _ =>
    match v.value with
    | .uncompiled _ => some (.ofCompilation result)
    | _ => none
  | .set _ value => some (.ofSetting value)
  | .follow _ text | .attributeChanged _ text => some (.ofAttribute text blocked)
  | .setAttribute name text =>
    if Element.isValidAttributeName name then some (.ofAttribute (some text) blocked) else none
  | .removeAttribute _ => some .clear

/-- What a handler has after an operation. -/
def next (op : MapOperation) (v : Stored) (blocked : Bool) (result : Except CompileError ObjectId) :
    Stored :=
  match op.effect? v blocked result with
  | some effect => v.revised effect
  | none => v

/-- What an operation answers, given what the handler has after it. -/
def answer (op : MapOperation) (v : Stored) : Except ScriptError Value :=
  match op with
  | .get _ => .ok (.ofOption (v.callback?.map .object))
  | .attributeChanged _ _ => .ok (.boolean true)
  | .setAttribute name _ =>
    if Element.isValidAttributeName name then .ok .undefined
    else .error (.fault (.invalidAttributeName name))
  | _ => .ok .undefined

/-- The text that was compiled and its function, given what the handler had before and has after. -/
def compiled? (op : MapOperation) (before after : Stored) : Option (String × ObjectId) :=
  match op, before.value, after.value with
  | .get _, .uncompiled source, .compiled function => some (source, function)
  | _, _, _ => none

/-- The object that an operation gives to a handler. -/
def given? : MapOperation → Option ObjectId
  | .set _ value => value.object?
  | _ => none

/-- The failures that are reported. -/
def failures (op : MapOperation) (v : Stored) (result : Except CompileError ObjectId) :
    List CompileError :=
  match op, v.value, result with
  | .get _, .uncompiled _, .error error => [error]
  | _, _, _ => []

end MapOperation

/-- What can be seen of one operation: its answer, the text that it compiled with the function made of
it, and what it reported. -/
structure Exchange (τ : Type) where
  answer : Except ScriptError Value
  compiled : Option (String × ObjectId)
  reported : List τ

/-- A result without the function that was made. -/
def compileOutcome (result : Except CompileError ObjectId) : Except CompileError Unit :=
  result.map fun _ => ⟨⟩

/-- Operations on one handler by itself, where the gate and the engine go by the text alone. Which
functions the engine makes is left open. -/
inductive Solo (blocks : String → Bool) (compiles : String → Except CompileError Unit)
    (entry : CompileError → τ) : Stored → List MapOperation → List (Exchange τ) → Stored → Prop
  | nil {v} : Solo blocks compiles entry v [] [] v
  | cons {v v' v'' op ops exchanges result}
    (outcome : ∀ source, v.value = .uncompiled source → compileOutcome result = compiles source)
    (next : v' = op.next v (op.text?.any blocks) result)
    (rest : Solo blocks compiles entry v' ops exchanges v'') :
    Solo blocks compiles entry v (op :: ops)
      (⟨op.answer v', op.compiled? v v', (op.failures v result).map entry⟩ :: exchanges) v''

section Alike

variable (same : ObjectId → ObjectId → Prop)

/-- Two values that agree up to which functions count as the same. -/
inductive HandlerValue.Alike : HandlerValue → HandlerValue → Prop
  | none : HandlerValue.Alike .none .none
  | uncompiled (source) : HandlerValue.Alike (.uncompiled source) (.uncompiled source)
  | compiled {f g} (alike : same f g) : HandlerValue.Alike (.compiled f) (.compiled g)

structure Stored.Alike (v v' : Stored) : Prop where
  value : HandlerValue.Alike same v.value v'.value
  active : v'.active = v.active

/-- Two answers that agree up to which functions count as the same. -/
inductive AnswersAlike : Except ScriptError Value → Except ScriptError Value → Prop
  | plain {answer} (plain : ∀ f, answer ≠ .ok (.object f)) : AnswersAlike answer answer
  | object {f g} (alike : same f g) : AnswersAlike (.ok (.object f)) (.ok (.object g))

structure Exchange.Alike (r r' : Exchange τ) : Prop where
  answer : AnswersAlike same r.answer r'.answer
  compiled : r'.compiled.map Prod.fst = r.compiled.map Prod.fst
  reported : r'.reported = r.reported

end Alike

/-- Two functions that operations in the same place made of the same text. -/
def Counterparts (exchanges exchanges' : List (Exchange τ)) (f g : ObjectId) : Prop :=
  ∃ pair ∈ exchanges.zip exchanges', ∃ source,
    pair.1.compiled = some (source, f) ∧ pair.2.compiled = some (source, g)

section Agreement

variable {same : ObjectId → ObjectId → Prop} {v v' : Stored}

theorem HandlerValue.Alike.self {value : HandlerValue}
    (given : ∀ f, value = .compiled f → same f f) : HandlerValue.Alike same value value := by
  cases value with
  | none => exact .none
  | compiled f => exact .compiled (given f rfl)
  | uncompiled source => exact .uncompiled source

theorem Stored.Alike.revised (alike : Stored.Alike same v v') {effect : HandlerEffect}
    (given : ∀ f, effect.value = .compiled f → same f f) :
    Stored.Alike same (v.revised effect) (v'.revised effect) :=
  ⟨.self given, congrArg effect.isActive alike.active⟩

theorem HandlerEffect.ofSetting_value {value : Value} {f : ObjectId}
    (set : (ofSetting value).value = .compiled f) : value.object? = some f := by
  rw [ofSetting] at set
  split at set
  · rename_i callback object
    cases set
    exact object
  · cases set

theorem HandlerEffect.ofAttribute_value (text : Option String) (blocked : Bool) (f : ObjectId) :
    (ofAttribute text blocked).value ≠ .compiled f := by
  cases text <;> cases blocked <;> exact HandlerValue.noConfusion

namespace MapOperation

variable {op : MapOperation} {blocked : Bool} {result result' : Except CompileError ObjectId}

theorem next_alike (alike : Stored.Alike same v v') (given : ∀ f, op.given? = some f → same f f)
    (outcome : ∀ source, v.value = .uncompiled source → compileOutcome result' = compileOutcome result)
    (made : ∀ source f g, op.compiled? v (op.next v blocked result) = some (source, f) →
      op.compiled? v' (op.next v' blocked result') = some (source, g) → same f g) :
    Stored.Alike same (op.next v blocked result) (op.next v' blocked result') := by
  cases op with
  | touch property => exact alike
  | get property =>
    obtain ⟨value, active⟩ := v
    obtain ⟨value', active'⟩ := v'
    obtain ⟨values, rfl⟩ := alike
    cases values with
    | none => exact ⟨.none, rfl⟩
    | compiled same => exact ⟨.compiled same, rfl⟩
    | uncompiled source =>
      have outcome := outcome source rfl
      cases result with
      | ok f =>
        cases result' with
        | ok g =>
          have counterpart : same f g := made source f g rfl rfl
          exact ⟨.compiled counterpart, rfl⟩
        | error error => cases outcome
      | error error =>
        cases result' with
        | ok g => cases outcome
        | error error' => exact ⟨.none, rfl⟩
  | set property value => exact alike.revised fun f set => given f (HandlerEffect.ofSetting_value set)
  | follow property text | attributeChanged name text =>
    have plain := HandlerEffect.ofAttribute_value text blocked
    exact alike.revised fun f set => absurd set (plain f)
  | setAttribute name text =>
    cases valid : Element.isValidAttributeName name with
    | true =>
      have plain := HandlerEffect.ofAttribute_value (some text) blocked
      simpa [next, effect?, valid] using alike.revised fun f set => absurd set (plain f)
    | false => simpa [next, effect?, valid] using alike
  | removeAttribute name => exact alike.revised fun f set => HandlerValue.noConfusion set

theorem answer_alike (alike : Stored.Alike same v v') :
    AnswersAlike same (op.answer v) (op.answer v') := by
  cases op with
  | get property =>
    obtain ⟨value, active⟩ := v
    obtain ⟨value', active'⟩ := v'
    obtain ⟨values, -⟩ := alike
    cases values with
    | compiled alike => exact .object alike
    | _ => exact .plain fun _ => nofun
  | setAttribute name text =>
    simp only [answer]
    split <;> exact .plain fun _ => nofun
  | _ => exact .plain fun _ => nofun

theorem compiled?_alike (before : HandlerValue.Alike same v.value v'.value) {u u' : Stored}
    (after : HandlerValue.Alike same u.value u'.value) :
    (op.compiled? v' u').map Prod.fst = (op.compiled? v u).map Prod.fst := by
  obtain ⟨value, active⟩ := v
  obtain ⟨value', active'⟩ := v'
  obtain ⟨next, active⟩ := u
  obtain ⟨next', active'⟩ := u'
  cases op with
  | get property => cases before <;> cases after <;> rfl
  | _ => rfl

theorem failures_alike (alike : Stored.Alike same v v')
    (outcome : ∀ source, v.value = .uncompiled source →
      compileOutcome result' = compileOutcome result) :
    op.failures v' result' = op.failures v result := by
  obtain ⟨value, active⟩ := v
  obtain ⟨value', active'⟩ := v'
  obtain ⟨values, -⟩ := alike
  cases op with
  | get property =>
    cases values with
    | uncompiled source =>
      have outcome := outcome source rfl
      cases result <;> cases result' <;> cases outcome <;> rfl
    | _ => rfl
  | _ => rfl

end MapOperation

/-- Two runs over the same operations, from handlers that agree, see the same and end with handlers that
agree, up to the functions that were made of the same texts. -/
theorem Solo.alike {blocks : String → Bool} {compiles : String → Except CompileError Unit}
    {entry : CompileError → τ} {ops : List MapOperation} {u u' : Stored}
    {exchanges exchanges' : List (Exchange τ)}
    (solo : Solo blocks compiles entry v ops exchanges u)
    (solo' : Solo blocks compiles entry v' ops exchanges' u') (start : Stored.Alike same v v')
    (given : ∀ op ∈ ops, ∀ f, op.given? = some f → same f f)
    (made : ∀ f g, Counterparts exchanges exchanges' f g → same f g) :
    List.Forall₂ (Exchange.Alike same) exchanges exchanges' ∧ Stored.Alike same u u' := by
  induction solo generalizing v' exchanges' with
  | nil =>
    cases solo'
    exact ⟨.nil, start⟩
  | @cons v v₁ u op ops exchanges result outcome next rest ih =>
    obtain _ | @⟨_, v₁', _, _, _, exchanges', result', outcome', next', rest'⟩ := solo'
    have outcomes : ∀ source, v.value = .uncompiled source →
        compileOutcome result' = compileOutcome result := by
      intro source pending
      rw [outcome source pending]
      refine outcome' source ?_
      have values := start.value
      rw [pending] at values
      generalize v'.value = value' at values
      cases values
      rfl
    have after : Stored.Alike same v₁ v₁' := by
      rw [next, next']
      refine MapOperation.next_alike start (given op List.mem_cons_self) outcomes
        fun source f g hf hg => made f g ?_
      rw [← next] at hf
      rw [← next'] at hg
      exact ⟨_, List.mem_cons_self, source, hf, hg⟩
    obtain ⟨others, ended⟩ := ih rest' after (fun op mem => given op (List.mem_cons_of_mem _ mem))
      fun f g ⟨pair, mem, counterpart⟩ => made f g ⟨pair, List.mem_cons_of_mem _ mem, counterpart⟩
    refine ⟨.cons ⟨op.answer_alike after, op.compiled?_alike start.value after.value, ?_⟩ others, ended⟩
    exact congrArg (List.map entry) (op.failures_alike start outcomes)

end Agreement

end WebBindings
