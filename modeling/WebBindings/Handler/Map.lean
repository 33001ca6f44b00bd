import WebBindings.Handler.Current
/-!
# Handler maps

The handlers of an element by property name, each made when its property is first touched.
-/

namespace WebBindings

variable {σ : Type}

/-- The event type that a property such as `onclick` is named for. -/
def eventTypeOf? (property : String) : Option String :=
  match property.toList with
  | 'o' :: 'n' :: c :: rest => some (String.ofList (c :: rest))
  | _ => none

def createHandlerMap (target : ElementId) (environment : HandlerEnvironment) :
    Action σ HandlerMapId :=
  modifyGet fun w =>
    (⟨w.maps.size⟩, { w with maps := w.maps.push ⟨target, environment, .empty⟩ })

namespace HandlerMapId

/-- The properties that were touched, in order. -/
def properties (m : HandlerMapId) (w : World σ) : List String :=
  ((w.map? m).map fun record => record.states.keys).getD []

/-- The handler of a property, made now if it is new; nothing if the name is none of a handler. -/
def handler? (m : HandlerMapId) (property : String) : Action σ (Option HandlerId) := do
  match eventTypeOf? property, (← get).map? m with
  | some type, some record =>
    match record.states.get? property with
    | some h => return some h
    | none =>
      log .trace ("Creating handler state for " ++ property)
      let h ← createHandler record.target type record.environment
      modify fun w => w.modifyMap m fun r => { r with states := r.states.insert property h }
      return some h
  | _, _ => return none

def handler (m : HandlerMapId) (property : String) : Script σ HandlerId := do
  match ← perform (m.handler? property) with
  | some h => return h
  | none => raise (.notHandlerProperty property)

def get (m : HandlerMapId) (property : String) : Script σ Value := do
  let h ← m.handler property
  return .ofOption ((← perform h.current).map .object)

def set (m : HandlerMapId) (property : String) (value : Value) : Script σ Unit := do
  let h ← m.handler property
  perform (h.set value)

/-- Follow a content attribute; the flag tells whether it is one of a handler. -/
def followAttribute (m : HandlerMapId) (name : String) (text : Option String) : Action σ Bool := do
  match ← m.handler? (Ascii.lower name) with
  | some h =>
    h.followAttribute text
    return true
  | none => return false

/-- Write a content attribute of the element and follow it. -/
def setAttribute (m : HandlerMapId) (name text : String) : Script σ Unit := do
  match (← MonadState.get).map? m with
  | none => return
  | some record =>
    WebBindings.setAttribute record.target name text
    let _ ← perform (m.followAttribute name (some text))

def removeAttribute (m : HandlerMapId) (name : String) : Action σ Unit := do
  match (← MonadState.get).map? m with
  | none => return
  | some record =>
    WebBindings.removeAttribute record.target name
    let _ ← m.followAttribute name none

end HandlerMapId

end WebBindings
