import WebBindings.Proofs.Handler.Isolation
import WebBindings.Proofs.Likeness.Attribute
/-!
# The letter case of names

Runs of requests that differ in the letter case of names. Names of attributes are folded wherever they
are taken in, so their letter case shows in texts of messages at most. The local name of an element is
folded as well, but not the copy of it that scripts see.
-/

namespace WebBindings

variable {σ : Type} {o : Observer σ} {host host' : Host σ}

/-- What is answered to a request. -/
inductive Answer
  | done
  | flag (b : Bool)
  | number (n : Nat)
  | text (t : Option String)
  | texts (ts : List String)
  | value (v : Value)
  | document (id : DocumentId)
  | element (id : Option ElementId)
  | event (id : EventId)
  | handler (id : HandlerId)
  | map (id : HandlerMapId)
  | listener (id : ListenerId)
  | callback (f : Option ObjectId)
  | reflection (failure : Option (Option Category × Option Value)) (r : Reflection)

/-- What can be told of a failed attempt without the text of a message. -/
def failure? : Except ScriptError Unit → Option (Option Category × Option Value)
  | .ok _ => none
  | .error error => some (error.category?, error.thrown?)

/-- What can be asked of a token list. -/
inductive TokenRequest
  | value
  | length
  | item (index : Nat)
  | contains (token : String)
  | setValue (text : String)
  | add (tokens : List String)
  | remove (tokens : List String)
  | toggle (token : String) (force : Option Bool)
  | replace (token new : String)
  | supports (token : String)

def TokenRequest.perform (l : TokenList) : TokenRequest → Script σ Answer
  | .value => return .text (l.value (← get))
  | .length => return .number (l.length (← get))
  | .item index => return .text (l.item? (← get) index)
  | .contains token => return .flag (l.contains (← get) token)
  | .setValue text => do
    l.setValue text
    return .done
  | .add tokens => do
    l.add tokens
    return .done
  | .remove tokens => do
    l.remove tokens
    return .done
  | .toggle token force => return .flag (← l.toggle token force)
  | .replace token new => return .flag (← l.replace token new)
  | .supports token => return .flag (← settle (l.supports token))

/-- What can be asked of documents, elements, events and handlers, and of the objects that scripts see. -/
inductive Request
  | createDocument
  | createElement (name : String) (document : Option DocumentId)
  | createEvent (type : String) (cancelable : Bool)
  | createHandler (target : ElementId) (type : String) (environment : HandlerEnvironment)
  | createMap (target : ElementId) (environment : HandlerEnvironment)
  | setUrl (document : DocumentId) (url : Option Url)
  | setForm (id : ElementId) (form : Option ObjectId)
  | hold (h : Handle)
  | release (h : Handle)
  | elementById (document : DocumentId) (text : String)
  | localName (id : ElementId)
  | attributeNames (id : ElementId)
  | getAttribute (id : ElementId) (name : String)
  | hasAttribute (id : ElementId) (name : String)
  | setAttribute (id : ElementId) (name value : String)
  | removeAttribute (id : ElementId) (name : String)
  | reflected (r : Reflection) (id : ElementId) (name : String)
  | reflect (r : Reflection) (id : ElementId) (name : String) (value : Value)
  | tokens (l : TokenList) (request : TokenRequest)
  | properties (m : HandlerMapId)
  | getProperty (m : HandlerMapId) (property : String)
  | setProperty (m : HandlerMapId) (property : String) (value : Value)
  | setHandlerAttribute (m : HandlerMapId) (name text : String)
  | removeHandlerAttribute (m : HandlerMapId) (name : String)
  | attributeChanged (m : HandlerMapId) (name : String) (text : Option String)
  | getHandler (h : HandlerId)
  | setHandler (h : HandlerId) (value : Value)
  | followAttribute (h : HandlerId) (text : Option String)
  | addListener (id : ElementId) (type : String) (action : ListenerAction)
  | removeListener (id : ElementId) (type : String) (listener : ListenerId)
  | dispatch (id : ElementId) (event : EventId)
  | cancel (event : EventId)
  | read (object : ObjectId) (key : PropertyKey)
  | write (object : ObjectId) (key : PropertyKey) (value : Value)
  | call (callee : ObjectId) (receiver : Value) (arguments : List Value)

namespace Request

def perform : Request → Script σ Answer
  | .createDocument =>
    return .document (← modifyGet World.createDocument)
  | .createElement name document =>
    return .element (some (← modifyGet fun w => w.createElement name document))
  | .createEvent type cancelable =>
    return .event (← modifyGet fun w => w.createEvent type cancelable)
  | .createHandler target type environment =>
    return .handler (← WebBindings.perform (WebBindings.createHandler target type environment))
  | .createMap target environment =>
    return .map (← WebBindings.perform (createHandlerMap target environment))
  | .setUrl document url => do
    modify fun w => w.modifyDocument document fun record => { record with url }
    return .done
  | .setForm id form => do
    modify fun w => w.modifyElement id fun e => { e with form }
    return .done
  | .hold h => do
    modify fun w => w.hold h
    return .done
  | .release h => do
    modify fun w => w.release h
    return .done
  | .elementById document text => return .element ((← get).elementById? document text)
  | .localName id => return .text (some ((← get).element id).localName)
  | .attributeNames id => return .texts ((← get).element id).attributes.keys
  | .getAttribute id name => return .text ((← get).attribute? id name)
  | .hasAttribute id name => return .flag ((← get).attribute? id name).isSome
  | .setAttribute id name value => do
    WebBindings.setAttribute id name value
    return .done
  | .removeAttribute id name => do
    WebBindings.perform (WebBindings.removeAttribute id name)
    return .done
  | .reflected r id name => return .value (r.get (← get) id name)
  | .reflect r id name value => do
    let (result, changed) ← WebBindings.perform (r.set id name value)
    return .reflection (failure? result) changed
  | .tokens l request => request.perform l
  | .properties m => return .texts (m.properties (← get))
  | .getProperty m property => return .value (← m.get property)
  | .setProperty m property value => do
    m.set property value
    return .done
  | .setHandlerAttribute m name text => do
    m.setAttribute name text
    return .done
  | .removeHandlerAttribute m name => do
    WebBindings.perform (m.removeAttribute name)
    return .done
  | .attributeChanged m name text =>
    return .flag (← WebBindings.perform (m.followAttribute name text))
  | .getHandler h => return .callback (← WebBindings.perform h.current)
  | .setHandler h value => do
    WebBindings.perform (h.set value)
    return .done
  | .followAttribute h text => do
    WebBindings.perform (h.followAttribute text)
    return .done
  | .addListener id type action =>
    return .listener (← WebBindings.perform (WebBindings.addListener id type action))
  | .removeListener id type listener => do
    WebBindings.perform (WebBindings.removeListener id type listener)
    return .done
  | .dispatch id event => return .flag (← WebBindings.perform (WebBindings.dispatch id event))
  | .cancel event => do
    modify fun w => w.cancelEvent event
    return .done
  | .read object key => return .value ((← getHeap).get object key)
  | .write object key value => do
    modifyHeap fun h => (h.set object key value).2
    return .done
  | .call callee receiver arguments => return .value (← invoke callee receiver arguments)

/-- Perform requests one after the other; one that fails does not stop those behind it. -/
def performAll (requests : List Request) : Action σ (List (Except ScriptError Answer)) :=
  requests.mapM fun r => r.perform.run

/-- Requests that differ in the letter case of names. If the observer sees the local names that scripts
see, it is told the names of new elements in the same letter case. -/
inductive Recased (o : Observer σ) : Request → Request → Prop
  | same (r : Request) : Recased o r r
  | createElement {name name' : String} (variants : Ascii.Variants name name')
    (seen : o.seesNames → name' = name) (document : Option DocumentId) :
    Recased o (.createElement name document) (.createElement name' document)
  | getAttribute {name name' : String} (variants : Ascii.Variants name name') (id : ElementId) :
    Recased o (.getAttribute id name) (.getAttribute id name')
  | hasAttribute {name name' : String} (variants : Ascii.Variants name name') (id : ElementId) :
    Recased o (.hasAttribute id name) (.hasAttribute id name')
  | setAttribute {name name' : String} (variants : Ascii.Variants name name') (id : ElementId)
    (value : String) : Recased o (.setAttribute id name value) (.setAttribute id name' value)
  | removeAttribute {name name' : String} (variants : Ascii.Variants name name') (id : ElementId) :
    Recased o (.removeAttribute id name) (.removeAttribute id name')
  | reflected {name name' : String} (variants : Ascii.Variants name name') (r : Reflection)
    (id : ElementId) : Recased o (.reflected r id name) (.reflected r id name')
  | reflect {name name' : String} (variants : Ascii.Variants name name') (r : Reflection)
    (id : ElementId) (value : Value) : Recased o (.reflect r id name value) (.reflect r id name' value)
  | tokens {name name' : String} (variants : Ascii.Variants name name') (id : ElementId)
    (supported : Option (List String)) (request : TokenRequest) :
    Recased o (.tokens ⟨id, name, supported⟩ request) (.tokens ⟨id, name', supported⟩ request)
  | setHandlerAttribute {name name' : String} (variants : Ascii.Variants name name')
    (m : HandlerMapId) (text : String) :
    Recased o (.setHandlerAttribute m name text) (.setHandlerAttribute m name' text)
  | removeHandlerAttribute {name name' : String} (variants : Ascii.Variants name name')
    (m : HandlerMapId) : Recased o (.removeHandlerAttribute m name) (.removeHandlerAttribute m name')
  | attributeChanged {name name' : String} (variants : Ascii.Variants name name') (m : HandlerMapId)
    (text : Option String) : Recased o (.attributeChanged m name text) (.attributeChanged m name' text)

end Request

/-- Nothing that the request asks for is hidden, and nothing that the handlers ask for which it gives
a text to. -/
def Observer.Admits (o : Observer σ) : Request → Prop
  | .read _ key => o.Sees key
  | .setHandlerAttribute _ _ text => o.FollowsText text
  | .attributeChanged _ _ text | .followAttribute _ text => ∀ source ∈ text, o.FollowsText source
  | _ => True

/-- The object that scripts see as an element. -/
def Object.named (name : String) : Object :=
  (Object.blank .ordinary (some Heap.objectPrototype)).define
    (.ofText "localName") (.data (.ofText name))

theorem Object.Alike.named {name name' : String} (seen : o.seesNames → name' = name) :
    (Object.named name).Alike o (Object.named name') := by
  have blank : (Object.blank .ordinary (some Heap.objectPrototype)).Alike o (.blank .ordinary _) :=
    .refl _ nofun
  refine blank.define_value localNameKey (.data (.ofText name)) (.ofText name') fun sees => ?_
  rw [seen (sees.resolve_right (not_not_intro rfl))]
  rfl

namespace World.Alike

variable {w w' : World σ} (alike : w.Alike o w')

include alike

theorem createDocument : w'.createDocument.1 = w.createDocument.1 ∧
    w.createDocument.2.Alike o w'.createDocument.2 := by
  obtain ⟨ids, heaps⟩ := alike.heap.newObject
  have size : w'.documents.size = w.documents.size := alike.reads (·.documents.size) fun _ _ _ => rfl
  refine ⟨congrArg DocumentId.mk size, ?_, heaps, alike.embedder, alike.pending⟩
  simp only [World.createDocument, ids]
  conv_lhs => rw [alike.records]

theorem createEvent (type : String) (cancelable : Bool) :
    (w'.createEvent type cancelable).1 = (w.createEvent type cancelable).1 ∧
      (w.createEvent type cancelable).2.Alike o (w'.createEvent type cancelable).2 := by
  have size : w'.events.size = w.events.size := alike.reads (·.events.size) fun _ _ _ => rfl
  obtain ⟨methods, early⟩ := alike.heap.newFunction "preventDefault"
    (b := .preventDefault ⟨w.events.size⟩) trivial
  obtain ⟨ids, heaps⟩ := early.alloc (.refl (Event.describe type cancelable
    (w.heap.newFunction "preventDefault" (.preventDefault ⟨w.events.size⟩)).1) nofun)
  simp only [World.createEvent, size, methods, ids, true_and]
  refine ⟨?_, heaps, alike.embedder, alike.pending⟩
  dsimp only
  conv_lhs => rw [alike.records]

/-- The local name of the element is folded; only who sees the one that scripts see can tell more. -/
theorem createElement {name name' : String} (same : Ascii.lower name' = Ascii.lower name)
    (seen : o.seesNames → name' = name) (document : Option DocumentId) :
    (w'.createElement name' document).1 = (w.createElement name document).1 ∧
      (w.createElement name document).2.Alike o (w'.createElement name' document).2 := by
  have size : w'.elements.size = w.elements.size := alike.reads (·.elements.size) fun _ _ _ => rfl
  obtain ⟨ids, heaps⟩ := alike.heap.alloc (Object.Alike.named seen)
  simp only [Object.named] at ids heaps
  cases document with
  | none =>
    simp only [World.createElement, size, same, ids, true_and]
    refine ⟨?_, heaps, alike.embedder, alike.pending⟩
    conv_lhs => rw [alike.records]
  | some d =>
    simp only [World.createElement, World.modifyDocument, size, same, ids, true_and]
    refine ⟨?_, heaps, alike.embedder, alike.pending⟩
    conv_lhs => rw [alike.records]

end World.Alike

theorem World.createElement_names (w : World σ) (name : String) (document : Option DocumentId) :
    let made := w.createElement name document
    (made.2.element made.1).localName = Ascii.lower name ∧
      made.2.heap.get (made.2.element made.1).object localNameKey = .ofText name := by
  intro made
  have heap : made.2.heap = (w.heap.alloc (.named name)).2 := by cases document <;> rfl
  have element : made.2.element made.1 =
      ⟨Ascii.lower name, (w.heap.alloc (.named name)).1, .empty, [], 0, document, none⟩ := by
    cases document <;> simp [made, createElement, modifyDocument, World.element, Object.named]
  have own : made.2.heap.own? (w.heap.alloc (.named name)).1 localNameKey =
      some (.data (.ofText name)) := by
    rw [heap, Heap.own?, Heap.object_alloc_self]
    exact OrderedMap.get?_insert_self _ _ _
  rw [element]
  exact ⟨rfl, Heap.get_eq_of_finds ⟨0, .own own⟩⟩

theorem ScriptAgree.reading {α : Type} {f f' : World σ → α}
    (same : ∀ w w', w.Alike o w' → f' w' = f w) :
    ScriptAgree o host host' Eq (do return f (← MonadState.get)) (do return f' (← MonadState.get)) :=
  ScriptAgree.get.bind_of fun w w' alike => .pure (same w w' alike).symm

theorem ScriptAgree.changing {α : Type} {f f' : World σ → α × World σ}
    (same : ∀ w w', w.Alike o w' → (f' w').1 = (f w).1 ∧ (f w).2.Alike o (f' w').2) :
    ScriptAgree o host host' Eq (modifyGet f) (modifyGet f') := fun w w' alike =>
  ⟨.ok (same w w' alike).1.symm, (same w w' alike).2⟩

theorem ScriptAgree.modifying {f : World σ → World σ} (same : ∀ w w', w.Alike o w' → (f w).Alike o (f w')) :
    ScriptAgrees o host host' (modify f) := fun w w' alike => ⟨.ok rfl, same w w' alike⟩

theorem ScriptAgree.answer {α : Type} {s s' : Script σ α} {f : α → Answer}
    (agree : ScriptAgree o host host' Eq s s') :
    ScriptAgree o host host' Eq (do return f (← s)) (do return f (← s')) :=
  agree.bind fun _ => .pure rfl

theorem ScriptAgree.attempting {a a' : Action σ (Except ScriptError Unit × Reflection)}
    (agree : Agree o host host' AttemptAlike a a') :
    ScriptAgree o host host' Eq
      (do
        let (result, changed) ← WebBindings.perform a
        return Answer.reflection (failure? result) changed)
      (do
        let (result, changed) ← WebBindings.perform a'
        return Answer.reflection (failure? result) changed) := by
  refine (ScriptAgree.perform agree).bind_of fun attempt attempt' alike => .pure ?_
  obtain ⟨result, changed⟩ := attempt
  obtain ⟨result', changed'⟩ := attempt'
  obtain ⟨results, kept⟩ := alike
  obtain rfl : changed' = changed := kept
  cases results with
  | ok => rfl
  | error errors => rw [failure?, failure?, errors.category, errors.thrown]

variable [agreeing : Agreeing o host host']

theorem TokenRequest.perform_agree {l l' : TokenList} (lists : l.Alike l') (request : TokenRequest) :
    ScriptAgree o host host' Eq (request.perform l) (request.perform l') := by
  cases request with
  | value =>
    refine .reading fun w w' alike => ?_
    rw [lists.value alike]
  | length =>
    refine .reading fun w w' alike => ?_
    rw [TokenList.length, TokenList.length, lists.tokens alike]
  | item index =>
    refine .reading fun w w' alike => ?_
    rw [TokenList.item?, TokenList.item?, lists.tokens alike]
  | contains token =>
    refine .reading fun w w' alike => ?_
    rw [TokenList.contains, TokenList.contains, lists.tokens alike]
  | setValue text =>
    have agree : ScriptAgree o host host' Eq (l.setValue text) (l'.setValue text) :=
      lists.setValue_agree text
    exact agree.answer
  | add tokens =>
    have agree : ScriptAgree o host host' Eq (l.add tokens) (l'.add tokens) := lists.add_agree tokens
    exact agree.answer
  | remove tokens =>
    have agree : ScriptAgree o host host' Eq (l.remove tokens) (l'.remove tokens) :=
      lists.remove_agree tokens
    exact agree.answer
  | toggle token force => exact (lists.toggle_agree token force).answer
  | replace token new => exact (lists.replace_agree token new).answer
  | supports token => exact (lists.supports_agree token).answer

namespace Request

theorem perform_agrees {r : Request} (admitted : o.Admits r) :
    ScriptAgrees o host host' (r.perform : Script σ Answer) := by
  cases r with
  | createDocument =>
    refine ScriptAgree.answer (.changing fun w w' alike => ?_)
    exact alike.createDocument
  | createElement name document =>
    refine ScriptAgree.answer (.changing fun w w' alike => ?_)
    exact alike.createElement rfl (fun _ => rfl) document
  | createEvent type cancelable =>
    refine ScriptAgree.answer (.changing fun w w' alike => ?_)
    exact alike.createEvent type cancelable
  | createHandler target type environment =>
    refine ScriptAgree.answer (.perform ?_)
    exact createHandler_agrees target type environment
  | createMap target environment =>
    refine ScriptAgree.answer (.perform ?_)
    exact createHandlerMap_agrees target environment
  | setUrl document url =>
    refine .answer (.modifying fun w w' alike => ?_)
    exact alike.revise (·.modifyDocument document fun record => { record with url }) (fun _ _ _ => rfl)
      alike.pending
  | setForm id form =>
    refine .answer (.modifying fun w w' alike => ?_)
    exact alike.modifyElement id _
  | hold h =>
    refine .answer (.modifying fun w w' alike => ?_)
    exact alike.hold h
  | release h =>
    refine .answer (.modifying fun w w' alike => ?_)
    exact alike.release h
  | elementById document text =>
    refine .reading fun w w' alike => ?_
    exact alike.reads (fun w => Answer.element (w.elementById? document text)) fun _ _ _ => rfl
  | localName id =>
    refine .reading fun w w' alike => ?_
    rw [alike.element]
  | attributeNames id =>
    refine .reading fun w w' alike => ?_
    rw [alike.element]
  | getAttribute id name =>
    refine .reading fun w w' alike => ?_
    rw [alike.attribute? rfl]
  | hasAttribute id name =>
    refine .reading fun w w' alike => ?_
    rw [alike.attribute? rfl]
  | setAttribute id name value =>
    refine .answer ?_
    exact setAttribute_agree rfl id value
  | removeAttribute id name =>
    refine .answer (.perform ?_)
    exact removeAttribute_agree rfl id
  | reflected r id name =>
    refine .reading fun w w' alike => ?_
    rw [alike.reflected rfl]
  | reflect r id name value =>
    refine .attempting ?_
    exact r.set_agree rfl id value
  | tokens l request =>
    have lists : l.Alike l := ⟨rfl, rfl, rfl⟩
    exact request.perform_agree lists
  | properties m =>
    refine .reading fun w w' alike => ?_
    rw [HandlerMapId.properties, HandlerMapId.properties, alike.map?]
  | getProperty m property => exact (m.get_agrees property).answer
  | setProperty m property value =>
    refine .answer ?_
    exact m.set_agrees property value
  | setHandlerAttribute m name text =>
    refine .answer ?_
    exact m.setAttribute_agree rfl admitted
  | removeHandlerAttribute m name =>
    refine .answer (.perform ?_)
    exact m.removeAttribute_agree rfl
  | attributeChanged m name text =>
    refine ScriptAgree.answer (.perform ?_)
    exact m.followAttribute_agree rfl admitted
  | getHandler h =>
    refine ScriptAgree.answer (.perform ?_)
    exact h.current_agrees
  | setHandler h value =>
    refine .answer (.perform ?_)
    exact h.set_agrees value
  | followAttribute h text =>
    refine .answer (.perform ?_)
    exact h.followAttribute_agrees admitted
  | addListener id type action =>
    refine ScriptAgree.answer (.perform ?_)
    exact addListener_agrees id type action
  | removeListener id type listener =>
    refine .answer (.perform ?_)
    exact removeListener_agrees id type listener
  | dispatch id event =>
    refine ScriptAgree.answer (.perform ?_)
    exact dispatch_agrees id event
  | cancel event =>
    refine .answer (.modifying fun w w' alike => ?_)
    exact alike.cancelEvent event
  | read object key =>
    refine ScriptAgree.getHeap.bind_of fun h h' alike => .pure ?_
    rw [alike.get admitted]
  | write object key value =>
    refine .answer (.modifyHeap fun h h' alike => ?_)
    exact (alike.set object key value).2
  | call callee receiver arguments =>
    refine ScriptAgree.answer ?_
    exact ScriptAgree.invoke callee receiver arguments

/-- Requests that differ in the letter case of names are answered alike, and lead to worlds that look
alike. -/
theorem perform_agree {r r' : Request} (recased : Recased o r r') (admitted : o.Admits r) :
    ScriptAgree o host host' Eq r.perform r'.perform := by
  have fold {name name' : String} (variants : Ascii.Variants name name') :
      Ascii.lower name' = Ascii.lower name := (Ascii.lower_eq_iff.2 variants).symm
  cases recased with
  | same => exact perform_agrees admitted
  | createElement variants seen document =>
    refine ScriptAgree.answer (.changing fun w w' alike => ?_)
    exact alike.createElement (fold variants) seen document
  | getAttribute variants id =>
    refine .reading fun w w' alike => ?_
    rw [alike.attribute? (fold variants)]
  | hasAttribute variants id =>
    refine .reading fun w w' alike => ?_
    rw [alike.attribute? (fold variants)]
  | setAttribute variants id value =>
    refine .answer ?_
    exact setAttribute_agree (fold variants) id value
  | removeAttribute variants id =>
    refine .answer (.perform ?_)
    exact removeAttribute_agree (fold variants) id
  | reflected variants r id =>
    refine .reading fun w w' alike => ?_
    rw [alike.reflected (fold variants)]
  | reflect variants r id value =>
    refine .attempting ?_
    exact r.set_agree (fold variants) id value
  | @tokens name name' variants id supported request =>
    have lists : TokenList.Alike ⟨id, name, supported⟩ ⟨id, name', supported⟩ := ⟨rfl, fold variants, rfl⟩
    exact request.perform_agree lists
  | setHandlerAttribute variants m text =>
    refine .answer ?_
    exact m.setAttribute_agree (fold variants) admitted
  | removeHandlerAttribute variants m =>
    refine .answer (.perform ?_)
    exact m.removeAttribute_agree (fold variants)
  | attributeChanged variants m text =>
    refine ScriptAgree.answer (.perform ?_)
    exact m.followAttribute_agree (fold variants) admitted

theorem performAll_agree {requests requests' : List Request}
    (recased : List.Forall₂ (Recased o) requests requests') (admitted : ∀ r ∈ requests, o.Admits r) :
    Agree o host host' (List.Forall₂ (ResultAlike Eq)) (performAll requests) (performAll requests') := by
  induction recased with
  | nil => exact .pure .nil
  | cons first rest ih =>
    rw [performAll, performAll, List.mapM_cons, List.mapM_cons]
    refine Agree.bind_of (perform_agree first (admitted _ (.head _))) fun answer answer' same => ?_
    refine (ih fun r mem => admitted r (.tail _ mem)).bind_of fun answers answers' others => ?_
    exact .pure (.cons same others)

end Request

/-- Runs that differ in the letter case of names are answered alike and lead to worlds that look alike:
attributes, local names, what is reflected, and the handlers that changes are routed to are the same. So
is all that scripts see, if the names given to new elements are the same. If these differ in letter case,
it is all but the local names that scripts see, as long as no script looks at them: they are the names as
they were given. -/
theorem letter_case_is_ignored {e e' : Embedder σ} (embedders : e.Alike o e')
    {requests requests' : List Request} (recased : List.Forall₂ (Request.Recased o) requests requests')
    (admitted : ∀ r ∈ requests, o.Admits r) {w w' : World σ} (alike : w.Alike o w') :
    let run := outcome e.host (Request.performAll requests) w
    let run' := outcome e'.host (Request.performAll requests') w'
    List.Forall₂ (ResultAlike Eq) run.1 run'.1 ∧ run.2.Alike o run'.2 ∧
    run'.2.elements = run.2.elements ∧ run'.2.handlers = run.2.handlers ∧ run'.2.maps = run.2.maps ∧
    (∀ (r : Reflection) id name name', Ascii.Variants name name' →
      r.get run'.2 id name' = r.get run.2 id name) ∧
    (∀ object key, o.Sees key → run'.2.heap.get object key = run.2.heap.get object key) ∧
    ∀ name document, ∃ id v, run.2.createElement name document = (id, v) ∧
      (v.element id).localName = Ascii.lower name ∧
      v.heap.get (v.element id).object localNameKey = .ofText name := by
  intro run run'
  have : Agreeing o e.host e'.host := Embedder.host_agreeing embedders
  have agree : Agree o e.host e'.host (List.Forall₂ (ResultAlike Eq)) (Request.performAll requests)
      (Request.performAll requests') := Request.performAll_agree recased admitted
  obtain ⟨answers, worlds⟩ := agree w w' alike
  refine ⟨answers, worlds, ?_, ?_, ?_, fun r id name name' variants => ?_, fun object key seen => ?_,
    fun name document => ⟨_, _, rfl, run.2.createElement_names name document⟩⟩
  · exact worlds.reads (·.elements) fun _ _ _ => rfl
  · exact worlds.reads (·.handlers) fun _ _ _ => rfl
  · exact worlds.reads (·.maps) fun _ _ _ => rfl
  · exact worlds.reflected (Ascii.lower_eq_iff.2 variants).symm r id
  · exact worlds.heap.get seen object

/-- This observer counts the notes of an embedder, and does not see the local names of scripts. -/
def Observer.counting : Observer (List String) := ⟨fun x x' => x'.length = x.length, False⟩

theorem Embedder.scribe_alike : Embedder.scribe.Alike .counting .scribe where
  record level message message' x x' states := by
    have lengths : x'.length = x.length := states
    simp only [scribe, Observer.counting]
    split
    · simpa using lengths
    · exact lengths
  hostLog _ _ _ _ _ _ states := by simpa [scribe, Observer.counting] using states
  report _ _ _ _ _ _ _ _ _ states := by simpa [scribe, Observer.counting] using states
  blocks _ _ _ _ states := ⟨rfl, states⟩
  checkSyntax _ _ _ _ states := ⟨rfl, states⟩
  compile _ _ _ _ _ _ heaps _ _ states := ⟨congrArg Except.ok heaps.newObject.1, heaps.newObject.2, states⟩
  callback _ _ _ states := ⟨rfl, states⟩
  call _ _ _ _ _ alike := ⟨.refl _, alike⟩
  listen _ _ _ _ alike := alike
  react _ _ _ _ _ _ alike := alike

theorem World.Alike.initial {x x' : σ} (states : o.states x x') :
    (World.initial x).Alike o (World.initial x') where
  records := rfl
  heap := by
    refine .refl _ fun id b known => ?_
    have intrinsic : ∀ record ∈ Heap.initial.objects, ∀ b, record.behavior = some b →
        o.FollowsBehavior b := by
      simp [Heap.initial, Object.function, Object.define, Object.blank, Observer.FollowsBehavior]
    change ((Heap.initial.objects[id.index]?).getD default).behavior = some b at known
    cases found : Heap.initial.objects[id.index]? with
    | none =>
      rw [found] at known
      cases known
    | some record =>
      rw [found] at known
      exact intrinsic record (Array.mem_of_getElem? found) b known
  embedder := states
  pending _ _ found := by cases found

/-- Requests whose names are given in one letter case or another. -/
def requestsIn (recase : String → String) : List Request :=
  [.createElement (recase "div") none, .setAttribute ⟨0⟩ (recase "id") "menu",
    .tokens ⟨⟨0⟩, recase "class", none⟩ (.add ["wide"]), .createMap ⟨0⟩ .idle,
    .attributeChanged ⟨0⟩ (recase "onclick") none, .removeAttribute ⟨0⟩ (recase "id")]

theorem names_in_capitals_are_folded :
    let w := (outcome Embedder.scribe.host (Request.performAll (requestsIn String.toUpper)) (.initial [])).2
    (w.element ⟨0⟩).localName = "div" ∧ (w.element ⟨0⟩).attributes.entries = [("class", "wide")] ∧
      HandlerMapId.properties ⟨0⟩ w = ["onclick"] := by
  have recased :
      List.Forall₂ (Request.Recased .counting) (requestsIn id) (requestsIn String.toUpper) := by
    refine .cons (.createElement (by decide +kernel) False.elim none) ?_
    refine .cons (.setAttribute (by decide +kernel) _ _) ?_
    refine .cons (.tokens (by decide +kernel) _ _ _) ?_
    refine .cons (.same _) ?_
    refine .cons (.attributeChanged (by decide +kernel) _ none) ?_
    exact .cons (.removeAttribute (by decide +kernel) _) .nil
  have admitted : ∀ r ∈ requestsIn id, Observer.counting.Admits r := by
    simp [requestsIn, Observer.Admits]
  have alike : (World.initial ([] : List String)).Alike .counting (.initial []) := .initial rfl
  intro w
  obtain ⟨-, -, elements, -, maps, -⟩ :=
    letter_case_is_ignored Embedder.scribe_alike recased admitted alike
  have element : w.element ⟨0⟩ =
      (outcome Embedder.scribe.host (Request.performAll (requestsIn id)) (.initial [])).2.element ⟨0⟩ :=
    congrArg (fun es : Array Element => es[0]?.getD default) elements
  have properties : HandlerMapId.properties ⟨0⟩ w = HandlerMapId.properties ⟨0⟩
      (outcome Embedder.scribe.host (Request.performAll (requestsIn id)) (.initial [])).2 := by
    simp only [HandlerMapId.properties, World.map?, w, maps]
  rw [element, properties]
  decide +kernel

/-- The name of an element, asked for twice: of the element, and of the object that scripts see. -/
def requestsOfName (name : String) : List Request :=
  [.createElement name none, .localName ⟨0⟩, .read ⟨8⟩ localNameKey]

theorem answers_of_name {x : σ} (name : String) :
    (outcome host (Request.performAll (requestsOfName name)) (.initial x)).1 =
      [.ok (.element (some ⟨0⟩)), .ok (.text (some (Ascii.lower name))), .ok (.value (.ofText name))] := by
  obtain ⟨folded, seen⟩ := (World.initial x).createElement_names name none
  have answers : (outcome host (Request.performAll (requestsOfName name)) (.initial x)).1 =
      [.ok (.element (some ((World.initial x).createElement name none).1)),
        .ok (.text (some (((World.initial x).createElement name none).2.element
          ((World.initial x).createElement name none).1).localName)),
        .ok (.value (((World.initial x).createElement name none).2.heap.get
          (((World.initial x).createElement name none).2.element
            ((World.initial x).createElement name none).1).object localNameKey))] := rfl
  rw [answers, folded, seen]
  rfl

theorem script_visible_name_keeps_its_case :
    Ascii.Variants "div" "DIV" ∧
      List.Forall₂ (Request.Recased (⟨Eq, False⟩ : Observer (List String)))
        (requestsOfName "div") (requestsOfName "DIV") ∧
      (outcome Embedder.scribe.host (Request.performAll (requestsOfName "div")) (.initial [])).1 =
        [.ok (.element (some ⟨0⟩)), .ok (.text (some "div")), .ok (.value (.ofText "div"))] ∧
      (outcome Embedder.scribe.host (Request.performAll (requestsOfName "DIV")) (.initial [])).1 =
        [.ok (.element (some ⟨0⟩)), .ok (.text (some "div")), .ok (.value (.ofText "DIV"))] ∧
      Value.ofText "DIV" ≠ .ofText "div" := by
  have variants : Ascii.Variants "div" "DIV" := by decide +kernel
  have folds : Ascii.lower "DIV" = "div" ∧ Ascii.lower "div" = "div" := by decide +kernel
  refine ⟨variants, ?_, ?_, ?_, by decide +kernel⟩
  · refine .cons (.createElement variants False.elim none) ?_
    exact .cons (.same _) (.cons (.same _) .nil)
  · rw [answers_of_name, folds.2]
  · rw [answers_of_name, folds.1]

end WebBindings
