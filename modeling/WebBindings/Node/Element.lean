import WebBindings.World
/-!
# Elements and documents

Making elements, reading and writing their attributes, registering listeners, and finding elements
by their id. Names of attributes are kept in lower case.
-/

namespace WebBindings

variable {σ : Type}

namespace Element

def isForbiddenInName (c : Char) : Bool :=
  ['\x00', '\t', '\n', '\x0c', '\r', ' ', '/', '>', '='].contains c

def isValidAttributeName (name : String) : Bool :=
  !name.isEmpty && !name.toList.any isForbiddenInName

/-- Register a listener after all others. Its number is taken from a counter that never runs full: fewer than
`2 ^ 64` registrations on one element are assumed, where a counter of 64 bits would stay at its greatest
number. -/
def addListener (e : Element) (type : String) (action : ListenerAction) : ListenerId × Element :=
  let id : ListenerId := ⟨e.nextListener⟩
  (id, { e with listeners := e.listeners ++ [⟨id, type, action⟩], nextListener := id.number + 1 })

def removeListener (e : Element) (type : String) (id : ListenerId) : Element :=
  { e with listeners := e.listeners.filter fun l => !(l.id = id && l.type = type) }

def isRegistered (e : Element) (id : ListenerId) : Bool := e.listeners.any fun l => l.id = id

end Element

namespace World

def createDocument (w : World σ) : DocumentId × World σ :=
  let (object, heap) := w.heap.newObject
  (⟨w.documents.size⟩, { w with heap, documents := w.documents.push ⟨object, none, []⟩ })

/-- Make an element, of a document or alone. Scripts see the local name as it was given. -/
def createElement (w : World σ) (name : String) (document : Option DocumentId) :
    ElementId × World σ :=
  let id : ElementId := ⟨w.elements.size⟩
  let (object, heap) := w.heap.alloc
    ((Object.blank .ordinary (some Heap.objectPrototype)).define
      (.ofText "localName") (.data (.ofText name)))
  let grown : World σ :=
    { w with
      heap
      elements :=
        w.elements.push ⟨Ascii.lower name, object, .empty, [], 0, document, none⟩ }
  (id,
    match document with
    | some d =>
      grown.modifyDocument d fun record => { record with elements := record.elements ++ [id] }
    | none => grown)

def attribute? (w : World σ) (id : ElementId) (name : String) : Option String :=
  (w.element id).attribute? name

/-- The URL that the URLs in attributes of an element are relative to. -/
def baseUrl? (w : World σ) (id : ElementId) : Option Url :=
  (w.element id).document.bind fun d => (w.document d).url

/-- The first element of a document, in the order of their making, that is in use and has an id. -/
def elementById? (w : World σ) (document : DocumentId) (id : String) : Option ElementId :=
  if id.isEmpty then none
  else
    (w.document document).elements.find? fun e =>
      w.isElementLive e && w.attribute? e "id" = some id

def objectById? (w : World σ) (element : ElementId) (id : String) : Option ObjectId := do
  let document ← (w.element element).document
  let found ← w.elementById? document id
  some (w.element found).object

/-- Where the handlers of an element find their free names. -/
def handlerScope (w : World σ) (id : ElementId) (global : ObjectId) : HandlerScope :=
  let e := w.element id
  ⟨e.object, e.form, e.document.map fun d => (w.document d).object, global⟩

end World

def setAttribute (id : ElementId) (name value : String) : Script σ Unit := do
  if Element.isValidAttributeName name then
    let localName := ((← get).element id).localName
    perform (log .trace ("<" ++ localName ++ "> " ++ name ++ "=\"" ++ value ++ "\""))
    modify fun w => w.modifyElement id fun e =>
      { e with attributes := e.attributes.insert (Ascii.lower name) value }
  else raise (.invalidAttributeName name)

def removeAttribute (id : ElementId) (name : String) : Action σ Unit :=
  modify fun w => w.modifyElement id fun e =>
    { e with attributes := e.attributes.erase (Ascii.lower name) }

def addListener (id : ElementId) (type : String) (action : ListenerAction) :
    Action σ ListenerId :=
  modifyGet fun w =>
    let (listener, _) := (w.element id).addListener type action
    (listener, w.modifyElement id fun e => (e.addListener type action).2)

def removeListener (id : ElementId) (type : String) (listener : ListenerId) : Action σ Unit :=
  modify fun w => w.modifyElement id fun e => e.removeListener type listener

end WebBindings
