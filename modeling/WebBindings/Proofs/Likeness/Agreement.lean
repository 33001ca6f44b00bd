import WebBindings.Handler.Report
import WebBindings.Proofs.Likeness.World
import WebBindings.Proofs.Motion
/-!
# Computations that agree

Two computations, each on a host of its own, agree if they give related answers and leave worlds that
look alike, wherever they start in worlds that look alike. Agreement is put together along the
computations. Errors agree if scripts cannot tell them apart, and so do log records of the same level:
texts of messages do not count.
-/

namespace WebBindings

variable {σ α α' β β' : Type}

/-- The value that a script has thrown. -/
def ScriptError.thrown? : ScriptError → Option Value
  | .exception v => some v
  | _ => none

/-- Errors that are the same but for the text of a message. -/
structure ScriptError.Alike (e e' : ScriptError) : Prop where
  category : e'.category? = e.category?
  thrown : e'.thrown? = e.thrown?

/-- Two related answers, or two errors that look alike. -/
inductive ResultAlike (P : α → α' → Prop) : Except ScriptError α → Except ScriptError α' → Prop
  | ok {a : α} {a' : α'} (same : P a a') : ResultAlike P (.ok a) (.ok a')
  | error {e e' : ScriptError} (alike : e.Alike e') : ResultAlike P (.error e) (.error e')

theorem ResultAlike.refl (result : Except ScriptError α) : ResultAlike Eq result result := by
  cases result with
  | ok a => exact .ok rfl
  | error e => exact .error ⟨rfl, rfl⟩

/-- Embedders whose functions agree. What messages say makes no difference to them. -/
structure Embedder.Alike (o : Observer σ) (e e' : Embedder σ) : Prop where
  record (level : LogLevel) (message message' : String) {x x' : σ} (states : o.states x x') :
    o.states (e.record level message x) (e'.record level message' x')
  hostLog (index : Nat) (level : LogLevel) (message message' : String) {x x' : σ}
    (states : o.states x x') :
    o.states (e.hostLog index level message x) (e'.hostLog index level message' x')
  report (index : Nat) {h h' : Heap} (heaps : h.Alike o h') {error error' : ScriptError}
    (errors : error.Alike error') {x x' : σ} (states : o.states x x') :
    o.states (e.report index h error x) (e'.report index h' error' x')
  blocks (index : Nat) (source : String) {x x' : σ} (states : o.states x x') :
    (e'.blocks index source x').1 = (e.blocks index source x).1 ∧
      o.states (e.blocks index source x).2 (e'.blocks index source x').2
  checkSyntax (index : Nat) (body : String) {x x' : σ} (states : o.states x x') :
    (e'.checkSyntax index body x').1 = (e.checkSyntax index body x).1 ∧
      o.states (e.checkSyntax index body x).2 (e'.checkSyntax index body x').2
  compile (index : Nat) (body name : String) (scope : HandlerScope) {h h' : Heap}
    (heaps : h.Alike o h') {x x' : σ} (states : o.states x x') :
    (e'.compile index body name scope h' x').1 = (e.compile index body name scope h x).1 ∧
      (e.compile index body name scope h x).2.1.Alike o (e'.compile index body name scope h' x').2.1 ∧
      o.states (e.compile index body name scope h x).2.2 (e'.compile index body name scope h' x').2.2
  callback (index : Nat) {x x' : σ} (states : o.states x x') :
    (e'.callback index x').1 = (e.callback index x).1 ∧
      o.states (e.callback index x).2 (e'.callback index x').2
  call (index : Nat) (receiver : Value) (arguments : List Value) {w w' : World σ}
    (alike : w.Alike o w') :
    ResultAlike Eq (e.call index receiver arguments w).1 (e'.call index receiver arguments w').1 ∧
      (e.call index receiver arguments w).2.Alike o (e'.call index receiver arguments w').2
  listen (index : Nat) (event : EventId) {w w' : World σ} (alike : w.Alike o w') :
    (e.listen index event w).Alike o (e'.listen index event w')
  react (sink : Sink) {error error' : ScriptError} (errors : error.Alike error') {w w' : World σ}
    (alike : w.Alike o w') : (e.react sink error w).Alike o (e'.react sink error' w')

/-- Hosts that agree, also in what comes of calls. -/
class Agreeing (o : Observer σ) (host host' : Host σ) : Prop where
  embedders : host.toEmbedder.Alike o host'.toEmbedder
  invoke (callee : ObjectId) (receiver : Value) (arguments : List Value) {w w' : World σ}
    (alike : w.Alike o w') :
    ResultAlike Eq (host.invoke callee receiver arguments w).1
        (host'.invoke callee receiver arguments w').1 ∧
      (host.invoke callee receiver arguments w).2.Alike o (host'.invoke callee receiver arguments w').2

def Agree (o : Observer σ) (host host' : Host σ) (P : α → α' → Prop) (a : Action σ α)
    (a' : Action σ α') : Prop :=
  ∀ w w' : World σ, w.Alike o w' → P (outcome host a w).1 (outcome host' a' w').1 ∧
    (outcome host a w).2.Alike o (outcome host' a' w').2

def ScriptAgree (o : Observer σ) (host host' : Host σ) (P : α → α' → Prop) (s : Script σ α)
    (s' : Script σ α') : Prop :=
  Agree o host host' (ResultAlike P) s.run s'.run

/-- The computation agrees with itself on the two hosts. -/
abbrev Agrees (o : Observer σ) (host host' : Host σ) (a : Action σ α) : Prop :=
  Agree o host host' Eq a a

abbrev ScriptAgrees (o : Observer σ) (host host' : Host σ) (s : Script σ α) : Prop :=
  ScriptAgree o host host' Eq s s

section Composition

variable {o : Observer σ} {host host' : Host σ} {P : α → α' → Prop} {Q : β → β' → Prop}

theorem Agree.pure {a : α} {a' : α'} (same : P a a') :
    Agree o host host' P (pure a) (pure a') := fun _ _ alike => ⟨same, alike⟩

theorem Agree.bind_of {a : Action σ α} {a' : Action σ α'} {f : α → Action σ β} {f' : α' → Action σ β'}
    (first : Agree o host host' P a a')
    (next : ∀ x x', P x x' → Agree o host host' Q (f x) (f' x')) :
    Agree o host host' Q (a >>= f) (a' >>= f') := fun _ _ alike =>
  next _ _ (first _ _ alike).1 _ _ (first _ _ alike).2

theorem Agree.bind {a a' : Action σ α} {f : α → Action σ β} {f' : α → Action σ β'}
    (first : Agree o host host' Eq a a') (next : ∀ x, Agree o host host' Q (f x) (f' x)) :
    Agree o host host' Q (a >>= f) (a' >>= f') :=
  first.bind_of fun x _ same => same ▸ next x

theorem Agree.get : Agree o host host' (World.Alike o) get get := fun _ _ alike => ⟨alike, alike⟩

theorem Agree.modify {f f' : World σ → World σ} (changed : ∀ w w', w.Alike o w' → (f w).Alike o (f' w')) :
    Agree o host host' Eq (modify f : Action σ Unit) (modify f') :=
  fun _ _ alike => ⟨rfl, changed _ _ alike⟩

theorem Agree.ite {c : Prop} [Decidable c] {a b : Action σ α} {a' b' : Action σ α'}
    (yes : Agree o host host' P a a') (no : Agree o host host' P b b') :
    Agree o host host' P (if c then a else b) (if c then a' else b') := by
  split
  · exact yes
  · exact no

theorem ScriptAgree.pure {a : α} {a' : α'} (same : P a a') :
    ScriptAgree o host host' P (pure a) (pure a') := fun _ _ alike => ⟨.ok same, alike⟩

theorem ScriptAgree.throw {e e' : ScriptError} (same : e.Alike e') :
    ScriptAgree o host host' P (throw e) (throw e') := fun _ _ alike => ⟨.error same, alike⟩

theorem ScriptAgree.bind_of {s : Script σ α} {s' : Script σ α'} {f : α → Script σ β}
    {f' : α' → Script σ β'} (first : ScriptAgree o host host' P s s')
    (next : ∀ x x', P x x' → ScriptAgree o host host' Q (f x) (f' x')) :
    ScriptAgree o host host' Q (s >>= f) (s' >>= f') := by
  change Agree o host host' (ResultAlike Q) (s.run >>= ExceptT.bindCont f)
    (s'.run >>= ExceptT.bindCont f')
  refine Agree.bind_of first fun result result' same => ?_
  cases same with
  | ok same => exact next _ _ same
  | error alike => exact Agree.pure (.error alike)

theorem ScriptAgree.bind {s s' : Script σ α} {f : α → Script σ β} {f' : α → Script σ β'}
    (first : ScriptAgree o host host' Eq s s')
    (next : ∀ x, ScriptAgree o host host' Q (f x) (f' x)) :
    ScriptAgree o host host' Q (s >>= f) (s' >>= f') :=
  first.bind_of fun x _ same => same ▸ next x

theorem ScriptAgree.ite {c : Prop} [Decidable c] {s t : Script σ α} {s' t' : Script σ α'}
    (yes : ScriptAgree o host host' P s s') (no : ScriptAgree o host host' P t t') :
    ScriptAgree o host host' P (if c then s else t) (if c then s' else t') := by
  split
  · exact yes
  · exact no

theorem ScriptAgree.perform {a : Action σ α} {a' : Action σ α'} (agree : Agree o host host' P a a') :
    ScriptAgree o host host' P (perform a) (perform a') :=
  fun _ _ alike => ⟨.ok (agree _ _ alike).1, (agree _ _ alike).2⟩

theorem ScriptAgree.get : ScriptAgree o host host' (World.Alike o) MonadState.get MonadState.get :=
  fun _ _ alike => ⟨.ok alike, alike⟩

theorem ScriptAgree.getHeap : ScriptAgree o host host' (Heap.Alike o) getHeap getHeap :=
  fun _ _ alike => ⟨.ok alike.heap, alike⟩

theorem ScriptAgree.raise_of {cause cause' : Fault} (same : cause'.category = cause.category) :
    ScriptAgree o host host' P (raise cause) (raise cause') :=
  .throw ⟨congrArg some same, rfl⟩

theorem ScriptAgree.raise (cause : Fault) : ScriptAgree o host host' P (raise cause) (raise cause) :=
  .raise_of rfl

theorem ScriptAgree.settle_of {result : Except Fault α} {result' : Except Fault α'}
    (same : ResultAlike P (result.mapError .fault) (result'.mapError .fault)) :
    ScriptAgree o host host' P (settle result) (settle result') := fun w w' alike => by
  rw [outcome_settle, outcome_settle]
  exact ⟨same, alike⟩

theorem ScriptAgree.settle (result : Except Fault α) :
    ScriptAgrees o host host' (settle result) := by
  cases result with
  | ok a => exact .pure rfl
  | error cause => exact .raise cause

theorem ScriptAgree.mapM {f f' : α → Script σ β} (each : ∀ a, ScriptAgree o host host' Eq (f a) (f' a))
    (items : List α) : ScriptAgree o host host' Eq (items.mapM f) (items.mapM f') := by
  induction items with
  | nil => exact .pure rfl
  | cons a rest ih =>
    rw [List.mapM_cons, List.mapM_cons]
    refine (each a).bind fun b => ?_
    refine ih.bind fun bs => ?_
    exact .pure rfl

theorem ScriptAgree.modifyHeap {f f' : Heap → Heap}
    (changed : ∀ h h', h.Alike o h' → (f h).Alike o (f' h')) :
    ScriptAgree o host host' Eq (modifyHeap f) (modifyHeap f') :=
  fun _ _ alike => ⟨.ok rfl, alike.modifyHeap (changed _ _ alike.heap)⟩

theorem Agree.allocate {make make' : Heap → ObjectId × Heap}
    (made : ∀ h h', h.Alike o h' → (make' h').1 = (make h).1 ∧ (make h).2.Alike o (make' h').2) :
    Agree o host host' Eq (allocate make) (allocate make') := fun _ _ alike =>
  ⟨(made _ _ alike.heap).1.symm, alike.update (made _ _ alike.heap).2 alike.embedder⟩

end Composition

section Reports

variable {o : Observer σ} {host host' : Host σ} [agreeing : Agreeing o host host']

theorem Agree.log (level : LogLevel) (message message' : String) :
    Agree o host host' Eq (log level message) (log level message') := fun _ _ alike =>
  ⟨rfl, alike.update alike.heap (agreeing.embedders.record level message message' alike.embedder)⟩

theorem ScriptAgree.invoke (callee : ObjectId) (receiver : Value) (arguments : List Value) :
    ScriptAgrees o host host' (invoke callee receiver arguments) :=
  fun _ _ alike => agreeing.invoke callee receiver arguments alike

theorem Logger.write_agree (l : Logger) (level : LogLevel) (message message' : String) :
    Agree o host host' Eq (l.write level message) (l.write level message') := by
  cases l with
  | console => exact Agree.log _ _ _
  | external index =>
    exact fun _ _ alike => ⟨rfl,
      alike.update alike.heap (agreeing.embedders.hostLog index level message message' alike.embedder)⟩

variable {error error' : ScriptError} (errors : error.Alike error')

include errors

theorem Sink.report_agree (s : Sink) :
    Agree o host host' Eq (s.report error) (s.report error') := by
  refine Agree.get.bind_of fun w w' alike => ?_
  cases s with
  | console => exact Agree.log _ _ _
  | logger l => exact l.write_agree _ _ _
  | external index =>
    exact fun _ _ alike => ⟨rfl, alike.update alike.heap
      (agreeing.embedders.report index alike.heap errors alike.embedder)⟩

theorem Reporter.tell_agree (r : Reporter) :
    Agree o host host' Eq (r.tell error) (r.tell error') := by
  refine Agree.get.bind_of fun w w' alike => ?_
  have shared : w'.sharedSink = w.sharedSink := alike.reads (·.sharedSink) fun _ _ _ => rfl
  rw [shared]
  exact Sink.report_agree errors _

theorem Reporter.react_agree (r : Reporter) :
    Agree o host host' Eq (r.react error) (r.react error') := fun w w' alike => by
  have shared : w'.sharedSink = w.sharedSink := alike.reads (·.sharedSink) fun _ _ _ => rfl
  refine ⟨rfl, ?_⟩
  change (host.react (r.sink? w.sharedSink) error w).Alike o
    (host'.react (r.sink? w'.sharedSink) error' w')
  rw [shared]
  exact agreeing.embedders.react _ errors alike

theorem Reporter.report_agree (r : Reporter) :
    Agree o host host' Eq (r.report error) (r.report error') :=
  (r.tell_agree errors).bind fun _ => r.react_agree errors

end Reports

end WebBindings
