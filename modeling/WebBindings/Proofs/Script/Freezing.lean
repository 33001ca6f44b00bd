import WebBindings.Invocation
import WebBindings.Proofs.Script.Confinement
/-!
# Frozen objects

A program that gets to no function of the embedder changes no frozen object: everything it can do to
an object that is already there is an assignment, and a frozen object refuses these. It may get to the
object by any way, as a scope, as the global object, as a prototype or as an event.
-/

namespace WebBindings

variable {σ : Type}

/-- A frozen object, and a set of objects that the objects made by scripts may refer to. -/
structure Seal where
  inside : ObjectId → Prop
  object : ObjectId
  record : Object
  frozen : record.isFrozen = true
  objectPrototype : inside Heap.objectPrototype
  functionPrototype : inside Heap.functionPrototype

/-- The frozen object is as it was, and those inside are confined, with all that are still to come. -/
structure Seal.Holds (s : Seal) (h : Heap) : Prop where
  confined : h.Confined s.inside
  fresh : ∀ p, h.objects.size ≤ p.index → s.inside p
  shows : h.Shows s.object s.record

namespace Seal.Holds

variable {s : Seal} {h : Heap} {o : ObjectId} {key : PropertyKey} {v : Value}

theorem set (held : s.Holds h) (hv : v.Inside s.inside) : s.Holds (h.set o key v).2 where
  confined := held.confined.set hv
  fresh := by
    rw [Heap.size_set]
    exact held.fresh
  shows := held.shows.set s.frozen

theorem alloc (held : s.Holds h) {record : Object} (confined : record.Confined s.inside) :
    s.Holds (h.alloc record).2 ∧ s.inside (h.alloc record).1 ∧ (h.alloc record).1 ≠ s.object := by
  have housed := held.shows.housed s.frozen
  refine ⟨⟨held.confined.alloc confined, fun p absent => held.fresh p ?_,
    held.shows.alloc housed record⟩, held.fresh _ (Nat.le_refl _), ?_⟩
  · rw [Heap.alloc, Array.size_push] at absent
    exact Nat.le_of_succ_le absent
  · intro same
    rw [← same] at housed
    exact Nat.lt_irrefl _ housed

theorem modify (held : s.Holds h) {f : Object → Object}
    (confined : s.inside o → (f (h.object o)).Confined s.inside)
    (kept : o = s.object → (f (h.object s.object)).properties = (h.object s.object).properties ∧
      (f (h.object s.object)).extensible = (h.object s.object).extensible) :
    s.Holds (h.modify o f) where
  confined := held.confined.modify confined
  fresh := by
    rw [Heap.modify, Array.size_modify]
    exact held.fresh
  shows := held.shows.modify kept

theorem newObject (held : s.Holds h) :
    s.Holds h.newObject.2 ∧ s.inside h.newObject.1 ∧ h.newObject.1 ≠ s.object :=
  held.alloc (.blank .ordinary fun _ found => by cases found; exact s.objectPrototype)

theorem newFunction (held : s.Holds h) (name : String) {b : Behavior}
    (references : ∀ o ∈ b.references, s.inside o) (internal : ∀ index, b ≠ .external index) :
    s.Holds (h.newFunction name b).2 ∧ s.inside (h.newFunction name b).1 := by
  have named : ((Object.function name b Heap.functionPrototype).define (.ofText "name")
      (.hidden (.ofText name))).Confined s.inside :=
    (Object.Confined.function name s.functionPrototype references internal).define (.of_not_object rfl)
  have made := held.alloc named
  exact ⟨made.1, made.2.1⟩

theorem cancelEvent (s : Seal) {w : World σ} (held : s.Holds w.heap) (event : EventId) :
    s.Holds (w.cancelEvent event).heap := by
  rw [World.cancelEvent]
  split
  · exact held.set (.of_not_object rfl)
  · exact held

end Seal.Holds

variable (s : Seal)

section Functions

variable {host : Host σ} [Confining host s.inside s.Holds]

omit [Confining host s.inside s.Holds]

theorem newArrayIterator_keeps {array : ObjectId} (known : s.inside array) :
    Keeps host s.Holds s.inside (newArrayIterator array) := by
  refine (Keeps.allocate (Q := fun o => s.inside o ∧ o ≠ s.object)
    fun h held => held.newObject).bind fun iterator made => ?_
  refine (Keeps.allocate (Q := s.inside) fun h held => held.newFunction "next"
    (b := .arrayNext array 0) (by simpa [Behavior.references] using known) (by simp)).bind
      fun next hnext => ?_
  refine (Keeps.modifyHeap fun h held => held.modify (fun here => ?_) fun same => ?_).bind
    fun _ _ => .pure made.1
  · have confined := held.confined _ here
    exact confined.define (.object hnext)
  · exact absurd same made.2

theorem newIterationResult_keeps {value : Value} (hvalue : value.Inside s.inside) (done : Bool) :
    Keeps host s.Holds (Value.Inside s.inside) (newIterationResult value done) := by
  refine (Keeps.allocate (Q := s.inside) fun h held =>
    ⟨held.newObject.1, held.newObject.2.1⟩).bind fun result hresult => ?_
  refine (Keeps.modifyHeap fun h held => held.set hvalue).bind fun _ _ => ?_
  refine (Keeps.modifyHeap fun h held => held.set (.of_not_object rfl)).bind fun _ _ => ?_
  exact .pure (.object hresult)

theorem stepArrayIterator_keeps (next : ObjectId) {array : ObjectId} (known : s.inside array)
    (position : Nat) :
    Keeps host s.Holds (Value.Inside s.inside) (stepArrayIterator next array position) := by
  refine Keeps.getHeap.bind fun heap held => ?_
  split
  · refine (Keeps.modifyHeap fun h held => held.modify (fun here => ?_) fun _ =>
      ⟨rfl, rfl⟩).bind fun _ _ => newIterationResult_keeps s (held.confined.get known _) false
    exact (held.confined _ here).behaving (by simpa [Behavior.references] using known) (by simp)
  · exact newIterationResult_keeps s (.of_not_object rfl) true

variable [Confining host s.inside s.Holds]

theorem Behavior.run_keeps (callee : ObjectId) {receiver : Value} {arguments : List Value}
    {behavior : Behavior} (references : ∀ o ∈ behavior.references, s.inside o)
    (internal : ∀ index, behavior ≠ .external index) (hreceiver : receiver.Inside s.inside)
    (harguments : ∀ a ∈ arguments, a.Inside s.inside) :
    Keeps host s.Holds (Value.Inside s.inside) (behavior.run callee receiver arguments) := by
  have object {o : ObjectId} (found : receiver.object? = some o) : s.inside o := by
    cases receiver with
    | object p => exact hreceiver o (by cases found; rfl)
    | _ => cases found
  cases behavior with
  | objectToString => exact Keeps.getHeap.bind fun _ _ => .pure (.of_not_object rfl)
  | objectValueOf => exact .pure hreceiver
  | arrayToString =>
    rw [Behavior.run]
    split
    · rename_i array found
      have known : s.inside array := object found
      exact (joinElements_keeps known).bind fun _ _ => .pure (.of_not_object rfl)
    · exact .raise _
  | arrayValues =>
    rw [Behavior.run]
    split
    · rename_i array found
      exact (newArrayIterator_keeps s (object found)).bind fun _ made => .pure (.object made)
    · exact .raise _
  | functionToString => exact Keeps.getHeap.bind fun _ _ => .pure (.of_not_object rfl)
  | arrayNext array position =>
    exact stepArrayIterator_keeps s callee (references array (List.mem_singleton.2 rfl)) position
  | preventDefault event =>
    refine Keeps.bind (Q := fun _ => True) (fun w held => ⟨?_, fun _ _ => trivial⟩) fun _ _ =>
      .pure (.of_not_object rfl)
    change s.Holds (if w.isEventLive event then w.cancelEvent event else w).heap
    split
    · exact held.cancelEvent s event
    · exact held
  | handler program scope =>
    refine Script.Program.run_keeps program ⟨fun o ho => ?_, ?_⟩ hreceiver ?_
    · exact references o (List.mem_cons_of_mem _ ho)
    · exact references _ List.mem_cons_self
    · cases arguments with
      | nil => exact .of_not_object rfl
      | cons first rest => exact harguments first List.mem_cons_self
  | external index => exact absurd rfl (internal index)

theorem callObject_keeps {callee : ObjectId} {receiver : Value} {arguments : List Value}
    (known : s.inside callee) (hreceiver : receiver.Inside s.inside)
    (harguments : ∀ a ∈ arguments, a.Inside s.inside) :
    Keeps host s.Holds (Value.Inside s.inside) (callObject callee receiver arguments) := by
  refine Keeps.getHeap.bind fun heap held => ?_
  split
  · rename_i behavior found
    have confined := held.confined callee known
    refine Behavior.run_keeps s callee (fun o mem => ?_) (fun index external => ?_) hreceiver
      harguments
    · exact confined.encloses o (.behavior found mem)
    · exact confined.internal index (external ▸ found)
  · exact .raise _

end Functions

namespace Embedder

variable (e : Embedder σ)

/-- Calls keep the seal, however deeply they are nested. -/
theorem invoke_confining (depth : Nat) :
    Confining ({ e with invoke := e.invoke depth } : Host σ) s.inside s.Holds := by
  refine ⟨fun held => held.confined, fun held _ _ _ hv => held.set hv, ?_⟩
  induction depth with
  | zero =>
    intro _ _ _ _ _ _ w held
    exact ⟨held, fun a ha => by cases ha⟩
  | succ depth ih =>
    intro callee receiver arguments known hreceiver harguments w held
    let inner : Host σ := { e with invoke := e.invoke depth }
    have : Confining inner s.inside s.Holds :=
      ⟨fun held => held.confined, fun held _ _ _ hv => held.set hv, ih⟩
    have called : Keeps inner s.Holds (Value.Inside s.inside) (callObject callee receiver arguments) :=
      callObject_keeps s known hreceiver harguments
    exact called w held

end Embedder

/-- An embedder that does nothing. -/
def Embedder.mute : Embedder Unit where
  record _ _ s := s
  hostLog _ _ _ s := s
  report _ _ _ s := s
  blocks _ _ s := (false, s)
  checkSyntax _ _ s := (.ok ⟨⟩, s)
  compile _ _ _ _ heap s := (.error (.reported .engine "no engine"), heap, s)
  callback _ s := (none, s)
  call _ _ _ w := (.ok .undefined, w)
  listen _ _ w := w

namespace Script

/-- The objects that a program starts from: those of its scope chain, its receiver and its parameter,
and the prototypes of what it makes. -/
def ScopeChain.roots (chain : ScopeChain) (this event : Value) : List ObjectId :=
  Heap.objectPrototype :: Heap.functionPrototype :: chain.global ::
    (chain.objects ++ this.object?.toList ++ event.object?.toList)

theorem ScopeChain.inside_of_roots {inside : ObjectId → Prop} {chain : ScopeChain}
    {this event : Value} (known : ∀ o ∈ chain.roots this event, inside o) :
    chain.Inside inside ∧ this.Inside inside ∧ event.Inside inside := by
  refine ⟨⟨fun o mem => known o ?_, known _ ?_⟩, ?_, ?_⟩
  · simp [roots, mem]
  · simp [roots]
  · rintro o rfl
    exact known o (by simp [roots, Value.object?])
  · rintro o rfl
    exact known o (by simp [roots, Value.object?])

/-- Freezing makes an object frozen. However a program ends, a frozen object has the same own
properties afterwards, in the same order, with the same values and flags, and is still closed to new
ones, if the program gets to no function of the embedder by following references. -/
theorem frozen_objects_stay (e : Embedder σ) (w : World σ) (o : ObjectId) :
    (∀ h : Heap, o.index < h.objects.size → ((h.freeze o).object o).isFrozen = true) ∧
    ∀ (p : Program) (chain : ScopeChain) (this event : Value),
      (w.heap.object o).isFrozen = true →
      (∀ f, w.heap.Reachable (chain.roots this event) f →
        ∀ index, (w.heap.object f).behavior ≠ some (.external index)) →
      ((after e.host (p.run chain this event).run w).heap.object o).properties =
          (w.heap.object o).properties ∧
        ((after e.host (p.run chain this event).run w).heap.object o).extensible = false := by
  refine ⟨fun h housed => ?_, fun p chain this event frozen internal => ?_⟩
  · rw [Heap.freeze, Heap.object_modify, if_pos ⟨rfl, housed⟩]
    exact Object.isFrozen_freeze _
  · let inside (q : ObjectId) :=
      w.heap.Reachable (chain.roots this event) q ∨ w.heap.objects.size ≤ q.index
    have root (q : ObjectId) (mem : q ∈ chain.roots this event) : inside q := .inl (.root mem)
    let s : Seal :=
      { inside
        object := o
        record := w.heap.object o
        frozen
        objectPrototype := root _ (by simp [ScopeChain.roots])
        functionPrototype := root _ (by simp [ScopeChain.roots]) }
    have held : s.Holds w.heap :=
      ⟨Heap.confined_reachable internal, fun q absent => .inr absent, rfl, rfl⟩
    have confining : Confining e.host s.inside s.Holds := e.invoke_confining s Embedder.maxCallDepth
    obtain ⟨hchain, hthis, hevent⟩ := ScopeChain.inside_of_roots root
    have kept : Keeps e.host s.Holds (Value.Inside s.inside) (p.run chain this event) :=
      p.run_keeps hchain hthis hevent
    obtain ⟨properties, extensible⟩ := (kept w held).1.shows
    refine ⟨properties, extensible.trans ?_⟩
    rw [Object.isFrozen, Bool.and_eq_true, Bool.not_eq_true'] at frozen
    exact frozen.1

/-- An assignment to the title of an object. -/
def entitle (base : Expression) : Statement :=
  .expression (.assign (.member base "title") (.constant (.boolean true)))

/-- A heap with a frozen object, which has a title and is the prototype of the other new ones: of an
object that is asked for a text and of the handler that it is asked through. -/
def sealedHeap : Heap :=
  ⟨Heap.initial.objects ++
    #[((Object.blank .ordinary none).define (.ofText "title") (.data .null)).freeze,
      (Object.blank .ordinary (some ⟨8⟩)).define (.ofText "toString") (.data (.object ⟨10⟩)),
      Object.function "" (.handler ⟨[entitle .this]⟩ ⟨[⟨8⟩], ⟨8⟩⟩) ⟨8⟩]⟩

/-- Assign to the receiver, ask the event for a text, and throw the receiver. -/
def throwingProgram : Program :=
  ⟨[entitle .this, .expression (.binary .add (.constant (.text "")) (.identifier "event")),
    .throw .this]⟩

theorem sealedHeap_internal (f : ObjectId) (index : Nat) :
    (sealedHeap.object f).behavior ≠ some (.external index) := by
  intro external
  obtain ⟨n⟩ := f
  match n, external with
  | 0, h | 1, h | 2, h | 3, h | 4, h | 5, h | 6, h | 7, h | 8, h | 9, h | 10, h => cases h
  | n + 11, h =>
    rw [Heap.object, Array.getElem?_eq_none (by simp [sealedHeap, Heap.initial])] at h
    cases h

/-- The frozen object is the receiver, the global object and a prototype. The program assigns to it,
calls a handler that does the same when it is asked for a text, and throws. -/
theorem throwing_program_leaves_frozen :
    let w : World Unit := { World.initial ⟨⟩ with heap := sealedHeap }
    let run := (throwingProgram.run ⟨[⟨9⟩], ⟨8⟩⟩ (.object ⟨8⟩) (.object ⟨9⟩)).run
    (outcome Embedder.mute.host run w).1 = .error (.exception (.object ⟨8⟩)) ∧
      ((after Embedder.mute.host run w).heap.object ⟨8⟩).properties =
        .ofList [(.ofText "title", ⟨.null, false, true⟩)] := by
  intro w run
  have frozen : (w.heap.object ⟨8⟩).isFrozen = true := by decide +kernel
  obtain ⟨properties, -⟩ := (frozen_objects_stay Embedder.mute w ⟨8⟩).2 throwingProgram ⟨[⟨9⟩], ⟨8⟩⟩
    (.object ⟨8⟩) (.object ⟨9⟩) frozen fun f _ => sealedHeap_internal f
  exact ⟨by decide +kernel, properties⟩

end Script

end WebBindings
