import WebBindings.Proofs.Heap.Confinement
import WebBindings.Proofs.Motion
import WebBindings.Proofs.Script.Judging
/-!
# Programs that stay inside

A program that starts inside of a set of objects stays in it: what it reads from these objects, what
conversions and calls give it and what it writes are values inside. So it keeps any property of the heap
that writes of such values and calls inside keep.
-/

namespace WebBindings

variable {σ α β : Type}

/-- From a heap with a property a computation leads to a heap with this property, and what it answers
with is as wanted. -/
def Keeps (host : Host σ) (P : Heap → Prop) (Q : α → Prop) (s : Script σ α) : Prop :=
  ∀ w, P w.heap → P (after host s.run w).heap ∧ ∀ a, (outcome host s.run w).1 = .ok a → Q a

namespace Keeps

variable {host : Host σ} {P : Heap → Prop} {Q : α → Prop} {R : β → Prop}

theorem pure {a : α} (wanted : Q a) : Keeps host P Q (pure a) := by
  refine fun w hw => ⟨hw, fun b hb => ?_⟩
  cases hb
  exact wanted

theorem throw (error : ScriptError) : Keeps host P Q (throw error) :=
  fun w hw => ⟨hw, fun a ha => by cases ha⟩

theorem raise (cause : Fault) : Keeps host P Q (raise cause) := throw _

theorem bind {s : Script σ α} {f : α → Script σ β} (hs : Keeps host P Q s)
    (hf : ∀ a, Q a → Keeps host P R (f a)) : Keeps host P R (s >>= f) := by
  intro w hw
  obtain ⟨kept, wanted⟩ := hs w hw
  change P (outcome host (s.run >>= ExceptT.bindCont f) w).2.heap ∧
    ∀ b, (outcome host (s.run >>= ExceptT.bindCont f) w).1 = .ok b → R b
  rw [outcome_bind]
  cases result : (outcome host s.run w).1 with
  | ok a => exact hf a (wanted a result) _ kept
  | error error => exact throw error _ kept

theorem mono {Q' : α → Prop} {s : Script σ α} (hs : Keeps host P Q s) (weaker : ∀ a, Q a → Q' a) :
    Keeps host P Q' s :=
  fun w hw => ⟨(hs w hw).1, fun a ha => weaker a ((hs w hw).2 a ha)⟩

theorem settle {result : Except Fault α} (wanted : ∀ a, result = .ok a → Q a) :
    Keeps host P Q (settle result) := by
  cases result with
  | ok a => exact pure (wanted a rfl)
  | error cause => exact raise cause

theorem getHeap : Keeps host P P getHeap := by
  refine fun w hw => ⟨hw, fun h hh => ?_⟩
  cases hh
  exact hw

theorem modifyHeap {f : Heap → Heap} (kept : ∀ h, P h → P (f h)) :
    Keeps host P (fun _ => True) (modifyHeap f) :=
  fun w hw => ⟨kept w.heap hw, fun _ _ => trivial⟩

theorem allocate {make : Heap → ObjectId × Heap} {Q : ObjectId → Prop}
    (made : ∀ h, P h → P (make h).2 ∧ Q (make h).1) :
    Keeps host P Q (perform (allocate make)) := by
  refine fun w hw => ⟨(made w.heap hw).1, fun o ho => ?_⟩
  cases ho
  exact (made w.heap hw).2

theorem mapM {f : α → Script σ β} {items : List α} (hf : ∀ a ∈ items, Keeps host P R (f a)) :
    Keeps host P (fun _ => True) (items.mapM f) := by
  induction items with
  | nil => exact pure trivial
  | cons a rest ih =>
    rw [List.mapM_cons]
    obtain ⟨first, others⟩ := List.forall_mem_cons.1 hf
    refine first.bind fun _ _ => ?_
    refine (ih others).bind fun _ _ => ?_
    exact pure trivial

end Keeps

/-- A property of heaps that confines a set of objects, and that writes of values from inside and
calls inside keep. -/
class Confining (host : Host σ) (inside : ObjectId → Prop) (P : Heap → Prop) : Prop where
  confined {h : Heap} (held : P h) : h.Confined inside
  set {h : Heap} (held : P h) (o : ObjectId) (key : PropertyKey) {v : Value} (hv : v.Inside inside) :
    P (h.set o key v).2
  invoke {callee : ObjectId} {receiver : Value} {arguments : List Value} (known : inside callee)
    (hreceiver : receiver.Inside inside) (harguments : ∀ a ∈ arguments, a.Inside inside) :
    Keeps host P (Value.Inside inside) (invoke callee receiver arguments)

variable {host : Host σ} {inside : ObjectId → Prop} {P : Heap → Prop} [Confining host inside P]

section Conversions

variable {value : Value} (hvalue : value.Inside inside)

include hvalue

theorem method?_keeps (key : PropertyKey) :
    Keeps host P (fun f => ∀ o, f = some o → inside o) (method? value key) := by
  unfold method?
  cases value with
  | object o =>
    refine Keeps.getHeap.bind fun heap held => ?_
    dsimp only
    split
    · exact .pure (by simp)
    · have found := (Confining.confined host held).get (hvalue o rfl) key
      split
      · rename_i f hf
        split
        · refine .pure ?_
          rintro _ ⟨⟩
          exact found f hf
        · exact .raise _
      · exact .raise _
  | _ => exact .pure (by simp)

omit hvalue in
theorem primitiveByMethods_keeps {o : ObjectId} (ho : inside o) (names : List String) :
    Keeps host P (Value.Inside inside) (primitiveByMethods o names) := by
  induction names with
  | nil => exact .raise _
  | cons name rest ih =>
    rw [primitiveByMethods]
    refine Keeps.getHeap.bind fun heap held => ?_
    split
    · rename_i f hf
      have known : inside f := (Confining.confined host held).get ho (.ofText name) f hf
      split
      · refine (Confining.invoke known (.object ho) (by simp)).bind fun result hresult => ?_
        split
        · exact ih
        · exact .pure hresult
      · exact ih
    · exact ih

theorem toPrimitive_keeps (preferred : PreferredType) :
    Keeps host P (Value.Inside inside) (toPrimitive value preferred) := by
  unfold toPrimitive
  cases value with
  | object o =>
    refine (method?_keeps hvalue _).bind fun exotic known => ?_
    cases exotic with
    | some f =>
      have word : ∀ a ∈ [Value.ofText preferred.hint], a.Inside inside := by
        simpa using Value.Inside.of_not_object rfl
      refine (Confining.invoke (known f rfl) hvalue word).bind fun result hresult => ?_
      split
      · exact .raise _
      · exact .pure hresult
    | none => exact primitiveByMethods_keeps (hvalue o rfl) _
  | _ => exact .pure hvalue

theorem toNumber_keeps : Keeps host P (fun _ => True) (toNumber value) :=
  (toPrimitive_keeps hvalue _).bind fun _ _ => .settle fun _ _ => trivial

theorem toText_keeps : Keeps host P (fun _ => True) (toText value) :=
  (toPrimitive_keeps hvalue _).bind fun _ _ => .settle fun _ _ => trivial

theorem toPropertyKey_keeps : Keeps host P (fun _ => True) (toPropertyKey value) := by
  refine (toPrimitive_keeps hvalue _).bind fun primitive _ => ?_
  split
  · exact .pure trivial
  · exact (Keeps.settle (Q := fun _ => True) fun _ _ => trivial).bind fun _ _ => .pure trivial

omit hvalue in
theorem joinElements_keeps {array : ObjectId} (known : inside array) :
    Keeps host P (fun _ => True) (joinElements array) := by
  refine Keeps.getHeap.bind fun heap held => ?_
  have elements := (Confining.confined host held).elements known
  refine (Keeps.mapM (R := fun _ => True) fun element mem => ?_).bind fun _ _ => .pure trivial
  split
  · exact .pure trivial
  · exact toText_keeps (elements element mem)

end Conversions

namespace Script

/-- A scope chain of objects inside. -/
structure ScopeChain.Inside (inside : ObjectId → Prop) (chain : ScopeChain) : Prop where
  objects : ∀ o ∈ chain.objects, inside o
  global : inside chain.global

/-- A frame that is inside. -/
structure Frame.Inside (inside : ObjectId → Prop) (f : Frame) : Prop where
  chain : f.chain.Inside inside
  this : f.this.Inside inside

/-- Wherever the parameter is inside, an evaluation keeps a property of the heap, and the parameter
inside. -/
def EvaluationKeeps (host : Host σ) (inside : ObjectId → Prop) (P : Heap → Prop) (Q : α → Prop)
    (m : Evaluation σ α) : Prop :=
  ∀ parameter : Value, parameter.Inside inside →
    Keeps host P (fun result => Q result.1 ∧ result.2.Inside inside) (m.run parameter)

namespace EvaluationKeeps

omit [Confining host inside P]

variable {Q : α → Prop} {R : β → Prop}

theorem pure {a : α} (wanted : Q a) : EvaluationKeeps host inside P Q (pure a : Evaluation σ α) :=
  fun _ hp => .pure ⟨wanted, hp⟩

theorem bind {m : Evaluation σ α} {f : α → Evaluation σ β}
    (hm : EvaluationKeeps host inside P Q m)
    (hf : ∀ a, Q a → EvaluationKeeps host inside P R (f a)) :
    EvaluationKeeps host inside P R (m >>= f) := by
  intro parameter hp
  refine (hm parameter hp).bind fun result wanted => ?_
  exact hf result.1 wanted.1 result.2 wanted.2

theorem lift {s : WebBindings.Script σ α} (hs : Keeps host P Q s) :
    EvaluationKeeps host inside P Q (lift s) :=
  fun _ hp => hs.bind fun _ wanted => .pure ⟨wanted, hp⟩

end EvaluationKeeps

variable {f : Frame} (hf : f.Inside inside)

theorem ScopeChain.Inside.lookup {chain : ScopeChain} (within : chain.Inside inside) {h : Heap}
    (confined : h.Confined inside) {name : String} {found : Value × Value}
    (hfound : chain.lookup h name = .ok found) :
    found.1.Inside inside ∧ found.2.Inside inside := by
  unfold ScopeChain.lookup at hfound
  split at hfound
  · rename_i o resolved
    have ho : inside o := by
      rw [ScopeChain.resolve?] at resolved
      split at resolved
      · rename_i first
        cases resolved
        exact within.objects o (List.mem_of_find?_eq_some first)
      · split at resolved
        · cases resolved
        · cases resolved
    cases hfound
    exact ⟨confined.get ho _, .object ho⟩
  · cases hfound
    exact ⟨confined.get within.global _, .of_not_object rfl⟩
  · cases hfound

include hf in
theorem readName_keeps (name : String) : EvaluationKeeps host inside P
    (fun found => found.1.Inside inside ∧ found.2.Inside inside) (readName f name) := by
  unfold readName
  split
  · exact fun parameter hp => .pure ⟨⟨hp, .of_not_object rfl⟩, hp⟩
  · refine .lift (Keeps.getHeap.bind fun heap held => .settle fun found hfound => ?_)
    exact hf.chain.lookup (Confining.confined host held) hfound

theorem writeName_keeps (f : Frame) (name : String) {v : Value} (hv : v.Inside inside) :
    EvaluationKeeps host inside P (fun _ => True) (writeName f name v) := by
  unfold writeName
  split
  · exact fun _ _ => .pure ⟨trivial, hv⟩
  · exact .lift (.modifyHeap fun h held => Confining.set host held _ _ hv)

section Bases

omit [Confining host inside P]

theorem requireBase_keeps (base : Value) (key : PropertyKey) :
    Keeps host P (fun _ => True) (requireBase base key) := by
  unfold requireBase
  split
  · exact Keeps.getHeap.bind fun _ _ => .raise _
  · exact .pure trivial

end Bases

theorem readProperty_keeps {base : Value} (hbase : base.Inside inside) (key : PropertyKey) :
    Keeps host P (Value.Inside inside) (readProperty base key) := by
  refine (requireBase_keeps base key).bind fun _ _ => Keeps.getHeap.bind fun heap held => .pure ?_
  cases base with
  | object o => exact (Confining.confined host held).get (hbase o rfl) key
  | string s =>
    rw [propertyOf]
    split
    · exact .of_not_object rfl
    · exact .of_not_object rfl
  | _ => exact .of_not_object rfl

theorem writeProperty_keeps (base : Value) (key : PropertyKey) {v : Value} (hv : v.Inside inside) :
    Keeps host P (fun _ => True) (writeProperty base key v) := by
  refine (requireBase_keeps base key).bind fun _ _ => ?_
  cases base with
  | object o => exact .modifyHeap fun h held => Confining.set host held o key hv
  | _ => exact .pure trivial

theorem readIndex_keeps {base index : Value} (hbase : base.Inside inside)
    (hindex : index.Inside inside) :
    Keeps host P (Value.Inside inside) (do readProperty base (← toPropertyKey index)) :=
  (toPropertyKey_keeps hindex).bind fun key _ => readProperty_keeps hbase key

theorem writeIndex_keeps (base : Value) {index v : Value} (hindex : index.Inside inside)
    (hv : v.Inside inside) :
    Keeps host P (fun _ => True) (do writeProperty base (← toPropertyKey index) v) :=
  (toPropertyKey_keeps hindex).bind fun key _ => writeProperty_keeps base key hv

theorem callValue_keeps {function receiver : Value} {arguments : List Value}
    (hfunction : function.Inside inside) (hreceiver : receiver.Inside inside)
    (harguments : ∀ a ∈ arguments, a.Inside inside) :
    Keeps host P (Value.Inside inside) (callValue function receiver arguments) := by
  refine Keeps.getHeap.bind fun heap held => ?_
  cases function with
  | object o =>
    dsimp only
    split
    · exact Confining.invoke (hfunction o rfl) hreceiver harguments
    · exact .raise _
  | _ => exact .raise _

omit [Confining host inside P] in
theorem addPrimitives_not_object {left right sum : Value} (h : addPrimitives left right = .ok sum) :
    sum.isObject = false := by
  unfold addPrimitives at h
  split at h
  all_goals
    simp only [bind, Except.bind, throw, throwThe, MonadExceptOf.throw, Pure.pure, Except.pure] at h
    repeat' split at h
    all_goals
      cases h
      try rfl

theorem addValues_keeps {left right : Value} (hleft : left.Inside inside)
    (hright : right.Inside inside) :
    Keeps host P (Value.Inside inside) (addValues left right) := by
  refine (toPrimitive_keeps hleft _).bind fun _ _ => ?_
  refine (toPrimitive_keeps hright _).bind fun _ _ => ?_
  exact .settle fun _ hsum => .of_not_object (addPrimitives_not_object hsum)

theorem negateValue_keeps {operand : Value} (hoperand : operand.Inside inside) :
    Keeps host P (Value.Inside inside) (negateValue operand) := by
  refine (toPrimitive_keeps hoperand _).bind fun primitive _ => ?_
  split
  · exact .pure (.of_not_object rfl)
  · refine (Keeps.settle (Q := fun _ => True) fun _ _ => trivial).bind fun _ _ => ?_
    exact .pure (.of_not_object rfl)

theorem subtractValue_keeps (minuend : Double) {right : Value} (hright : right.Inside inside) :
    Keeps host P (Value.Inside inside) (subtractValue minuend right) :=
  (toNumber_keeps hright).bind fun _ _ => .pure (.of_not_object rfl)

section Looking

omit [Confining host inside P]

theorem typeOfValue_keeps (v : Value) : Keeps host P (Value.Inside inside) (typeOfValue v) :=
  Keeps.getHeap.bind fun _ _ => .pure (.of_not_object rfl)

theorem isReadable_keeps (f : Frame) (name : String) :
    Keeps host P (fun _ => True) (isReadable f name) :=
  Keeps.getHeap.bind fun _ _ => .pure trivial

end Looking

include hf in
theorem judging_keeps : Judging f "" True (Value.Inside inside)
    fun k m => EvaluationKeeps host inside P (k.Within (Value.Inside inside)) m where
  pure within := .pure within
  bind first rest := first.bind rest
  throws _ := .lift (.throw _)
  refuses := .lift (.raise _)
  plain primitive := .of_not_object primitive
  this := hf.this
  readsName _ := readName_keeps hf _
  writesName _ _ hv := writeName_keeps f _ hv
  asksName _ := .lift (isReadable_keeps f _)
  readsProperty hbase _ _ := .lift (readProperty_keeps hbase _)
  readsIndex hbase hindex _ := .lift (readIndex_keeps hbase hindex)
  writesProperty base _ _ hv := .lift (writeProperty_keeps base _ hv)
  writesIndex base _ _ hindex hv := .lift (writeIndex_keeps base hindex hv)
  calls hfunction hreceiver harguments := .lift (callValue_keeps hfunction hreceiver harguments)
  adds hleft hright := .lift (addValues_keeps hleft hright)
  converts hoperand := .lift (toNumber_keeps hoperand)
  subtracts minuend _ hright := .lift (subtractValue_keeps minuend hright)
  negates hoperand := .lift (negateValue_keeps hoperand)
  tellsType operand := .lift (typeOfValue_keeps operand)

theorem Program.run_keeps (p : Program) {chain : ScopeChain} {this event : Value}
    (hchain : chain.Inside inside) (hthis : this.Inside inside) (hevent : event.Inside inside) :
    Keeps host P (Value.Inside inside) (p.run chain this event) := by
  have keeps : EvaluationKeeps host inside P (ResultKind.returned.Within (Value.Inside inside))
      (executeAll (evaluate refuse ⟨chain, this⟩) p.body) :=
    (judging_keeps ⟨hchain, hthis⟩).statements (.inl trivial)
  refine (keeps event hevent).bind fun result wanted => .pure ?_
  obtain ⟨_ | value, _⟩ := result
  · exact .of_not_object rfl
  · exact wanted.1 value rfl

end Script

end WebBindings
