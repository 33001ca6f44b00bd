import WebBindings.Proofs.Heap.Changes
import WebBindings.Proofs.Heap.Keys
import WebBindings.Proofs.OrderedMap
import WebBindings.Proofs.Script.Judging
import WebBindings.Script.Parse
/-!
# Worlds that look alike

Two worlds look alike to an observer if they only differ in what it does not tell apart: states of the
embedder, and, for some observers, the values that scripts find under `localName`. To such an observer
the programs look alike as well that never ask for this name.
-/

namespace WebBindings

/-- The property under which scripts find the local name of an element. -/
def localNameKey : PropertyKey := .ofText "localName"

/-- What somebody can tell two worlds by. -/
structure Observer (σ : Type) where
  /-- The states of the embedder that look alike. -/
  states : σ → σ → Prop
  /-- Whether the local names that scripts see are seen as well. -/
  seesNames : Prop

namespace Observer

variable {σ : Type} (o : Observer σ)

def Sees (key : PropertyKey) : Prop := o.seesNames ∨ key ≠ localNameKey

/-- Nothing that the program asks for is hidden. -/
def Follows (p : Script.Program) : Prop :=
  o.seesNames ∨ Script.Statement.anyMentions "localName" p.body = false

/-- The same of a text, if it is one of a program. -/
def FollowsText (source : String) : Prop :=
  ∀ p, Script.Program.ofText? source = .ok p → o.Follows p

/-- The same of the text of a handler that waits to be compiled. -/
def FollowsValue : HandlerValue → Prop
  | .uncompiled source => o.FollowsText source
  | _ => True

def FollowsBehavior : Behavior → Prop
  | .handler program _ => o.Follows program
  | _ => True

theorem sees_symbol (s : Symbol) : o.Sees (.symbol s) := .inr nofun

end Observer

namespace PropertyKey

theorem ofText_injective : Function.Injective ofText := by
  intro s t same
  have units : DOMString.ofString s = DOMString.ofString t := PropertyKey.string.inj same
  have points := congrArg DOMString.codePoints units
  rw [DOMString.codePoints, DOMString.codePoints, DOMString.ofString, DOMString.ofString,
    Units.codePoints_flatMap_ofChar, Units.codePoints_flatMap_ofChar] at points
  exact String.toList_inj.1 (List.map_injective_iff.2 (fun _ _ => CodePoint.scalar.inj) points)

end PropertyKey

namespace Observer

variable {σ : Type} (o : Observer σ)

theorem sees_ofText {name : String} (other : o.seesNames ∨ name ≠ "localName") :
    o.Sees (.ofText name) := other.imp_right PropertyKey.ofText_injective.ne

theorem sees_ofIndex (n : Nat) : o.Sees (.ofIndex n) := by
  refine .inr fun same => ?_
  obtain ⟨s, spelled, decimal⟩ := PropertyKey.ofIndex_isDecimal n
  have units : s = .ofString "localName" := PropertyKey.string.inj (spelled.symm.trans same)
  have letter : (108 : UInt16) ∈ s.units := units ▸ (by decide)
  exact absurd (decimal.digits 108 letter).2 (by decide)

end Observer

section Objects

variable {σ : Type} {o : Observer σ}

/-- Objects that are the same but for the values of properties that the observer does not see. -/
structure Object.Alike (o : Observer σ) (a a' : Object) : Prop where
  record : a' = { a with properties := a'.properties }
  keys : a'.properties.keys = a.properties.keys
  seen : ∀ key, o.Sees key → a'.properties.get? key = a.properties.get? key
  present : ∀ key p, a.properties.get? key = some p →
    ∃ v, a'.properties.get? key = some { p with value := v }
  followed : ∀ b, a.behavior = some b → o.FollowsBehavior b

namespace Object.Alike

variable {a a' : Object}

theorem refl (a : Object) (followed : ∀ b, a.behavior = some b → o.FollowsBehavior b) :
    a.Alike o a where
  record := rfl
  keys := rfl
  seen _ _ := rfl
  present _ p found := ⟨p.value, found⟩
  followed := followed

theorem kind (alike : a.Alike o a') : a'.kind = a.kind := by rw [alike.record]

theorem name (alike : a.Alike o a') : a'.name = a.name := by rw [alike.record]

theorem prototype (alike : a.Alike o a') : a'.prototype = a.prototype := by rw [alike.record]

theorem extensible (alike : a.Alike o a') : a'.extensible = a.extensible := by rw [alike.record]

theorem behavior (alike : a.Alike o a') : a'.behavior = a.behavior := by rw [alike.record]

theorem isNone_get? (alike : a.Alike o a') (key : PropertyKey) :
    (a'.properties.get? key).isNone = (a.properties.get? key).isNone := by
  rw [Bool.eq_iff_iff, Option.isNone_iff_eq_none, Option.isNone_iff_eq_none,
    Option.eq_none_iff_forall_ne_some, Option.eq_none_iff_forall_ne_some]
  have listed (p : Property) (m : OrderedMap PropertyKey Property) (h : m.get? key = some p) :
      key ∈ m.keys := OrderedMap.mem_keys.2 ⟨p, h⟩
  constructor
  · intro missing p found
    obtain ⟨q, hq⟩ := OrderedMap.mem_keys.1 (alike.keys ▸ listed p _ found)
    exact missing q hq
  · intro missing p found
    obtain ⟨q, hq⟩ := OrderedMap.mem_keys.1 (alike.keys.symm ▸ listed p _ found)
    exact missing q hq

theorem define_value (alike : a.Alike o a') (key : PropertyKey) (p : Property) (v : Value)
    (same : o.Sees key → v = p.value) :
    (a.define key p).Alike o (a'.define key { p with value := v }) where
  record := by
    rw [Object.define, Object.define]
    conv_lhs => rw [alike.record]
  keys := by
    rw [Object.define, Object.define, OrderedMap.keys_insert, OrderedMap.keys_insert, alike.keys]
  seen k visible := by
    by_cases here : k = key
    · subst here
      rw [Object.define, Object.define, OrderedMap.get?_insert_self, OrderedMap.get?_insert_self,
        same visible]
    · rw [Object.define, Object.define, OrderedMap.get?_insert_of_ne _ _ here,
        OrderedMap.get?_insert_of_ne _ _ here, alike.seen k visible]
  present k q found := by
    rw [Object.define] at found ⊢
    by_cases here : k = key
    · subst here
      rw [OrderedMap.get?_insert_self, Option.some_inj] at found
      subst found
      exact ⟨v, OrderedMap.get?_insert_self _ _ _⟩
    · rw [OrderedMap.get?_insert_of_ne _ _ here] at found ⊢
      exact alike.present k q found
  followed := alike.followed

theorem define (alike : a.Alike o a') (key : PropertyKey) (p : Property) :
    (a.define key p).Alike o (a'.define key p) :=
  alike.define_value key p p.value fun _ => rfl

theorem assign? (alike : a.Alike o a') (key : PropertyKey) (v : Value) :
    Option.Rel (Object.Alike o) (a.assign? key v) (a'.assign? key v) := by
  rw [Object.assign?, Object.assign?, alike.extensible]
  cases found : a.properties.get? key with
  | some p =>
    obtain ⟨u, found'⟩ := alike.present key p found
    rw [found']
    dsimp only
    split
    · exact .some (alike.define key _)
    · exact .none
  | none =>
    have missing := alike.isNone_get? key
    rw [found, Option.isNone_none, Option.isNone_iff_eq_none] at missing
    rw [missing]
    dsimp only
    split
    · exact .some (alike.define key _)
    · exact .none

end Object.Alike

end Objects

section Heaps

variable {σ : Type} {o : Observer σ}

structure Heap.Alike (o : Observer σ) (h h' : Heap) : Prop where
  size : h'.objects.size = h.objects.size
  object : ∀ id, (h.object id).Alike o (h'.object id)

namespace Heap.Alike

variable {h h' : Heap} (alike : h.Alike o h')

include alike

theorem own? {key : PropertyKey} (seen : o.Sees key) (id : ObjectId) :
    h'.own? id key = h.own? id key := (alike.object id).seen key seen

theorem lineage (id : ObjectId) : h'.lineage id = h.lineage id := by
  have go : ∀ bound id, lineage.go h' bound id = lineage.go h bound id := by
    intro bound
    induction bound with
    | zero => exact fun _ => rfl
    | succ bound ih =>
      intro id
      rw [lineage.go, lineage.go, (alike.object id).prototype]
      split
      · rfl
      · rw [ih]
  rw [Heap.lineage, Heap.lineage, alike.size, go]

theorem get {key : PropertyKey} (seen : o.Sees key) (id : ObjectId) :
    h'.get id key = h.get id key := by
  rw [Heap.get, Heap.get, alike.lineage, funext fun p => alike.own? seen p]

theorem has {key : PropertyKey} (seen : o.Sees key) (id : ObjectId) :
    h'.has id key = h.has id key := by
  rw [Heap.has, Heap.has, alike.lineage, funext fun p => congrArg Option.isSome (alike.own? seen p)]

theorem isCallable (id : ObjectId) : h'.isCallable id = h.isCallable id := by
  rw [Heap.isCallable, Heap.isCallable, (alike.object id).behavior]

theorem tag (id : ObjectId) : h'.tag id = h.tag id := by
  rw [Heap.tag, Heap.tag, (alike.object id).kind]

theorem getText {name : String} (other : o.seesNames ∨ name ≠ "localName") (id : ObjectId) :
    h'.getText id name = h.getText id name := alike.get (o.sees_ofText other) id

theorem shown (v : Value) : h'.shown v = h.shown v := by
  cases v with
  | object id => exact alike.tag id
  | _ => rfl

theorem typeOf (v : Value) : h'.typeOf v = h.typeOf v := by
  cases v with
  | object id => rw [Heap.typeOf, Heap.typeOf, alike.isCallable]
  | _ => rfl

theorem arrayLength (id : ObjectId) : h'.arrayLength id = h.arrayLength id := by
  rw [Heap.arrayLength, Heap.arrayLength, alike.getText (.inr (by decide))]

theorem elements (id : ObjectId) : h'.elements id = h.elements id := by
  rw [Heap.elements, Heap.elements, alike.arrayLength,
    funext fun n => alike.get (o.sees_ofIndex n) id]

theorem alloc {a a' : Object} (made : a.Alike o a') :
    (h'.alloc a').1 = (h.alloc a).1 ∧ (h.alloc a).2.Alike o (h'.alloc a').2 := by
  refine ⟨congrArg ObjectId.mk alike.size, ?_, fun id => ?_⟩
  · rw [Heap.alloc, Heap.alloc, Array.size_push, Array.size_push, alike.size]
  · rw [object_alloc, object_alloc, alike.size]
    split
    · exact made
    · exact alike.object id

theorem modify (id : ObjectId) {f f' : Object → Object}
    (changed : ∀ a a', a.Alike o a' → (f a).Alike o (f' a')) :
    (h.modify id f).Alike o (h'.modify id f') := by
  refine ⟨?_, fun p => ?_⟩
  · rw [Heap.modify, Heap.modify, Array.size_modify, Array.size_modify, alike.size]
  · rw [object_modify, object_modify, alike.size]
    split
    · exact changed _ _ (alike.object p)
    · exact alike.object p

theorem define (id : ObjectId) (key : PropertyKey) (p : Property) :
    (h.define id key p).Alike o (h'.define id key p) :=
  alike.modify id fun _ _ same => same.define key p

theorem set (id : ObjectId) (key : PropertyKey) (v : Value) :
    (h'.set id key v).1 = (h.set id key v).1 ∧ (h.set id key v).2.Alike o (h'.set id key v).2 := by
  have assigned := (alike.object id).assign? key v
  rw [Heap.set, Heap.set]
  generalize (h.object id).assign? key v = made at assigned
  generalize (h'.object id).assign? key v = made' at assigned
  cases assigned with
  | some same => exact ⟨rfl, alike.modify id fun _ _ _ => same⟩
  | none => exact ⟨rfl, alike⟩

theorem newFunction (name : String) {b : Behavior} (followed : o.FollowsBehavior b) :
    (h'.newFunction name b).1 = (h.newFunction name b).1 ∧
      (h.newFunction name b).2.Alike o (h'.newFunction name b).2 := by
  refine alike.alloc ((Object.Alike.refl (.function name b functionPrototype) ?_).define _ _)
  intro b' same
  rwa [← Option.some.inj same]

theorem newObject : (h'.newObject).1 = h.newObject.1 ∧ h.newObject.2.Alike o h'.newObject.2 :=
  alike.alloc (.refl _ nofun)

end Heap.Alike

theorem Heap.Alike.refl (h : Heap)
    (followed : ∀ id b, (h.object id).behavior = some b → o.FollowsBehavior b) : h.Alike o h :=
  ⟨rfl, fun id => .refl _ (followed id)⟩

end Heaps

section Worlds

variable {σ : Type} {o : Observer σ}

/-- The worlds have the same records and heaps that look alike. The observer can follow the texts that
wait to be compiled. -/
structure World.Alike (o : Observer σ) (w w' : World σ) : Prop where
  records : w' = { w with heap := w'.heap, embedder := w'.embedder }
  heap : w.heap.Alike o w'.heap
  embedder : o.states w.embedder w'.embedder
  pending : ∀ h s, w.handler? h = some s → o.FollowsValue s.value

namespace World.Alike

variable {w w' : World σ} (alike : w.Alike o w')

include alike

theorem modifyHeap {f f' : Heap → Heap} (changed : (f w.heap).Alike o (f' w'.heap)) :
    (w.modifyHeap f).Alike o (w'.modifyHeap f') where
  records := by
    conv_lhs => rw [World.modifyHeap, alike.records]
    rfl
  heap := changed
  embedder := alike.embedder
  pending := alike.pending

theorem update {heap heap' : Heap} {x x' : σ} (changed : heap.Alike o heap') (states : o.states x x') :
    { w with heap, embedder := x }.Alike o { w' with heap := heap', embedder := x' } where
  records := by
    conv_lhs => rw [alike.records]
  heap := changed
  embedder := states
  pending := alike.pending

theorem revise (f : World σ → World σ)
    (apart : ∀ w heap embedder, f { w with heap, embedder } = { f w with heap, embedder })
    (pending : ∀ h s, (f w).handler? h = some s → o.FollowsValue s.value) :
    (f w).Alike o (f w') := by
  have kept : f w = { f w with heap := w.heap, embedder := w.embedder } := apart w w.heap w.embedder
  have other : f w' = { f w with heap := w'.heap, embedder := w'.embedder } := by
    conv_lhs => rw [alike.records]
    exact apart w _ _
  refine ⟨?_, ?_, ?_, pending⟩
  · rw [other]
  · rw [other, kept]
    exact alike.heap
  · rw [other, kept]
    exact alike.embedder

theorem reads {α : Type} (f : World σ → α)
    (apart : ∀ w heap embedder, f { w with heap, embedder } = f w) : f w' = f w := by
  conv_lhs => rw [alike.records]
  exact apart w _ _

end World.Alike

end Worlds

end WebBindings
