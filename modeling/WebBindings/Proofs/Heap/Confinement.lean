import WebBindings.Proofs.Heap.Inheritance
/-!
# What objects lead to

An object refers to others by the values of its properties, by its prototype and as a function. Whoever
starts from some objects gets to no others than those that references lead to, and to new ones. Objects
are confined to a set if their references stay in it and none of them calls out of the library.
-/

namespace WebBindings

/-- The objects that a call of a function can get to, besides its receiver and its arguments. -/
def Behavior.references : Behavior → List ObjectId
  | .arrayNext array _ => [array]
  | .handler _ scope => scope.global :: scope.objects
  | _ => []

inductive Object.RefersTo (record : Object) : ObjectId → Prop
  | value {key property o} (found : record.properties.get? key = some property)
      (value : property.value = .object o) : RefersTo record o
  | prototype {o} (found : record.prototype = some o) : RefersTo record o
  | behavior {b o} (found : record.behavior = some b) (mem : o ∈ b.references) : RefersTo record o

/-- The objects that references lead to from some roots. -/
inductive Heap.Reachable (h : Heap) (roots : List ObjectId) : ObjectId → Prop
  | root {o} (mem : o ∈ roots) : Reachable h roots o
  | step {o p} (reached : Reachable h roots o) (refers : (h.object o).RefersTo p) :
      Reachable h roots p

/-- A value that is no object, or one of a set. -/
def Value.Inside (inside : ObjectId → Prop) (v : Value) : Prop := ∀ o, v = .object o → inside o

/-- An object whose references stay in a set, and which does not call a function of the embedder. -/
structure Object.Confined (inside : ObjectId → Prop) (record : Object) : Prop where
  encloses : ∀ o, record.RefersTo o → inside o
  internal : ∀ index, record.behavior ≠ some (.external index)

/-- The objects of a set are confined to it. -/
def Heap.Confined (h : Heap) (inside : ObjectId → Prop) : Prop :=
  ∀ o, inside o → (h.object o).Confined inside

variable {inside : ObjectId → Prop} {record : Object} {key : PropertyKey} {v : Value}

namespace Value.Inside

theorem of_not_object (other : v.isObject = false) : v.Inside inside := by
  rintro o rfl
  cases other

theorem object {o : ObjectId} (ho : inside o) : (Value.object o).Inside inside := by
  rintro _ ⟨⟩
  exact ho

end Value.Inside

namespace Object.Confined

theorem blank (kind : ObjectClass) {prototype : Option ObjectId}
    (known : ∀ o, prototype = some o → inside o) : (Object.blank kind prototype).Confined inside := by
  refine ⟨?_, fun _ => by simp [Object.blank]⟩
  rintro o (⟨found, -⟩ | ⟨found⟩ | ⟨found, -⟩)
  · cases found
  · exact known o found
  · cases found

theorem function (name : String) {b : Behavior} {prototype : ObjectId} (known : inside prototype)
    (references : ∀ o ∈ b.references, inside o) (internal : ∀ index, b ≠ .external index) :
    (Object.function name b prototype).Confined inside := by
  refine ⟨?_, fun index external => internal index (Option.some.inj external)⟩
  rintro o (⟨found, -⟩ | ⟨found⟩ | ⟨found, mem⟩)
  · cases found
  · cases found
    exact known
  · cases found
    exact references o mem

theorem define (confined : record.Confined inside) {property : Property}
    (value : property.value.Inside inside) : (record.define key property).Confined inside := by
  refine ⟨?_, confined.internal⟩
  rintro o (⟨found, object⟩ | ⟨found⟩ | ⟨found, mem⟩)
  · rename_i k other
    by_cases same : k = key
    · subst same
      rw [Object.define, OrderedMap.get?_insert_self] at found
      cases found
      exact value o object
    · rw [Object.define, OrderedMap.get?_insert_of_ne _ _ same] at found
      exact confined.encloses o (.value found object)
  · exact confined.encloses o (.prototype found)
  · exact confined.encloses o (.behavior found mem)

theorem behaving (confined : record.Confined inside) {b : Behavior}
    (references : ∀ o ∈ b.references, inside o) (internal : ∀ index, b ≠ .external index) :
    { record with behavior := some b }.Confined inside := by
  refine ⟨?_, fun index external => internal index (Option.some.inj external)⟩
  rintro o (⟨found, object⟩ | ⟨found⟩ | ⟨found, mem⟩)
  · exact confined.encloses o (.value found object)
  · exact confined.encloses o (.prototype found)
  · cases found
    exact references o mem

end Object.Confined

namespace Heap

variable {h : Heap} {o p : ObjectId}

theorem object_alloc : (h.alloc record).2.object p =
    if p.index = h.objects.size then record else h.object p := by
  simp only [object, alloc, Array.getElem?_push]
  split
  · rfl
  · rfl

namespace Confined

theorem inherits (confined : h.Confined inside) (ho : inside o) (inherits : h.Inherits o p) :
    inside p := by
  induction inherits with
  | refl => exact ho
  | tail _ prototype ih => exact (confined _ ih).encloses _ (.prototype prototype)

theorem get (confined : h.Confined inside) (ho : inside o) (key : PropertyKey) :
    (h.get o key).Inside inside := by
  intro p value
  rw [Heap.get] at value
  split at value
  · rename_i property found
    obtain ⟨before, q, after, lineage, own, -⟩ := List.findSome?_eq_some_iff.1 found
    have hq : inside q := confined.inherits ho (inherits_of_mem_lineage (by simp [lineage]))
    exact (confined q hq).encloses p (.value own value)
  · cases value

theorem elements (confined : h.Confined inside) (ho : inside o) :
    ∀ v ∈ h.elements o, v.Inside inside := by
  simp only [Heap.elements, List.forall_mem_map]
  exact fun n _ => confined.get ho _

theorem modify (confined : h.Confined inside) {f : Object → Object}
    (kept : inside o → (f (h.object o)).Confined inside) : (h.modify o f).Confined inside := by
  intro p hp
  rw [object_modify]
  split
  · rename_i here
    obtain rfl := here.1
    exact kept hp
  · exact confined p hp

theorem define (confined : h.Confined inside) {property : Property}
    (value : property.value.Inside inside) : (h.define o key property).Confined inside :=
  confined.modify fun ho => (confined o ho).define value

theorem set (confined : h.Confined inside) (value : v.Inside inside) :
    (h.set o key v).2.Confined inside := by
  obtain refused | ⟨property, rfl, accepted⟩ := h.set_cases o key v
  · rw [refused]
    exact confined
  · rw [accepted]
    exact confined.define value

theorem alloc (confined : h.Confined inside) (fresh : record.Confined inside) :
    (h.alloc record).2.Confined inside := by
  intro p hp
  rw [object_alloc]
  split
  · exact fresh
  · exact confined p hp

end Confined

/-- The objects that can be got to, with all that are not yet there, are confined to themselves if
none that can be got to calls out. -/
theorem confined_reachable {roots : List ObjectId}
    (internal : ∀ o, h.Reachable roots o → ∀ index, (h.object o).behavior ≠ some (.external index)) :
    h.Confined fun o => h.Reachable roots o ∨ h.objects.size ≤ o.index := by
  rintro o (reached | absent)
  · exact ⟨fun p refers => .inl (.step reached refers), internal o reached⟩
  · have blank : h.object o = default := by rw [object, Array.getElem?_eq_none absent]; rfl
    rw [blank]
    exact .blank .ordinary fun p none => by cases none

end Heap

theorem Object.assign?_of_isFrozen (frozen : record.isFrozen = true) : record.assign? key v = none := by
  rw [isFrozen, Bool.and_eq_true, Bool.not_eq_true', List.all_eq_true] at frozen
  obtain ⟨closed, readOnly⟩ := frozen
  rw [assign?]
  split
  · rename_i property found
    obtain ⟨entry, first, rfl⟩ := Option.map_eq_some_iff.1 found
    have listed : entry.2 ∈ record.properties.values :=
      List.mem_map_of_mem (List.mem_of_find?_eq_some first)
    have fixed := readOnly _ listed
    rw [Bool.not_eq_true'] at fixed
    rw [if_neg (by rw [fixed]; exact Bool.false_ne_true)]
  · rw [if_neg (by rw [closed]; exact Bool.false_ne_true)]

theorem Object.isFrozen_freeze (record : Object) : record.freeze.isFrozen = true := by
  simp [isFrozen, freeze, OrderedMap.values, OrderedMap.mapValues]

/-- An object shows the own properties of a record, and is as extensible. -/
structure Heap.Shows (h : Heap) (o : ObjectId) (record : Object) : Prop where
  properties : (h.object o).properties = record.properties
  extensible : (h.object o).extensible = record.extensible

namespace Heap.Shows

variable {h : Heap} {o p : ObjectId}

theorem isFrozen (shows : h.Shows o record) : (h.object o).isFrozen = record.isFrozen := by
  rw [Object.isFrozen, Object.isFrozen, shows.properties, shows.extensible]

theorem housed (shows : h.Shows o record) (frozen : record.isFrozen = true) :
    o.index < h.objects.size := by
  by_contra absent
  rw [← shows.isFrozen, object, Array.getElem?_eq_none (Nat.le_of_not_lt absent)] at frozen
  cases frozen

theorem set (shows : h.Shows o record) (frozen : record.isFrozen = true) :
    (h.set p key v).2.Shows o record := by
  by_cases here : p = o
  · rw [← shows.isFrozen] at frozen
    rw [here, Heap.set, Object.assign?_of_isFrozen frozen]
    exact shows
  · have same := (h.sameBut_set p key v).elsewhere o (Ne.symm here)
    exact ⟨by rw [same, shows.properties], by rw [same, shows.extensible]⟩

theorem alloc (shows : h.Shows o record) (housed : o.index < h.objects.size) (new : Object) :
    (h.alloc new).2.Shows o record := by
  have same : (h.alloc new).2.object o = h.object o := by
    rw [object_alloc, if_neg (Nat.ne_of_lt housed)]
  exact ⟨by rw [same, shows.properties], by rw [same, shows.extensible]⟩

theorem modify (shows : h.Shows o record) {f : Object → Object}
    (kept : p = o → (f (h.object o)).properties = (h.object o).properties ∧
      (f (h.object o)).extensible = (h.object o).extensible) : (h.modify p f).Shows o record := by
  have same : ((h.modify p f).object o).properties = (h.object o).properties ∧
      ((h.modify p f).object o).extensible = (h.object o).extensible := by
    rw [object_modify]
    split
    · rename_i here
      exact kept here.1
    · exact ⟨rfl, rfl⟩
  exact ⟨by rw [same.1, shows.properties], by rw [same.2, shows.extensible]⟩

end Heap.Shows

end WebBindings
