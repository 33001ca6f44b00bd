import WebBindings.Proofs.Heap.Changes
import WebBindings.Proofs.OrderedMap
/-!
# Heaps that grow

Objects are made while others are read from. What an object reads stays the same as long as the own
properties of the objects that it inherits from do, and what a frozen object holds stays for good.
-/

namespace WebBindings

namespace Heap

variable {h h' : Heap} {o : ObjectId} {key : PropertyKey}

/-- An object and all that it inherits from are in the heap. -/
def Houses (h : Heap) (o : ObjectId) : Prop := ∀ p, h.Inherits o p → p.index < h.objects.size

theorem houses_of_prototypes (housed : o.index < h.objects.size)
    (prototypes : ∀ n < h.objects.size, (h.object ⟨n⟩).prototype.all (·.index < h.objects.size) = true) :
    h.Houses o := by
  intro p inherits
  obtain rfl | ⟨q, -, prototype⟩ := Relation.ReflTransGen.cases_tail inherits
  · exact housed
  · have inside := prototypes q.index (housed_of_prototype prototype)
    rw [prototype] at inside
    exact of_decide_eq_true inside

/-- Objects stay, with their prototypes. -/
structure Evolves (h h' : Heap) : Prop where
  size : h.objects.size ≤ h'.objects.size
  prototype : ∀ p, p.index < h.objects.size → (h'.object p).prototype = (h.object p).prototype

theorem evolves_change (h : Heap) (c : Change) : h.Evolves (h.change c) where
  size := h.size_change c
  prototype p housed := by
    rw [object_change housed]
    cases c with
    | alloc record => rfl
    | define q key property | freeze q | behave q b =>
      rw [Change.on]
      split <;> rfl
    | set q key v =>
      rw [Change.on]
      split
      · obtain ⟨properties, made⟩ := (h.object p).exists_assign key v
        rw [made]
      · rfl

theorem Evolves.trans {h'' : Heap} (first : h.Evolves h') (second : h'.Evolves h'') : h.Evolves h'' where
  size := Nat.le_trans first.size second.size
  prototype p housed :=
    (second.prototype p (Nat.lt_of_lt_of_le housed first.size)).trans (first.prototype p housed)

theorem evolves_changes (h : Heap) (cs : List Change) : h.Evolves (h.changes cs) := by
  induction cs generalizing h with
  | nil => exact ⟨Nat.le_refl _, fun _ _ => rfl⟩
  | cons c cs ih => exact (h.evolves_change c).trans (ih (h.change c))

theorem Evolves.inherits_iff (evolves : h.Evolves h') (houses : h.Houses o) {p : ObjectId} :
    h'.Inherits o p ↔ h.Inherits o p := by
  constructor
  · intro inherits
    induction inherits with
    | refl => exact .refl
    | tail _ step ih => exact ih.tail ((evolves.prototype _ (houses _ ih)).symm.trans step)
  · intro inherits
    induction inherits with
    | refl => exact .refl
    | tail first step ih => exact ih.tail ((evolves.prototype _ (houses _ first)).trans step)

theorem Evolves.houses (evolves : h.Evolves h') (houses : h.Houses o) : h'.Houses o := fun p inherits =>
  Nat.lt_of_lt_of_le (houses p ((evolves.inherits_iff houses).1 inherits)) evolves.size

theorem FindsAfter.transfer {n : Nat} {property : Property} (finds : h.FindsAfter key n o property)
    (same : ∀ p, h.Inherits o p → h'.own? p key = h.own? p key ∧
      (h'.object p).prototype = (h.object p).prototype) : h'.FindsAfter key n o property := by
  induction finds with
  | own found => exact .own ((same _ .refl).1.trans found)
  | inherited missing prototype _ ih =>
    refine .inherited ((same _ .refl).1.trans missing) ((same _ .refl).2.trans prototype) ?_
    exact ih fun p inherits => same p (.head prototype inherits)

theorem Evolves.get_eq (evolves : h.Evolves h') (houses : h.Houses o)
    (own : ∀ p, h.Inherits o p → h'.own? p key = h.own? p key) : h'.get o key = h.get o key := by
  have finds (property : Property) : h'.Finds key o property ↔ h.Finds key o property := by
    constructor
    · rintro ⟨n, found⟩
      refine ⟨n, found.transfer fun p inherits => ?_⟩
      have inherited := (evolves.inherits_iff houses).1 inherits
      exact ⟨(own p inherited).symm, (evolves.prototype p (houses p inherited)).symm⟩
    · rintro ⟨n, found⟩
      exact ⟨n, found.transfer fun p inherits => ⟨own p inherits, evolves.prototype p (houses p inherits)⟩⟩
  by_cases found : ∃ property, h.Finds key o property
  · obtain ⟨property, found⟩ := found
    rw [get_eq_of_finds found, get_eq_of_finds ((finds property).2 found)]
  · have missing := not_exists.1 found
    rw [get_eq_of_missing missing, get_eq_of_missing fun property => mt (finds property).1 (missing property)]

theorem Evolves.elements_eq (evolves : h.Evolves h') (houses : h.Houses o)
    (kept : ∀ p, h.Inherits o p → (h'.object p).properties = (h.object p).properties) :
    h'.elements o = h.elements o := by
  have reads (key : PropertyKey) : h'.get o key = h.get o key :=
    evolves.get_eq houses fun p inherits => congrArg (OrderedMap.get? · key) (kept p inherits)
  have length : h'.arrayLength o = h.arrayLength o := by
    rw [arrayLength, arrayLength, getText, getText, reads]
  rw [elements, elements, length]
  exact List.map_congr_left fun n _ => reads _

variable {record : Object} {v : Value}

theorem modify_alloc (h : Heap) (record : Object) (f : Object → Object) :
    (h.alloc record).2.modify (h.alloc record).1 f = (h.alloc (f record)).2 := by
  refine congrArg Heap.mk (Array.ext (by simp [alloc]) fun n below _ => ?_)
  simp only [alloc, Array.getElem_modify, Array.getElem_push]
  by_cases last : h.objects.size = n
  · subst last
    simp
  · have older : n < h.objects.size := by
      simp only [alloc, Array.size_modify, Array.size_push] at below
      omega
    simp [last, older]

theorem set_alloc (h : Heap) {made : Object} (accepted : record.assign? key v = some made) :
    ((h.alloc record).2.set (h.alloc record).1 key v).2 = (h.alloc made).2 := by
  rw [set, object_alloc_self, accepted]
  exact h.modify_alloc record fun _ => made

end Heap

/-- An object that gets no new keys, and the property that it has for a key, which cannot be written. -/
structure Object.Keeps (record : Object) (key : PropertyKey) (kept : Option Property) : Prop where
  closed : record.extensible = false
  own : record.properties.get? key = kept
  fixed : ∀ p, kept = some p → p.writable = false

namespace Object.Keeps

variable {record : Object} {key : PropertyKey} {kept : Option Property}

theorem freeze (record : Object) (key : PropertyKey) :
    record.freeze.Keeps key (record.freeze.properties.get? key) where
  closed := rfl
  own := rfl
  fixed p found := by
    rw [Object.freeze, OrderedMap.get?_mapValues, Option.map_eq_some_iff] at found
    obtain ⟨q, -, rfl⟩ := found
    rfl

theorem refuses (keeps : record.Keeps key kept) (v : Value) : record.assign? key v = none := by
  have assigned := record.assigned key v
  generalize record.assign? key v = made at assigned
  cases assigned with
  | readOnly | closed => rfl
  | replaced found writable =>
    rw [keeps.fixed _ (keeps.own.symm.trans found)] at writable
    cases writable
  | added _ extensible =>
    rw [keeps.closed] at extensible
    cases extensible

theorem define (keeps : record.Keeps key kept) {k : PropertyKey} (other : k ≠ key) (p : Property) :
    (record.define k p).Keeps key kept :=
  ⟨keeps.closed, (OrderedMap.get?_insert_of_ne _ _ (Ne.symm other)).trans keeps.own, keeps.fixed⟩

theorem assign (keeps : record.Keeps key kept) (k : PropertyKey) (v : Value) :
    ((record.assign? k v).getD record).Keeps key kept := by
  by_cases same : k = key
  · rw [same, keeps.refuses]
    exact keeps
  · have assigned := record.assigned k v
    generalize record.assign? k v = made at assigned
    cases assigned with
    | readOnly | closed => exact keeps
    | replaced | added => exact keeps.define same _

theorem change (keeps : record.Keeps key kept) (o : ObjectId) (c : Heap.Change)
    (untouched : ∀ p, c ≠ .define o key p) : (c.on o record).Keeps key kept := by
  cases c with
  | alloc made => exact keeps
  | define q k p =>
    rw [Heap.Change.on]
    split
    · rename_i here
      exact keeps.define (fun same => untouched p (by rw [here, same])) p
    · exact keeps
  | set q k v =>
    rw [Heap.Change.on]
    split
    · exact keeps.assign k v
    · exact keeps
  | freeze q =>
    rw [Heap.Change.on]
    split
    · refine ⟨rfl, ?_, keeps.fixed⟩
      rw [Object.freeze, OrderedMap.get?_mapValues, keeps.own]
      cases found : kept with
      | none => rfl
      | some p =>
        have fixed := keeps.fixed p found
        cases p
        cases fixed
        rfl
    · exact keeps
  | behave q b =>
    rw [Heap.Change.on]
    split
    · exact ⟨keeps.closed, keeps.own, keeps.fixed⟩
    · exact keeps

theorem changes (keeps : record.Keeps key kept) (o : ObjectId) (cs : List Heap.Change)
    (untouched : ∀ p, .define o key p ∉ cs) : (cs.foldl (Heap.Change.on o) record).Keeps key kept := by
  induction cs generalizing record with
  | nil => exact keeps
  | cons c cs ih =>
    refine ih (keeps.change o c fun p same => ?_) fun p mem => untouched p (List.mem_cons_of_mem c mem)
    exact untouched p (same ▸ List.mem_cons_self)

end Object.Keeps

/-- A frozen object keeps its properties and refuses to be written to, whatever is done, except under keys
that are defined anew. -/
theorem Heap.closed_changes {h : Heap} {o : ObjectId} {key : PropertyKey} {kept : Option Property}
    (housed : o.index < h.objects.size) (keeps : (h.object o).Keeps key kept) (cs : List Change)
    (untouched : ∀ p, .define o key p ∉ cs) :
    (h.changes cs).own? o key = kept ∧ ∀ v, (h.changes cs).set o key v = (false, h.changes cs) := by
  have later := keeps.changes o cs untouched
  rw [← object_changes housed] at later
  refine ⟨later.own, fun v => ?_⟩
  rw [set, later.refuses]

end WebBindings
