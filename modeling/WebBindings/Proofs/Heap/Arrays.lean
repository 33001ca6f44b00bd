import WebBindings.Proofs.Heap.Changes
import WebBindings.Proofs.Heap.Keys
import WebBindings.Proofs.Number.Integral
import WebBindings.Proofs.OrderedMap
/-!
# What arrays hold

The values of an object's own properties as a map that is written to, and an array as such a map: its
elements at their indices, and the length.
-/

namespace WebBindings

/-- The number of elements that the value of a `length` stands for. -/
def Value.count : Value → Nat
  | .number x => min (x.truncate?.getD 0).toNat Heap.maxArrayLength
  | _ => 0

/-- No number up to `2 ^ 53` is rounded. -/
theorem Double.truncate?_ofInt {n : Nat} (small : n ≤ 2 ^ 53) : (ofInt n).truncate? = some (n : Int) := by
  have hvalue : (ofInt n).toRat? = some ((n : ℤ) : ℚ) := by
    obtain less | rfl := Nat.lt_or_eq_of_le small
    · exact toRat?_ofInt_of_lt less
    · exact toRat?_ofInt (s := 1) (e := 53) rfl (by norm_num) (by norm_num)
  rw [truncate?_eq, hvalue, Option.map_some, wholePart_intCast]

theorem Value.count_ofInt {n : Nat} (small : n ≤ 2 ^ 53) : (ofInt n).count = n := by
  rw [ofInt, count, Double.truncate?_ofInt small, Option.getD_some, Int.toNat_natCast, Heap.maxArrayLength]
  omega

namespace PropertyKey

theorem ofIndex_inj {m n : Nat} : ofIndex m = ofIndex n ↔ m = n := by
  constructor
  · intro same
    obtain ⟨s, hs, decimal⟩ := ofIndex_isDecimal m
    obtain ⟨t, ht, decimal'⟩ := ofIndex_isDecimal n
    rw [hs, ht, PropertyKey.string.injEq] at same
    subst same
    rw [← decimal.value, decimal'.value]
  · rintro rfl
    rfl

theorem ofIndex_ne_length (n : Nat) : ofIndex n ≠ ofText "length" := by
  intro same
  obtain ⟨s, hs, decimal⟩ := ofIndex_isDecimal n
  rw [hs, ofText, PropertyKey.string.injEq] at same
  subst same
  have letter := decimal.digits 108 (by decide)
  exact absurd letter.2 (by decide)

end PropertyKey

/-- The values of an object's own properties. -/
def Object.Holds (record : Object) (m : OrderedMap PropertyKey Value) : Prop :=
  ∀ k, (record.properties.get? k).map Property.value = m.get? k

namespace Object.Holds

variable {record : Object} {m : OrderedMap PropertyKey Value}

theorem define (holds : record.Holds m) (key : PropertyKey) (p : Property) :
    (record.define key p).Holds (m.insert key p.value) := by
  intro k
  rw [Object.define]
  by_cases here : k = key
  · rw [here, OrderedMap.get?_insert_self, OrderedMap.get?_insert_self]
    rfl
  · rw [OrderedMap.get?_insert_of_ne _ _ here, OrderedMap.get?_insert_of_ne _ _ here, holds]

theorem freeze (holds : record.Holds m) : record.freeze.Holds m := by
  intro k
  rw [Object.freeze, OrderedMap.get?_mapValues, Option.map_map, ← holds]
  rfl

theorem mem_ownKeys (holds : record.Holds m) {k : PropertyKey} : k ∈ record.ownKeys ↔ k ∈ m.keys := by
  rw [Object.ownKeys, PropertyKey.mem_enumerationOrder, OrderedMap.mem_keys, OrderedMap.mem_keys]
  simp only [← holds k, Option.map_eq_some_iff, exists_comm (α := Value), exists_eq_right']

end Object.Holds

namespace Heap

/-- What a new array is given: the values at their indices, then the length. -/
def arrayEntries (vs : List Value) : List (PropertyKey × Value) :=
  (vs.zipIdx.map fun e => (.ofIndex e.2, e.1)) ++ [(.ofText "length", .ofInt vs.length)]

variable {vs : List Value} {v : Value} {n : Nat}

theorem mem_arrayEntries_index : (.ofIndex n, v) ∈ arrayEntries vs ↔ vs[n]? = some v := by
  simp [arrayEntries, PropertyKey.ofIndex_inj, PropertyKey.ofIndex_ne_length, List.mem_zipIdx_iff_getElem?]

theorem arrayEntries_nodup (vs : List Value) : ((arrayEntries vs).map Prod.fst).Nodup := by
  have indices : (vs.zipIdx.map fun e => PropertyKey.ofIndex e.2).Nodup := by
    have places : (vs.zipIdx.map Prod.snd).Nodup := by
      rw [List.zipIdx_map_snd]
      exact List.nodup_range'
    have keys := places.map fun m n => PropertyKey.ofIndex_inj.1
    rwa [List.map_map] at keys
  rw [arrayEntries, List.map_append, List.map_map, List.nodup_append]
  refine ⟨indices, List.nodup_singleton _, fun a ha b hb => ?_⟩
  obtain ⟨e, -, rfl⟩ := List.mem_map.1 ha
  rw [List.map_singleton, List.mem_singleton] at hb
  rw [hb]
  exact PropertyKey.ofIndex_ne_length e.2

theorem get?_arrayEntries_index (vs : List Value) (n : Nat) :
    (OrderedMap.ofList (arrayEntries vs)).get? (.ofIndex n) = vs[n]? := by
  ext v
  rw [OrderedMap.get?_ofList (arrayEntries_nodup vs), mem_arrayEntries_index]

theorem get?_arrayEntries_length (vs : List Value) :
    (OrderedMap.ofList (arrayEntries vs)).get? (.ofText "length") = some (.ofInt vs.length) := by
  rw [OrderedMap.get?_ofList (arrayEntries_nodup vs), arrayEntries, List.mem_append]
  exact .inr List.mem_cons_self

/-- The record of a new array. -/
def arrayRecord (vs : List Value) : Object :=
  let filled := vs.zipIdx.foldl (fun record e => record.define (.ofIndex e.2) (.data e.1))
    (Object.blank .array (some arrayPrototype))
  filled.define (.ofText "length") (.hidden (.ofInt vs.length))

theorem newArray_eq (h : Heap) (vs : List Value) : h.newArray vs = h.alloc (arrayRecord vs) := rfl

theorem holds_foldl_define {record : Object} {m : OrderedMap PropertyKey Value} (holds : record.Holds m)
    (es : List (Value × Nat)) :
    (es.foldl (fun record e => record.define (.ofIndex e.2) (.data e.1)) record).Holds
      ((es.map fun e => (PropertyKey.ofIndex e.2, e.1)).foldl (fun m e => m.insert e.1 e.2) m) := by
  induction es generalizing record m with
  | nil => exact holds
  | cons e es ih => exact ih (holds.define (.ofIndex e.2) (.data e.1))

theorem arrayRecord_holds (vs : List Value) : (arrayRecord vs).Holds (.ofList (arrayEntries vs)) := by
  have blank : (Object.blank .array (some arrayPrototype)).Holds .empty := fun k => rfl
  have filled := (holds_foldl_define blank vs.zipIdx).define (.ofText "length") (.hidden (.ofInt vs.length))
  rw [arrayEntries, OrderedMap.ofList, List.foldl_append]
  exact filled

variable {h : Heap} {o : ObjectId} {m : OrderedMap PropertyKey Value} {k : PropertyKey}

theorem arrayLength_eq (h : Heap) (o : ObjectId) : h.arrayLength o = (h.get o (.ofText "length")).count := by
  rw [arrayLength, getText]
  cases h.get o (.ofText "length") <;> rfl

theorem getElem?_elements (h : Heap) (o : ObjectId) (n : Nat) :
    (h.elements o)[n]? = if n < h.arrayLength o then some (h.get o (.ofIndex n)) else none := by
  rw [elements, List.getElem?_map]
  split
  · rename_i below
    rw [List.getElem?_range below]
    rfl
  · rename_i beyond
    rw [List.getElem?_eq_none (by rw [List.length_range]; omega)]
    rfl

theorem get_of_holds (holds : (h.object o).Holds m) (found : m.get? k = some v) : h.get o k = v := by
  rw [← holds k, Option.map_eq_some_iff] at found
  obtain ⟨p, own, rfl⟩ := found
  exact get_eq_of_finds ⟨0, .own own⟩

/-- The elements of an array are given values, if the number that is kept as its length is their number. That
is no question up to `2 ^ 53`, where numbers begin to be rounded. -/
structure IsArrayOf (h : Heap) (a : ObjectId) (vs : List Value) : Prop where
  length : h.arrayLength a = (Value.ofInt vs.length).count
  elements_iff : h.elements a = vs ↔ (Value.ofInt vs.length).count = vs.length
  elements : vs.length ≤ 2 ^ 53 → h.elements a = vs

theorem isArrayOf_of_holds (holds : (h.object o).Holds (.ofList (arrayEntries vs))) : h.IsArrayOf o vs := by
  have length : h.arrayLength o = (Value.ofInt vs.length).count := by
    rw [arrayLength_eq, get_of_holds holds (get?_arrayEntries_length vs)]
  have exact : h.elements o = vs ↔ (Value.ofInt vs.length).count = vs.length := by
    constructor
    · intro same
      rw [← length]
      simpa [elements] using congrArg List.length same
    · intro counted
      ext n v
      rw [getElem?_elements, length, counted]
      split
      · rename_i below
        rw [get_of_holds holds ((get?_arrayEntries_index vs n).trans (List.getElem?_eq_getElem below)),
          List.getElem?_eq_getElem below]
      · rename_i beyond
        rw [List.getElem?_eq_none (Nat.le_of_not_lt beyond)]
  exact ⟨length, exact, fun small => exact.2 (Value.count_ofInt small)⟩

end Heap

end WebBindings
