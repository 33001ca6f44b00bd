import WebBindings.Proofs.Heap.Arrays
/-!
# Lengths of arrays

What writes make of an array. Elements and the length are properties that are written to independently, so an
element that is written at or beyond the length is stored, but no reader of the array gets to it.
-/

namespace WebBindings

namespace Heap

/-- What a change stores in an object: the value of a definition, or of a write that is accepted. -/
def Change.stores (o : ObjectId) (h : Heap) : Change → List (PropertyKey × Value)
  | .define p key property => if p = o then [(key, property.value)] else []
  | .set p key v => if p = o ∧ (h.set p key v).1 then [(key, v)] else []
  | .alloc _ | .freeze _ | .behave _ _ => []

/-- What changes store in an object, one after the other. -/
def stores (o : ObjectId) : Heap → List Change → List (PropertyKey × Value)
  | _, [] => []
  | h, c :: cs => c.stores o h ++ stores o (h.change c) cs

variable {h : Heap} {o : ObjectId} {m : OrderedMap PropertyKey Value}

theorem holds_change (housed : o.index < h.objects.size) (holds : (h.object o).Holds m) (c : Change) :
    ((h.change c).object o).Holds ((c.stores o h).foldl (fun m e => m.insert e.1 e.2) m) := by
  have kept : (h.change c).object o = c.on o (h.object o) := object_change housed c
  cases c with
  | alloc record =>
    rw [kept]
    exact holds
  | define p key property =>
    rw [kept, Change.on, Change.stores]
    split
    · exact holds.define key property
    · exact holds
  | set p key v =>
    by_cases here : p = o
    · subst here
      obtain refused | ⟨property, rfl, accepted⟩ := h.set_cases p key v
      · rw [Change.stores, change, refused]
        simpa using holds
      · rw [Change.stores, change, accepted, object_define, if_pos ⟨rfl, housed⟩]
        simpa using holds.define key property
    · rw [kept, Change.on, Change.stores, if_neg here, if_neg fun same => here same.1]
      exact holds
  | freeze p =>
    rw [kept, Change.on, Change.stores]
    split
    · exact holds.freeze
    · exact holds
  | behave p b =>
    rw [kept, Change.on, Change.stores]
    split <;> exact holds

/-- After a run of changes an object has for each key the value that was stored last. -/
theorem holds_changes (housed : o.index < h.objects.size) (holds : (h.object o).Holds m) (cs : List Change) :
    ((h.changes cs).object o).Holds ((stores o h cs).foldl (fun m e => m.insert e.1 e.2) m) := by
  induction cs generalizing h m with
  | nil => exact holds
  | cons c cs ih =>
    have still : o.index < (h.change c).objects.size := Nat.lt_of_lt_of_le housed (h.size_change c)
    rw [stores, List.foldl_append]
    exact ih still (holds_change housed holds c)

theorem holds_changes_newArray (h : Heap) (vs : List Value) (cs : List Change) :
    let made := h.newArray vs
    ((made.2.changes cs).object made.1).Holds
      (.ofList (arrayEntries vs ++ stores made.1 made.2 cs)) := by
  intro made
  have first : (made.2.object made.1).Holds (.ofList (arrayEntries vs)) := by
    have record : made.2.object made.1 = arrayRecord vs := h.object_alloc_self (arrayRecord vs)
    rw [record]
    exact arrayRecord_holds vs
  have housed : made.1.index < made.2.objects.size := h.housed_alloc (arrayRecord vs)
  rw [OrderedMap.ofList, List.foldl_append]
  exact holds_changes housed first cs

theorem indices_below_length_iff {vs : List Value} {stores : List (PropertyKey × Value)}
    (holds : (h.object o).Holds (.ofList (arrayEntries vs ++ stores)))
    (length : h.arrayLength o = vs.length) :
    (∀ k ∈ h.ownKeys o, ∀ n, k.IsIndex n → n < h.arrayLength o) ↔
      ∀ e ∈ stores, ∀ n, e.1.IsIndex n → n < vs.length := by
  have key (k : PropertyKey) : k ∈ h.ownKeys o ↔ k ∈ (arrayEntries vs ++ stores).map Prod.fst :=
    holds.mem_ownKeys.trans ((OrderedMap.remembers_ofList _).keys.mem k)
  rw [length]
  constructor
  · intro above e mem n index
    exact above e.1 ((key e.1).2 (List.mem_map_of_mem (List.mem_append_right _ mem))) n index
  · intro above k mem n index
    obtain ⟨e, given, rfl⟩ := List.mem_map.1 ((key k).1 mem)
    obtain first | stored := List.mem_append.1 given
    · obtain ⟨k, v⟩ := e
      obtain rfl : k = .ofIndex n := (PropertyKey.isIndex_iff.1 index).2
      exact (List.getElem?_eq_some_iff.1 (mem_arrayEntries_index.1 first)).1
    · exact above e stored n index

end Heap

/-- Whatever is done to an array, and to all other objects, it has for each key the value that was stored
last, by a definition or by a write that was accepted, and its length is told by the value of that name
alone. So an element is among those that are read just if it is stored below the length. As long as nothing
is stored as the length, that is the number of values that the array was made of, and it is greater than all
array indices among the own keys just if nothing was stored at such an index or at a greater one. -/
theorem stored_elements_show_below_length (h : Heap) (vs : List Value) (cs : List Heap.Change) :
    let made := h.newArray vs
    let later := made.2.changes cs
    let stores := Heap.stores made.1 made.2 cs
    let last := OrderedMap.ofList (Heap.arrayEntries vs ++ stores)
    (∀ k, (later.own? made.1 k).map Property.value = last.get? k) ∧
      (∃ length, last.get? (.ofText "length") = some length ∧ later.arrayLength made.1 = length.count) ∧
      (∀ n v, last.get? (.ofIndex n) = some v →
        (later.elements made.1)[n]? = if n < later.arrayLength made.1 then some v else none) ∧
      (vs.length ≤ 2 ^ 53 → (∀ e ∈ stores, e.1 ≠ .ofText "length") →
        later.arrayLength made.1 = vs.length ∧
          ((∀ k ∈ later.ownKeys made.1, ∀ n, k.IsIndex n → n < later.arrayLength made.1) ↔
            ∀ e ∈ stores, ∀ n, e.1.IsIndex n → n < vs.length)) := by
  intro made later stores last
  have holds : (later.object made.1).Holds last := Heap.holds_changes_newArray h vs cs
  have length : last.get? (.ofText "length") = some (later.get made.1 (.ofText "length")) := by
    obtain ⟨v, found⟩ : ∃ v, last.get? (.ofText "length") = some v := by
      rw [← OrderedMap.mem_keys, (OrderedMap.remembers_ofList _).keys.mem, List.map_append, List.mem_append]
      exact .inl (by simp [Heap.arrayEntries])
    rw [Heap.get_of_holds holds found, found]
  refine ⟨holds, ⟨_, length, later.arrayLength_eq made.1⟩, fun n v stored => ?_, fun small kept => ?_⟩
  · rw [Heap.getElem?_elements, Heap.get_of_holds holds stored]
  · have first : last.get? (.ofText "length") = some (.ofInt vs.length) := by
      refine (OrderedMap.remembers_ofList _).last
        (vs.zipIdx.map fun e => (.ofIndex e.2, e.1)) _ _ stores ?_ ?_
      · rw [Heap.arrayEntries, List.append_assoc]
        rfl
      · intro mem
        obtain ⟨e, stored, same⟩ := List.mem_map.1 mem
        exact kept e stored same
    have same : later.arrayLength made.1 = vs.length := by
      rw [later.arrayLength_eq, Heap.get_of_holds holds first, Value.count_ofInt small]
    exact ⟨same, Heap.indices_below_length_iff holds same⟩

/-- Writes to an array of two values, the last one after the array was frozen. -/
def writesWithin (a : ObjectId) : List Heap.Change :=
  [.set a (.ofIndex 1) (.ofText "c"), .set a (.ofText "01") .null, .freeze a,
    .set a (.ofIndex 2) (.ofText "d")]

/-- What is stored within the length is read. -/
theorem writes_within_length_are_read :
    let made := Heap.initial.newArray [.ofText "a", .ofText "b"]
    let later := made.2.changes (writesWithin made.1)
    let stores := Heap.stores made.1 made.2 (writesWithin made.1)
    (stores = [(.ofIndex 1, .ofText "c"), (.ofText "01", .null)] ∧
        ∀ e ∈ stores, e.1 ≠ .ofText "length") ∧
      later.arrayLength made.1 = 2 ∧ later.elements made.1 = [.ofText "a", .ofText "c"] ∧
      ∀ k ∈ later.ownKeys made.1, ∀ n, k.IsIndex n → n < later.arrayLength made.1 := by
  intro made later stores
  have written : stores = [(.ofIndex 1, .ofText "c"), (.ofText "01", .null)] := by decide +kernel
  have kept : ∀ e ∈ stores, e.1 ≠ .ofText "length" := by
    rw [written]
    decide
  have one : (PropertyKey.ofIndex 1).arrayIndex? = some 1 := by decide +kernel
  have name : (PropertyKey.ofText "01").arrayIndex? = none := by decide +kernel
  have within : ∀ e ∈ stores, ∀ n, e.1.IsIndex n → n < 2 := by
    rw [written]
    intro e mem n index
    rw [← PropertyKey.arrayIndex?_eq_some_iff] at index
    obtain rfl | mem := List.mem_cons.1 mem
    · obtain rfl := Option.some.inj (one.symm.trans index)
      decide
    · obtain rfl := List.mem_singleton.1 mem
      exact absurd (name.symm.trans index) nofun
  obtain ⟨-, -, -, unwritten⟩ :=
    stored_elements_show_below_length Heap.initial [.ofText "a", .ofText "b"] (writesWithin made.1)
  obtain ⟨length, below⟩ := unwritten (by decide) kept
  exact ⟨⟨written, kept⟩, length, by decide +kernel, below.2 within⟩

/-- A write that is accepted right behind the elements of an array stores an element that no reader of the
array gets to. -/
theorem write_at_length_is_missed :
    let made := Heap.initial.newArray [.ofText "a"]
    let later := made.2.changes [.set made.1 (.ofIndex 1) (.ofText "b")]
    (made.2.set made.1 (.ofIndex 1) (.ofText "b")).1 = true ∧
      .ofIndex 1 ∈ later.ownKeys made.1 ∧ (PropertyKey.ofIndex 1).IsIndex 1 ∧
      ¬ 1 < later.arrayLength made.1 ∧ later.get made.1 (.ofIndex 1) = .ofText "b" ∧
      later.elements made.1 = [.ofText "a"] := by
  intro made later
  refine ⟨by decide +kernel, ?_, PropertyKey.arrayIndex?_eq_some_iff.1 (by decide +kernel), by decide +kernel,
    by decide +kernel, by decide +kernel⟩
  rw [Heap.ownKeys, Object.ownKeys, PropertyKey.mem_enumerationOrder]
  decide +kernel

end WebBindings
