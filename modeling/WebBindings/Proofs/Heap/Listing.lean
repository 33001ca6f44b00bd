import WebBindings.Proofs.Heap.Changes
import WebBindings.Proofs.Heap.Keys
import WebBindings.Proofs.OrderedMap
/-!
# Listing own keys

The own keys of an object in the order in which they are listed, told by the changes that the object went
through. A key has its place from when it was given first; writing it again never moves it.
-/

namespace WebBindings

namespace Heap

/-- The key that a change gives to an object. A write gives none to an object that is closed to new keys: it
is refused, or the key is known. -/
def Change.insertion (o : ObjectId) (extensible : Bool) : Change → List PropertyKey
  | .define p key _ => if p = o then [key] else []
  | .set p key _ => if p = o ∧ extensible then [key] else []
  | _ => []

def Change.closes (o : ObjectId) : Change → Bool
  | .freeze p => p = o
  | _ => false

/-- The keys that changes give to an object, in order. -/
def insertions (o : ObjectId) : (extensible : Bool) → List Change → List PropertyKey
  | _, [] => []
  | extensible, c :: cs => c.insertion o extensible ++ insertions o (extensible && !c.closes o) cs

end Heap

namespace Object

variable {o : ObjectId} {record : Object} {given : List PropertyKey}

theorem extensible_assign (record : Object) (key : PropertyKey) (v : Value) :
    ((record.assign? key v).getD record).extensible = record.extensible := by
  obtain ⟨properties, made⟩ := record.exists_assign key v
  rw [made]

theorem keysFrom_assign (keys : record.properties.KeysFrom given) (key : PropertyKey) (v : Value) :
    ((record.assign? key v).getD record).properties.KeysFrom
      (given ++ if record.extensible then [key] else []) := by
  have old {p : Property} (found : record.properties.get? key = some p) : key ∈ given := by
    rw [← keys.mem, OrderedMap.mem_keys]
    exact ⟨p, found⟩
  have assigned := record.assigned key v
  generalize record.assign? key v = made at assigned
  cases assigned with
  | readOnly found fixed =>
    split
    · exact keys.again (old found)
    · rwa [List.append_nil]
  | closed missing closed => rwa [if_neg (Bool.eq_false_iff.1 closed), List.append_nil]
  | replaced found writable =>
    split
    · exact keys.insert key _
    · rw [List.append_nil]
      exact keys.insert_known (old found) _
  | added missing extensible =>
    rw [if_pos extensible]
    exact keys.insert key _

theorem keysFrom_change (o : ObjectId) (keys : record.properties.KeysFrom given) (c : Heap.Change) :
    (c.on o record).properties.KeysFrom (given ++ c.insertion o record.extensible) := by
  cases c with
  | alloc made =>
    simp only [Heap.Change.on, Heap.Change.insertion, List.append_nil]
    exact keys
  | define p key property =>
    simp only [Heap.Change.on, Heap.Change.insertion]
    by_cases here : p = o
    · rw [if_pos here, if_pos here]
      exact keys.insert key property
    · rwa [if_neg here, if_neg here, List.append_nil]
  | set p key v =>
    simp only [Heap.Change.on, Heap.Change.insertion]
    by_cases here : p = o
    · simp only [here, true_and, if_true]
      exact keysFrom_assign keys key v
    · rwa [if_neg here, if_neg fun same => here same.1, List.append_nil]
  | freeze p =>
    simp only [Heap.Change.on, Heap.Change.insertion, List.append_nil]
    split
    · exact keys.of_keys (OrderedMap.keys_mapValues _ _)
    · exact keys
  | behave p b =>
    simp only [Heap.Change.on, Heap.Change.insertion, List.append_nil]
    split
    · exact keys
    · exact keys

theorem extensible_change (o : ObjectId) (record : Object) (c : Heap.Change) :
    (c.on o record).extensible = (record.extensible && !c.closes o) := by
  cases c with
  | alloc made => simp [Heap.Change.on, Heap.Change.closes]
  | define p key property =>
    simp only [Heap.Change.on, Heap.Change.closes, Bool.not_false, Bool.and_true]
    split <;> rfl
  | set p key v =>
    simp only [Heap.Change.on, Heap.Change.closes, Bool.not_false, Bool.and_true]
    split
    · exact extensible_assign record key v
    · rfl
  | freeze p =>
    simp only [Heap.Change.on, Heap.Change.closes]
    by_cases here : p = o
    · simp [here, freeze]
    · simp [here]
  | behave p b =>
    simp only [Heap.Change.on, Heap.Change.closes, Bool.not_false, Bool.and_true]
    split <;> rfl

/-- After a run of changes the own keys of an object are those that it had, and those that the run gave it. -/
theorem keysFrom_changes (o : ObjectId) (keys : record.properties.KeysFrom given) (cs : List Heap.Change) :
    (cs.foldl (Heap.Change.on o) record).properties.KeysFrom
      (given ++ Heap.insertions o record.extensible cs) := by
  induction cs generalizing record given with
  | nil => rwa [Heap.insertions, List.append_nil]
  | cons c cs ih =>
    have later := ih (keysFrom_change o keys c)
    rw [extensible_change, List.append_assoc] at later
    exact later

theorem mem_ownKeys {k : PropertyKey} : k ∈ record.ownKeys ↔ (record.properties.get? k).isSome = true := by
  rw [ownKeys, PropertyKey.mem_enumerationOrder, OrderedMap.mem_keys, Option.isSome_iff_exists]

end Object

/-- However an object was changed since it was made, its own keys are listed once each and nothing else is:
the array indices ascending, then the other strings, then the symbols, the latter two in the order in which
the object got them first. A key is an array index just when it is the decimal text of a number below
`2 ^ 32 - 1`, and different keys are the texts of different numbers. -/
theorem own_keys_are_listed_in_order (h : Heap) (record : Object) (cs : List Heap.Change) :
    let o := (h.alloc record).1
    let later := (h.alloc record).2.changes cs
    let given := record.properties.keys ++ Heap.insertions o record.extensible cs
    (later.ownKeys o).Nodup ∧
      (∀ k, k ∈ later.ownKeys o ↔ (later.own? o k).isSome = true) ∧
      (∀ k, k ∈ later.ownKeys o ↔ k ∈ given) ∧
      (later.ownKeys o).Pairwise (PropertyKey.Precedes given) ∧
      (∀ (k : PropertyKey) n, k.arrayIndex? = some n ↔ k.IsIndex n) ∧
      ∀ (a b : PropertyKey) m n, a.IsIndex m → b.IsIndex n → a ≠ b → m ≠ n := by
  intro o later given
  have made : later.object o = cs.foldl (Heap.Change.on o) record := h.object_changes_alloc record cs
  have keys : (later.object o).properties.KeysFrom given := by
    rw [made]
    exact Object.keysFrom_changes o (.self record.properties) cs
  have ordered : (later.ownKeys o).Pairwise (PropertyKey.Precedes given) :=
    PropertyKey.enumerationOrder_pairwise keys.ordered
  refine ⟨ordered.imp PropertyKey.Precedes.ne, fun k => Object.mem_ownKeys, fun k => ?_, ordered,
    fun k n => PropertyKey.arrayIndex?_eq_some_iff, fun a b m n ha hb different same => ?_⟩
  · rw [← keys.mem]
    exact PropertyKey.mem_enumerationOrder
  · exact different ((ha.eq_iff hb).2 same)

/-- Changes of an object that was just made: keys that look like numbers, a key that is written twice, a
symbol, and after freezing a write that is refused and two definitions that are not. -/
def mixedChanges (o : ObjectId) : List Heap.Change :=
  [.set o (.ofText "b") .null, .set o (.ofText "10") .null, .set o (.symbol .iterator) .null,
    .set o (.ofText "9") .null, .set o (.ofText "01") .null, .set o (.ofText "4294967295") .null,
    .set o (.ofText "b") .undefined, .freeze o, .set o (.ofText "a") .null,
    .define o (.ofText "0") (.data .null), .define o (.ofText "b") (.data .null)]

/-- Such an object lists its keys in an order that is not the order in which it got them. -/
theorem mixed_keys_are_listed :
    let made := Heap.initial.alloc (.blank .ordinary none)
    let later := made.2.changes (mixedChanges made.1)
    let nine := PropertyKey.ofText "9"
    let ten := PropertyKey.ofText "10"
    (nine.IsIndex 9 ∧ ten.IsIndex 10 ∧ nine ≠ ten ∧ 9 ≠ 10) ∧
      later.ownKeys made.1 = [.ofText "0", nine, ten, .ofText "b", .ofText "01", .ofText "4294967295",
        .symbol .iterator] ∧
      (later.ownKeys made.1).Pairwise (PropertyKey.Precedes [.ofText "b", ten, .symbol .iterator, nine,
        .ofText "01", .ofText "4294967295", .ofText "b", .ofText "0", .ofText "b"]) := by
  intro made later nine ten
  obtain ⟨-, -, -, ordered, index, distinct⟩ :=
    own_keys_are_listed_in_order Heap.initial (.blank .ordinary none) (mixedChanges made.1)
  have hnine : nine.IsIndex 9 := (index nine 9).1 (by decide +kernel)
  have hten : ten.IsIndex 10 := (index ten 10).1 (by decide +kernel)
  have different : nine ≠ ten := by decide +kernel
  have listed : PropertyKey.indices (later.object made.1).properties.keys = [.ofText "0", nine, ten] :=
    PropertyKey.indices_eq (l := [(0, .ofText "0"), (9, nine), (10, ten)]) (by decide +kernel)
      (by decide +kernel)
  refine ⟨⟨hnine, hten, different, distinct nine ten 9 10 hnine hten different⟩, ?_, ordered⟩
  rw [Heap.ownKeys, Object.ownKeys, PropertyKey.enumerationOrder_eq, listed]
  decide +kernel

end WebBindings
