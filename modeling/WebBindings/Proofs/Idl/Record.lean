import WebBindings.Idl.Collection
import WebBindings.Idl.Text
import WebBindings.Proofs.Heap.Inheritance
import WebBindings.Proofs.Heap.Keys
import WebBindings.Proofs.Motion
import WebBindings.Proofs.OrderedMap
import WebBindings.Proofs.Script.Freezing
/-!
# Records

A record is made of the own enumerable properties of an object that have strings as keys, taken in the
order in which own keys are listed. Where keys become equal, the first one has the place and the last one
the value.
-/

namespace WebBindings

variable {σ κ α : Type}

/-- What a property gives to a record: its name and value, if it is enumerable and no symbol. -/
def Object.pair? (record : Object) : PropertyKey → Option (DOMString × Value)
  | .symbol _ => none
  | .string name =>
    ((record.properties.get? (.string name)).filter Property.enumerable).map fun p => (name, p.value)

/-- The own enumerable properties of an object that have strings as keys, in the order of its own keys. -/
def Heap.entries (h : Heap) (o : ObjectId) : List (DOMString × Value) :=
  (h.ownKeys o).filterMap (h.object o).pair?

/-- The own properties of an object are the same in two worlds. -/
def World.SameProperties (o : ObjectId) (w w' : World σ) : Prop :=
  (w'.heap.object o).properties = (w.heap.object o).properties

section Conversion

variable (host : Host σ) (convertKey : Value → Script σ κ) (convert : Value → Script σ α) (o : ObjectId)

/-- Convert a name and then a value. -/
def convertEntry (e : DOMString × Value) : Script σ (κ × α) := do
  let key ← convertKey (.string e.1)
  let value ← convert e.2
  return (key, value)

/-- The conversions of entries, one after the other, do not modify an object. -/
def Unmodified : List (DOMString × Value) → World σ → Prop
  | [], _ => True
  | e :: rest, w => ∀ key w₁, outcome host (convertKey (.string e.1)).run w = (.ok key, w₁) →
      w.SameProperties o w₁ ∧ ∀ value w₂, outcome host (convert e.2).run w₁ = (.ok value, w₂) →
        w₁.SameProperties o w₂ ∧ Unmodified rest w₂

end Conversion

variable {host : Host σ} {convertKey : Value → Script σ κ} {convert : Value → Script σ α} {o : ObjectId}
  {record : Object} {key : PropertyKey} {name : DOMString} {v : Value} {h : Heap} {w w' : World σ}

theorem Object.pair?_eq_some_iff : record.pair? key = some (name, v) ↔ key = .string name ∧
    ∃ p, record.properties.get? key = some p ∧ p.enumerable = true ∧ p.value = v := by
  cases key with
  | symbol s =>
    constructor
    · nofun
    · nofun
  | string s =>
    simp only [pair?, Option.map_eq_some_iff, Option.filter_eq_some_iff, Prod.mk.injEq,
      PropertyKey.string.injEq]
    constructor
    · rintro ⟨p, ⟨found, enumerable⟩, rfl, rfl⟩
      exact ⟨rfl, p, found, enumerable, rfl⟩
    · rintro ⟨rfl, p, found, enumerable, rfl⟩
      exact ⟨p, ⟨found, enumerable⟩, rfl, rfl⟩

theorem Object.pair?_congr {other : Object} (same : other.properties = record.properties) :
    other.pair? = record.pair? := by
  funext key
  cases key with
  | symbol s => rfl
  | string s => rw [pair?, pair?, same]

theorem Heap.mem_entries : (name, v) ∈ h.entries o ↔
    ∃ p, h.own? o (.string name) = some p ∧ p.enumerable = true ∧ p.value = v := by
  simp only [entries, List.mem_filterMap, Object.pair?_eq_some_iff]
  constructor
  · rintro ⟨_, -, rfl, p, found, enumerable, value⟩
    exact ⟨p, found, enumerable, value⟩
  · rintro ⟨p, found, enumerable, value⟩
    refine ⟨_, ?_, rfl, p, found, enumerable, value⟩
    exact PropertyKey.mem_enumerationOrder.2 (OrderedMap.mem_keys.2 ⟨p, found⟩)

theorem Heap.entries_pairwise (h : Heap) (o : ObjectId) : (h.entries o).Pairwise fun a b =>
    PropertyKey.Precedes (h.object o).properties.keys (.string a.1) (.string b.1) := by
  have ordered : (h.ownKeys o).Pairwise (PropertyKey.Precedes (h.object o).properties.keys) :=
    PropertyKey.enumerationOrder_pairwise (OrderedMap.KeysFrom.self _).ordered
  rw [entries, List.pairwise_filterMap]
  refine ordered.imp fun {a b} precedes e he f hf => ?_
  rw [← (Object.pair?_eq_some_iff.1 he).1, ← (Object.pair?_eq_some_iff.1 hf).1]
  exact precedes

theorem enumerableName?_eq (h : Heap) (o : ObjectId) (key : PropertyKey) :
    enumerableName? h o key = ((h.object o).pair? key).map Prod.fst := by
  cases key with
  | symbol s => rfl
  | string s =>
    rw [enumerableName?, Object.pair?, Heap.own?]
    cases (h.object o).properties.get? (.string s) with
    | none => rfl
    | some p => cases enumerable : p.enumerable <;> simp [Option.filter, enumerable]

theorem Heap.get_of_pair? (found : (h.object o).pair? key = some (name, v)) : h.get o key = v := by
  obtain ⟨rfl, p, own, -, rfl⟩ := Object.pair?_eq_some_iff.1 found
  exact get_eq_of_finds ⟨0, .own own⟩

theorem outcome_addProperties_of_none [DecidableEq κ] (keys : List PropertyKey) (made : OrderedMap κ α)
    (found : (w.heap.object o).pair? key = none) :
    outcome host (addProperties convertKey convert o (key :: keys) made).run w =
      outcome host (addProperties convertKey convert o keys made).run w := by
  rw [addProperties, outcome_run_bind host _ (outcome_getHeap host w), enumerableName?_eq, found]
  rfl

/-- The value of an entry is read after its name was converted, and it is still the same if that does not
modify the object. -/
theorem outcome_addProperties_of_some [DecidableEq κ] (keys : List PropertyKey) (made : OrderedMap κ α)
    {e : DOMString × Value} (found : (w.heap.object o).pair? key = some e)
    (kept : ∀ k w₁, outcome host (convertKey (.string e.1)).run w = (.ok k, w₁) → w.SameProperties o w₁) :
    outcome host (addProperties convertKey convert o (key :: keys) made).run w =
      match outcome host (convertEntry convertKey convert e).run w with
      | (.ok entry, w') =>
        outcome host (addProperties convertKey convert o keys (made.insert entry.1 entry.2)).run w'
      | (.error error, w') => (.error error, w') := by
  rw [addProperties, outcome_run_bind host _ (outcome_getHeap host w), enumerableName?_eq, found,
    convertEntry]
  dsimp only [Option.map_some]
  match hkey : outcome host (convertKey (.string e.1)).run w with
  | (.error error, w₁) =>
    rw [outcome_run_bind_of_error host _ hkey, outcome_run_bind_of_error host _ hkey]
  | (.ok k, w₁) =>
    have value : w₁.heap.get o key = e.2 := by
      have here : (w₁.heap.object o).pair? key = some (e.1, e.2) := by
        rw [Object.pair?_congr (kept k w₁ hkey), found]
      exact Heap.get_of_pair? here
    rw [outcome_run_bind host _ hkey, outcome_run_bind host _ hkey,
      outcome_run_bind host _ (outcome_getHeap host w₁), value]
    match hvalue : outcome host (convert e.2).run w₁ with
    | (.error error, w₂) =>
      rw [outcome_run_bind_of_error host _ hvalue, outcome_run_bind_of_error host _ hvalue]
    | (.ok a, w₂) =>
      rw [outcome_run_bind host _ hvalue, outcome_run_bind host _ hvalue]
      rfl

theorem Unmodified.after_entry {e : DOMString × Value} {rest : List (DOMString × Value)} {entry : κ × α}
    (unmodified : Unmodified host convertKey convert o (e :: rest) w)
    (converted : outcome host (convertEntry convertKey convert e).run w = (.ok entry, w')) :
    w.SameProperties o w' ∧ Unmodified host convertKey convert o rest w' := by
  match hkey : outcome host (convertKey (.string e.1)).run w with
  | (.error error, w₁) =>
    rw [convertEntry, outcome_run_bind_of_error host _ hkey] at converted
    cases converted
  | (.ok k, w₁) =>
    obtain ⟨same, onward⟩ := unmodified k w₁ hkey
    rw [convertEntry, outcome_run_bind host _ hkey] at converted
    match hvalue : outcome host (convert e.2).run w₁ with
    | (.error error, w₂) =>
      rw [outcome_run_bind_of_error host _ hvalue] at converted
      cases converted
    | (.ok a, w₂) =>
      obtain ⟨same', behind⟩ := onward a w₂ hvalue
      rw [outcome_run_bind host _ hvalue] at converted
      cases converted
      exact ⟨same'.trans same, behind⟩

/-- The entries of an object are converted one after the other, until a conversion fails. -/
theorem outcome_addProperties [DecidableEq κ] (keys : List PropertyKey) (made : OrderedMap κ α)
    (unmodified : Unmodified host convertKey convert o (keys.filterMap (w.heap.object o).pair?) w) :
    let converted := outcome host
      ((keys.filterMap (w.heap.object o).pair?).mapM (convertEntry convertKey convert)).run w
    outcome host (addProperties convertKey convert o keys made).run w =
      (converted.1.map fun pairs => pairs.foldl (fun m e => m.insert e.1 e.2) made, converted.2) := by
  induction keys generalizing made w with
  | nil => rfl
  | cons key keys ih =>
    cases found : (w.heap.object o).pair? key with
    | none =>
      rw [List.filterMap_cons_none found] at unmodified ⊢
      rw [outcome_addProperties_of_none keys made found]
      exact ih made unmodified
    | some e =>
      rw [List.filterMap_cons_some found] at unmodified ⊢
      rw [outcome_addProperties_of_some keys made found fun k w₁ hkey => (unmodified k w₁ hkey).1,
        List.mapM_cons]
      match hentry : outcome host (convertEntry convertKey convert e).run w with
      | (.error error, w₁) =>
        rw [outcome_run_bind_of_error host _ hentry]
        rfl
      | (.ok entry, w₁) =>
        obtain ⟨same, behind⟩ := unmodified.after_entry hentry
        -- the entries that are left are those of the object as it is now
        rw [← Object.pair?_congr same] at behind ⊢
        dsimp only
        rw [ih (made.insert entry.1 entry.2) behind, outcome_run_bind host _ hentry]
        match hrest : outcome host
          ((keys.filterMap (w₁.heap.object o).pair?).mapM (convertEntry convertKey convert)).run w₁ with
        | (.error error, w₂) =>
          rw [outcome_run_bind_of_error host _ hrest]
          rfl
        | (.ok pairs, w₂) =>
          rw [outcome_run_bind host _ hrest]
          rfl

/-- If the conversions do not modify the object, a record is made of its own enumerable properties with
strings as keys, which are converted in the order of own keys: array indices ascending, then the others as
they were inserted. The first error ends the conversion. Otherwise the record has each converted key once, in
the order of first occurrence, with the value that came last for it. -/
theorem records_follow_own_properties [DecidableEq κ] (host : Host σ) (convertKey : Value → Script σ κ)
    (convert : Value → Script σ α) (o : ObjectId) (w : World σ)
    (unmodified : Unmodified host convertKey convert o (w.heap.entries o) w) :
    let converted := outcome host ((w.heap.entries o).mapM (convertEntry convertKey convert)).run w
    let answered := outcome host (toRecord convertKey convert (.object o)).run w
    (∀ name v, (name, v) ∈ w.heap.entries o ↔
        ∃ p, w.heap.own? o (.string name) = some p ∧ p.enumerable = true ∧ p.value = v) ∧
      ((w.heap.entries o).Pairwise fun a b =>
        PropertyKey.Precedes (w.heap.object o).properties.keys (.string a.1) (.string b.1)) ∧
      (∀ error, converted.1 = .error error → answered = (.error error, converted.2)) ∧
      ∀ pairs, converted.1 = .ok pairs → answered = (.ok (.ofList pairs), converted.2) ∧
        (OrderedMap.ofList pairs).keys.Nodup ∧ (OrderedMap.ofList pairs).Remembers pairs := by
  intro converted answered
  have made : answered = (converted.1.map OrderedMap.ofList, converted.2) := by
    have added := outcome_addProperties (w.heap.ownKeys o) .empty unmodified
    exact (outcome_run_bind host _ (outcome_getHeap host w)).trans added
  refine ⟨fun name v => Heap.mem_entries, w.heap.entries_pairwise o, fun error failed => ?_,
    fun pairs succeeded => ⟨?_, OrderedMap.keys_nodup _, OrderedMap.remembers_ofList pairs⟩⟩
  · rw [made, failed]
    rfl
  · rw [made, succeeded]
    rfl

theorem unmodified_of_still {entries : List (DOMString × Value)}
    (still : ∀ e ∈ entries, ∀ w, after host (convertKey (.string e.1)).run w = w ∧
      after host (convert e.2).run w = w) : Unmodified host convertKey convert o entries w := by
  induction entries generalizing w with
  | nil => trivial
  | cons e rest ih =>
    rw [List.forall_mem_cons] at still
    intro key w₁ hkey
    have same : w₁ = w := (congrArg Prod.snd hkey).symm.trans (still.1 w).1
    subst same
    refine ⟨rfl, fun value w₂ hvalue => ?_⟩
    have same : w₂ = w₁ := (congrArg Prod.snd hvalue).symm.trans (still.1 w₁).2
    subst same
    exact ⟨rfl, ih still.2⟩

/-- An object with a name before an index, two names that are read alike, a hidden property, a symbol, and a
prototype with methods. -/
def assortedObject : Object :=
  { Object.blank .ordinary (some Heap.objectPrototype) with
    properties := .ofList [(.ofText "b", .data (.ofText "two")),
      (.string ⟨[0xD800]⟩, .data (.ofText "first")), (.ofText "1", .data (.ofText "ten")),
      (.ofText "hidden", .hidden (.ofText "no")),
      (.symbol .iterator, .data (.ofText "no")), (.string ⟨[0xFFFD]⟩, .data (.ofText "last"))] }

/-- In its record the lone surrogate has the place, and the replacement character the value. -/
theorem assorted_object_makes_record :
    let host := Embedder.mute.host
    let made := Heap.initial.alloc assortedObject
    let w : World Unit := { World.initial ⟨⟩ with heap := made.2 }
    let record : OrderedMap DOMString DOMString := .ofList [(.ofString "1", .ofString "ten"),
      (.ofString "b", .ofString "two"), (.ofString "�", .ofString "last")]
    Unmodified host toUSVString toText made.1 (w.heap.entries made.1) w ∧
      outcome host (toRecord toUSVString toText (.object made.1)).run w = (.ok record, w) := by
  intro host made w record
  have entries : w.heap.entries made.1 = [(.ofString "1", .ofText "ten"), (.ofString "b", .ofText "two"),
      (⟨[0xD800]⟩, .ofText "first"), (⟨[0xFFFD]⟩, .ofText "last")] := by
    have listed : PropertyKey.indices (w.heap.object made.1).properties.keys = [.ofText "1"] :=
      PropertyKey.indices_eq (l := [(1, .ofText "1")]) (by decide +kernel) (by decide +kernel)
    rw [Heap.entries, Heap.ownKeys, Object.ownKeys, PropertyKey.enumerationOrder_eq, listed]
    decide +kernel
  have unmodified : Unmodified host toUSVString toText made.1 (w.heap.entries made.1) w := by
    refine unmodified_of_still ?_
    rw [entries]
    simp only [List.forall_mem_cons, List.not_mem_nil, false_imp_iff, implies_true, and_true]
    exact ⟨fun _ => ⟨rfl, rfl⟩, fun _ => ⟨rfl, rfl⟩, fun _ => ⟨rfl, rfl⟩, fun _ => ⟨rfl, rfl⟩⟩
  obtain ⟨-, -, -, succeeds⟩ := records_follow_own_properties host toUSVString toText made.1 w unmodified
  rw [entries] at succeeds
  obtain ⟨answered, -⟩ := succeeds _ rfl
  refine ⟨unmodified, answered.trans (Prod.ext (congrArg Except.ok ?_) rfl)⟩
  decide +kernel

end WebBindings
