import WebBindings.Proofs.Idl.Sequence
/-!
# Reading arrays

An array is read by its length and indices, through its iterator, and as a text. All of these come to the
same elements, and so does a frozen array that is made of a sequence.
-/

namespace WebBindings

variable {σ α : Type}

/-- The text that an element gives to the text of its array. -/
def elementText (v : Value) : Script σ DOMString := if v.isNullish then pure .empty else toText v

theorem joinTexts_eq (texts : List DOMString) :
    joinTexts texts = ⟨[44].intercalate (texts.map DOMString.units)⟩ := by
  have comma : (DOMString.ofString ",").units = [44] := by decide
  induction texts with
  | nil => rfl
  | cons text rest ih =>
    cases rest with
    | nil => simp [joinTexts, List.intercalate]
    | cons next rest =>
      have unfolded : joinTexts (text :: next :: rest) =
          ⟨text.units ++ (DOMString.ofString ",").units ++ (joinTexts (next :: rest)).units⟩ := rfl
      rw [unfolded, ih, comma]
      simp [List.intercalate]

theorem ConvertsInTurn.mapM {host : Host σ} {convert : Value → Script σ α} {vs : List Value}
    {w w' : World σ} {result : Except ScriptError (List α)}
    (converts : ConvertsInTurn host Eq convert vs w result w') :
    outcome host (vs.mapM convert).run w = (result, w') := by
  induction converts with
  | nil idle =>
    subst idle
    rfl
  | @ok _ _ _ _ _ _ _ rest idle converted more ih =>
    subst idle
    rw [List.mapM_cons, outcome_run_bind host _ converted]
    cases rest with
    | ok as =>
      rw [outcome_run_bind host _ ih]
      rfl
    | error error =>
      rw [outcome_run_bind_of_error host _ ih]
      rfl
  | fail idle failed =>
    subst idle
    rw [List.mapM_cons, outcome_run_bind_of_error host _ failed]

theorem invoke_arrayToString (e : Embedder σ) (depth : Nat) {f o : ObjectId} {w w' : World σ}
    (behavior : (w.heap.object f).behavior = some .arrayToString) (arguments : List Value)
    {texts : Except ScriptError (List DOMString)}
    (converts : ConvertsInTurn { e with invoke := e.invoke depth } Eq elementText (w.heap.elements o) w
      texts w') :
    e.invoke (depth + 1) f (.object o) arguments w =
      (texts.map fun texts => .string ⟨[44].intercalate (texts.map DOMString.units)⟩, w') := by
  have joined : outcome { e with invoke := e.invoke depth } (joinElements o).run w =
      (texts.map joinTexts, w') := by
    rw [joinElements, outcome_run_bind _ _ (outcome_getHeap _ w)]
    cases texts with
    | ok texts => exact outcome_run_bind _ _ converts.mapM
    | error error => exact outcome_run_bind_of_error _ _ converts.mapM
  rw [e.invoke_of_behavior depth behavior, Behavior.run]
  cases texts with
  | ok texts =>
    rw [Except.map, ← joinTexts_eq]
    exact outcome_run_bind _ _ joined
  | error error => exact outcome_run_bind_of_error _ _ joined

theorem toFrozenArray_of_ok {host : Host σ} {convert : Value → Script σ Value} {v : Value}
    {items : List Value} {w w' : World σ}
    (converted : outcome host (toSequence convert v).run w = (.ok items, w')) :
    outcome host (toFrozenArray convert v).run w =
      (.ok ⟨w'.heap.objects.size⟩, w'.modifyHeap fun h => (h.alloc (Heap.arrayRecord items).freeze).2) := by
  have made : (w'.heap.newArray items).2.freeze (w'.heap.newArray items).1 =
      (w'.heap.alloc (Heap.arrayRecord items).freeze).2 := w'.heap.modify_alloc _ Object.freeze
  rw [toFrozenArray, outcome_run_bind host _ converted]
  exact Prod.ext rfl (congrArg (fun heap => { w' with heap }) made)

theorem toFrozenArray_of_error {host : Host σ} {convert : Value → Script σ Value} {v : Value}
    {error : ScriptError} {w w' : World σ}
    (failed : outcome host (toSequence convert v).run w = (.error error, w')) :
    outcome host (toFrozenArray convert v).run w = (.error error, w') := by
  rw [toFrozenArray, outcome_run_bind_of_error host _ failed]

/-- A frozen array has the items that it was made of, and whatever is done later, no write changes them. -/
structure Heap.IsFrozenArrayOf (h : Heap) (a : ObjectId) (items : List Value) : Prop where
  frozen : (h.object a).isFrozen = true
  array : h.IsArrayOf a items
  stays : ∀ cs key, (∀ p, .define a key p ∉ cs) → (h.changes cs).own? a key = h.own? a key ∧
    ∀ v, (h.changes cs).set a key v = (false, h.changes cs)

theorem Heap.isFrozenArrayOf_alloc (h : Heap) (items : List Value) :
    (h.alloc (arrayRecord items).freeze).2.IsFrozenArrayOf ⟨h.objects.size⟩ items := by
  have record : (h.alloc (arrayRecord items).freeze).2.object ⟨h.objects.size⟩ = (arrayRecord items).freeze :=
    h.object_alloc_self _
  refine ⟨?_, isArrayOf_of_holds ?_,
    fun cs key untouched => closed_changes (h.housed_alloc _) ?_ cs untouched⟩
  · rw [record]
    exact Object.isFrozen_freeze _
  · rw [record]
    exact (arrayRecord_holds items).freeze
  · change (Object.Keeps (object _ ⟨h.objects.size⟩) key _)
    rw [own?, record]
    exact .freeze _ key

/-- Arrays read the same on every path. A new array has the values that it was made of as elements. If an
object has the method for iteration that arrays have, and converting its elements disturbs neither them nor
the iterator, then its sequence is the conversions of its elements in order, or the error of the first one
that fails. The method for texts that arrays have joins the texts of the elements with commas, nullish ones
being empty. A frozen array has the items of a sequence as elements and refuses all writes. -/
theorem arrays_read_alike (e : Embedder σ) (depth : Nat) (w : World σ) (convert : Value → Script σ α)
    (convertItem : Value → Script σ Value) :
    let host : Host σ := { e with invoke := e.invoke (depth + 1) }
    let next : ObjectId := ⟨w.heap.objects.size + 1⟩
    (∀ vs, (w.heap.newArray vs).2.IsArrayOf (w.heap.newArray vs).1 vs) ∧
    (∀ o f, w.heap.get o (.symbol .iterator) = .object f → (w.heap.object f).behavior = some .arrayValues →
      w.heap.Houses o → Undisturbed host convert o next (w.heap.elements o) w →
        let answered := outcome host (toSequence convert (.object o)).run w
        ∃ w', ConvertsInTurn host (World.Grows next) convert (w.heap.elements o) w answered.1 w' ∧
          ∀ as, answered.1 = .ok as → answered.2 = w') ∧
    (∀ o f arguments texts w', (w.heap.object f).behavior = some .arrayToString →
      ConvertsInTurn { e with invoke := e.invoke depth } Eq elementText (w.heap.elements o) w texts w' →
        host.invoke f (.object o) arguments w =
          (texts.map fun texts => .string ⟨[44].intercalate (texts.map DOMString.units)⟩, w')) ∧
    ∀ v, let converted := outcome host (toSequence convertItem v).run w
      let answered := outcome host (toFrozenArray convertItem v).run w
      (∀ error, converted.1 = .error error → answered = (.error error, converted.2)) ∧
        ∀ items, converted.1 = .ok items →
          ∃ a, answered.1 = .ok a ∧ answered.2.heap.IsFrozenArrayOf a items := by
  intro host next
  refine ⟨fun vs => ?_, fun o f method behavior houses undisturbed => ?_,
    fun o f arguments texts w' behavior converts => ?_,
    fun v => ⟨fun error failed => ?_, fun items made => ?_⟩⟩
  · refine Heap.isArrayOf_of_holds ?_
    rw [Heap.newArray_eq, Heap.object_alloc_self]
    exact Heap.arrayRecord_holds vs
  · exact toSequence_converts e depth convert method behavior houses undisturbed
  · exact invoke_arrayToString e depth behavior arguments converts
  · exact toFrozenArray_of_error (Prod.ext failed rfl)
  · rw [toFrozenArray_of_ok (Prod.ext made rfl)]
    exact ⟨_, rfl, Heap.isFrozenArrayOf_alloc _ items⟩

/-- The text of a value, as a value. -/
def textValue (v : Value) : Script σ Value := do return .string (← toText v)

/-- An array of a string and a null, read on all paths. -/
theorem array_with_null_is_read :
    let made := Heap.initial.newArray [.ofText "a", .null]
    let w : World Unit := { World.initial ⟨⟩ with heap := made.2 }
    let host : Host Unit := { Embedder.mute with invoke := Embedder.mute.invoke 1 }
    let frozen := outcome host (toFrozenArray textValue (.object made.1)).run w
    w.heap.elements made.1 = [.ofText "a", .null] ∧
      (outcome host (toSequence textValue (.object made.1)).run w).1 = .ok [.ofText "a", .ofText "null"] ∧
      host.invoke Heap.arrayToString (.object made.1) [] w = (.ok (.ofText "a,"), w) ∧
      ∃ a, frozen.1 = .ok a ∧ frozen.2.heap.IsFrozenArrayOf a [.ofText "a", .ofText "null"] := by
  intro made w host frozen
  have elements : w.heap.elements made.1 = [.ofText "a", .null] := by decide +kernel
  have method : w.heap.get made.1 (.symbol .iterator) = .object Heap.arrayValues := by decide +kernel
  have older (p : ObjectId) (old : p.index ≠ 8) : w.heap.object p = Heap.initial.object p :=
    Heap.object_alloc.trans (if_neg old)
  have values : (w.heap.object Heap.arrayValues).behavior = some .arrayValues := by
    rw [older Heap.arrayValues (by decide)]
    rfl
  have joins : (w.heap.object Heap.arrayToString).behavior = some .arrayToString := by
    rw [older Heap.arrayToString (by decide)]
    rfl
  have houses : w.heap.Houses made.1 := by
    refine Heap.houses_of_prototypes (by decide +kernel) ?_
    decide +kernel
  have still : ∀ v ∈ w.heap.elements made.1, ∀ w : World Unit,
      outcome host (textValue v).run w = (.ok (.string (v.text?.toOption.getD .empty)), w) := by
    rw [elements]
    simp only [List.forall_mem_cons, List.not_mem_nil, false_imp_iff, implies_true, and_true]
    exact ⟨fun _ => rfl, fun _ => rfl⟩
  have texts : ConvertsInTurn { Embedder.mute with invoke := Embedder.mute.invoke 0 } Eq elementText
      (w.heap.elements made.1) w (.ok [.ofString "a", .empty]) w := by
    rw [elements]
    exact .ok rfl rfl (.ok rfl rfl (.nil rfl))
  obtain ⟨-, sequence, text, freezes⟩ := arrays_read_alike Embedder.mute 0 w textValue textValue
  have undisturbed :
      Undisturbed host textValue made.1 ⟨w.heap.objects.size + 1⟩ (w.heap.elements made.1) w := by
    refine .of_changes houses (fun v mem w₁ a w₂ _ converted => ⟨[], ?_, nofun⟩) (w.heap.evolves_changes [])
    obtain ⟨-, rfl⟩ := Prod.mk.inj ((still v mem w₁).symm.trans converted)
    rfl
  obtain ⟨w', converts, -⟩ := sequence made.1 Heap.arrayValues method values houses undisturbed
  have converted := converts.eq_ok_map still
  rw [elements] at converted
  exact ⟨elements, converted, text made.1 Heap.arrayToString [] _ w joins texts,
    (freezes (.object made.1)).2 _ converted⟩

end WebBindings
