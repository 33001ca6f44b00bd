import WebBindings.Invocation
import WebBindings.Proofs.Motion
import WebBindings.Proofs.Script.Judging
/-!
# Motions of running handlers

Conversions and handler programs act on the world only by changing the heap and by calling objects,
so a relation that both go along with leads through every program.
-/

namespace WebBindings

variable {σ α β : Type} {host : Host σ} {R : World σ → World σ → Prop} [Motion host R]

theorem method?_moves (value : Value) (key : PropertyKey) :
    ScriptMoves host R (method? value key) := by
  unfold method?
  cases value with
  | object o =>
    refine ScriptMoves.getHeap.bind fun heap => ?_
    dsimp only
    split
    · exact ScriptMoves.pure _
    · split
      · split
        · exact ScriptMoves.pure _
        · exact ScriptMoves.raise _
      · exact ScriptMoves.raise _
  | _ => exact ScriptMoves.pure _

theorem primitiveByMethods_moves (o : ObjectId) (names : List String) :
    ScriptMoves host R (primitiveByMethods o names) := by
  induction names with
  | nil => exact ScriptMoves.raise _
  | cons name rest ih =>
    rw [primitiveByMethods]
    refine ScriptMoves.getHeap.bind fun heap => ?_
    split
    · split
      · refine (ScriptMoves.invoke _ _ _).bind fun result => ?_
        split
        · exact ih
        · exact ScriptMoves.pure _
      · exact ih
    · exact ih

theorem toPrimitive_moves (value : Value) (preferred : PreferredType) :
    ScriptMoves host R (toPrimitive value preferred) := by
  unfold toPrimitive
  cases value with
  | object o =>
    refine (method?_moves _ _).bind fun exotic => ?_
    cases exotic with
    | some f =>
      refine (ScriptMoves.invoke _ _ _).bind fun result => ?_
      split
      · exact ScriptMoves.raise _
      · exact ScriptMoves.pure _
    | none => exact primitiveByMethods_moves _ _
  | _ => exact ScriptMoves.pure _

theorem toNumber_moves (value : Value) : ScriptMoves host R (toNumber value) :=
  (toPrimitive_moves value _).bind fun _ => ScriptMoves.settle _

theorem toText_moves (value : Value) : ScriptMoves host R (toText value) :=
  (toPrimitive_moves value _).bind fun _ => ScriptMoves.settle _

theorem toPropertyKey_moves (value : Value) : ScriptMoves host R (toPropertyKey value) := by
  refine (toPrimitive_moves value _).bind fun primitive => ?_
  split
  · exact ScriptMoves.pure _
  · exact (ScriptMoves.settle _).bind fun _ => ScriptMoves.pure _

theorem joinElements_moves (array : ObjectId) : ScriptMoves host R (joinElements array) := by
  refine ScriptMoves.getHeap.bind fun heap => ?_
  refine (ScriptMoves.mapM (fun element => ?_) _).bind fun texts => ScriptMoves.pure _
  split
  · exact ScriptMoves.pure _
  · exact toText_moves element

namespace Script

/-- Whatever the parameter is, the relation leads to where an evaluation leaves the world. -/
def EvaluationMoves (host : Host σ) (R : World σ → World σ → Prop) (m : Evaluation σ α) : Prop :=
  ∀ parameter, ScriptMoves host R (m.run parameter)

theorem EvaluationMoves.pure (a : α) : EvaluationMoves host R (pure a : Evaluation σ α) :=
  fun _ => ScriptMoves.pure _

theorem EvaluationMoves.bind {m : Evaluation σ α} {f : α → Evaluation σ β}
    (hm : EvaluationMoves host R m) (hf : ∀ a, EvaluationMoves host R (f a)) :
    EvaluationMoves host R (m >>= f) := by
  intro parameter
  refine (hm parameter).bind fun result => ?_
  exact hf result.1 result.2

theorem EvaluationMoves.lift {s : WebBindings.Script σ α} (hs : ScriptMoves host R s) :
    EvaluationMoves host R (lift s) := fun _ => hs.bind fun _ => ScriptMoves.pure _

theorem readName_moves (f : Frame) (name : String) : EvaluationMoves host R (readName f name) := by
  unfold readName
  split
  · exact fun _ => ScriptMoves.pure _
  · exact .lift (ScriptMoves.getHeap.bind fun _ => ScriptMoves.settle _)

theorem writeName_moves (f : Frame) (name : String) (v : Value) :
    EvaluationMoves host R (writeName f name v) := by
  unfold writeName
  split
  · exact fun _ => ScriptMoves.pure _
  · exact .lift (ScriptMoves.modifyHeap _)

theorem requireBase_moves (base : Value) (key : PropertyKey) :
    ScriptMoves host R (requireBase base key) := by
  unfold requireBase
  split
  · exact ScriptMoves.getHeap.bind fun _ => ScriptMoves.raise _
  · exact ScriptMoves.pure _

theorem readProperty_moves (base : Value) (key : PropertyKey) :
    ScriptMoves host R (readProperty base key) := by
  refine (requireBase_moves base key).bind fun _ => ?_
  refine ScriptMoves.getHeap.bind fun _ => ?_
  exact ScriptMoves.pure _

theorem writeProperty_moves (base : Value) (key : PropertyKey) (v : Value) :
    ScriptMoves host R (writeProperty base key v) := by
  refine (requireBase_moves base key).bind fun _ => ?_
  cases base with
  | object o => exact ScriptMoves.modifyHeap _
  | _ => exact ScriptMoves.pure _

theorem readIndex_moves (base index : Value) :
    ScriptMoves host R (do readProperty base (← toPropertyKey index)) :=
  (toPropertyKey_moves index).bind fun _ => readProperty_moves base _

theorem writeIndex_moves (base index v : Value) :
    ScriptMoves host R (do writeProperty base (← toPropertyKey index) v) :=
  (toPropertyKey_moves index).bind fun _ => writeProperty_moves base _ v

theorem callValue_moves (function receiver : Value) (arguments : List Value) :
    ScriptMoves host R (callValue function receiver arguments) := by
  refine ScriptMoves.getHeap.bind fun heap => ?_
  cases function with
  | object o =>
    dsimp only
    split
    · exact ScriptMoves.invoke _ _ _
    · exact ScriptMoves.raise _
  | _ => exact ScriptMoves.raise _

theorem addValues_moves (left right : Value) : ScriptMoves host R (addValues left right) := by
  refine (toPrimitive_moves left _).bind fun _ => ?_
  refine (toPrimitive_moves right _).bind fun _ => ?_
  exact ScriptMoves.settle _

theorem negateValue_moves (operand : Value) : ScriptMoves host R (negateValue operand) := by
  refine (toPrimitive_moves operand _).bind fun primitive => ?_
  split
  · exact ScriptMoves.pure _
  · exact (ScriptMoves.settle _).bind fun _ => ScriptMoves.pure _

theorem subtractValue_moves (minuend : Double) (right : Value) :
    ScriptMoves host R (subtractValue minuend right) :=
  (toNumber_moves right).bind fun _ => ScriptMoves.pure _

theorem typeOfValue_moves (v : Value) : ScriptMoves host R (typeOfValue v) :=
  ScriptMoves.getHeap.bind fun _ => ScriptMoves.pure _

theorem isReadable_moves (f : Frame) (name : String) : ScriptMoves host R (isReadable f name) :=
  ScriptMoves.getHeap.bind fun _ => ScriptMoves.pure _

theorem judging_moves (f : Frame) :
    Judging f "" True (fun _ => True) fun _ m => EvaluationMoves host R m where
  pure _ := .pure _
  bind first rest := first.bind fun a => rest a (ResultKind.within_of_all (fun _ => trivial) _ a)
  throws _ := .lift (ScriptMoves.throw _)
  refuses := .lift (ScriptMoves.raise _)
  plain _ := trivial
  this := trivial
  readsName _ := readName_moves f _
  writesName _ _ _ := writeName_moves f _ _
  asksName _ := .lift (isReadable_moves f _)
  readsProperty _ _ _ := .lift (readProperty_moves _ _)
  readsIndex _ _ _ := .lift (readIndex_moves _ _)
  writesProperty base _ _ _ := .lift (writeProperty_moves base _ _)
  writesIndex base _ _ _ _ := .lift (writeIndex_moves base _ _)
  calls _ _ _ := .lift (callValue_moves _ _ _)
  adds _ _ := .lift (addValues_moves _ _)
  converts _ := .lift (toNumber_moves _)
  subtracts minuend _ _ := .lift (subtractValue_moves minuend _)
  negates _ := .lift (negateValue_moves _)
  tellsType operand := .lift (typeOfValue_moves operand)

theorem Program.run_moves (p : Program) (chain : ScopeChain) (this event : Value) :
    ScriptMoves host R (p.run chain this event) := by
  have moves : EvaluationMoves host R (executeAll (evaluate refuse ⟨chain, this⟩) p.body) :=
    (judging_moves ⟨chain, this⟩).statements (.inl trivial)
  exact (moves event).bind fun _ => ScriptMoves.pure _

end Script

end WebBindings
