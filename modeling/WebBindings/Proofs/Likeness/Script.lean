import WebBindings.Proofs.Likeness.Agreement
/-!
# Agreement of running handlers

Conversions read nothing that is hidden from an observer, and neither does a program that the observer
can follow. So they agree in worlds that look alike, if calls do.
-/

namespace WebBindings

variable {σ α β : Type} {o : Observer σ} {host host' : Host σ}

theorem method?_agrees (value : Value) {key : PropertyKey} (seen : o.Sees key) :
    ScriptAgrees o host host' (method? value key) := by
  unfold method?
  cases value with
  | object id =>
    refine ScriptAgree.getHeap.bind_of fun h h' alike => ?_
    simp only [alike.get seen, alike.isCallable, alike.tag, alike.shown]
    refine .ite (.pure rfl) ?_
    cases h.get id key with
    | object f => exact .ite (.pure rfl) (.raise _)
    | _ => exact .raise _
  | _ => exact .pure rfl

namespace Script

namespace ScopeChain

variable {h h' : Heap} (alike : h.Alike o h') (chain : ScopeChain) {name : String}
  (other : o.seesNames ∨ name ≠ "localName")

include alike other

theorem resolve?_alike : resolve? h' chain name = resolve? h chain name := by
  have seen := o.sees_ofText other
  have binding (id : ObjectId) : binds h' id (.ofText name) = binds h id (.ofText name) := by
    simp only [binds, alike.has seen, alike.get (o.sees_symbol .unscopables), alike.get seen]
  simp only [resolve?, binding, alike.has seen]

theorem lookup_alike : lookup h' chain name = lookup h chain name := by
  simp only [lookup, resolve?_alike alike chain other, alike.getText other]

theorem assign_alike (v : Value) : (assign h chain name v).Alike o (assign h' chain name v) := by
  simp only [assign, resolve?_alike alike chain other]
  exact (alike.set _ _ v).2

end ScopeChain

/-- Whatever the parameter is, the evaluation agrees with itself on the two hosts. -/
def EvaluationAgrees (o : Observer σ) (host host' : Host σ) (m : Evaluation σ α) : Prop :=
  ∀ parameter, ScriptAgrees o host host' (m.run parameter)

theorem EvaluationAgrees.pure (a : α) :
    EvaluationAgrees o host host' (pure a : Evaluation σ α) := fun _ => ScriptAgree.pure rfl

theorem EvaluationAgrees.bind {m : Evaluation σ α} {f : α → Evaluation σ β}
    (hm : EvaluationAgrees o host host' m) (hf : ∀ a, EvaluationAgrees o host host' (f a)) :
    EvaluationAgrees o host host' (m >>= f) := by
  intro parameter
  refine (hm parameter).bind fun result => ?_
  exact hf result.1 result.2

theorem EvaluationAgrees.lift {s : WebBindings.Script σ α} (hs : ScriptAgrees o host host' s) :
    EvaluationAgrees o host host' (lift s) := fun _ => hs.bind fun _ => ScriptAgree.pure rfl

theorem EvaluationAgrees.ite {c : Prop} [Decidable c] {m k : Evaluation σ α}
    (yes : EvaluationAgrees o host host' m) (no : EvaluationAgrees o host host' k) :
    EvaluationAgrees o host host' (if c then m else k) := by
  split
  · exact yes
  · exact no

section Names

variable (f : Frame) {name : String} (other : o.seesNames ∨ name ≠ "localName")

include other

theorem readName_agrees : EvaluationAgrees o host host' (readName f name) := by
  refine .ite (fun _ => ScriptAgree.pure rfl) (.lift ?_)
  refine ScriptAgree.getHeap.bind_of fun h h' alike => ?_
  rw [ScopeChain.lookup_alike alike f.chain other]
  exact .settle _

theorem writeName_agrees (v : Value) : EvaluationAgrees o host host' (writeName f name v) :=
  .ite (fun _ => ScriptAgree.pure rfl)
    (.lift (.modifyHeap fun _ _ alike => ScopeChain.assign_alike alike f.chain other v))

theorem isReadable_agrees : ScriptAgrees o host host' (isReadable f name) := by
  refine ScriptAgree.getHeap.bind_of fun h h' alike => .pure ?_
  rw [ScopeChain.resolve?_alike alike f.chain other]

end Names

theorem requireBase_agrees (base : Value) (key : PropertyKey) :
    ScriptAgrees o host host' (requireBase base key) :=
  .ite (ScriptAgree.getHeap.bind_of fun _ _ _ => .raise_of rfl) (.pure rfl)

theorem readProperty_agrees (base : Value) {key : PropertyKey} (seen : o.Sees key) :
    ScriptAgrees o host host' (readProperty base key) := by
  refine (requireBase_agrees base key).bind fun _ => ?_
  refine ScriptAgree.getHeap.bind_of fun h h' alike => .pure ?_
  cases base with
  | object id => exact (alike.get seen id).symm
  | _ => rfl

theorem writeProperty_agrees (base : Value) (key : PropertyKey) (v : Value) :
    ScriptAgrees o host host' (writeProperty base key v) := by
  refine (requireBase_agrees base key).bind fun _ => ?_
  cases base with
  | object id => exact .modifyHeap fun _ _ alike => (alike.set id key v).2
  | _ => exact .pure rfl

theorem typeOfValue_agrees (v : Value) : ScriptAgrees o host host' (typeOfValue v) := by
  refine ScriptAgree.getHeap.bind_of fun h h' alike => .pure ?_
  rw [alike.typeOf]

end Script

variable [Agreeing o host host']

theorem primitiveByMethods_agrees (id : ObjectId) {names : List String}
    (others : ∀ name ∈ names, name ≠ "localName") :
    ScriptAgrees o host host' (primitiveByMethods id names) := by
  induction names with
  | nil => exact .raise _
  | cons name rest ih =>
    have go := ih fun other mem => others other (.tail _ mem)
    rw [primitiveByMethods]
    refine ScriptAgree.getHeap.bind_of fun h h' alike => ?_
    rw [alike.getText (.inr (others name (.head _)))]
    cases h.getText id name with
    | object f =>
      simp only [alike.isCallable]
      exact .ite ((ScriptAgree.invoke _ _ _).bind fun result => .ite go (.pure rfl)) go
    | _ => exact go

theorem toPrimitive_agrees (value : Value) (preferred : PreferredType) :
    ScriptAgrees o host host' (toPrimitive value preferred) := by
  unfold toPrimitive
  cases value with
  | object id =>
    refine (method?_agrees _ (o.sees_symbol _)).bind fun exotic => ?_
    cases exotic with
    | some f => exact (ScriptAgree.invoke _ _ _).bind fun result => .ite (.raise _) (.pure rfl)
    | none =>
      refine primitiveByMethods_agrees id ?_
      cases preferred <;> decide
  | _ => exact .pure rfl

theorem toNumber_agrees (value : Value) : ScriptAgrees o host host' (toNumber value) :=
  (toPrimitive_agrees value _).bind fun _ => .settle _

theorem toText_agrees (value : Value) : ScriptAgrees o host host' (toText value) :=
  (toPrimitive_agrees value _).bind fun _ => .settle _

theorem toPropertyKey_agrees (value : Value) : ScriptAgrees o host host' (toPropertyKey value) := by
  refine (toPrimitive_agrees value _).bind fun primitive => ?_
  cases primitive with
  | symbol s => exact .pure rfl
  | _ => exact (ScriptAgree.settle _).bind fun _ => .pure rfl

theorem joinElements_agrees (array : ObjectId) : ScriptAgrees o host host' (joinElements array) := by
  refine ScriptAgree.getHeap.bind_of fun h h' alike => ?_
  dsimp only
  rw [alike.elements]
  have text (element : Value) : ScriptAgrees o host host'
      (if element.isNullish then pure .empty else toText element) :=
    .ite (.pure rfl) (toText_agrees element)
  exact (ScriptAgree.mapM text _).bind fun _ => .pure rfl

namespace Script

theorem readIndex_agrees (base index : Value) (all : o.seesNames) :
    ScriptAgrees o host host' (do readProperty base (← toPropertyKey index)) :=
  (toPropertyKey_agrees index).bind fun _ => readProperty_agrees base (.inl all)

theorem writeIndex_agrees (base index v : Value) :
    ScriptAgrees o host host' (do writeProperty base (← toPropertyKey index) v) :=
  (toPropertyKey_agrees index).bind fun _ => writeProperty_agrees base _ v

theorem callValue_agrees (function receiver : Value) (arguments : List Value) :
    ScriptAgrees o host host' (callValue function receiver arguments) := by
  refine ScriptAgree.getHeap.bind_of fun h h' alike => ?_
  cases function with
  | object id =>
    simp only [alike.isCallable, alike.tag]
    exact .ite (.invoke _ _ _) (.raise _)
  | _ => exact .raise_of rfl

theorem addValues_agrees (left right : Value) : ScriptAgrees o host host' (addValues left right) := by
  refine (toPrimitive_agrees left _).bind fun _ => ?_
  refine (toPrimitive_agrees right _).bind fun _ => ?_
  exact .settle _

theorem negateValue_agrees (operand : Value) : ScriptAgrees o host host' (negateValue operand) := by
  refine (toPrimitive_agrees operand _).bind fun primitive => ?_
  cases primitive with
  | bigInt n => exact .pure rfl
  | _ => exact (ScriptAgree.settle _).bind fun _ => .pure rfl

theorem subtractValue_agrees (minuend : Double) (right : Value) :
    ScriptAgrees o host host' (subtractValue minuend right) :=
  (toNumber_agrees right).bind fun _ => .pure rfl

theorem judging_agrees (f : Frame) : Judging f "localName" o.seesNames (fun _ => True)
    fun _ m => EvaluationAgrees o host host' m where
  pure _ := .pure _
  bind first rest := first.bind fun a => rest a (ResultKind.within_of_all (fun _ => trivial) _ a)
  throws _ := .lift (.throw ⟨rfl, rfl⟩)
  refuses := .lift (.raise _)
  plain _ := trivial
  this := trivial
  readsName other := readName_agrees f other
  writesName other _ _ := writeName_agrees f other _
  asksName other := .lift (isReadable_agrees f other)
  readsProperty _ _ other := .lift (readProperty_agrees _ (o.sees_ofText other))
  readsIndex _ _ all := .lift (readIndex_agrees _ _ all)
  writesProperty base _ _ _ := .lift (writeProperty_agrees base _ _)
  writesIndex base _ _ _ _ := .lift (writeIndex_agrees base _ _)
  calls _ _ _ := .lift (callValue_agrees _ _ _)
  adds _ _ := .lift (addValues_agrees _ _)
  converts _ := .lift (toNumber_agrees _)
  subtracts minuend _ _ := .lift (subtractValue_agrees minuend _)
  negates _ := .lift (negateValue_agrees _)
  tellsType operand := .lift (typeOfValue_agrees operand)

theorem Program.run_agrees {p : Program} (followed : o.Follows p) (chain : ScopeChain)
    (this event : Value) : ScriptAgrees o host host' (p.run chain this event) := by
  have agrees : EvaluationAgrees o host host' (executeAll (evaluate refuse ⟨chain, this⟩) p.body) :=
    (judging_agrees ⟨chain, this⟩).statements followed
  exact (agrees event).bind fun _ => .pure rfl

end Script

end WebBindings
