import WebBindings.Conversion
import Mathlib.Order.Defs.Unbundled
/-!
# Computations as motions of the world

What an action answers and where it leaves the world, and relations that lead from every world to
the one where a computation leaves it. Such relations are put together along the computation.
-/

namespace WebBindings

variable {σ α β : Type}

/-- The answer of an action and the world that it leaves. -/
def outcome (host : Host σ) (a : Action σ α) (w : World σ) : α × World σ := (a.run host).run w

/-- The world that an action leaves. -/
def after (host : Host σ) (a : Action σ α) (w : World σ) : World σ := (outcome host a w).2

section Outcomes

variable (host : Host σ) (w : World σ)

@[simp] theorem outcome_pure (a : α) : outcome host (pure a) w = (a, w) := rfl

@[simp] theorem outcome_bind (a : Action σ α) (f : α → Action σ β) :
    outcome host (a >>= f) w = outcome host (f (outcome host a w).1) (outcome host a w).2 := rfl

@[simp] theorem outcome_map (a : Action σ α) (f : α → β) :
    outcome host (f <$> a) w = (f (outcome host a w).1, (outcome host a w).2) := rfl

@[simp] theorem outcome_get : outcome host get w = (w, w) := rfl

@[simp] theorem outcome_read : outcome host read w = (host, w) := rfl

@[simp] theorem outcome_modify (f : World σ → World σ) :
    outcome host (modify f) w = (⟨⟩, f w) := rfl

@[simp] theorem outcome_modifyGet (f : World σ → α × World σ) :
    outcome host (modifyGet f) w = f w := rfl

@[simp] theorem outcome_log (level : LogLevel) (message : String) :
    outcome host (log level message) w =
      (⟨⟩, { w with embedder := host.record level message w.embedder }) := rfl

theorem outcome_getHeap : outcome host (getHeap : Script σ Heap).run w = (.ok w.heap, w) := rfl

@[simp] theorem outcome_perform (a : Action σ α) :
    outcome host (perform a).run w = (.ok (outcome host a w).1, (outcome host a w).2) := rfl

end Outcomes

section Sequences

variable (host : Host σ)

theorem outcome_run_bind {s : Script σ α} (f : α → Script σ β) {w w' : World σ} {a : α}
    (first : outcome host s.run w = (.ok a, w')) :
    outcome host (s >>= f).run w = outcome host (f a).run w' := by
  change outcome host (s.run >>= ExceptT.bindCont f) w = _
  rw [outcome_bind, first]
  rfl

theorem outcome_run_bind_of_error {s : Script σ α} (f : α → Script σ β) {w w' : World σ}
    {error : ScriptError} (failed : outcome host s.run w = (.error error, w')) :
    outcome host (s >>= f).run w = (.error error, w') := by
  change outcome host (s.run >>= ExceptT.bindCont f) w = _
  rw [outcome_bind, failed]
  rfl

@[simp] theorem outcome_settle (result : Except Fault α) (w : World σ) :
    outcome host (settle result).run w = (result.mapError .fault, w) := by
  cases result <;> rfl

end Sequences

/-- Wherever the action starts, the relation leads from there to where it leaves the world. -/
def Moves (host : Host σ) (R : World σ → World σ → Prop) (a : Action σ α) : Prop :=
  ∀ w, R w (after host a w)

/-- The same of a computation that may raise an error, which keeps the world as it then is. -/
def ScriptMoves (host : Host σ) (R : World σ → World σ → Prop) (s : Script σ α) : Prop :=
  Moves host R s.run

section Composition

variable {host : Host σ} {R : World σ → World σ → Prop}

theorem ScriptMoves.perform {a : Action σ α} (ha : Moves host R a) :
    ScriptMoves host R (perform a) := fun w => ha w

variable [IsPreorder (World σ) R]

theorem Moves.pure (a : α) : Moves host R (pure a : Action σ α) := fun w => refl_of R w

theorem Moves.bind {a : Action σ α} {f : α → Action σ β} (ha : Moves host R a)
    (hf : ∀ x, Moves host R (f x)) : Moves host R (a >>= f) := fun w =>
  trans_of R (ha w) (hf (outcome host a w).1 (outcome host a w).2)

theorem Moves.get : Moves host R (get : Action σ (World σ)) := fun w => refl_of R w

theorem ScriptMoves.pure (a : α) : ScriptMoves host R (pure a : Script σ α) :=
  fun w => refl_of R w

theorem ScriptMoves.throw (error : ScriptError) :
    ScriptMoves host R (throw error : Script σ α) := fun w => refl_of R w

theorem ScriptMoves.bind {s : Script σ α} {f : α → Script σ β} (hs : ScriptMoves host R s)
    (hf : ∀ a, ScriptMoves host R (f a)) : ScriptMoves host R (s >>= f) := by
  change Moves host R (s.run >>= ExceptT.bindCont f)
  apply Moves.bind hs
  intro result
  cases result with
  | ok a => exact hf a
  | error error => exact Moves.pure _

theorem ScriptMoves.raise (cause : Fault) : ScriptMoves host R (raise cause : Script σ α) :=
  ScriptMoves.throw _

theorem ScriptMoves.settle (result : Except Fault α) :
    ScriptMoves host R (settle result : Script σ α) := by
  cases result with
  | ok a => exact ScriptMoves.pure a
  | error cause => exact ScriptMoves.raise cause

theorem ScriptMoves.get : ScriptMoves host R (MonadState.get : Script σ (World σ)) :=
  fun w => refl_of R w

theorem ScriptMoves.getHeap : ScriptMoves host R (getHeap : Script σ Heap) :=
  fun w => refl_of R w

theorem ScriptMoves.mapM {f : α → Script σ β} (hf : ∀ a, ScriptMoves host R (f a))
    (items : List α) : ScriptMoves host R (items.mapM f) := by
  induction items with
  | nil => exact ScriptMoves.pure _
  | cons a rest ih =>
    rw [List.mapM_cons]
    refine (hf a).bind fun b => ?_
    refine ih.bind fun bs => ?_
    exact ScriptMoves.pure _

end Composition

/-- A preorder on worlds that every change of the heap and every call on a host goes along with. -/
class Motion (host : Host σ) (R : World σ → World σ → Prop) : Prop extends
    IsPreorder (World σ) R where
  heap (w : World σ) (f : Heap → Heap) : R w (w.modifyHeap f)
  invoke (callee : ObjectId) (receiver : Value) (arguments : List Value) (w : World σ) :
    R w (host.invoke callee receiver arguments w).2

section Heap

variable {host : Host σ} {R : World σ → World σ → Prop} [Motion host R]

theorem Moves.allocate (make : Heap → ObjectId × Heap) : Moves host R (allocate make) :=
  fun w => Motion.heap host w fun h => (make h).2

theorem ScriptMoves.modifyHeap (f : Heap → Heap) : ScriptMoves host R (modifyHeap f) :=
  fun w => Motion.heap host w f

theorem ScriptMoves.invoke (callee : ObjectId) (receiver : Value) (arguments : List Value) :
    ScriptMoves host R (invoke callee receiver arguments) :=
  fun w => Motion.invoke callee receiver arguments w

end Heap

end WebBindings
