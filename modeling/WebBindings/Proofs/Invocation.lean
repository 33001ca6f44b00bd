import WebBindings.Proofs.Script.Motion
/-!
# Motions of calls

A relation that goes along with changes of the heap, with the cancellation of events and with the
functions of an embedder goes along with every call, however deeply calls are nested.
-/

namespace WebBindings

variable {σ : Type} {R : World σ → World σ → Prop}

section Behaviors

variable {host : Host σ} [Motion host R]

theorem newArrayIterator_moves (array : ObjectId) :
    ScriptMoves host R (newArrayIterator array) := by
  refine (ScriptMoves.perform (Moves.allocate _)).bind fun _ => ?_
  refine (ScriptMoves.perform (Moves.allocate _)).bind fun _ => ?_
  refine (ScriptMoves.modifyHeap _).bind fun _ => ?_
  exact ScriptMoves.pure _

theorem newIterationResult_moves (value : Value) (done : Bool) :
    ScriptMoves host R (newIterationResult value done) := by
  refine (ScriptMoves.perform (Moves.allocate _)).bind fun _ => ?_
  refine (ScriptMoves.modifyHeap _).bind fun _ => ?_
  refine (ScriptMoves.modifyHeap _).bind fun _ => ?_
  exact ScriptMoves.pure _

theorem stepArrayIterator_moves (next array : ObjectId) (position : Nat) :
    ScriptMoves host R (stepArrayIterator next array position) := by
  refine ScriptMoves.getHeap.bind fun heap => ?_
  split
  · exact (ScriptMoves.modifyHeap _).bind fun _ => newIterationResult_moves _ _
  · exact newIterationResult_moves _ _

theorem Behavior.run_moves (cancel : ∀ w event, R w (w.cancelEvent event))
    (call : ∀ index receiver arguments w, R w (host.call index receiver arguments w).2)
    (callee : ObjectId) (receiver : Value) (arguments : List Value) (behavior : Behavior) :
    ScriptMoves host R (behavior.run callee receiver arguments) := by
  cases behavior with
  | objectToString => exact ScriptMoves.getHeap.bind fun _ => ScriptMoves.pure _
  | objectValueOf => exact ScriptMoves.pure _
  | arrayToString =>
    rw [Behavior.run]
    split
    · exact (joinElements_moves _).bind fun _ => ScriptMoves.pure _
    · exact ScriptMoves.raise _
  | arrayValues =>
    rw [Behavior.run]
    split
    · exact (newArrayIterator_moves _).bind fun _ => ScriptMoves.pure _
    · exact ScriptMoves.raise _
  | functionToString => exact ScriptMoves.getHeap.bind fun _ => ScriptMoves.pure _
  | arrayNext array position => exact stepArrayIterator_moves _ _ _
  | preventDefault event =>
    intro w
    change R w (if w.isEventLive event then w.cancelEvent event else w)
    split
    · exact cancel w event
    · exact refl_of R w
  | handler program scope => exact Script.Program.run_moves _ _ _ _
  | external index => exact fun w => call index receiver arguments w

theorem callObject_moves (cancel : ∀ w event, R w (w.cancelEvent event))
    (call : ∀ index receiver arguments w, R w (host.call index receiver arguments w).2)
    (callee : ObjectId) (receiver : Value) (arguments : List Value) :
    ScriptMoves host R (callObject callee receiver arguments) := by
  refine ScriptMoves.getHeap.bind fun heap => ?_
  split
  · exact Behavior.run_moves cancel call _ _ _ _
  · exact ScriptMoves.raise _

end Behaviors

namespace Embedder

variable [IsPreorder (World σ) R] (e : Embedder σ) (heap : ∀ w f, R w (w.modifyHeap f))
  (cancel : ∀ w event, R w (w.cancelEvent event))
  (call : ∀ index receiver arguments w, R w (e.call index receiver arguments w).2)

include heap cancel call

theorem invoke_moves (depth : Nat) (callee : ObjectId) (receiver : Value)
    (arguments : List Value) (w : World σ) :
    R w (e.invoke depth callee receiver arguments w).2 := by
  induction depth generalizing callee receiver arguments w with
  | zero => exact refl_of R w
  | succ depth ih =>
    let inner : Host σ := { e with invoke := e.invoke depth }
    have : Motion inner R := ⟨heap, ih⟩
    have hcall : ScriptMoves inner R (callObject callee receiver arguments) :=
      callObject_moves cancel call callee receiver arguments
    exact hcall w

/-- Such a relation goes along with the calls on the host that an embedder becomes. -/
theorem host_motion : Motion e.host R :=
  ⟨heap, e.invoke_moves heap cancel call maxCallDepth⟩

end Embedder

end WebBindings
