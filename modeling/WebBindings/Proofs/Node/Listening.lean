import WebBindings.Node.Dispatch
import WebBindings.Proofs.Handler.Report
import WebBindings.Proofs.Invocation
/-!
# Motions of listeners

A relation that goes along with calls and reports, with what an embedder's listeners and sinks do and
with the search for callbacks goes along with every listener, and with the dispatches of an event whose
current target it does not mind.
-/

namespace WebBindings

variable {σ : Type}

/-- A preorder on worlds that goes along with all that listeners are made of. -/
class Listening (host : Host σ) (R : World σ → World σ → Prop) : Prop extends
    Motion host R, Recording host R where
  hold (w : World σ) (held : List Handle) : R w { w with held }
  cancel (w : World σ) (event : EventId) : R w (w.cancelEvent event)
  current (source : CallbackSource) : Moves host R source.current
  listen (index : Nat) (event : EventId) (w : World σ) : R w (host.listen index event w)
  react (sink : Sink) (error : ScriptError) (w : World σ) : R w (host.react sink error w)

variable {host : Host σ} {R : World σ → World σ → Prop} [Listening host R]

theorem Reporter.report_moves (r : Reporter) (error : ScriptError) : Moves host R (r.report error) :=
  (r.tell_moves error).bind fun _ w => Listening.react _ error w

theorem runCallback_moves (callback : ObjectId) (reporter : Reporter) (event : EventId) :
    Moves host R (runCallback callback reporter event) := by
  refine Moves.get.bind fun w => Moves.bind (ScriptMoves.invoke callback _ _) fun result => ?_
  split
  · exact fun w => Listening.cancel host w event
  · exact Moves.pure _
  · exact reporter.report_moves _

theorem Listener.run_moves (l : Listener) (event : EventId) : Moves host R (l.run event) := by
  rw [Listener.run]
  split
  · exact fun w => Listening.listen _ event w
  · refine (Listening.current _).bind fun callback => ?_
    cases callback with
    | none => exact Moves.log _ _
    | some callback =>
      refine Moves.get.bind fun w => ?_
      split
      · exact runCallback_moves callback _ event
      · exact Moves.log _ _

theorem runListeners_moves (target : ElementId) (event : EventId) (listeners : List Listener) :
    Moves host R (runListeners target event listeners) := by
  induction listeners with
  | nil => exact Moves.pure _
  | cons l rest ih =>
    refine Moves.get.bind fun w => ?_
    split
    · exact (l.run_moves event).bind fun _ => ih
    · exact ih

theorem dispatch_moves (target : ElementId) {event : EventId}
    (set : ∀ w o, R w (w.setCurrentTarget event o)) : Moves host R (dispatch target event) := by
  have deliver : Moves host R (deliver target event) := by
    refine Moves.get.bind fun _ => Moves.get.bind fun _ => (Moves.log _ _).bind fun _ => ?_
    refine Moves.bind (fun w => set w _) fun _ => ?_
    refine (runListeners_moves target event _).bind fun _ => ?_
    exact Moves.bind (fun w => set w _) fun _ => Moves.get.bind fun _ => Moves.pure _
  refine Moves.bind (fun w => Listening.hold host w _) fun _ => deliver.bind fun _ => ?_
  exact Moves.bind (fun w => Listening.hold host w _) fun _ => Moves.pure _

end WebBindings
