import WebBindings.Handler.Report
import WebBindings.Proofs.Motion
/-!
# Motions of reports

A relation that goes along with whatever an embedder records leads through every report.
-/

namespace WebBindings

variable {σ : Type}

/-- A preorder on worlds that the records of an embedder, its loggers and its sinks go along with. -/
class Recording (host : Host σ) (R : World σ → World σ → Prop) : Prop extends
    IsPreorder (World σ) R where
  record (level : LogLevel) (message : String) (w : World σ) :
    R w { w with embedder := host.record level message w.embedder }
  hostLog (index : Nat) (level : LogLevel) (message : String) (w : World σ) :
    R w { w with embedder := host.hostLog index level message w.embedder }
  report (index : Nat) (error : ScriptError) (w : World σ) :
    R w { w with embedder := host.report index w.heap error w.embedder }

variable {host : Host σ} {R : World σ → World σ → Prop} [Recording host R]

theorem Moves.log (level : LogLevel) (message : String) : Moves host R (log level message) :=
  fun w => Recording.record level message w

theorem Logger.write_moves (l : Logger) (level : LogLevel) (message : String) :
    Moves host R (l.write level message) := by
  cases l with
  | console => exact Moves.log _ _
  | external index => exact fun w => Recording.hostLog index level message w

theorem Sink.report_moves (sink : Sink) (error : ScriptError) :
    Moves host R (sink.report error) := by
  refine Moves.get.bind fun w => ?_
  cases sink with
  | console => exact Moves.log _ _
  | logger l => exact l.write_moves _ _
  | external index => exact fun w => Recording.report index error w

theorem Reporter.tell_moves (r : Reporter) (error : ScriptError) : Moves host R (r.tell error) :=
  Moves.get.bind fun _ => Sink.report_moves _ _

end WebBindings
