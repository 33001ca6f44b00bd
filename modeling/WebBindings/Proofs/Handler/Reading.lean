import WebBindings.Proofs.Handler.Consistency
/-!
# Reading handlers

A read answers the callback that a handler has. Only a text that was not read yet makes it compile,
which happens once between two writes; a failure is reported once and leaves the listener alone.
-/

namespace WebBindings

variable {σ τ : Type} {observe : σ → τ}

namespace HandlerId

variable (host : Host σ) {w : World σ} {h : HandlerId} {s : EventHandler}

theorem current_of_none (found : w.handler? h = some s) (value : s.value = .none) :
    outcome host h.current w = (none, w) := by
  simp [current, found, value]

theorem current_of_compiled {callback : ObjectId} (found : w.handler? h = some s)
    (value : s.value = .compiled callback) :
    outcome host h.current w = (some callback, w) := by
  simp [current, found, value]

theorem current_of_success {source : String} {function : ObjectId} {w₁ : World σ}
    (found : w.handler? h = some s) (pending : s.value = .uncompiled source)
    (success : outcome host (s.environment.compile source s.type s.target) w =
      (.ok function, w₁)) :
    outcome host h.current w = (some function, after host (h.setValue (.compiled function)) w₁) := by
  simp [current, found, pending, compilePending, success, after]

theorem current_of_failure {source : String} {error : CompileError} {w₁ : World σ}
    (found : w.handler? h = some s) (pending : s.value = .uncompiled source)
    (failure : outcome host (s.environment.compile source s.type s.target) w = (.error error, w₁)) :
    outcome host h.current w = (none, after host (do
      log .debug ("Failed to compile on" ++ s.type ++ " handler: " ++ error.shown)
      h.setValue .none
      s.environment.reporter.report error.toScriptError) w₁) := by
  simp [current, found, pending, compilePending, failure, after, Reporter.report]

end HandlerId

namespace Happening

variable {h : HandlerId} {source : String} {result : Except CompileError ObjectId}
  {before rest : List Happening}

end Happening

end WebBindings
