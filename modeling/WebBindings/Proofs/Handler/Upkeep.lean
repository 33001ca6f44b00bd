import WebBindings.Handler.Map
import WebBindings.Proofs.Motion
/-!
# Motions of the upkeep of handlers

Setting a handler, following its content attribute and touching a property are made of few single
changes. A relation that goes along with these goes along with all of them.
-/

namespace WebBindings

variable {σ : Type}

/-- A preorder on worlds that goes along with the single changes that the upkeep of handlers is made of.
What is recorded in between is no error. -/
class Upkeep (host : Host σ) (R : World σ → World σ → Prop) : Prop extends IsPreorder (World σ) R where
  record (level : LogLevel) (plain : level ≠ .error) (message : String) (w : World σ) :
    R w { w with embedder := host.record level message w.embedder }
  handlers (w : World σ) (handlers : Array EventHandler) (maps : Array HandlerMap) :
    R w { w with handlers, maps }
  add (w : World σ) (t : ElementId) (type : String) (action : ListenerAction) :
    R w (w.modifyElement t fun e => (e.addListener type action).2)
  remove (w : World σ) (t : ElementId) (type : String) (id : ListenerId) :
    R w (w.modifyElement t fun e => e.removeListener type id)

variable {host : Host σ} {R : World σ → World σ → Prop} [Upkeep host R]

theorem Upkeep.log {level : LogLevel} (plain : level ≠ .error) (message : String) :
    Moves host R (log level message) := fun w => Upkeep.record level plain message w

namespace Activation

theorem activate_moves (a : Activation) (target : ElementId) (source : CallbackSource)
    (reporter : Reporter) : Moves host R (a.activate target source reporter) := by
  rw [activate]
  split
  · exact Moves.pure _
  · refine Moves.bind (fun w => Upkeep.add host w target _ _) fun _ => ?_
    exact (Upkeep.log (by decide) _).bind fun _ => Moves.pure _

theorem deactivate_moves (a : Activation) (target : ElementId) :
    Moves host R (a.deactivate target) := by
  rw [deactivate]
  split
  · exact Moves.pure _
  · refine Moves.bind (fun w => Upkeep.remove host w target _ _) fun _ => ?_
    exact (Upkeep.log (by decide) _).bind fun _ => Moves.pure _

end Activation

namespace HandlerId

variable (h : HandlerId)

theorem setValue_moves (value : HandlerValue) : Moves host R (h.setValue value) :=
  fun w => Upkeep.handlers host w _ w.maps

theorem setActivation_moves (activation : Activation) : Moves host R (h.setActivation activation) :=
  fun w => Upkeep.handlers host w _ w.maps

theorem activate_moves (s : EventHandler) : Moves host R (h.activate s) :=
  (s.activation.activate_moves _ _ _).bind fun _ => h.setActivation_moves _

theorem deactivate_moves (s : EventHandler) : Moves host R (h.deactivate s) := by
  refine (s.activation.deactivate_moves _).bind fun _ => ?_
  refine (h.setActivation_moves _).bind fun _ => ?_
  exact h.setValue_moves _

theorem set_moves (value : Value) : Moves host R (h.set value) := by
  refine Moves.get.bind fun w => ?_
  split
  · exact Moves.pure _
  · split
    · exact (h.setValue_moves _).bind fun _ => h.activate_moves _
    · exact h.deactivate_moves _

theorem followRemoval_moves : Moves host R (h.followAttribute none) := by
  refine Moves.get.bind fun w => ?_
  split
  · exact Moves.pure _
  · exact h.deactivate_moves _

/-- A text that the gate lets through, or not, where asking the gate is such a motion as well. -/
theorem followText_moves {env : HandlerEnvironment} {source type : String}
    (asked : Moves host R (env.isBlocked source type)) (s : EventHandler) :
    Moves host R (do
      if ← env.isBlocked source type then h.deactivate s
      else
        h.setValue (.uncompiled source)
        h.activate s) := by
  refine asked.bind fun blocked => ?_
  split
  · exact h.deactivate_moves s
  · exact (h.setValue_moves _).bind fun _ => h.activate_moves s

theorem followAttribute_moves_of
    (asked : ∀ (env : HandlerEnvironment) source type, Moves host R (env.isBlocked source type))
    (text : Option String) : Moves host R (h.followAttribute text) := by
  cases text with
  | none => exact h.followRemoval_moves
  | some source =>
    refine Moves.get.bind fun w => ?_
    split
    · exact Moves.pure _
    · exact h.followText_moves (asked _ _ _) _

end HandlerId

theorem HandlerMapId.handler?_moves (m : HandlerMapId) (property : String) :
    Moves host R (m.handler? property) := by
  refine Moves.get.bind fun w => ?_
  split
  · split
    · exact Moves.pure _
    · refine (Upkeep.log (by decide) _).bind fun _ => ?_
      refine Moves.bind (fun w => Upkeep.handlers host w _ w.maps) fun _ => ?_
      exact Moves.bind (fun w => Upkeep.handlers host w w.handlers _) fun _ => Moves.pure _
  · exact Moves.pure _

end WebBindings
