import WebBindings.Handler.Current
import WebBindings.Proofs.Handler.Handling
import WebBindings.Proofs.Handler.Report
/-!
# Computing

Loggers, gates and engines have the heap and the state of the embedder to work with. Nothing else of
the world is other after them.
-/

namespace WebBindings

variable {σ α : Type} {host : Host σ}

theorem Moves.mono {R S : World σ → World σ → Prop} (weaker : ∀ w w', R w w' → S w w')
    {a : Action σ α} (moves : Moves host R a) : Moves host S a := fun w => weaker _ _ (moves w)

/-- Only the heap and the state of the embedder are other. -/
def World.Computed (w w' : World σ) : Prop := ∃ heap embedder, w' = { w with heap, embedder }

namespace World.Computed

variable {w w' w'' : World σ}

theorem trans (first : w.Computed w') (second : w'.Computed w'') : w.Computed w'' := by
  obtain ⟨heap, embedder, rfl⟩ := first
  obtain ⟨heap', embedder', rfl⟩ := second
  exact ⟨heap', embedder', rfl⟩

instance : IsPreorder (World σ) World.Computed where
  refl w := ⟨w.heap, w.embedder, rfl⟩
  trans _ _ _ := trans

instance : Recording host World.Computed where
  record _ _ w := ⟨w.heap, _, rfl⟩
  hostLog _ _ _ w := ⟨w.heap, _, rfl⟩
  report _ _ w := ⟨w.heap, _, rfl⟩

theorem sameRecords (computed : w.Computed w') : w.SameRecords w' := by
  obtain ⟨heap, embedder, rfl⟩ := computed
  exact ⟨rfl, rfl, rfl⟩

theorem events (computed : w.Computed w') : w'.events = w.events := by
  obtain ⟨heap, embedder, rfl⟩ := computed
  rfl

end World.Computed

theorem Engine.checkSyntax_computed (engine : Engine) (body : String) :
    Moves host World.Computed (engine.checkSyntax body) := by
  cases engine with
  | builtin =>
    rw [Engine.checkSyntax]
    split <;> exact Moves.pure _
  | external index => exact fun w => ⟨w.heap, _, rfl⟩

theorem Engine.compile_computed (engine : Engine) (body name : String) (scope : HandlerScope) :
    Moves host World.Computed (engine.compile body name scope) := by
  cases engine with
  | builtin =>
    rw [Engine.compile]
    split
    · refine (Moves.log _ _).bind fun _ => ?_
      exact Moves.bind (fun w => ⟨_, w.embedder, rfl⟩) fun _ => Moves.pure _
    · exact Moves.pure _
  | external index => exact fun w => ⟨_, _, rfl⟩

namespace HandlerEnvironment

variable (env : HandlerEnvironment)

theorem logCompiled_computed (name source : String) :
    Moves host World.Computed (env.logCompiled name source) := by
  rw [logCompiled]
  split <;> exact Moves.log _ _

theorem compile_computed (source type : String) (target : ElementId) :
    Moves host World.Computed (env.compile source type target) := by
  refine (env.engine.checkSyntax_computed source).bind fun checked => ?_
  cases checked with
  | error error => exact Moves.pure _
  | ok _ =>
    refine Moves.get.bind fun w => (env.engine.compile_computed _ _ _).bind fun compiled => ?_
    cases compiled with
    | error error => exact Moves.pure _
    | ok function => exact (env.logCompiled_computed _ _).bind fun _ => Moves.pure _

theorem refuses_computed (source : String) :
    Moves host World.Computed (env.refuses source) := by
  rw [refuses]
  split
  · rw [Policy.check]
    split
    · exact Moves.pure _
    · exact (Moves.log _ _).bind fun _ => Moves.pure _
  · exact fun w => ⟨w.heap, _, rfl⟩
  · refine (env.engine.checkSyntax_computed source).bind fun checked => ?_
    cases checked <;> exact Moves.pure _

theorem isBlocked_computed (source type : String) :
    Moves host World.Computed (env.isBlocked source type) := by
  refine (env.refuses_computed source).bind fun blocked => ?_
  cases blocked with
  | true => exact (Moves.log _ _).bind fun _ => Moves.pure _
  | false => exact Moves.pure _

end HandlerEnvironment

end WebBindings
