import WebBindings.Proofs.Handler.Alone
import WebBindings.Proofs.Handler.Reading
/-!
# The setting of handlers

What handlers find around them stays the same whatever is done with them: the documents, the places of
elements and the sink that reporters share. Engines and gates that go by what they are asked alone
therefore always give the same answers, up to the functions that they make. What was reported stays
the same as well, except where a text does not compile.
-/

namespace WebBindings

variable {σ τ α : Type}

/-- Engines and gates go by nothing but what they are asked. -/
structure Host.Impartial (host : Host σ) : Prop where
  blocks (index : Nat) (source : String) (s s' : σ) :
    (host.blocks index source s').1 = (host.blocks index source s).1
  checkSyntax (index : Nat) (body : String) (s s' : σ) :
    (host.checkSyntax index body s').1 = (host.checkSyntax index body s).1
  compile (index : Nat) (body name : String) (scope : HandlerScope) (h h' : Heap) (s s' : σ) :
    compileOutcome (host.compile index body name scope h' s').1 =
      compileOutcome (host.compile index body name scope h s).1

/-- Handlers find their free names in the same places, and the shared sink is the same. -/
structure World.SamePlaces (w w' : World σ) : Prop where
  scope (t : ElementId) (global : ObjectId) : w'.handlerScope t global = w.handlerScope t global
  sharedSink : w'.sharedSink = w.sharedSink

theorem World.SamePlaces.refl (w : World σ) : w.SamePlaces w := ⟨fun _ _ => rfl, rfl⟩

theorem World.SamePlaces.trans {w w' w'' : World σ} (first : w.SamePlaces w')
    (second : w'.SamePlaces w'') : w.SamePlaces w'' where
  scope t global := (second.scope t global).trans (first.scope t global)
  sharedSink := second.sharedSink.trans first.sharedSink

/-- The setting is the same, and nothing was reported. -/
structure World.SameSetting (noted : σ → List τ) (w w' : World σ) : Prop extends w.SamePlaces w' where
  noted : noted w'.embedder = noted w.embedder

/-- The setting is the same, and this was reported. -/
structure World.Reported (noted : σ → List τ) (reported : List τ) (w w' : World σ) : Prop extends
    w.SamePlaces w' where
  noted : noted w'.embedder = noted w.embedder ++ reported

/-- What was reported can be read off the state of an embedder, whose sinks leave handlers and their
setting alone. -/
structure Host.Notes (host : Host σ) (noted : σ → List τ) (entry : Sink → CompileError → τ) : Prop where
  report (sink : Sink) (error : CompileError) (w : World σ) :
    noted (after host (sink.report error.toScriptError) w).embedder =
      noted w.embedder ++ [entry sink error]
  react (sink : Sink) (error : ScriptError) (w : World σ) :
    w.SameRecords (host.react sink error w) ∧ w.SameSetting noted (host.react sink error w)
  record (level : LogLevel) (plain : level ≠ .error) (message : String) (s : σ) :
    noted (host.record level message s) = noted s
  blocks (index : Nat) (source : String) (s : σ) : noted (host.blocks index source s).2 = noted s
  checkSyntax (index : Nat) (body : String) (s : σ) :
    noted (host.checkSyntax index body s).2 = noted s
  compile (index : Nat) (body name : String) (scope : HandlerScope) (h : Heap) (s : σ) :
    noted (host.compile index body name scope h s).2.2 = noted s

namespace World.SameSetting

variable {noted : σ → List τ} {reported : List τ} {w w' w'' : World σ}

theorem trans (first : w.SameSetting noted w') (second : w'.SameSetting noted w'') :
    w.SameSetting noted w'' :=
  ⟨first.toSamePlaces.trans second.toSamePlaces, second.noted.trans first.noted⟩

instance : IsPreorder (World σ) (World.SameSetting noted) where
  refl w := ⟨.refl w, rfl⟩
  trans _ _ _ := trans

theorem of_noted {heap : Heap} {embedder : σ} (same : noted embedder = noted w.embedder) :
    w.SameSetting noted { w with heap, embedder } := ⟨⟨fun _ _ => rfl, rfl⟩, same⟩

theorem reported_nil (same : w.SameSetting noted w') : w.Reported noted [] w' :=
  ⟨same.toSamePlaces, same.noted.trans (List.append_nil _).symm⟩

theorem reported_after (same : w.SameSetting noted w') (told : w'.Reported noted reported w'') :
    w.Reported noted reported w'' :=
  ⟨same.toSamePlaces.trans told.toSamePlaces, by rw [told.noted, same.noted]⟩

theorem modifyElement (w : World σ) (t : ElementId) {f : Element → Element}
    (object : ∀ e, (f e).object = e.object) (form : ∀ e, (f e).form = e.form)
    (document : ∀ e, (f e).document = e.document) :
    w.SameSetting noted (w.modifyElement t f) := by
  refine ⟨⟨fun u global => ?_, rfl⟩, rfl⟩
  have belongs : ((w.modifyElement t f).element u).object = (w.element u).object ∧
      ((w.modifyElement t f).element u).form = (w.element u).form ∧
      ((w.modifyElement t f).element u).document = (w.element u).document := by
    rw [World.element_modifyElement]
    split
    · exact ⟨object _, form _, document _⟩
    · exact ⟨rfl, rfl, rfl⟩
  simp only [handlerScope, belongs]
  rfl

end World.SameSetting

theorem World.Reported.followed {noted : σ → List τ} {reported : List τ} {w w' w'' : World σ}
    (told : w.Reported noted reported w') (same : w'.SameSetting noted w'') :
    w.Reported noted reported w'' :=
  ⟨told.toSamePlaces.trans same.toSamePlaces, same.noted.trans told.noted⟩

section Settings

variable {host : Host σ} {noted : σ → List τ} {entry : Sink → CompileError → τ}
  (notes : host.Notes noted entry)

namespace Host.Notes

include notes

theorem log {level : LogLevel} (plain : level ≠ .error) (message : String) :
    Moves host (World.SameSetting noted) (log level message) :=
  fun w => .of_noted (notes.record level plain message w.embedder)

theorem engine_checkSyntax (engine : Engine) (body : String) :
    Moves host (World.SameSetting noted) (engine.checkSyntax body) := by
  cases engine with
  | builtin =>
    rw [Engine.checkSyntax]
    split <;> exact Moves.pure _
  | external index => exact fun w => .of_noted (notes.checkSyntax index body w.embedder)

theorem engine_compile (engine : Engine) (body name : String) (scope : HandlerScope) :
    Moves host (World.SameSetting noted) (engine.compile body name scope) := by
  cases engine with
  | builtin =>
    rw [Engine.compile]
    split
    · refine (notes.log (by decide) _).bind fun _ => ?_
      exact Moves.bind (fun w => .of_noted rfl) fun _ => Moves.pure _
    · exact Moves.pure _
  | external index => exact fun w => .of_noted (notes.compile index body name scope w.heap w.embedder)

theorem logCompiled (env : HandlerEnvironment) (name source : String) :
    Moves host (World.SameSetting noted) (env.logCompiled name source) := by
  rw [HandlerEnvironment.logCompiled]
  split
  · exact notes.log (by decide) _
  · exact notes.log (by decide) _

theorem environment_compile (env : HandlerEnvironment) (source type : String) (target : ElementId) :
    Moves host (World.SameSetting noted) (env.compile source type target) := by
  refine (notes.engine_checkSyntax env.engine source).bind fun checked => ?_
  cases checked with
  | error error => exact Moves.pure _
  | ok _ =>
    refine Moves.get.bind fun w => (notes.engine_compile env.engine _ _ _).bind fun compiled => ?_
    cases compiled with
    | error error => exact Moves.pure _
    | ok function => exact (notes.logCompiled env _ _).bind fun _ => Moves.pure _

theorem refuses (env : HandlerEnvironment) (source : String) :
    Moves host (World.SameSetting noted) (env.refuses source) := by
  rw [HandlerEnvironment.refuses]
  split
  · rw [Policy.check]
    split
    · exact Moves.pure _
    · exact (notes.log (by decide) _).bind fun _ => Moves.pure _
  · exact fun w => .of_noted (notes.blocks _ source w.embedder)
  · refine (notes.engine_checkSyntax env.engine source).bind fun checked => ?_
    cases checked <;> exact Moves.pure _

theorem isBlocked (env : HandlerEnvironment) (source type : String) :
    Moves host (World.SameSetting noted) (env.isBlocked source type) := by
  refine (notes.refuses env source).bind fun blocked => ?_
  cases blocked with
  | true => exact (notes.log (by decide) _).bind fun _ => Moves.pure _
  | false => exact Moves.pure _

theorem upkeep : Upkeep host (World.SameSetting noted) where
  record _ plain message w := .of_noted (notes.record _ plain message w.embedder)
  handlers _ _ _ := ⟨⟨fun _ _ => rfl, rfl⟩, rfl⟩
  add w target _ _ := .modifyElement w target (fun _ => rfl) (fun _ => rfl) fun _ => rfl
  remove w target _ _ := .modifyElement w target (fun _ => rfl) (fun _ => rfl) fun _ => rfl

theorem setValue (h : HandlerId) (value : HandlerValue) :
    Moves host (World.SameSetting noted) (h.setValue value) :=
  have := notes.upkeep
  h.setValue_moves value

theorem set (h : HandlerId) (value : Value) : Moves host (World.SameSetting noted) (h.set value) :=
  have := notes.upkeep
  h.set_moves value

theorem followAttribute (h : HandlerId) (text : Option String) :
    Moves host (World.SameSetting noted) (h.followAttribute text) :=
  have := notes.upkeep
  h.followAttribute_moves_of notes.isBlocked text

theorem touch (m : HandlerMapId) (property : String) :
    Moves host (World.SameSetting noted) (m.handler? property) :=
  have := notes.upkeep
  m.handler?_moves property

theorem tell (r : Reporter) (error : CompileError) (w : World σ) :
    w.Reported noted [entry (r.sink? w.sharedSink) error]
      (after host (r.tell error.toScriptError) w) := by
  have keeps : w.SameSetting (fun _ => ([] : List τ)) (after host (r.tell error.toScriptError) w) :=
    have : Recording host (World.SameSetting fun _ => ([] : List τ)) :=
      ⟨fun _ _ _ => .of_noted rfl, fun _ _ _ _ => .of_noted rfl, fun _ _ _ => .of_noted rfl⟩
    r.tell_moves _ w
  exact ⟨keeps.toSamePlaces, notes.report _ error w⟩

theorem current {w : World σ} {h : HandlerId} {s : EventHandler} {source : String}
    (found : w.handler? h = some s) (pending : s.value = .uncompiled source) :
    let result := (outcome host (s.environment.compile source s.type s.target) w).1
    (outcome host h.current w).1 = result.toOption ∧
      (w.revise h s (.ofCompilation result)).SameRecords (after host h.current w) ∧
      w.Reported noted
        (match result with
          | .ok _ => []
          | .error error => [entry (s.environment.reporter.sink? w.sharedSink) error])
        (after host h.current w) := by
  have records := h.compilePending_revise host found source
  have compiling := notes.environment_compile s.environment source s.type s.target w
  cases compiled : outcome host (s.environment.compile source s.type s.target) w with
  | mk result w₁ =>
    rw [after, compiled] at compiling
    cases result with
    | ok function =>
      simp only [after, HandlerId.compilePending, compiled, outcome_bind] at records
      simp only [after, h.current_of_success host found pending compiled]
      have kept : w₁.SameSetting noted (after host (h.setValue (.compiled function)) w₁) :=
        notes.setValue h _ w₁
      exact ⟨rfl, records, (compiling.trans kept).reported_nil⟩
    | error error =>
      let reporter := s.environment.reporter
      let message := "Failed to compile on" ++ s.type ++ " handler: " ++ error.shown
      let w₂ := after host (h.setValue .none) (after host (WebBindings.log .debug message) w₁)
      let w₃ := after host (reporter.tell error.toScriptError) w₂
      have logged : w.SameSetting noted w₂ :=
        (compiling.trans (notes.log (by decide) message w₁)).trans (notes.setValue h _ _)
      have told : w₂.Reported noted [entry (reporter.sink? w.sharedSink) error] w₃ :=
        logged.sharedSink ▸ notes.tell reporter error w₂
      have reacted := notes.react (reporter.sink? w₃.sharedSink) error.toScriptError w₃
      simp only [after, HandlerId.compilePending, compiled, outcome_bind] at records
      simp only [after, h.current_of_failure host found pending compiled]
      exact ⟨rfl, World.SameRecords.trans records reacted.1,
        (logged.reported_after told).followed reacted.2⟩

end Host.Notes

end Settings

section Answers

/-- What compiling a text comes to, but for the function: the text is checked, then compiled in the
scope of its element. -/
theorem HandlerEnvironment.compileOutcome_compile (host : Host σ) (env : HandlerEnvironment)
    (source type : String) (target : ElementId) (w : World σ) :
    compileOutcome (outcome host (env.compile source type target) w).1 =
      match (outcome host (env.engine.checkSyntax source) w).1 with
      | .error error => .error error
      | .ok _ =>
        let w' := after host (env.engine.checkSyntax source) w
        compileOutcome (outcome host (env.engine.compile source ("on" ++ type)
          (w'.handlerScope target env.global)) w').1 := by
  rw [compile, outcome_bind, after]
  generalize outcome host (env.engine.checkSyntax source) w = checked
  obtain ⟨checked, w'⟩ := checked
  cases checked with
  | error error => rfl
  | ok _ =>
    dsimp only
    rw [outcome_bind, outcome_get, outcome_bind]
    generalize outcome host (env.engine.compile source ("on" ++ type)
      (w'.handlerScope target env.global)) w' = compiled
    obtain ⟨compiled, w''⟩ := compiled
    cases compiled with
    | error error => rfl
    | ok function =>
      rw [outcome_bind]
      rfl

variable {host : Host σ} (impartial : host.Impartial) (w w' : World σ)

namespace Host.Impartial

include impartial

theorem engine_checkSyntax (engine : Engine) (body : String) :
    (outcome host (engine.checkSyntax body) w').1 = (outcome host (engine.checkSyntax body) w).1 := by
  cases engine with
  | builtin =>
    rw [Engine.checkSyntax]
    split <;> rfl
  | external index => exact impartial.checkSyntax index body w.embedder w'.embedder

theorem engine_compile (engine : Engine) (body name : String) (scope : HandlerScope) :
    compileOutcome (outcome host (engine.compile body name scope) w').1 =
      compileOutcome (outcome host (engine.compile body name scope) w).1 := by
  cases engine with
  | builtin =>
    rw [Engine.compile]
    split <;> rfl
  | external index => exact impartial.compile index body name scope w.heap w'.heap w.embedder w'.embedder

theorem refuses (env : HandlerEnvironment) (source : String) :
    (outcome host (env.refuses source) w').1 = (outcome host (env.refuses source) w).1 := by
  rw [HandlerEnvironment.refuses]
  split
  · rw [Policy.check]
    split <;> rfl
  · exact impartial.blocks _ source w.embedder w'.embedder
  · rw [outcome_bind, outcome_bind, impartial.engine_checkSyntax w w']
    cases (outcome host (env.engine.checkSyntax source) w).1 <;> rfl

theorem isBlocked (env : HandlerEnvironment) (source type : String) :
    (outcome host (env.isBlocked source type) w').1 =
      (outcome host (env.isBlocked source type) w).1 := by
  rw [HandlerEnvironment.isBlocked, outcome_bind, outcome_bind, impartial.refuses w w']
  cases (outcome host (env.refuses source) w).1 <;> rfl

theorem environment_compile (env : HandlerEnvironment) (source type : String) {target : ElementId}
    (scope : w'.handlerScope target env.global = w.handlerScope target env.global) :
    compileOutcome (outcome host (env.compile source type target) w').1 =
      compileOutcome (outcome host (env.compile source type target) w).1 := by
  have reached (u : World σ) : (after host (env.engine.checkSyntax source) u).handlerScope target
      env.global = u.handlerScope target env.global := by
    have computed : Moves host World.Computed (env.engine.checkSyntax source) :=
      env.engine.checkSyntax_computed source
    obtain ⟨heap, embedder, same⟩ := computed u
    rw [same]
    rfl
  rw [env.compileOutcome_compile, env.compileOutcome_compile, impartial.engine_checkSyntax w w']
  cases (outcome host (env.engine.checkSyntax source) w).1 with
  | error error => rfl
  | ok checked =>
    dsimp only
    rw [reached, reached, scope]
    exact impartial.engine_compile _ _ env.engine source _ _

end Host.Impartial

end Answers

end WebBindings
