import WebBindings.Proofs.Handler.Reading
/-!
# The built-in engine

The built-in engine only refuses a text for its syntax, whatever words its message has. Where nothing
else gates them, all texts become handlers; one that is no program is reported when it is first read.
-/

namespace WebBindings

variable {σ τ : Type} {observe : σ → τ}

section Builtin

variable (host : Host σ) {w : World σ} {body : String} {program : Script.Program}
  {fault : Script.SyntaxFault}

namespace Engine

theorem outcome_checkSyntax_of_program (parsed : Script.Program.ofText? body = .ok program) :
    outcome host (builtin.checkSyntax body) w = (.ok (), w) := by
  simp [checkSyntax, parsed]

theorem outcome_checkSyntax_of_fault (failed : Script.Program.ofText? body = .error fault) :
    outcome host (builtin.checkSyntax body) w = (.error (.invalid fault), w) := by
  simp [checkSyntax, failed]

theorem outcome_compile_of_program (parsed : Script.Program.ofText? body = .ok program) (name : String)
    (scope : HandlerScope) : outcome host (builtin.compile body name scope) w = outcome host (do
      log .trace ("Parsed " ++ name ++ " into " ++ toString program.body.length ++ " statement(s)")
      return .ok (← allocate fun h => h.newFunction name (.handler program scope.chain))) w := by
  simp [compile, parsed]

theorem outcome_compile_of_fault (failed : Script.Program.ofText? body = .error fault) (name : String)
    (scope : HandlerScope) :
    outcome host (builtin.compile body name scope) w = (.error (.invalid fault), w) := by
  simp [compile, failed]

end Engine

namespace HandlerEnvironment

variable {env : HandlerEnvironment} (builtin : env.engine = .builtin)

include builtin

theorem isBlocked_of_builtin (ungated : env.gate = .bySyntaxCheck) (source type : String) :
    outcome host (env.isBlocked source type) w = (false, w) := by
  cases parsed : Script.Program.ofText? source <;>
    simp [isBlocked, refuses, ungated, builtin, Engine.checkSyntax, parsed, CompileError.isRefusal,
      CompileError.kind]

theorem compile_of_program (parsed : Script.Program.ofText? body = .ok program) (type : String)
    (target : ElementId) : outcome host (env.compile body type target) w = outcome host (do
      log .trace ("Parsed " ++ ("on" ++ type) ++ " into " ++ toString program.body.length ++ " statement(s)")
      let function ← allocate fun h =>
        h.newFunction ("on" ++ type) (.handler program (w.handlerScope target env.global).chain)
      env.logCompiled ("on" ++ type) body
      return .ok function) w := by
  simp [compile, builtin, Engine.outcome_checkSyntax_of_program host parsed,
    Engine.outcome_compile_of_program host parsed]

theorem compile_of_fault (failed : Script.Program.ofText? body = .error fault) (type : String)
    (target : ElementId) :
    outcome host (env.compile body type target) w = (.error (.invalid fault), w) := by
  simp [compile, builtin, Engine.outcome_checkSyntax_of_fault host failed]

end HandlerEnvironment

namespace HandlerId

variable {h : HandlerId} {s : EventHandler}

theorem current_of_program (found : w.handler? h = some s) (pending : s.value = .uncompiled body)
    (builtin : s.environment.engine = .builtin) (parsed : Script.Program.ofText? body = .ok program) :
    outcome host h.current w = outcome host (do
      log .trace ("Parsed " ++ ("on" ++ s.type) ++ " into " ++ toString program.body.length ++ " statement(s)")
      let function ← allocate fun h => h.newFunction ("on" ++ s.type)
        (.handler program (w.handlerScope s.target s.environment.global).chain)
      s.environment.logCompiled ("on" ++ s.type) body
      h.setValue (.compiled function)
      return some function) w := by
  simp [current, found, pending, compilePending,
    s.environment.compile_of_program host builtin parsed]

theorem current_of_fault (found : w.handler? h = some s) (pending : s.value = .uncompiled body)
    (builtin : s.environment.engine = .builtin) (failed : Script.Program.ofText? body = .error fault) :
    outcome host h.current w = outcome host (do
      log .debug ("Failed to compile on" ++ s.type ++ " handler: " ++ (CompileError.invalid fault).shown)
      h.setValue .none
      s.environment.reporter.report (.raised (.native .syntactic) fault.message)
      return none) w := by
  have failure := h.current_of_failure host found pending
    (s.environment.compile_of_fault host builtin failed s.type s.target)
  rw [failure]
  simp [after, CompileError.toScriptError, CompileError.kind, CompileError.message]

end HandlerId

end Builtin

theorem History.unblocked_of_builtin {w w' : World σ} {before later : List Happening} {h : HandlerId}
    {text : String} {blocked : Bool} {s : EventHandler}
    (run : History observe w (before ++ .follow h (some text) blocked :: later) w')
    (found : w'.handler? h = some s) (builtin : s.environment.engine = .builtin)
    (ungated : s.environment.gate = .bySyntaxCheck) : blocked = false := by
  obtain ⟨w₁, -, hrest⟩ := run.split
  have retains := hrest.retains
  cases hrest with
  | cons happens _ =>
    cases happens with
    | @follow host engines _ _ s₁ found₁ =>
      obtain ⟨s', found', -, -, henvironment⟩ := retains.handler found₁
      rw [found] at found'
      cases found'
      rw [EventHandler.blocks, s₁.environment.isBlocked_of_builtin host (henvironment ▸ builtin)
        (henvironment ▸ ungated)]

/-- Until it is written again or read, a text that a handler with the built-in engine follows without a
policy is its value. -/
theorem History.pending_of_builtin {x : σ} {w : World σ} {before later : List Happening} {h : HandlerId}
    {text : String} {blocked : Bool} {s : EventHandler}
    (run : History observe (.initial x) (before ++ .follow h (some text) blocked :: later) w)
    (found : w.handler? h = some s) (builtin : s.environment.engine = .builtin)
    (ungated : s.environment.gate = .bySyntaxCheck)
    (idle : ∀ a ∈ later, a.writes h = false ∧ a.compiles h = false) :
    s.value = .uncompiled text ∧ s.activation.isActive = true := by
  have hblocked := run.unblocked_of_builtin found builtin ungated
  subst hblocked
  obtain ⟨w₀, hbefore, hrest⟩ := run.split
  cases hrest with
  | @cons _ w₁ _ _ _ happens hlater =>
    have hstands := ((World.Stands.initial x h).history hbefore).change happens.change
    rw [Standing.next, if_pos rfl] at hstands
    obtain ⟨hend, -⟩ | ⟨source, early, result, rest, -, rfl, -⟩ :=
      hstands.until_written hlater fun a ha => (idle a ha).1
    · exact hend.of_found found
    · obtain ⟨-, compiled⟩ := idle _ (List.mem_append_right _ List.mem_cons_self)
      simp [Happening.compiles] at compiled

/-- The built-in engine fails with syntax errors only, in a check exactly when in a compilation. Without
a policy it blocks no text, whatever words are in it: a text that a handler follows is its value,
behind its one listener, until it is written again or read. The first read makes a function of a
program; of another text it makes nothing and reports one `SyntaxError`. -/
theorem builtin_engine_never_refuses (observe : σ → τ) (x : σ) :
    (∀ (host : Host σ) w body,
      (∀ error, (outcome host (Engine.builtin.checkSyntax body) w).1 = .error error →
        error.kind = .syntactic) ∧
      (∀ name scope error, (outcome host (Engine.builtin.compile body name scope) w).1 = .error error →
        error.kind = .syntactic) ∧
      ∀ name scope, (outcome host (Engine.builtin.checkSyntax body) w).1 = .ok () ↔
        ∃ function, (outcome host (Engine.builtin.compile body name scope) w).1 = .ok function) ∧
    (∀ env : HandlerEnvironment, env.engine = .builtin → env.gate = .bySyntaxCheck →
      ∀ (host : Host σ) w source type, outcome host (env.isBlocked source type) w = (false, w)) ∧
    (∀ w, Session observe x (.initial x) w → ∃ history, History observe (.initial x) history w) ∧
    ∀ before text blocked later h s w,
      History observe (.initial x) (before ++ .follow h (some text) blocked :: later) w →
      w.handler? h = some s → s.environment.engine = .builtin → s.environment.gate = .bySyntaxCheck →
      (∀ a ∈ later, a.writes h = false ∧ a.compiles h = false) →
      blocked = false ∧ s.value = .uncompiled text ∧
      (∃ id, s.activation.registration = some id ∧ (w.element s.target).madeBy h =
        [⟨id, s.type, .runCallback (.handler h) s.environment.reporter⟩]) ∧
      ∀ host : Host σ, match Script.Program.ofText? text with
        | .ok program => outcome host h.current w = outcome host (do
            log .trace ("Parsed " ++ ("on" ++ s.type) ++ " into " ++ toString program.body.length ++
              " statement(s)")
            let function ← allocate fun h => h.newFunction ("on" ++ s.type)
              (.handler program (w.handlerScope s.target s.environment.global).chain)
            s.environment.logCompiled ("on" ++ s.type) text
            h.setValue (.compiled function)
            return some function) w
        | .error fault => outcome host h.current w = outcome host (do
            log .debug ("Failed to compile on" ++ s.type ++ " handler: " ++ (CompileError.invalid fault).shown)
            h.setValue .none
            s.environment.reporter.report (.raised (.native .syntactic) fault.message)
            return none) w := by
  refine ⟨fun host w body => ?_, fun env builtin ungated host w source type =>
    env.isBlocked_of_builtin host builtin ungated source type, fun w session => session.reached, ?_⟩
  · cases parsed : Script.Program.ofText? body with
    | ok program =>
      simp only [Engine.outcome_checkSyntax_of_program host parsed]
      refine ⟨?_, fun name scope error failed => ?_, fun name scope => ?_⟩
      · rintro error ⟨⟩
      · simp [Engine.outcome_compile_of_program host parsed] at failed
      · simp [Engine.outcome_compile_of_program host parsed]
    | error fault =>
      simp only [Engine.outcome_checkSyntax_of_fault host parsed,
        Engine.outcome_compile_of_fault host parsed]
      refine ⟨?_, ?_, ?_⟩
      · rintro error ⟨⟩
        rfl
      · rintro name scope error ⟨⟩
        rfl
      · simp
  · intro before text blocked later h s w run found builtin ungated idle
    obtain ⟨pending, active⟩ := run.pending_of_builtin found builtin ungated idle
    obtain ⟨linked, -⟩ := run.linked (.initial x) (.initial x)
    obtain ⟨id, hid⟩ := Option.isSome_iff_exists.1 active
    refine ⟨run.unblocked_of_builtin found builtin ungated, pending,
      ⟨id, hid, (linked.linked found).madeBy_eq hid⟩, fun host => ?_⟩
    split
    · rename_i program parsed
      exact h.current_of_program host found pending builtin parsed
    · rename_i fault failed
      exact h.current_of_fault host found pending builtin failed

/-- The environment of handlers that leaves nothing but records to the embedder. -/
def HandlerEnvironment.plain : HandlerEnvironment :=
  { HandlerEnvironment.idle with engine := .builtin, gate := .bySyntaxCheck }

/-- A text whose failure names what engines say when they refuse texts is taken for all that, and its
failure is a syntax error. -/
theorem refusing_words_are_syntax_errors :
    let fault : Script.SyntaxFault := .unexpected (.identifier "EvalError") 2
    Script.Program.ofText? "x EvalError" = .error fault ∧
    (CompileError.refusals.any fun phrase => Ascii.occursIn phrase fault.message) = true ∧
    ∃ (w : World Nat) (s : EventHandler), w.handler? ⟨0⟩ = some s ∧ s.value = .uncompiled "x EvalError" ∧
      ∀ host : Host Nat, outcome host (⟨0⟩ : HandlerId).current w = outcome host (do
        log .debug ("Failed to compile on" ++ s.type ++ " handler: " ++ (CompileError.invalid fault).shown)
        HandlerId.setValue ⟨0⟩ .none
        s.environment.reporter.report (.raised (.native .syntactic) fault.message)
        return none) w := by
  intro fault
  have lexed : Script.lexemes "x EvalError" = .ok [⟨.identifier "x", 0, 1, false⟩,
      ⟨.identifier "EvalError", 2, 11, false⟩, ⟨.endOfInput, 11, 11, false⟩] := by decide +kernel
  have failed : Script.Program.ofText? "x EvalError" = .error fault := by
    rw [Script.Program.ofText?, lexed]
    rfl
  refine ⟨failed, by decide +kernel, ?_⟩
  obtain ⟨w₀, made, found₀⟩ : ∃ w₀, History id (World.initial 0) [.other, .create ⟨0⟩ "click" .plain] w₀ ∧
      w₀.handler? ⟨0⟩ = some (.new ⟨0⟩ "click" .plain) :=
    ⟨_, .cons (.other ⟨World.createElement_sameHandling _ "div" none, rfl⟩)
      (.single (.create Embedder.idle.host Nat.zero_lt_one)), rfl⟩
  obtain ⟨w, blocked, followed⟩ : ∃ w blocked,
      History id w₀ [.follow ⟨0⟩ (some "x EvalError") blocked] w :=
    ⟨_, _, .single (.follow Embedder.idle_engines found₀)⟩
  obtain ⟨s, found, -, -, environment⟩ := followed.retains.handler found₀
  have builtin : s.environment.engine = .builtin := by rw [environment]; rfl
  have ungated : s.environment.gate = .bySyntaxCheck := by rw [environment]; rfl
  obtain ⟨-, -, -, runs⟩ := builtin_engine_never_refuses id 0
  obtain ⟨-, pending, -, read⟩ := runs [_, _] "x EvalError" blocked [] ⟨0⟩ s w (made.append followed)
    found builtin ungated (fun a ha => absurd ha List.not_mem_nil)
  simp only [failed] at read
  exact ⟨w, s, found, pending, read⟩

end WebBindings
