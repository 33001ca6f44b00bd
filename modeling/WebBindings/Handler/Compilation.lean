import WebBindings.Node.Element
import WebBindings.Script.Parse
/-!
# Compiling handlers

The text of a content attribute becomes a function in two steps: it is first checked by itself, then
compiled in the scope of its element.
-/

namespace WebBindings

variable {σ : Type}

namespace Engine

def checkSyntax (e : Engine) (body : String) : Action σ (Except CompileError Unit) := do
  match e with
  | .builtin =>
    match Script.Program.ofText? body with
    | .ok _ => return .ok ()
    | .error fault => return .error (.invalid fault)
  | .external index =>
    let host ← read
    modifyGet fun w =>
      let (answer, embedder) := host.checkSyntax index body w.embedder
      (answer, { w with embedder })

/-- Make a function of a body, whose free names are found in a scope. -/
def compile (e : Engine) (body name : String) (scope : HandlerScope) :
    Action σ (Except CompileError ObjectId) := do
  match e with
  | .builtin =>
    match Script.Program.ofText? body with
    | .ok program =>
      log .trace ("Parsed " ++ name ++ " into " ++ toString program.body.length ++ " statement(s)")
      return .ok (← allocate fun h => h.newFunction name (.handler program scope.chain))
    | .error fault => return .error (.invalid fault)
  | .external index =>
    let host ← read
    modifyGet fun w =>
      let (answer, heap, embedder) := host.compile index body name scope w.heap w.embedder
      (answer, { w with heap, embedder })

end Engine

namespace HandlerEnvironment

def logCompiled (env : HandlerEnvironment) (name source : String) : Action σ Unit :=
  let line := "Compiled inline handler " ++ name
  if env.logCompiles then log .info (line ++ ": " ++ Quoted.encode source) else log .debug line

/-- Compile the text of a handler for an element. -/
def compile (env : HandlerEnvironment) (source type : String) (target : ElementId) :
    Action σ (Except CompileError ObjectId) := do
  match ← env.engine.checkSyntax source with
  | .error error => return .error error
  | .ok () =>
    let name := "on" ++ type
    let scope := (← get).handlerScope target env.global
    match ← env.engine.compile source name scope with
    | .error error => return .error error
    | .ok function =>
      env.logCompiled name source
      return .ok function

end HandlerEnvironment

end WebBindings
