import WebBindings.Handler.Compilation
/-!
# The gate before compilation

Whether a content attribute may be compiled at all: a policy decides, or else the engine's own
refusal to compile.
-/

namespace WebBindings

variable {σ : Type}

/-- The policy of a header; names given again are recorded. -/
def readPolicy (header : String) (disposition : Disposition) :
    Action σ (Except Policy.Fault Policy) := do
  let (result, repeated) := Policy.parse header disposition
  repeated.forM fun name => log .debug ("Ignoring duplicate CSP directive '" ++ name ++ "'")
  return result

namespace Policy

/-- Whether a policy stops the compilation of a text; violations are recorded. -/
def check (p : Policy) (source : String) : Action σ Bool := do
  match p.violation? source with
  | none => return false
  | some violation =>
    log .warn violation.record
    return violation.blocks

end Policy

namespace CompileError

/-- What engines say when they refuse to compile because of a policy. -/
def refusals : List String :=
  ["Content Security Policy", "unsafe-eval", "EvalError", "Refused to evaluate"]

/-- Whether a failure is a refusal. The message only counts for failures without a kind. -/
def isRefusal (e : CompileError) : Bool :=
  match e.kind with
  | .blocked => true
  | .syntactic => false
  | .engine => refusals.any fun phrase => Ascii.occursIn phrase e.message

end CompileError

namespace HandlerEnvironment

def refuses (env : HandlerEnvironment) (source : String) : Action σ Bool := do
  match env.gate with
  | .policy p => p.check source
  | .external index =>
    let host ← read
    modifyGet fun w =>
      let (answer, embedder) := host.blocks index source w.embedder
      (answer, { w with embedder })
  | .bySyntaxCheck =>
    match ← env.engine.checkSyntax source with
    | .ok () => return false
    | .error error => return error.isRefusal

def isBlocked (env : HandlerEnvironment) (source type : String) : Action σ Bool := do
  let blocked ← env.refuses source
  if blocked then log .debug ("CSP blocked the on" ++ type ++ " content attribute")
  return blocked

end HandlerEnvironment

end WebBindings
