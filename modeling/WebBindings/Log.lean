/-!
# Log levels

The severities of log records, from the most detailed to the most severe.
-/

namespace WebBindings

inductive LogLevel
  | trace
  | debug
  | info
  | warn
  | error
deriving DecidableEq

namespace LogLevel

def name : LogLevel → String
  | .trace => "TRACE"
  | .debug => "DEBUG"
  | .info => "INFO"
  | .warn => "WARN"
  | .error => "ERROR"

/-- The levels from the most severe to the most detailed. -/
def all : List LogLevel := [.error, .warn, .info, .debug, .trace]

def detail (level : LogLevel) : Nat := all.idxOf level

def ofName? (name : String) : Option LogLevel := all.find? fun level => level.name = name.toUpper

/-- What a record for scripts begins with. -/
def consoleLine (message : String) : String := "[JS]: " ++ message

/-- A record of an exception; a stack that is not empty follows on its own lines. -/
def exceptionLine (message : String) (stack : Option String) : String :=
  consoleLine message ++
    (match stack with
      | some frames => if frames.isEmpty then "" else "\n" ++ frames
      | none => "")

end LogLevel

end WebBindings
