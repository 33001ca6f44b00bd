import WebBindings.OrderedMap
import WebBindings.Text.Ascii
import WebBindings.Text.Quoted
/-!
# Content security policies

A policy header is a list of directives, each a name and its sources. Compiling text as a script
violates a policy whose script sources do not allow it; whether a violation also blocks depends on
the disposition of the policy.
-/

namespace WebBindings

inductive Disposition
  | enforce
  | report
deriving DecidableEq

namespace Disposition

def name : Disposition → String
  | .enforce => "enforce"
  | .report => "report"

end Disposition

structure Policy where
  directives : OrderedMap String (List String)
  disposition : Disposition
deriving DecidableEq

namespace Policy

inductive Fault
  | noDirectives
  | invalidName (name : String)
deriving DecidableEq

namespace Fault

def name : Fault → String
  | .noDirectives => "Empty"
  | .invalidName _ => "InvalidDirectiveName"

def message : Fault → String
  | .noDirectives => "policy contains no directives"
  | .invalidName name => "invalid directive name '" ++ name ++ "'"

end Fault

/-- Directives in the order of a header, and the names that were given again on the way. -/
abbrev Reading := Except Fault (OrderedMap String (List String)) × List String

def isNameChar (c : Char) : Bool := Ascii.isAlphanumeric c || c = '-'

/-- Read segments of a header after some directives are known. The first directive of a name counts,
and the first invalid name ends the reading. -/
def readDirectives (known : OrderedMap String (List String)) : List String → Reading
  | [] => (.ok known, [])
  | segment :: rest =>
    match Ascii.runs Ascii.isWhitespace segment with
    | [] => readDirectives known rest
    | name :: sources =>
      if name.toList.all isNameChar then
        let key := Ascii.lower name
        if known.contains key then
          let (result, repeated) := readDirectives known rest
          (result, key :: repeated)
        else readDirectives (known.insert key sources) rest
      else (.error (.invalidName name), [])

def segments (header : String) : List String :=
  (Ascii.splitOn (· = ';') header.toList).map String.ofList

/-- The policy of a header, and the directive names it gives more than once. -/
def parse (header : String) (disposition : Disposition) : Except Fault Policy × List String :=
  let (result, repeated) := readDirectives .empty (segments header)
  (result.bind fun directives =>
    if directives.entries.isEmpty then .error .noDirectives else .ok ⟨directives, disposition⟩,
    repeated)

def directive (p : Policy) (name : String) : Option (List String) := p.directives.get? name

/-- The sources that govern scripts: those of `script-src`, else those of `default-src`. -/
def scriptSources (p : Policy) : Option (List String) :=
  match p.directive "script-src" with
  | some sources => some sources
  | none => p.directive "default-src"

def allowsCompilation (sources : List String) : Bool :=
  sources.any fun source => Ascii.sameFold source "'unsafe-eval'"

/-- A text that was to be compiled against a policy. -/
structure Violation where
  disposition : Disposition
  sample : String
deriving DecidableEq

namespace Violation

/-- The directive that reports name, also where another one governs. -/
def directive (_ : Violation) : String := "script-src"

/-- What reports give as the blocked resource. -/
def resource (_ : Violation) : String := "eval"

def blocks (v : Violation) : Bool := v.disposition = .enforce

def record (v : Violation) : String :=
  "CSP violation (" ++ v.disposition.name ++ "): " ++ v.directive ++ " '" ++ v.resource ++
    "' blocked, sample " ++ Quoted.encode v.sample

end Violation

/-- How much of a text a violation shows. -/
def sampleLimit : Nat := 40

def violation? (p : Policy) (source : String) : Option Violation :=
  match p.scriptSources with
  | none => none
  | some sources =>
    if allowsCompilation sources then none
    else some ⟨p.disposition, String.ofList (source.toList.take sampleLimit)⟩

def blocks (p : Policy) (source : String) : Bool := (p.violation? source).any Violation.blocks

end Policy

end WebBindings
