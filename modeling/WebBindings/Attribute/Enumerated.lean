import WebBindings.OrderedMap
import WebBindings.Text.Ascii
/-!
# Enumerated attributes

Attributes with a fixed list of keywords. Letter case does not matter, further spellings may stand
for a keyword, and there may be a keyword for absent and one for unknown values.
-/

namespace WebBindings

namespace Enumerated

structure Options where
  keywords : List String
  /-- Further spellings, each with its keyword. -/
  aliases : List (String × String)
  /-- The keyword of an absent attribute. -/
  missing : Option String
  /-- The keyword of an unknown value. -/
  invalid : Option String
deriving DecidableEq

inductive Fault
  | duplicateKeyword (keyword : String)
  | aliasIsKeyword (spelling : String)
  | unknownTarget (spelling target : String)
  | unknownMissing (keyword : String)
  | unknownInvalid (keyword : String)
deriving DecidableEq

namespace Fault

def name : Fault → String
  | .duplicateKeyword _ => "DuplicateKeyword"
  | .aliasIsKeyword _ => "AliasCollidesWithKeyword"
  | .unknownTarget .. => "AliasTargetUnknown"
  | .unknownMissing _ => "MissingDefaultUnknown"
  | .unknownInvalid _ => "InvalidDefaultUnknown"

def message : Fault → String
  | .duplicateKeyword keyword => "keyword '" ++ keyword ++ "' is listed twice"
  | .aliasIsKeyword spelling => "alias '" ++ spelling ++ "' collides with a keyword"
  | .unknownTarget spelling target =>
    "alias '" ++ spelling ++ "' maps to unknown keyword '" ++ target ++ "'"
  | .unknownMissing keyword => "missing value default '" ++ keyword ++ "' is not a keyword"
  | .unknownInvalid keyword => "invalid value default '" ++ keyword ++ "' is not a keyword"

end Fault

end Enumerated

/-- An enumerated attribute: its keywords, and the place of a keyword for each spelling in lower case. -/
structure Enumerated where
  keywords : List String
  spellings : OrderedMap String Nat
  missing : Option Nat
  invalid : Option Nat

namespace Enumerated

/-- Add keywords from a place on. They must differ in more than letter case. -/
def addKeywords (known : OrderedMap String Nat) (place : Nat) :
    List String → Except Fault (OrderedMap String Nat)
  | [] => .ok known
  | keyword :: rest =>
    if known.contains (Ascii.lower keyword) then .error (.duplicateKeyword keyword)
    else addKeywords (known.insert (Ascii.lower keyword) place) (place + 1) rest

/-- The places of further spellings, none of which may be that of a keyword. -/
def aliasPlaces (keywords : List String) (known : OrderedMap String Nat) :
    List (String × String) → Except Fault (List (String × Nat))
  | [] => .ok []
  | (spelling, target) :: rest =>
    if known.contains (Ascii.lower spelling) then .error (.aliasIsKeyword spelling)
    else
      match keywords.idxOf? target with
      | none => .error (.unknownTarget spelling target)
      | some place => do return (Ascii.lower spelling, place) :: (← aliasPlaces keywords known rest)

/-- Add spellings with their places; the last one of a spelling counts. -/
def extend (known : OrderedMap String Nat) (places : List (String × Nat)) : OrderedMap String Nat :=
  places.foldl (fun known entry => known.insert entry.1 entry.2) known

/-- The place of a keyword for special cases, if there is one; it must be among the keywords. -/
def defaultPlace (keywords : List String) (fault : String → Fault) :
    Option String → Except Fault (Option Nat)
  | none => .ok none
  | some keyword =>
    match keywords.idxOf? keyword with
    | none => .error (fault keyword)
    | some place => .ok (some place)

def ofOptions? (o : Options) : Except Fault Enumerated := do
  let known ← addKeywords .empty 0 o.keywords
  let places ← aliasPlaces o.keywords known o.aliases
  let missing ← defaultPlace o.keywords .unknownMissing o.missing
  let invalid ← defaultPlace o.keywords .unknownInvalid o.invalid
  return ⟨o.keywords, extend known places, missing, invalid⟩

/-- The keyword of a spelling, or of an absent attribute. -/
def lookup (e : Enumerated) (text : Option String) : Option String :=
  let place :=
    match text with
    | none => e.missing
    | some text => (e.spellings.get? (Ascii.lower text)).or e.invalid
  place.bind fun place => e.keywords[place]?

end Enumerated

end WebBindings
