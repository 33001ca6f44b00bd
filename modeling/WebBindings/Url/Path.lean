import WebBindings.Url.Record
import WebBindings.Url.Escape
/-!
# Reading paths

A path is read a segment at a time, and its dot segments are resolved on the way. The text read so
far has its last character first, so that the segment to leave is at hand. The path of a `file` URL
may begin with a drive letter, which no dot segment leaves.
-/

namespace WebBindings.Url

/-- A letter and a colon or, unless `normal`, a bar. -/
def isDriveLetter (normal : Bool) : List Char → Bool
  | [letter, mark] => letter.isAlpha && (mark = ':' || (!normal && mark = '|'))
  | _ => false

/-- Whether a text begins with a drive letter that ends there or before a separator. -/
def startsWithDriveLetter : List Char → Bool
  | letter :: mark :: rest =>
    isDriveLetter false [letter, mark] &&
      match rest with
      | [] => true
      | c :: _ => c = '/' || c = '\\' || c = '?' || c = '#'
  | _ => false

def isSingleDot (segment : String) : Bool := [".", "%2e"].contains (Ascii.lower segment)

def isDoubleDot (segment : String) : Bool :=
  ["..", "%2e%2e", "%2e.", ".%2e"].contains (Ascii.lower segment)

/-- The text without its last segment. A drive letter of a `file` path is kept. -/
def dropSegment (file : Bool) (text : List Char) : List Char :=
  if file && isDriveLetter true (text.takeWhile (· ≠ '/')).reverse then text
  else text.dropWhile (· ≠ '/')

/-- Whether the slash at the end of a text may be left: it is not the only one, and the segment that
it ends does not begin with a drive letter. This holds for every scheme, also for those whose
segments may contain a backslash. -/
def mayLeaveSlash : List Char → Bool
  | '/' :: before =>
    before.contains '/' && !startsWithDriveLetter (before.takeWhile (· ≠ '/')).reverse
  | _ => false

def parent (file : Bool) (text : List Char) : List Char :=
  dropSegment file (if mayLeaveSlash text then text.drop 1 else text)

def withSlash (text : List Char) : List Char :=
  match text with
  | '/' :: _ => text
  | _ => '/' :: text

/-- A path while it is read: its text, and whether a drive letter was read as its first segment. -/
structure Trail where
  text : List Char
  onDrive : Bool

namespace Trail

/-- Add a segment, which a slash follows or not. A drive letter at the root gets its colon. -/
def add (file slash : Bool) (t : Trail) (segment : String) : Trail :=
  let close (text : List Char) : List Char := if slash then '/' :: text else text
  if isDoubleDot segment then
    let above := parent file t.text
    { t with text := if slash then withSlash above else above }
  else if isSingleDot segment then { t with text := withSlash t.text }
  else
    match file && isDriveLetter false segment.toList, t.text, segment.toList with
    | true, ['/'], letter :: _ => ⟨close [':', letter, '/'], true⟩
    | _, text, written => { t with text := close (written.reverse ++ text) }

/-- Set a drive letter apart from what comes to stand directly behind it: a segment that is added to
a drive alone, or the rest of a first segment that is cut behind its drive letter. -/
def setApart (isCut : Bool) (text segment : List Char) : List Char × List Char :=
  match text, segment with
  | [':', letter, '/'], _ :: _ => if letter.isAlpha then ('/' :: text, segment) else (text, segment)
  | ['/'], letter :: ':' :: c :: rest =>
    if isCut && letter.isAlpha then ([letter, '/'], ':' :: '/' :: c :: rest) else (text, segment)
  | _, _ => (text, segment)

/-- Add segments, of which the first begins where `left` characters are left. The cuts are told by
how many characters were left at them. -/
def addAll (file : Bool) (cuts : List Nat) : (left : Nat) → Trail → List (List Char) → Trail
  | _, t, [] => t
  | left, t, segment :: more =>
    let (text, written) :=
      if file then setApart (cuts.contains (left - 2)) t.text segment else (t.text, segment)
    let next := add file (!more.isEmpty) { t with text } (encode escapedInPath written)
    addAll file cuts (left - segment.length - 1) next more

/-- The segments of a whole path. A `file` path does not begin with empty segments. -/
def segments (file : Bool) (t : Trail) : List String :=
  let text := t.text.reverse
  match if file then '/' :: text.dropWhile (· = '/') else text with
  | [] => []
  | _ :: below => (Ascii.splitOn (· = '/') below).map String.ofList

end Trail

def endsPath (c : Char) : Bool := c = '?' || c = '#'

/-- Read a path below a text, and what follows the path. -/
def readPath (scheme : String) (cuts : List Nat) (above cs : List Char) : Trail × List Char :=
  let slash (c : Char) : Bool := c = '/' || (isSpecial scheme && c = '\\')
  let (text, rest) := cs.span fun c => !endsPath c
  (Trail.addAll (scheme = "file") cuts cs.length ⟨above, false⟩ (Ascii.splitOn slash text), rest)

end WebBindings.Url
