import WebBindings.Number.Literal
import WebBindings.Script.Token
import WebBindings.Text.Unicode
/-!
# Reading lexemes

Cuts the body of a handler into lexemes. White space and comments separate tokens and are dropped;
of them only the line ends are remembered. The last lexeme is the end of input.
-/

namespace WebBindings.Script

def isLineEnd (c : Char) : Bool := c = '\n' || c = '\r' || c = '\u2028' || c = '\u2029'

def isNameStart (c : Char) : Bool := c = '$' || c = '_' || Unicode.isAlphabetic c

def isNamePart (c : Char) : Bool := isNameStart c || Unicode.isAlphanumeric c

/-- A place in the text: the bytes before it and the characters after it. -/
structure Cursor where
  offset : Nat
  rest : List Char

def byteCount (cs : List Char) : Nat := cs.foldl (fun count c => count + c.utf8Size) 0

namespace Cursor

/-- Move over characters, leaving `rest` to be read. -/
def skip (c : Cursor) (passed rest : List Char) : Cursor := ⟨c.offset + byteCount passed, rest⟩

end Cursor

/-- What the reader of blanks is inside of. -/
inductive Blank
  | space
  | lineComment
  | blockComment (start : Nat)

/-- Pass over white space and comments. The flag is set when a line ends among them. -/
def skipBlanks : Blank → (newline : Bool) → (offset : Nat) → List Char →
    Except SyntaxFault (Bool × Cursor)
  | .space, newline, offset, '/' :: '/' :: rest => skipBlanks .lineComment newline (offset + 2) rest
  | .space, newline, offset, '/' :: '*' :: rest =>
    skipBlanks (.blockComment offset) newline (offset + 2) rest
  | .space, newline, offset, c :: rest =>
    if Unicode.isWhitespace c then
      skipBlanks .space (newline || isLineEnd c) (offset + c.utf8Size) rest
    else .ok (newline, ⟨offset, c :: rest⟩)
  | .lineComment, newline, offset, c :: rest =>
    if isLineEnd c then skipBlanks .space true (offset + c.utf8Size) rest
    else skipBlanks .lineComment newline (offset + c.utf8Size) rest
  | .blockComment _, newline, offset, '*' :: '/' :: rest =>
    skipBlanks .space newline (offset + 2) rest
  | .blockComment start, newline, offset, c :: rest =>
    skipBlanks (.blockComment start) (newline || isLineEnd c) (offset + c.utf8Size) rest
  | .blockComment start, _, _, [] => .error (.unterminatedComment start)
  | _, newline, offset, [] => .ok (newline, ⟨offset, []⟩)

/-- Read a number that begins at the cursor. A letter may not follow it directly. -/
def scanNumber (c : Cursor) : Except SyntaxFault (Token × Cursor) := do
  let (whole, afterWhole) := c.rest.span Ascii.isDigit
  let (fraction, afterFraction) :=
    match afterWhole with
    | '.' :: rest => rest.span Ascii.isDigit
    | rest => ([], rest)
  let (negative, exponent, rest) ←
    match afterFraction with
    | e :: _ =>
      if e = 'e' || e = 'E' then
        match DecimalLiteral.takeExponent? afterFraction with
        | some ((negative, digits), rest) => pure (negative, digits, rest)
        | none => .error (.invalidToken c.offset)
      else pure (false, [], afterFraction)
    | [] => pure (false, [], afterFraction)
  if rest.head?.any isNameStart then .error (.invalidToken c.offset)
  else
    let literal : DecimalLiteral := ⟨whole, fraction, negative, exponent⟩
    let read := c.rest.take (c.rest.length - rest.length)
    .ok (.number (literal.value false), c.skip read rest)

/-- The character that an escape other than `\u` stands for. -/
def escaped (c : Char) : Char :=
  if c = 'n' then '\n'
  else if c = 't' then '\t'
  else if c = 'r' then '\r'
  else if c = 'b' then '\x08'
  else if c = 'f' then '\x0c'
  else if c = 'v' then '\x0b'
  else if c = '0' then '\x00'
  else c

/-- The number written by the four characters after `\u`: hexadecimal digits, of which the first
may be replaced by a plus sign. -/
def escapeNumber? (digits : List Char) : Option Nat :=
  let significant :=
    match digits with
    | '+' :: rest => rest
    | _ => digits
  if significant.all fun c => (Ascii.digit? 16 c).isSome then some (Ascii.natOf 16 significant)
  else none

/-- Read the rest of a string literal after its opening quote at `opened`. Surrogates written by
number become U+FFFD. -/
def scanString (quote : Char) (opened : Nat) : (read : List Char) → (offset : Nat) → List Char →
    Except SyntaxFault (Token × Cursor)
  | _, _, [] => .error (.invalidToken opened)
  | read, offset, '\\' :: 'u' :: a :: b :: c :: d :: rest =>
    match escapeNumber? [a, b, c, d] with
    | some n =>
      let decoded := if n.isValidChar then Char.ofNat n else '\uFFFD'
      scanString quote opened (decoded :: read) (offset + 6) rest
    | none => .error (.invalidEscape opened)
  | _, _, '\\' :: 'u' :: _ => .error (.invalidEscape opened)
  | read, offset, '\\' :: c :: rest =>
    scanString quote opened (escaped c :: read) (offset + 1 + c.utf8Size) rest
  | read, offset, c :: rest =>
    if c = quote then .ok (.string (String.ofList read.reverse), ⟨offset + 1, rest⟩)
    else if isLineEnd c || c = '\\' then .error (.invalidToken opened)
    else scanString quote opened (c :: read) (offset + c.utf8Size) rest

/-- Read one token at a cursor that stands behind the blanks. -/
def scanToken (c : Cursor) : Except SyntaxFault (Token × Cursor) :=
  match c.rest with
  | [] => .ok (.endOfInput, c)
  | first :: rest =>
    if Ascii.isDigit first || (first = '.' && rest.head?.any Ascii.isDigit) then scanNumber c
    else if first = '"' || first = '\'' then scanString first (c.offset + 1) [] (c.offset + 1) rest
    else if isNameStart first then
      let (name, after) := c.rest.span isNamePart
      .ok (.identifier (String.ofList name), c.skip name after)
    else
      match Punctuator.atFront? c.rest with
      | some p => .ok (.punctuator p, c.skip p.text.toList (c.rest.drop p.text.length))
      | none => .error (.invalidCharacter first c.offset)

/-- Read lexemes until the end of input. Every token but the last takes at least one character, so
the length of the text bounds their number. -/
def scanLexemes : (bound : Nat) → Cursor → Except SyntaxFault (List Lexeme)
  | 0, _ => .ok []
  | bound + 1, c => do
    let (newline, front) ← skipBlanks .space false c.offset c.rest
    let (token, after) ← scanToken front
    let lexeme : Lexeme := ⟨token, front.offset, after.offset, newline⟩
    if token = .endOfInput then return [lexeme]
    return lexeme :: (← scanLexemes bound after)

def lexemes (source : String) : Except SyntaxFault (List Lexeme) :=
  let cs := source.toList
  scanLexemes (cs.length + 1) ⟨0, cs⟩

end WebBindings.Script
