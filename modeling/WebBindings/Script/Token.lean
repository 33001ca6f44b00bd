import WebBindings.Number.Double
/-!
# Tokens of handler programs

What the body of an inline handler is cut into, and the reasons for which a body is not accepted.
-/

namespace WebBindings.Script

inductive Punctuator
  | strictEqual
  | strictNotEqual
  | and
  | or
  | looseEqual
  | looseNotEqual
  | openParen
  | closeParen
  | openBracket
  | closeBracket
  | openBrace
  | closeBrace
  | dot
  | comma
  | semicolon
  | assign
  | bang
  | plus
  | minus
deriving DecidableEq

namespace Punctuator

def text : Punctuator → String
  | .strictEqual => "==="
  | .strictNotEqual => "!=="
  | .and => "&&"
  | .or => "||"
  | .looseEqual => "=="
  | .looseNotEqual => "!="
  | .openParen => "("
  | .closeParen => ")"
  | .openBracket => "["
  | .closeBracket => "]"
  | .openBrace => "\x7b"
  | .closeBrace => "\x7d"
  | .dot => "."
  | .comma => ","
  | .semicolon => ";"
  | .assign => "="
  | .bang => "!"
  | .plus => "+"
  | .minus => "-"

/-- All punctuators, a longer one before those that it begins with. -/
def all : List Punctuator :=
  [.strictEqual, .strictNotEqual, .and, .or, .looseEqual, .looseNotEqual, .openParen, .closeParen,
    .openBracket, .closeBracket, .openBrace, .closeBrace, .dot, .comma, .semicolon, .assign, .bang,
    .plus, .minus]

/-- The longest punctuator that a text begins with. -/
def atFront? (cs : List Char) : Option Punctuator :=
  all.find? fun p => p.text.toList.isPrefixOf cs

end Punctuator

inductive Token
  | number (x : Double)
  | string (s : String)
  | identifier (name : String)
  | punctuator (p : Punctuator)
  | endOfInput
deriving DecidableEq

namespace Token

def shown : Token → String
  | .number _ => "number"
  | .string _ => "string"
  | .identifier name => "identifier '" ++ name ++ "'"
  | .punctuator p => "token '" ++ p.text ++ "'"
  | .endOfInput => "end of input"

end Token

/-- A token in its place: the bytes from `start` up to `stop`, and whether a line ends between it
and the token before. -/
structure Lexeme where
  token : Token
  start : Nat
  stop : Nat
  newlineBefore : Bool
deriving DecidableEq

/-- Why a body is rejected. Offsets count the bytes of the body in UTF-8. -/
inductive SyntaxFault
  | unterminatedComment (offset : Nat)
  | invalidToken (offset : Nat)
  | invalidCharacter (c : Char) (offset : Nat)
  | invalidEscape (offset : Nat)
  | unexpected (token : Token) (offset : Nat)
  | nesting
  | newlineAfterThrow
  | noNameAfterDot
  | reservedWord (word : String)
  | invalidTarget
deriving DecidableEq

namespace SyntaxFault

private def located (text : String) (offset : Nat) : String :=
  text ++ " (at offset " ++ toString offset ++ ")"

def message : SyntaxFault → String
  | .unterminatedComment offset => located "Unterminated comment" offset
  | .invalidToken offset => located "Invalid or unexpected token" offset
  | .invalidCharacter c offset =>
    located ("Invalid or unexpected token '" ++ c.toString ++ "'") offset
  | .invalidEscape offset => located "Invalid Unicode escape sequence" offset
  | .unexpected token offset => located ("Unexpected " ++ token.shown) offset
  | .nesting => "Maximum nesting depth exceeded"
  | .newlineAfterThrow => "Illegal newline after throw"
  | .noNameAfterDot => "Unexpected token after '.'"
  | .reservedWord word => "Unexpected token '" ++ word ++ "'"
  | .invalidTarget => "Invalid left-hand side in assignment"

end SyntaxFault

end WebBindings.Script
