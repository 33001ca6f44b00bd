import WebBindings.Script.Lexeme
import WebBindings.Script.Program
/-!
# Parsing handler programs

The grammar of handler bodies, read from lexemes without looking back. Statements, expressions and
the operands of unary operators count as nested; the rules of one level are built from those of the
next inner level, and at the innermost level nothing can be read any more.
-/

namespace WebBindings.Script

/-- A reader of a piece of program, which leaves the lexemes after it. -/
abbrev Parser (α : Type) := StateT (List Lexeme) (Except SyntaxFault) α

def reservedWords : List String :=
  ["break", "case", "catch", "class", "const", "continue", "debugger", "default", "delete", "do",
    "else", "false", "finally", "for", "function", "if", "in", "instanceof", "let", "new", "null",
    "return", "switch", "this", "throw", "true", "try", "typeof", "var", "void", "while", "with"]

/-- How deeply statements, expressions and unary operands may be nested. -/
def nestingLimit : Nat := 128

namespace Parser

def current : Parser Token := do
  return ((← get).head?.map Lexeme.token).getD .endOfInput

/-- Whether a line ends before the next token. -/
def newlineAhead : Parser Bool := do
  return (← get).head?.any Lexeme.newlineBefore

def advance : Parser Unit := modify List.tail

def unexpected {α : Type} : Parser α := do
  throw (.unexpected (← current) (((← get).head?.map Lexeme.start).getD 0))

def isNext (p : Punctuator) : Parser Bool := do
  return (← current) = .punctuator p

def isWordNext (word : String) : Parser Bool := do
  return (← current) = .identifier word

/-- Pass over a punctuator if it is next. -/
def eat (p : Punctuator) : Parser Bool := do
  if ← isNext p then
    advance
    return true
  return false

def expect (p : Punctuator) : Parser Unit := do
  unless ← eat p do unexpected

/-- Whether a statement may end before the next token without a semicolon. -/
def atImpliedEnd : Parser Bool := do
  if ← isNext .closeBrace then return true
  if (← current) = .endOfInput then return true
  newlineAhead

/-- The end of a statement: a semicolon, or a place where one is implied. -/
def endStatement : Parser Unit := do
  if ← eat .semicolon then return
  unless ← atImpliedEnd do unexpected

/-- How many lexemes are left, which bounds every repetition. -/
def remaining : Parser Nat := do
  return (← get).length

end Parser

open WebBindings.Script.Parser

/-- The readers that are one level further inside. -/
structure Rules where
  statement : Parser Statement
  expression : Parser Expression
  operand : Parser Expression

/-- The operator that a punctuator stands for, among those of one precedence. -/
def operatorFor? (operators : List (Punctuator × BinaryOperator)) (t : Token) :
    Option BinaryOperator :=
  (operators.find? fun o => t = .punctuator o.1).map Prod.snd

/-- Continue a chain of left-associative operators after its first operand. -/
def chain (operators : List (Punctuator × BinaryOperator)) (next : Parser Expression) :
    (bound : Nat) → Expression → Parser Expression
  | 0, left => return left
  | bound + 1, left => do
    match operatorFor? operators (← current) with
    | none => return left
    | some operator =>
      advance
      let right ← next
      chain operators next bound (.binary operator left right)

/-- Operands joined by the operators of one precedence. -/
def level (operators : List (Punctuator × BinaryOperator)) (next : Parser Expression) :
    Parser Expression := do
  let left ← next
  chain operators next (← remaining) left

/-- The meaning of a word in the place of an operand. -/
def word (name : String) : Except SyntaxFault Expression :=
  if name = "true" then .ok (.constant (.boolean true))
  else if name = "false" then .ok (.constant (.boolean false))
  else if name = "null" then .ok (.constant .null)
  else if name = "undefined" then .ok (.constant .undefined)
  else if name = "this" then .ok .this
  else if reservedWords.contains name then .error (.reservedWord name)
  else .ok (.identifier name)

/-- A literal, a name, or an expression in parentheses. -/
def primary (inner : Rules) : Parser Expression := do
  match ← current with
  | .punctuator .openParen =>
    advance
    let e ← inner.expression
    expect .closeParen
    return e
  | .number x =>
    advance
    return .constant (.number x)
  | .string s =>
    advance
    return .constant (.text s)
  | .identifier name =>
    let e ← word name
    advance
    return e
  | _ => unexpected

/-- The arguments of a call after the first opening, up to the closing parenthesis. -/
def arguments (inner : Rules) : (bound : Nat) → List Expression → Parser (List Expression)
  | 0, _ => unexpected
  | bound + 1, before => do
    let e ← inner.expression
    if ← eat .closeParen then return before ++ [e]
    expect .comma
    arguments inner bound (before ++ [e])

def accesses (inner : Rules) : (bound : Nat) → Expression → Parser Expression
  | 0, e => return e
  | bound + 1, e => do
    if ← eat .dot then
      match ← current with
      | .identifier name =>
        advance
        accesses inner bound (.member e name)
      | _ => throw .noNameAfterDot
    else if ← eat .openBracket then
      let key ← inner.expression
      expect .closeBracket
      accesses inner bound (.index e key)
    else if ← eat .openParen then
      if ← eat .closeParen then accesses inner bound (.call e [])
      else
        let args ← arguments inner (← remaining) []
        accesses inner bound (.call e args)
    else return e

/-- A primary expression with its member accesses and calls. -/
def accessed (inner : Rules) : Parser Expression := do
  let e ← primary inner
  accesses inner (← remaining) e

def unaryOperator? : Token → Option UnaryOperator
  | .punctuator .bang => some .not
  | .punctuator .minus => some .negate
  | .identifier name => if name = "typeof" then some .typeOf else none
  | _ => none

def unary (inner : Rules) : Parser Expression := do
  match unaryOperator? (← current) with
  | some operator =>
    advance
    return .unary operator (← inner.operand)
  | none => accessed inner

/-- All binary operators, from sums up to alternatives. -/
def logical (inner : Rules) : Parser Expression :=
  level [(.or, .or)]
    (level [(.and, .and)]
      (level [(.strictEqual, .strictEqual), (.strictNotEqual, .strictNotEqual)]
        (level [(.plus, .add), (.minus, .subtract)] (unary inner))))

def assignment (inner : Rules) : Parser Expression := do
  let target ← logical inner
  if ← isNext .assign then
    if target.isAssignable then
      advance
      return .assign target (← inner.expression)
    else throw .invalidTarget
  else return target

def blockBody (inner : Rules) : (bound : Nat) → List Statement → Parser (List Statement)
  | 0, _ => unexpected
  | bound + 1, before => do
    if ← eat .closeBrace then return before
    if (← current) = .endOfInput then unexpected
    else
      let s ← inner.statement
      blockBody inner bound (before ++ [s])

def returnStatement (inner : Rules) : Parser Statement := do
  if (← isNext .semicolon) || (← atImpliedEnd) then
    endStatement
    return .ret none
  else
    let e ← inner.expression
    endStatement
    return .ret (some e)

def throwStatement (inner : Rules) : Parser Statement := do
  if ← newlineAhead then throw .newlineAfterThrow
  else
    let e ← inner.expression
    endStatement
    return .throw e

def ifStatement (inner : Rules) : Parser Statement := do
  expect .openParen
  let test ← inner.expression
  expect .closeParen
  let consequent ← inner.statement
  if ← isWordNext "else" then
    advance
    return .ifElse test consequent (← inner.statement)
  else return .ifThen test consequent

def expressionStatement (inner : Rules) : Parser Statement := do
  let e ← inner.expression
  endStatement
  return .expression e

def statement (inner : Rules) : Parser Statement := do
  match ← current with
  | .punctuator .semicolon =>
    advance
    return .empty
  | .punctuator .openBrace =>
    advance
    return .block (← blockBody inner (← remaining) [])
  | .identifier name =>
    if name = "return" then
      advance
      returnStatement inner
    else if name = "throw" then
      advance
      throwStatement inner
    else if name = "if" then
      advance
      ifStatement inner
    else expressionStatement inner
  | _ => expressionStatement inner

/-- The readers that may still nest so many levels. -/
def rules : (levels : Nat) → Rules
  | 0 => ⟨throw .nesting, throw .nesting, throw .nesting⟩
  | levels + 1 =>
    let inner := rules levels
    ⟨statement inner, assignment inner, unary inner⟩

def statements (inner : Rules) : (bound : Nat) → List Statement → Parser (List Statement)
  | 0, before => return before
  | bound + 1, before => do
    if (← current) = .endOfInput then return before
    else
      let s ← inner.statement
      statements inner bound (before ++ [s])

namespace Program

def ofLexemes? (ls : List Lexeme) : Except SyntaxFault Program := do
  let (body, _) ← (statements (rules nestingLimit) ls.length []).run ls
  return ⟨body⟩

def ofText? (source : String) : Except SyntaxFault Program := do
  ofLexemes? (← lexemes source)

end Program

end WebBindings.Script
