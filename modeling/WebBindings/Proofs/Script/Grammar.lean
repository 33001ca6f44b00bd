import WebBindings.Script.Parse
/-!
# The grammar of handler programs

Which lexemes spell which program, as rules that join lexemes and know nothing of how they are read.
Assignments are grouped to the right, all other binary operators to the left, and members and calls
come behind what they apply to. Statements, expressions and the operands of unary operators count as
nested; what can be spelled with so many levels is built from what can be spelled with one level less.
-/

namespace WebBindings.Script

/-- Which lexemes spell which phrase. -/
abbrev Language (α : Type) := List Lexeme → α → Prop

/-- The token at the front of the lexemes. -/
def front (ls : List Lexeme) : Token := (ls.head?.map Lexeme.token).getD .endOfInput

/-- The phrases that are nested one level further inside. A statement also depends on what follows
it. -/
structure Grammar where
  statement : (lexemes following : List Lexeme) → Statement → Prop
  expression : Language Expression
  operand : Language Expression

/-- What follows the first operand of a chain: each link extends the phrase before it. -/
inductive Chained (first : Language Expression) (link : Expression → Language Expression) :
    Language Expression
  | first {xs e} (operand : first xs e) : Chained first link xs e
  | link {xs ys e e'} (before : Chained first link xs e) (linked : link e ys e') :
    Chained first link (xs ++ ys) e'

/-- The meaning of a word that stands for an operand. Reserved words other than these have none. -/
inductive WordMeans : String → Expression → Prop
  | true : WordMeans "true" (.constant (.boolean true))
  | false : WordMeans "false" (.constant (.boolean false))
  | null : WordMeans "null" (.constant .null)
  | undefined : WordMeans "undefined" (.constant .undefined)
  | this : WordMeans "this" .this
  | name {name} (defined : name ≠ "undefined") (free : name ∉ reservedWords) :
    WordMeans name (.identifier name)

section Expressions

variable (inner : Grammar)

/-- A literal, a name, or an expression in parentheses. -/
inductive IsPrimary : Language Expression
  | number {l x} (token : l.token = .number x) : IsPrimary [l] (.constant (.number x))
  | text {l s} (token : l.token = .string s) : IsPrimary [l] (.constant (.text s))
  | word {l name e} (token : l.token = .identifier name) (means : WordMeans name e) :
    IsPrimary [l] e
  | parenthesized {o xs c e} (opening : o.token = .punctuator .openParen)
    (spelled : inner.expression xs e) (closing : c.token = .punctuator .closeParen) :
    IsPrimary (o :: xs ++ [c]) e

/-- The arguments of a call that has some, with the parenthesis behind them. -/
inductive IsArguments : Language (List Expression)
  | last {xs c e} (argument : inner.expression xs e) (closing : c.token = .punctuator .closeParen) :
    IsArguments (xs ++ [c]) [e]
  | more {xs c ys e es} (argument : inner.expression xs e) (comma : c.token = .punctuator .comma)
    (rest : IsArguments ys es) : IsArguments (xs ++ c :: ys) (e :: es)

/-- A member access or a call behind an expression. After a point every word is a name. -/
inductive IsAccess : Expression → Language Expression
  | member {e point l name} (opening : point.token = .punctuator .dot)
    (token : l.token = .identifier name) : IsAccess e [point, l] (.member e name)
  | index {e o xs c key} (opening : o.token = .punctuator .openBracket)
    (spelled : inner.expression xs key) (closing : c.token = .punctuator .closeBracket) :
    IsAccess e (o :: xs ++ [c]) (.index e key)
  | call {e o c} (opening : o.token = .punctuator .openParen)
    (closing : c.token = .punctuator .closeParen) : IsAccess e [o, c] (.call e [])
  | callWith {e o xs es} (opening : o.token = .punctuator .openParen)
    (arguments : IsArguments inner xs es) : IsAccess e (o :: xs) (.call e es)

/-- An operand with the unary operators before it. -/
inductive IsUnary : Language Expression
  | not {l xs e} (token : l.token = .punctuator .bang) (operand : inner.operand xs e) :
    IsUnary (l :: xs) (.unary .not e)
  | negate {l xs e} (token : l.token = .punctuator .minus) (operand : inner.operand xs e) :
    IsUnary (l :: xs) (.unary .negate e)
  | typeOf {l xs e} (token : l.token = .identifier "typeof") (operand : inner.operand xs e) :
    IsUnary (l :: xs) (.unary .typeOf e)
  | accessed {xs e} (accessed : Chained (IsPrimary inner) (IsAccess inner) xs e) : IsUnary xs e

/-- An operator with its right operand behind an expression. -/
inductive IsOperation (operators : List (Punctuator × BinaryOperator))
    (operand : Language Expression) : Expression → Language Expression
  | mk {left l p operator xs right} (known : (p, operator) ∈ operators)
    (token : l.token = .punctuator p) (spelled : operand xs right) :
    IsOperation operators operand left (l :: xs) (.binary operator left right)

/-- Operands joined by left-associative operators of one precedence. -/
def IsLevel (operators : List (Punctuator × BinaryOperator)) (operand : Language Expression) :
    Language Expression := Chained operand (IsOperation operators operand)

def IsSum : Language Expression := IsLevel [(.plus, .add), (.minus, .subtract)] (IsUnary inner)

def IsEquality : Language Expression :=
  IsLevel [(.strictEqual, .strictEqual), (.strictNotEqual, .strictNotEqual)] (IsSum inner)

def IsConjunction : Language Expression := IsLevel [(.and, .and)] (IsEquality inner)

def IsDisjunction : Language Expression := IsLevel [(.or, .or)] (IsConjunction inner)

/-- A value, or an assignment to a name or a member. -/
inductive IsAssignment : Language Expression
  | value {xs e} (spelled : IsDisjunction inner xs e) : IsAssignment xs e
  | assign {xs l ys target e} (spelled : IsDisjunction inner xs target)
    (assignable : target.isAssignable = true) (token : l.token = .punctuator .assign)
    (value : inner.expression ys e) : IsAssignment (xs ++ l :: ys) (.assign target e)

end Expressions

/-- Whether an expression may begin with a token. -/
def Token.startsExpression : Token → Bool
  | .number _ | .string _ => true
  | .identifier name => !(["return", "throw", "if", "else"].contains name)
  | .punctuator p => [.openParen, .bang, .minus].contains p
  | .endOfInput => false

/-- Whether an expression goes on behind a place where it could end. -/
def Token.continuesExpression : Token → Bool
  | .punctuator p =>
    [.dot, .openBracket, .openParen, .plus, .minus, .strictEqual, .strictNotEqual, .and, .or,
      .assign].contains p
  | _ => false

/-- A statement may end here without a semicolon: before a closing brace, at the end of input, or
where a line ends. -/
def EndImplied (following : List Lexeme) : Prop :=
  front following = .punctuator .closeBrace ∨ front following = .endOfInput ∨
    following.head?.any Lexeme.newlineBefore = true

/-- The end of a statement: a semicolon, or nothing where one is implied. -/
inductive IsEnd : (lexemes following : List Lexeme) → Prop
  | semicolon {l following} (token : l.token = .punctuator .semicolon) : IsEnd [l] following
  | implied {following} (absent : front following ≠ .punctuator .semicolon)
    (implied : EndImplied following) : IsEnd [] following

/-- An expression up to the end of its statement, which is not implied where the expression goes on. -/
inductive IsClause (inner : Grammar) : (lexemes following : List Lexeme) → Expression → Prop
  | mk {xs ys following e} (spelled : inner.expression xs e) (ended : IsEnd ys following)
    (whole : (front (ys ++ following)).continuesExpression = false) :
    IsClause inner (xs ++ ys) following e

/-- Statements one after the other. -/
inductive IsSequence (inner : Grammar) : (lexemes following : List Lexeme) → List Statement → Prop
  | nil {following} : IsSequence inner [] following []
  | cons {xs ys following s body} (spelled : inner.statement xs (ys ++ following) s)
    (rest : IsSequence inner ys following body) : IsSequence inner (xs ++ ys) following (s :: body)

/-- A statement before what follows it. A value does not stand on the line after its `return` or
`throw`, and an `if` that has no `else` is not followed by one. -/
inductive IsStatement (inner : Grammar) : (lexemes following : List Lexeme) → Statement → Prop
  | empty {l following} (token : l.token = .punctuator .semicolon) :
    IsStatement inner [l] following .empty
  | expression {xs following e} (clause : IsClause inner xs following e) :
    IsStatement inner xs following (.expression e)
  | ret {l xs following} (token : l.token = .identifier "return") (ended : IsEnd xs following) :
    IsStatement inner (l :: xs) following (.ret none)
  | retWith {l xs following e} (token : l.token = .identifier "return")
    (clause : IsClause inner xs following e) (near : xs.head?.any Lexeme.newlineBefore = false) :
    IsStatement inner (l :: xs) following (.ret (some e))
  | throw {l xs following e} (token : l.token = .identifier "throw")
    (clause : IsClause inner xs following e) (near : xs.head?.any Lexeme.newlineBefore = false) :
    IsStatement inner (l :: xs) following (.throw e)
  | ifThen {l o xs c ys following test consequent} (token : l.token = .identifier "if")
    (opening : o.token = .punctuator .openParen) (condition : inner.expression xs test)
    (closing : c.token = .punctuator .closeParen)
    (positive : inner.statement ys following consequent)
    (alone : front following ≠ .identifier "else") :
    IsStatement inner (l :: o :: xs ++ c :: ys) following (.ifThen test consequent)
  | ifElse {l o xs c ys k zs following test consequent alternate}
    (token : l.token = .identifier "if") (opening : o.token = .punctuator .openParen)
    (condition : inner.expression xs test) (closing : c.token = .punctuator .closeParen)
    (positive : inner.statement ys (k :: zs ++ following) consequent)
    (other : k.token = .identifier "else") (negative : inner.statement zs following alternate) :
    IsStatement inner (l :: o :: xs ++ c :: (ys ++ k :: zs)) following
      (.ifElse test consequent alternate)
  | block {o xs c following body} (opening : o.token = .punctuator .openBrace)
    (spelled : IsSequence inner xs (c :: following) body)
    (closing : c.token = .punctuator .closeBrace) :
    IsStatement inner (o :: xs ++ [c]) following (.block body)

/-- What can be spelled with so many levels. -/
def grammar : (levels : Nat) → Grammar
  | 0 => ⟨fun _ _ _ => False, fun _ _ => False, fun _ _ => False⟩
  | levels + 1 =>
    ⟨IsStatement (grammar levels), IsAssignment (grammar levels), IsUnary (grammar levels)⟩

/-- The lexemes of a text spell a program: statements within the nesting limit, and the end of input. -/
inductive IsProgram : Language Program
  | mk {xs last body} (spelled : IsSequence (grammar nestingLimit) xs [last] body)
    (token : last.token = .endOfInput) : IsProgram (xs ++ [last]) ⟨body⟩

end WebBindings.Script
