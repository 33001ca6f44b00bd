import WebBindings.Number.Double
import WebBindings.Heap.Value
/-!
# Handler programs

The statements and expressions that the body of an inline handler may consist of.
-/

namespace WebBindings.Script

/-- A value written out in a program. -/
inductive Constant
  | number (x : Double)
  | text (s : String)
  | boolean (b : Bool)
  | null
  | undefined
deriving DecidableEq

inductive UnaryOperator
  | not
  | negate
  | typeOf
deriving DecidableEq

inductive BinaryOperator
  | add
  | subtract
  | strictEqual
  | strictNotEqual
  | and
  | or
deriving DecidableEq

inductive Expression
  | constant (c : Constant)
  | identifier (name : String)
  | this
  /-- `object.name` -/
  | member (object : Expression) (name : String)
  /-- `object[key]` -/
  | index (object key : Expression)
  | call (callee : Expression) (arguments : List Expression)
  | unary (operator : UnaryOperator) (operand : Expression)
  | binary (operator : BinaryOperator) (left right : Expression)
  | assign (target value : Expression)

inductive Statement
  | empty
  | expression (e : Expression)
  /-- `return`, with or without a value. -/
  | ret (value : Option Expression)
  | throw (value : Expression)
  | ifThen (test : Expression) (consequent : Statement)
  | ifElse (test : Expression) (consequent alternate : Statement)
  | block (body : List Statement)

structure Program where
  body : List Statement

/-- Where a handler looks for free names: scope objects, innermost first, then the global object. -/
structure ScopeChain where
  objects : List ObjectId
  global : ObjectId
deriving DecidableEq

namespace Expression

/-- Whether the expression may stand on the left of an assignment. -/
def isAssignable : Expression → Bool
  | .identifier _ | .member .. | .index .. => true
  | _ => false

end Expression

end WebBindings.Script
