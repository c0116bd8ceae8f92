/-!
# Operators

The operators of expressions with their spelling and, for those that join two operands, how tightly they
bind.
-/

namespace Storyboard

/-- Operators before one operand. -/
inductive UnaryOperator where
  | plus
  | minus
  | not
  | complement
  | typeOf
  | void
  | delete
deriving DecidableEq, Repr

namespace UnaryOperator

/-- How an operator is written. -/
def symbol : UnaryOperator → String
  | plus => "+"
  | minus => "-"
  | not => "!"
  | complement => "~"
  | typeOf => "typeof"
  | void => "void"
  | delete => "delete"

/-- All operators before one operand. -/
def all : List UnaryOperator := [plus, minus, not, complement, typeOf, void, delete]

/-- The operator with a given spelling. -/
def ofSymbol? (text : String) : Option UnaryOperator := all.find? fun op => op.symbol == text

/-- Whether an operator is a word. -/
def isWord : UnaryOperator → Bool
  | typeOf => true
  | void => true
  | delete => true
  | _ => false

end UnaryOperator

/-- Operators between two operands. -/
inductive BinaryOperator where
  | coalesce
  | or
  | and
  | bitOr
  | bitXor
  | bitAnd
  | equal
  | notEqual
  | strictEqual
  | strictNotEqual
  | less
  | greater
  | lessEqual
  | greaterEqual
  | instanceOf
  | isIn
  | shiftLeft
  | shiftRight
  | shiftRightZero
  | add
  | subtract
  | multiply
  | divide
  | remainder
  | power
deriving DecidableEq, Repr

namespace BinaryOperator

/-- How an operator is written. -/
def symbol : BinaryOperator → String
  | coalesce => "??"
  | or => "||"
  | and => "&&"
  | bitOr => "|"
  | bitXor => "^"
  | bitAnd => "&"
  | equal => "=="
  | notEqual => "!="
  | strictEqual => "==="
  | strictNotEqual => "!=="
  | less => "<"
  | greater => ">"
  | lessEqual => "<="
  | greaterEqual => ">="
  | instanceOf => "instanceof"
  | isIn => "in"
  | shiftLeft => "<<"
  | shiftRight => ">>"
  | shiftRightZero => ">>>"
  | add => "+"
  | subtract => "-"
  | multiply => "*"
  | divide => "/"
  | remainder => "%"
  | power => "**"

/-- How tightly an operator binds. -/
def precedence : BinaryOperator → Nat
  | coalesce => 6
  | or => 7
  | and => 8
  | bitOr => 9
  | bitXor => 10
  | bitAnd => 11
  | equal => 12
  | notEqual => 12
  | strictEqual => 12
  | strictNotEqual => 12
  | less => 13
  | greater => 13
  | lessEqual => 13
  | greaterEqual => 13
  | instanceOf => 13
  | isIn => 13
  | shiftLeft => 14
  | shiftRight => 14
  | shiftRightZero => 14
  | add => 15
  | subtract => 15
  | multiply => 16
  | divide => 16
  | remainder => 16
  | power => 17

/-- All operators between two operands. -/
def all : List BinaryOperator :=
  [coalesce, or, and, bitOr, bitXor, bitAnd, equal, notEqual, strictEqual, strictNotEqual, less, greater,
    lessEqual, greaterEqual, instanceOf, isIn, shiftLeft, shiftRight, shiftRightZero, add, subtract,
    multiply, divide, remainder, power]

/-- The operator with a given spelling. -/
def ofSymbol? (text : String) : Option BinaryOperator := all.find? fun op => op.symbol == text

/-- Whether an operator evaluates its right operand only when it has to. -/
def isLogical : BinaryOperator → Bool
  | coalesce => true
  | or => true
  | and => true
  | _ => false

end BinaryOperator

/-- The operators of assignments. -/
def assignmentSymbols : List String :=
  ["=", "+=", "-=", "*=", "/=", "%=", "**=", "<<=", ">>=", ">>>=", "|=", "^=", "&=", "&&=", "||=", "??="]

end Storyboard
