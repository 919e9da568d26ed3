/-
Operators of C expressions.

The binary operators that compute are apart from those that compare, because
only the former combine with an assignment; the two logical operators are
apart from both, because they may leave their right operand alone. Each
operator has one text, and `ofText?` reads it back.
-/

set_option autoImplicit false

namespace Stepwise

/-- Operators that compute a number from two. -/
inductive ArithOp where
  /-- Sum. -/
  | add
  /-- Difference. -/
  | sub
  /-- Product. -/
  | mul
  /-- Quotient. -/
  | div
  /-- Remainder. -/
  | mod
  /-- Bits in both. -/
  | bitAnd
  /-- Bits in either. -/
  | bitOr
  /-- Bits in one. -/
  | bitXor
  /-- Shift to the left. -/
  | shiftLeft
  /-- Shift to the right. -/
  | shiftRight
deriving Repr, DecidableEq, Inhabited

/-- Operators that compare. -/
inductive RelOp where
  /-- Equal. -/
  | eq
  /-- Not equal. -/
  | ne
  /-- Less. -/
  | lt
  /-- Greater. -/
  | gt
  /-- At most. -/
  | le
  /-- At least. -/
  | ge
deriving Repr, DecidableEq, Inhabited

/-- Binary operators that use both operands. -/
inductive BinaryOp where
  /-- A computing operator. -/
  | arith (op : ArithOp)
  /-- A comparing operator. -/
  | rel (op : RelOp)
deriving Repr, DecidableEq, Inhabited

/-- Binary operators that may leave their right operand alone. -/
inductive LogicOp where
  /-- Both. -/
  | and
  /-- Either. -/
  | or
deriving Repr, DecidableEq, Inhabited

/-- One more or one less. -/
inductive StepOp where
  /-- One more. -/
  | increment
  /-- One less. -/
  | decrement
deriving Repr, DecidableEq, Inhabited

/-- Operators in front of their operand. -/
inductive UnaryOp where
  /-- The operand itself. -/
  | plus
  /-- The operand with the other sign. -/
  | minus
  /-- Is the operand zero? -/
  | not
  /-- Every bit flipped. -/
  | complement
  /-- The object a pointer designates. -/
  | deref
  /-- The address of an object. -/
  | addressOf
  /-- Change the object, then take its value. -/
  | step (op : StepOp)
deriving Repr, DecidableEq, Inhabited

/-- The text of a computing operator. -/
def ArithOp.text : ArithOp → String
  | add => "+"
  | sub => "-"
  | mul => "*"
  | div => "/"
  | mod => "%"
  | bitAnd => "&"
  | bitOr => "|"
  | bitXor => "^"
  | shiftLeft => "<<"
  | shiftRight => ">>"

/-- The text of a comparing operator. -/
def RelOp.text : RelOp → String
  | eq => "=="
  | ne => "!="
  | lt => "<"
  | gt => ">"
  | le => "<="
  | ge => ">="

/-- The text of a binary operator. -/
def BinaryOp.text : BinaryOp → String
  | arith op => op.text
  | rel op => op.text

/-- The text of a logical operator. -/
def LogicOp.text : LogicOp → String
  | and => "&&"
  | or => "||"

/-- The text of a stepping operator. -/
def StepOp.text : StepOp → String
  | increment => "++"
  | decrement => "--"

/-- The text of a unary operator. -/
def UnaryOp.text : UnaryOp → String
  | plus => "+"
  | minus => "-"
  | not => "!"
  | complement => "~"
  | deref => "*"
  | addressOf => "&"
  | step op => op.text

/-- The text of an assignment, plain or combined with an operator. -/
def assignText : Option ArithOp → String
  | none => "="
  | some op => op.text ++ "="

/-- Every computing operator. -/
def ArithOp.all : List ArithOp :=
  [add, sub, mul, div, mod, bitAnd, bitOr, bitXor, shiftLeft, shiftRight]

/-- Every comparing operator. -/
def RelOp.all : List RelOp :=
  [eq, ne, lt, gt, le, ge]

/-- Every binary operator. -/
def BinaryOp.all : List BinaryOp :=
  ArithOp.all.map arith ++ RelOp.all.map rel

/-- Every unary operator. -/
def UnaryOp.all : List UnaryOp :=
  [plus, minus, not, complement, deref, addressOf, step .increment, step .decrement]

/-- The binary operator with a text. -/
def BinaryOp.ofText? (text : String) : Option BinaryOp :=
  all.find? fun op => op.text == text

/-- The unary operator with a text. -/
def UnaryOp.ofText? (text : String) : Option UnaryOp :=
  all.find? fun op => op.text == text

/-- The stepping operator with a text. -/
def StepOp.ofText? (text : String) : Option StepOp :=
  [increment, decrement].find? fun op => op.text == text

/-- The logical operator with a text. -/
def LogicOp.ofText? (text : String) : Option LogicOp :=
  [LogicOp.and, LogicOp.or].find? fun op => op.text == text

/-- The assignment with a text. -/
def assignOfText? (text : String) : Option (Option ArithOp) :=
  (none :: ArithOp.all.map some).find? fun op => assignText op == text

end Stepwise
