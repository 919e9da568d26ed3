/-
Expressions.

Every node keeps the line of the token that made it: the operator's line for
an operator, the first word's line otherwise. Only a name can be indexed or
called, so indexing and calls hold the name itself. `source` writes an
expression back as compact C text, the way step descriptions show it; it puts
parentheses around the operand of a unary operator unless that is a simple
one, and around a sum or shift on the right of a product or sum, and nowhere
else.
-/
import Stepwise.Syntax.Operator
import Stepwise.CType

set_option autoImplicit false

namespace Stepwise

/-- An expression. -/
inductive Expr where
  /-- A number, character or text as written. -/
  | literal (line : Nat) (text : String)
  /-- A name. -/
  | name (line : Nat) (name : String)
  /-- A call of a function or a macro. -/
  | call (line : Nat) (callee : String) (arguments : List Expr)
  /-- An element of an array. -/
  | index (line : Nat) (array : String) (position : Expr)
  /-- A member of a struct, or through an arrow of the struct pointed to. -/
  | member (line : Nat) (arrow : Bool) (object : Expr) (member : String)
  /-- An operator in front of its operand. -/
  | unary (line : Nat) (op : UnaryOp) (operand : Expr)
  /-- Take the value of an object, then change it. -/
  | stepAfter (line : Nat) (op : StepOp) (operand : Expr)
  /-- A conversion to a type. -/
  | cast (line : Nat) (type : CType) (operand : Expr)
  /-- The size of a type. -/
  | sizeOfType (line : Nat) (type : CType)
  /-- The size of an object. -/
  | sizeOf (line : Nat) (operand : Expr)
  /-- A binary operator. -/
  | binary (line : Nat) (op : BinaryOp) (left right : Expr)
  /-- A logical operator. -/
  | logic (line : Nat) (op : LogicOp) (left right : Expr)
  /-- A choice between two expressions. -/
  | conditional (line : Nat) (condition whenTrue whenFalse : Expr)
  /-- An assignment, plain or combined with an operator. -/
  | assign (line : Nat) (op : Option ArithOp) (target value : Expr)
deriving Repr, Inhabited

namespace Expr

/-- The line of an expression. -/
def line : Expr → Nat
  | literal line _ | name line _ | call line _ _ | index line _ _ | member line _ _ _
  | unary line _ _ | stepAfter line _ _ | cast line _ _ | sizeOfType line _ | sizeOf line _
  | binary line _ _ _ | logic line _ _ _ | conditional line _ _ _ | assign line _ _ _ => line

/-- Is it a literal, a name, a call, an element or a member? -/
def isSimple : Expr → Bool
  | literal .. | name .. | call .. | index .. | member .. => true
  | _ => false

/-- Is it a sum or difference? -/
def isAdditive : Expr → Bool
  | binary _ (.arith .add) _ _ | binary _ (.arith .sub) _ _ => true
  | _ => false

/-- Is it a shift? -/
def isShift : Expr → Bool
  | binary _ (.arith .shiftLeft) _ _ | binary _ (.arith .shiftRight) _ _ => true
  | _ => false

/-- Is it an operation on bits other than a shift? -/
def isBitwise : Expr → Bool
  | binary _ (.arith .bitAnd) _ _ | binary _ (.arith .bitOr) _ _
  | binary _ (.arith .bitXor) _ _ => true
  | _ => false

/-- Does the operator put parentheses around a sum or shift on its right? -/
def groupsRight : BinaryOp → Bool
  | .arith .add | .arith .sub | .arith .mul | .arith .div | .arith .mod => true
  | _ => false

mutual

/-- The expression as compact C text. -/
def source : Expr → String
  | literal _ text => text
  | name _ n => n
  | call _ callee arguments => callee ++ "(" ++ sources arguments ++ ")"
  | index _ array position => array ++ "[" ++ source position ++ "]"
  | member _ arrow object m => source object ++ (if arrow then "->" else ".") ++ m
  | unary _ op operand =>
    if operand.isSimple then op.text ++ source operand
    else op.text ++ "(" ++ source operand ++ ")"
  | stepAfter _ op operand => source operand ++ op.text
  | cast _ type operand => "(" ++ type.text ++ ")" ++ source operand
  | sizeOfType _ type => "sizeof(" ++ type.text ++ ")"
  | sizeOf _ operand => "sizeof(" ++ source operand ++ ")"
  | binary _ op left right =>
    let rightText := source right
    source left ++ " " ++ op.text ++ " "
      ++ (if groupsRight op && (right.isAdditive || right.isShift) then "(" ++ rightText ++ ")"
          else rightText)
  | logic _ op left right => source left ++ " " ++ op.text ++ " " ++ source right
  | conditional _ condition whenTrue whenFalse =>
    source condition ++ " ? " ++ source whenTrue ++ " : " ++ source whenFalse
  | assign _ op target value => source target ++ " " ++ assignText op ++ " " ++ source value

/-- Expressions as compact C text, parted by commas. -/
def sources : List Expr → String
  | [] => ""
  | [e] => source e
  | e :: rest => source e ++ ", " ++ sources rest

end

mutual

/-- The expression and all expressions inside it, outermost first, left to right. -/
def parts : Expr → List Expr
  | literal line text => [literal line text]
  | name line n => [name line n]
  | call line callee arguments => call line callee arguments :: partsOfAll arguments
  | index line array position => index line array position :: parts position
  | member line arrow object m => member line arrow object m :: parts object
  | unary line op operand => unary line op operand :: parts operand
  | stepAfter line op operand => stepAfter line op operand :: parts operand
  | cast line type operand => cast line type operand :: parts operand
  | sizeOfType line type => [sizeOfType line type]
  | sizeOf line operand => sizeOf line operand :: parts operand
  | binary line op left right => binary line op left right :: (parts left ++ parts right)
  | logic line op left right => logic line op left right :: (parts left ++ parts right)
  | conditional line condition whenTrue whenFalse =>
    conditional line condition whenTrue whenFalse
      :: (parts condition ++ parts whenTrue ++ parts whenFalse)
  | assign line op target value => assign line op target value :: (parts target ++ parts value)

/-- The parts of several expressions. -/
def partsOfAll : List Expr → List Expr
  | [] => []
  | e :: rest => parts e ++ partsOfAll rest

end

/-- Does the expression use the name, as a variable or as an array? -/
def mentions (wanted : String) (e : Expr) : Bool :=
  e.parts.any fun
    | name _ n => n == wanted
    | index _ array _ => array == wanted
    | _ => false

end Expr

/-- A call as it stands in a program. -/
structure Call where
  /-- The line of the call. -/
  line : Nat
  /-- What is called. -/
  callee : String
  /-- What it is called with. -/
  arguments : List Expr
deriving Repr, Inhabited

/-- The call as an expression. -/
def Call.expr (c : Call) : Expr :=
  .call c.line c.callee c.arguments

/-- The expression, if it is a call. -/
def Expr.call? : Expr → Option Call
  | call line callee arguments => some ⟨line, callee, arguments⟩
  | _ => none

/-- The calls in an expression, outermost first, left to right. -/
def Expr.calls (e : Expr) : List Call :=
  e.parts.filterMap Expr.call?

end Stepwise
