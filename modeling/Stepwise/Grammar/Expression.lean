/-
Expressions, from the loosest to the tightest binding.

An assignment groups to the right and takes any conditional expression on its
left. Below the conditional expression there are six levels of binary
operators, each grouping to the left: logical, bitwise, relational, shift,
additive, multiplicative. An operand of the last level has operators in front
of it, is a size or a conversion, or is a primary expression with selections
and steps behind it. An opening parenthesis before a type word always begins a
conversion.
-/
import Stepwise.Grammar.TypeName
import Stepwise.Syntax.Expr

set_option autoImplicit false

namespace Stepwise.Grammar

/-- The levels of binary operators. -/
inductive Level where
  /-- `&&`, `||` -/
  | logical
  /-- `&`, `|`, `^` -/
  | bitwise
  /-- `==`, `!=`, `<`, `>`, `<=`, `>=` -/
  | relational
  /-- `<<`, `>>` -/
  | shift
  /-- `+`, `-` -/
  | additive
  /-- `*`, `/`, `%` -/
  | multiplicative
deriving Repr, DecidableEq

namespace Level

/-- The levels, loosest first. -/
def all : List Level :=
  [logical, bitwise, relational, shift, additive, multiplicative]

/-- The level of a binary operator. -/
def ofBinary : BinaryOp → Level
  | .rel _ => relational
  | .arith .add | .arith .sub => additive
  | .arith .mul | .arith .div | .arith .mod => multiplicative
  | .arith .bitAnd | .arith .bitOr | .arith .bitXor => bitwise
  | .arith .shiftLeft | .arith .shiftRight => shift

/-- What an operator text of the level makes of its line and two operands. -/
def make? (level : Level) (text : String) : Option (Nat → Expr → Expr → Expr) :=
  match level with
  | logical => (LogicOp.ofText? text).map fun op line left right => .logic line op left right
  | level =>
    match BinaryOp.ofText? text with
    | some op =>
      if ofBinary op = level then some fun line left right => .binary line op left right else none
    | none => none

end Level

/-- What an operator token of the level makes of two operands. -/
def operatorAt? (level : Level) (t : Token) : Option (Expr → Expr → Expr) :=
  if t.kind = .operator then (level.make? t.text).map fun make => make t.line else none

/-- The assignment an operator token stands for. -/
def assignmentAt? (t : Token) : Option (Option ArithOp) :=
  if t.kind = .operator then assignOfText? t.text else none

/-- The unary operator a token stands for. -/
def unaryAt? (t : Token) : Option UnaryOp :=
  if t.kind = .operator then UnaryOp.ofText? t.text else none

/-- The stepping operator a token stands for. -/
def stepAt? (t : Token) : Option StepOp :=
  if t.kind = .operator then StepOp.ofText? t.text else none

/-- Is the token the size operator? -/
def isSizeOf (t : Token) : Bool :=
  t.kind == .keyword && t.text == "sizeof"

/-- Is the token a name that can be used, called or indexed? -/
def isName (t : Token) : Bool :=
  t.kind == .identifier || t.kind == .function

/-- Do the tokens begin with a parenthesis before a type? -/
def opensType : List Token → Bool
  | t :: rest => isAt "(" t && headStartsType rest
  | [] => false

/-- Reads the selections and steps behind an operand. -/
def selections (e : Expr) (s : List Token) : Parse false s Expr :=
  match s with
  | [] => Parse.done e
  | t :: rest =>
    if isAt "." t || isAt "->" t then
      match rest with
      | [] => ((Parse.fail .memberName : Parse false [] _).after t).relax
      | m :: rest =>
        if m.kind = .identifier then
          (((selections (.member t.line (t.text == "->") e m.text) rest).after m).after t).relax
        else ((Parse.fail .memberName : Parse false (m :: rest) _).after t).relax
    else
      match stepAt? t with
      | some op => ((selections (.stepAfter t.line op e) rest).after t).relax
      | none => Parse.done e

/-- Reads a type in parentheses. -/
def typeInParens (s : List Token) : Parse true s CType :=
  match s with
  | [] => Parse.fail .expression
  | t :: rest =>
    ((starredTypeName rest).andThen fun type rest _ => (punct ")" rest).map fun _ => type).after t

mutual

/-- Reads an assignment or whatever binds tighter. -/
def assignment (s : List Token) : Parse true s Expr :=
  (conditional s).andThen fun left rest h =>
    match rest, h with
    | [], _ => Parse.done left
    | t :: rest, _h =>
      match assignmentAt? t with
      | some op => (((assignment rest).map fun right => .assign t.line op left right).after t).relax
      | none => Parse.done left
termination_by 20 * s.length + 11
decreasing_by
  · omega
  · simp at _h; omega

/-- Reads a conditional expression or whatever binds tighter. -/
def conditional (s : List Token) : Parse true s Expr :=
  (binary Level.all s).andThen fun condition rest h =>
    match rest, h with
    | [], _ => Parse.done condition
    | t :: rest, _h =>
      if isAt "?" t then
        (((assignment rest).andThen fun whenTrue rest _h₁ =>
          (punct ":" rest).andThen fun _ rest _h₂ =>
            (conditional rest).map fun whenFalse =>
              .conditional t.line condition whenTrue whenFalse).after t).relax
      else Parse.done condition
termination_by 20 * s.length + 10
decreasing_by
  · simp [Level.all]
  · simp at _h; omega
  · simp at _h _h₁ _h₂; omega

/-- Reads operands and operators of the levels, loosest first. -/
def binary (levels : List Level) (s : List Token) : Parse true s Expr :=
  match levels with
  | [] => unary s
  | level :: tighter =>
    (binary tighter s).andThen fun left rest _h => operations level tighter left rest
termination_by 20 * s.length + levels.length + 3
decreasing_by
  · omega
  · simp
  · simp at _h ⊢; omega

/-- Reads operators of a level with their right operands, and groups to the left. -/
def operations (level : Level) (tighter : List Level) (left : Expr) (s : List Token) :
    Parse false s Expr :=
  match s with
  | [] => Parse.done left
  | t :: rest =>
    match operatorAt? level t with
    | some make =>
      (((binary tighter rest).andThen fun right rest _h =>
        operations level tighter (make left right) rest).after t).relax
    | none => Parse.done left
termination_by 20 * s.length + tighter.length
decreasing_by
  · simp; omega
  · simp at _h ⊢; omega

/-- Reads an operand with the operators in front of it, a size or a conversion. -/
def unary (s : List Token) : Parse true s Expr :=
  match s with
  | [] => Parse.fail .expression
  | t :: rest =>
    match unaryAt? t with
    | some op => ((unary rest).map fun operand => .unary t.line op operand).after t
    | none =>
      if isSizeOf t then
        if opensType rest then ((typeInParens rest).map fun type => .sizeOfType t.line type).after t
        else ((unary rest).map fun operand => .sizeOf t.line operand).after t
      else if opensType (t :: rest) then
        (typeInParens (t :: rest)).andThen fun type rest _h =>
          (unary rest).map fun operand => .cast t.line type operand
      else (primary (t :: rest)).andThen fun e rest _ => selections e rest
termination_by 20 * s.length + 2
decreasing_by
  · simp
  · simp
  · simp at _h ⊢; omega
  · omega

/-- Reads a literal, a name, a call, an element or an expression in parentheses. -/
def primary (s : List Token) : Parse true s Expr :=
  match s with
  | [] => Parse.fail .expression
  | t :: rest =>
    if t.kind = .literal then (Parse.done (.literal t.line t.text) : Parse _ rest _).after t
    else if isName t then
      match rest with
      | [] => (Parse.done (.name t.line t.text) : Parse _ [] _).after t
      | u :: rest =>
        if isAt "(" u then
          (((arguments rest).andThen fun args rest _ =>
            (punct ")" rest).map fun _ => Expr.call t.line t.text args).after u).after t
        else if isAt "[" u then
          (((assignment rest).andThen fun position rest _ =>
            (punct "]" rest).map fun _ => Expr.index t.line t.text position).after u).after t
        else (Parse.done (.name t.line t.text) : Parse _ (u :: rest) _).after t
    else if isAt "(" t then
      ((assignment rest).andThen fun e rest _ => (punct ")" rest).map fun _ => e).after t
    else Parse.fail .noExpression
termination_by 20 * s.length + 1
decreasing_by
  · simp only [List.length_cons]; omega
  · simp only [List.length_cons]; omega
  · simp only [List.length_cons]; omega

/-- Reads the arguments of a call. -/
def arguments (s : List Token) : Parse false s (List Expr) :=
  if headIs ")" s then Parse.done []
  else
    ((assignment s).andThen fun first rest _h =>
      (moreArguments rest).map fun more => first :: more).relax
termination_by 20 * s.length + 12
decreasing_by
  · omega
  · simp at _h; omega

/-- Reads further arguments, each after a comma. -/
def moreArguments (s : List Token) : Parse false s (List Expr) :=
  match s with
  | [] => Parse.done []
  | t :: rest =>
    if isAt "," t then
      (((assignment rest).andThen fun next rest _h =>
        (moreArguments rest).map fun more => next :: more).after t).relax
    else Parse.done []
termination_by 20 * s.length
decreasing_by
  · simp; omega
  · simp at _h ⊢; omega

end

end Stepwise.Grammar
