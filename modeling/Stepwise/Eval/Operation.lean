/-
Binary operations on typed values.

A sum or difference with a pointer moves it by whole elements, and the
difference of two pointers counts elements. Otherwise a comparison gives zero
or one, and a computation is one on doubles if either operand is a double.
Quotients are cut toward zero and remainders have the sign of the dividend.
The result has the left operand's type, except that characters become `int`
and anything with a double becomes `double`.
-/
import Stepwise.Value.Coerce
import Stepwise.Syntax.Operator

set_option autoImplicit false

namespace Stepwise

namespace Operation

/-- Is the value a double? -/
def isFloat : Value → Bool
  | .num (.float ..) => true
  | _ => false

/-- Zero or one. -/
def ofBool (b : Bool) : Value :=
  .int (if b then 1 else 0)

/-- What a comparison says, given whether the operands are equal and how they are ordered. -/
def holds (equal : Bool) (order : Option Ordering) : RelOp → Bool
  | .eq => equal
  | .ne => !equal
  | .lt => order == some .lt
  | .gt => order == some .gt
  | .le => order == some .lt || order == some .eq
  | .ge => order == some .gt || order == some .eq

/-- The type of a computation's result. -/
def resultType (left : CType) (floating : Bool) : CType :=
  if floating then ⟨"double"⟩ else if left.text = "char" then .int else left

/-- The quotient of two doubles. -/
def divideFloats (a b : Value) : Except Fault Value :=
  match a, b with
  | .num x, .num y => do return .float ((← x.toFloat) / (← y.toFloat))
  | _, _ => .error .wrongShape

/-- An operation on two whole numbers. -/
def onInts (a b : Value) (f : Int → Int → Except Fault Int) : Except Fault Value :=
  match a, b with
  | .num (.int m), .num (.int n) => do return .int (← f m n)
  | _, _ => .error .wrongShape

/-- Bits in either; two records are merged. -/
def bitOr (a b : Value) : Except Fault Value :=
  match a, b with
  | .record m, .record n => .ok (.record (Table.putAll m n))
  | a, b => onInts a b fun x y => .ok (Bits.or x y)

/-- Quotient or remainder. -/
def divide (op : ArithOp) (a b : Value) : Except Fault Value :=
  if b == .int 0 then .error .divisionByZero
  else if isFloat a || isFloat b then
    match op with
    | .mod => .error (.needsIntegers op.text)
    | _ => divideFloats a b
  else onInts a b fun x y => .ok (match op with | .mod => x.tmod y | _ => x.tdiv y)

/-- An operation on bits. -/
def bitwise (op : ArithOp) (a b : Value) : Except Fault Value :=
  if isFloat a || isFloat b then .error (.needsIntegers op.text)
  else
    match op with
    | .bitAnd => onInts a b fun x y => .ok (Bits.and x y)
    | .bitXor => onInts a b fun x y => .ok (Bits.xor x y)
    | .shiftLeft => onInts a b Bits.shiftLeft
    | .shiftRight => onInts a b Bits.shiftRight
    | _ => bitOr a b

/-- A computation on two values. -/
def compute (op : ArithOp) (a b : Value) : Except Fault Value :=
  match op with
  | .add => a.add b
  | .sub => a.sub b
  | .mul => a.mul b
  | .div | .mod => divide op a b
  | .bitAnd | .bitOr | .bitXor | .shiftLeft | .shiftRight => bitwise op a b

/-- A pointer moved forward or back by a count of elements. -/
def movePointer (sizes : StructSizes) (back : Bool) (pointer : Typed) (count : Value) :
    Except Fault Typed := do
  let scale ← (← pointer.type.element).size sizes
  let count ← if back then count.neg else .ok count
  return ⟨← pointer.value.add (← count.mul (.int scale)), pointer.type⟩

/-- The number of elements between two pointers. -/
def pointerDistance (sizes : StructSizes) (left right : Typed) : Except Fault Typed := do
  let bytes ← left.value.sub right.value
  let scale ← (← left.type.element).size sizes
  return ⟨← bytes.floorDiv scale, ⟨"long"⟩⟩

/-- A sum or, if `back`, a difference in which at least one operand is a pointer. -/
def onPointers (sizes : StructSizes) (back : Bool) (left right : Typed) : Except Fault Typed :=
  if left.type.isPointer && right.type.isPointer && back then pointerDistance sizes left right
  else if left.type.isPointer then movePointer sizes back left right.value
  else movePointer sizes back right left.value

/-- A comparison of two values. -/
def compare (op : RelOp) (a b : Value) : Except Fault Typed := do
  -- equality asks for an order too, so values that have none cannot be told apart either
  let order ← a.order b
  return ⟨ofBool (holds (a == b) order op), .int⟩

end Operation

/-- Is the value there? -/
def Value.isInit : Value → Bool
  | .uninit => false
  | _ => true

/-- The result of a binary operator. -/
def BinaryOp.apply (sizes : StructSizes) (op : BinaryOp) (left right : Typed) :
    Except Fault Typed :=
  if !left.value.isInit || !right.value.isInit then .error (.uninitializedOperator op.text)
  else
    match op with
    | .rel op => Operation.compare op left.value right.value
    | .arith op =>
      if (op = .add ∨ op = .sub) ∧ (left.type.isPointer || right.type.isPointer) then
        Operation.onPointers sizes (op = .sub) left right
      else do
        let floating := Operation.isFloat left.value || Operation.isFloat right.value
        return ⟨← Operation.compute op left.value right.value,
          Operation.resultType left.type floating⟩

/-- The result of the operator with a text, which may be none. -/
def applyOperator (sizes : StructSizes) (text : String) (left right : Typed) :
    Except Fault Typed :=
  match BinaryOp.ofText? text with
  | some op => op.apply sizes left right
  | none =>
    if !left.value.isInit || !right.value.isInit then .error (.uninitializedOperator text)
    else if Operation.isFloat left.value || Operation.isFloat right.value then
      .error (.needsIntegers text)
    else .error (.unsupportedOperator text)

end Stepwise
