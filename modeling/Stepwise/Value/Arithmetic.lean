/-
Arithmetic on values.

Numbers add, subtract and multiply as numbers: two whole numbers exactly,
anything with a double as doubles. Texts and lists can be joined with their
like and repeated a whole number of times, records can be merged. Every other
combination is a value of the wrong shape. A whole number meets a double only
if it fits one.
-/
import Stepwise.Capacity
import Stepwise.Value.Basic
import Stepwise.Numeral.Reading

set_option autoImplicit false

namespace Stepwise

namespace Number

/-- The double nearest to a whole number, if it is in range. -/
def floatOfInt (n : Int) : Except Fault Float :=
  -- the bit pattern tells, so nothing has to be asked of the double itself
  if Decimal.magnitude n.natAbs 1 = Decimal.infinity then .error .outOfRange
  else .ok (Decimal.ofInt n)

/-- The number as a double. -/
def toFloat : Number → Except Fault Float
  | int n => floatOfInt n
  | float x _ => .ok x

/-- The number as a whole number, its fraction cut off. -/
def toInt : Number → Except Fault Int
  | int n => .ok n
  | float x _ =>
    match Decimal.binary? x with
    | some b => .ok b.truncate
    | none => .error (if x.isNaN then .badValue else .outOfRange)

/-- An operation on whole numbers or, if one operand is a double, on doubles. -/
def combine (whole : Int → Int → Int) (floating : Float → Float → Float) :
    Number → Number → Except Fault Number
  | int m, int n => .ok (int (whole m n))
  | a, b => do
    let x ← a.toFloat
    let y ← b.toFloat
    return float (floating x y)

/-- Sum. -/
def add : Number → Number → Except Fault Number :=
  combine (· + ·) (· + ·)

/-- Difference. -/
def sub : Number → Number → Except Fault Number :=
  combine (· - ·) (· - ·)

/-- Product. -/
def mul : Number → Number → Except Fault Number :=
  combine (· * ·) (· * ·)

/-- The number with the other sign. -/
def neg : Number → Number
  | int n => int (-n)
  | float x _ => float (-x)

/-- The remainder of a division of doubles, with the sign of the dividend, for a positive whole
divisor. It is exact. -/
def floatRemainder (x : Float) (size : Nat) : Float :=
  match Decimal.binary? x with
  | some b =>
    let (num, den) := b.fraction
    Decimal.nearest b.negative (num % (size * den)) den
  | none => 0.0 / 0.0

/-- The quotient of a double and a positive whole number, rounded down. -/
def floatFloorDiv (x : Float) (size : Nat) : Float :=
  let divisor := Decimal.ofInt size
  let rest := floatRemainder x size
  let quotient := (x - rest) / divisor
  let quotient := if rest < 0 then quotient - 1.0 else quotient
  if quotient == 0 then (if Decimal.isNegative (x / divisor) then -0.0 else 0.0)
  else
    let low := quotient.floor
    if quotient - low > 0.5 then low + 1.0 else low

/-- The quotient by a size, rounded down. -/
def floorDiv (a : Number) (size : Int) : Except Fault Number :=
  match a with
  | int n => if size = 0 then .error .zeroSize else .ok (int (Int.fdiv n size))
  | float x _ =>
    if size = 0 then .error .zeroSize
    else do
      -- a double is divided by the double nearest to the size
      let divisor ← toInt (float (← floatOfInt size))
      return float (floatFloorDiv (if 0 < divisor then x else -x) divisor.natAbs)

end Number

namespace Value

/-- Sum of two numbers; two texts or two lists are joined. -/
def add : Value → Value → Except Fault Value
  | num a, num b => do return num (← a.add b)
  | text s, text t => .ok (text (s ++ t))
  | list a, list b => .ok (list (a ++ b))
  | _, _ => .error .wrongShape

/-- Difference of two numbers. -/
def sub : Value → Value → Except Fault Value
  | num a, num b => do return num (← a.sub b)
  | _, _ => .error .wrongShape

/-- Product of two numbers; a text or a list is repeated. -/
def mul : Value → Value → Except Fault Value
  | num a, num b => do return num (← a.mul b)
  | text s, num (.int n) | num (.int n), text s => do
    return text (String.ofList (← Capacity.copies .outOfRange s.toList n))
  | list items, num (.int n) | num (.int n), list items => do
    return list (← Capacity.copies .outOfMemory items n)
  | _, _ => .error .wrongShape

/-- A number with the other sign. -/
def neg : Value → Except Fault Value
  | num n => .ok (num n.neg)
  | _ => .error .wrongShape

/-- The quotient of a number by a size, rounded down. -/
def floorDiv (v : Value) (size : Int) : Except Fault Value :=
  match v with
  | num n => do return num (← n.floorDiv size)
  | _ => .error .wrongShape

/-- The whole number of a value: a number cut toward zero, or the number that a text spells. -/
def toInt : Value → Except Fault Int
  | num n => n.toInt
  | text s =>
    match Numeral.readInt? 10 s.toList with
    | some n => .ok n
    | none => .error .badValue
  | _ => .error .wrongShape

/-- The value in base sixteen, which only a whole number has. -/
def hexAddress : Value → Except Fault Int
  | num (.int n) => .ok n
  | num (.float ..) | text _ => .error .badValue
  | _ => .error .wrongShape

end Value

/-! ## Bits

Bitwise operations treat a negative number as an infinite run of ones on the
left, so each of them reduces to one on natural numbers by complementing. -/

namespace Bits

/-- Bits set in both. -/
def and : Int → Int → Int
  | .ofNat m, .ofNat n => .ofNat (m &&& n)
  | .ofNat m, .negSucc n => .ofNat (m - (m &&& n))
  | .negSucc m, .ofNat n => .ofNat (n - (n &&& m))
  | .negSucc m, .negSucc n => .negSucc (m ||| n)

/-- Bits set in either. -/
def or (m n : Int) : Int :=
  -(and (-m - 1) (-n - 1)) - 1

/-- Bits set in exactly one. -/
def xor : Int → Int → Int
  | .ofNat m, .ofNat n => .ofNat (m ^^^ n)
  | .ofNat m, .negSucc n => .negSucc (m ^^^ n)
  | .negSucc m, .ofNat n => .negSucc (m ^^^ n)
  | .negSucc m, .negSucc n => .ofNat (m ^^^ n)

/-- Every bit flipped. -/
def not (n : Int) : Int :=
  -n - 1

/-- Shift to the left. -/
def shiftLeft (m n : Int) : Except Fault Int :=
  if n < 0 then .error .badValue
  else if m = 0 then .ok 0
  else do
    Capacity.roomForShift m n.toNat
    return m * Nat.pow 2 n.toNat

/-- Shift to the right, keeping the sign. -/
def shiftRight (m n : Int) : Except Fault Int :=
  if n < 0 then .error .badValue
  -- beyond the number's own length only the sign is left
  else .ok (Int.fdiv m (Nat.pow 2 (min n.toNat (m.natAbs.log2 + 1))))

/-- The number modulo `2 ^ width`, as an unsigned number. -/
def unsigned (width : Nat) (n : Int) : Nat :=
  (n.fmod (Nat.pow 2 width)).toNat

end Bits

end Stepwise
