/-
How step descriptions show values.

Texts stand in double quotes with line feeds written as escapes, parts of an
object in braces, pointers as addresses or `NULL`, doubles with six digits.
-/
import Stepwise.Value.Coerce

set_option autoImplicit false

namespace Stepwise

namespace Value

/-- A text in double quotes, on one line. -/
def showText (s : String) : String :=
  "\"" ++ String.ofList (s.toList.flatMap fun c => if c = '\n' then ['\\', 'n'] else [c]) ++ "\""

/-- A number: a whole number of a pointer type is an address. -/
def showNumber (n : Number) (type : CType) : String :=
  match n with
  | .int m =>
    if type.isPointer then (if m = 0 then "NULL" else Numeral.address m) else Numeral.decimal m
  | .float x _ => Decimal.briefText x

mutual

/-- A value of a type, for a reader. -/
def shown : Value → CType → String
  | uninit, _ => "uninitialized"
  | text s, _ => showText s
  | record members, _ => "\x7b" ++ shownMembers members ++ "\x7d"
  | list items, _ => "\x7b" ++ shownItems items ++ "\x7d"
  | num n, type => showNumber n type

/-- Items parted by commas. -/
def shownItems : List Value → String
  | [] => ""
  | [v] => shown v .int
  | v :: rest => shown v .int ++ ", " ++ shownItems rest

/-- Members with their names, parted by commas. -/
def shownMembers : List (String × Value) → String
  | [] => ""
  | [(name, v)] => name ++ ": " ++ shown v .int
  | (name, v) :: rest => name ++ ": " ++ shown v .int ++ ", " ++ shownMembers rest

end

end Value

/-- A typed value, for a reader. -/
def Typed.shown (t : Typed) : String :=
  t.value.shown t.type

/-- The bit pattern of a value: thirty-two bits if it is negative or a fixed width is asked for,
without leading zeros otherwise. -/
def Value.bits (value : Value) (fixed : Bool) : Except Fault String :=
  match value with
  | .num (.int n) =>
    if n < 0 || fixed then .ok (Text.padLeft 32 '0' (Numeral.digits 2 (Bits.unsigned 32 n)))
    else .ok (Numeral.digits 2 n.natAbs)
  | .num (.float x _) => .error (if x < 0 || fixed then .wrongShape else .badValue)
  | _ => .error .wrongShape

end Stepwise
