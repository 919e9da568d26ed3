/-
Whole numbers written in a base.

Addresses are written in base sixteen, bit patterns in base two, everything
else in base ten. A negative number is its sign followed by the digits of its
magnitude, whatever the base, and zeros that fill a number to a width stand
between the sign and the digits.

All digits are written, however many there are. A host may refuse to write a number
of more than some thousand digits; it is taken to have no such limit.
-/
import Stepwise.Text.Split

set_option autoImplicit false

namespace Stepwise.Numeral

/-- The digits of a natural number, lowest letters above nine. -/
def digits (base n : Nat) : String :=
  String.ofList (Nat.toDigits base n)

/-- The sign of a whole number, empty unless it is negative. -/
def sign (n : Int) : String :=
  if n < 0 then "-" else ""

/-- A whole number in a base. -/
def signed (base : Nat) (n : Int) : String :=
  sign n ++ digits base n.natAbs

/-- A whole number in base ten, with all its digits. -/
def decimal (n : Int) : String :=
  signed 10 n

/-- Of a natural number only the digits are written. -/
theorem toList_decimal (n : Nat) : (decimal n).toList = Nat.toDigits 10 n := by
  rw [decimal, signed, sign, if_neg (by omega), String.empty_append, digits, String.toList_ofList]
  rfl

/-- A whole number in base sixteen. -/
def hex (n : Int) : String :=
  signed 16 n

/-- A whole number in a base, filled with zeros after the sign to `width` characters. -/
def filled (base width : Nat) (n : Int) : String :=
  sign n ++ Text.padLeft (width - (sign n).length) '0' (digits base n.natAbs)

/-- An address as the descriptions show it. -/
def address (n : Int) : String :=
  "0x" ++ hex n

end Stepwise.Numeral
