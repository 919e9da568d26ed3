/-
One formatted field.

A field has flags, a least width and a precision. The number or text in it is
written first; then its sign, the mark of its base and the fill are put around
it. Zeros fill between the mark and the digits and only for numbers; a field
that is aligned to the left is filled with spaces behind it.
-/
import Stepwise.Value.Arithmetic
import Stepwise.Literal

set_option autoImplicit false

namespace Stepwise.Printf

/-- Flags of a field. -/
structure Flags where
  /-- Align to the left. -/
  left : Bool := false
  /-- Show a plus sign. -/
  plus : Bool := false
  /-- Leave a blank for the sign. -/
  space : Bool := false
  /-- Show the mark of the base, or the point. -/
  alternate : Bool := false
  /-- Fill with zeros. -/
  zeros : Bool := false
deriving Repr, DecidableEq

/-- The flags with another one, if the character is a flag. -/
def Flags.add? (flags : Flags) : Char → Option Flags
  | '-' => some { flags with left := true }
  | '+' => some { flags with plus := true }
  | ' ' => some { flags with space := true }
  | '#' => some { flags with alternate := true }
  | '0' => some { flags with zeros := true }
  | _ => none

/-- A field: how its content is to be written and placed. -/
structure Field where
  /-- The flags. -/
  flags : Flags
  /-- The least width. -/
  width : Option Nat
  /-- The precision. -/
  precision : Option Nat
deriving Repr, DecidableEq

/-- The first precision that no field can have. -/
def precisionLimit : Nat := Nat.pow 2 31

/-- The largest precision of a whole number. -/
def digitsLimit : Nat := precisionLimit - 4

/-- More significant digits than any double has. -/
def doubleDigits : Nat := 1100

/-- What a field shows. -/
inductive Content where
  /-- A text. -/
  | text (s : String)
  /-- A whole number. -/
  | int (n : Int)
  /-- A double. -/
  | float (x : Float)
deriving Repr

namespace Field

/-- Spaces around a text. -/
def placeText (f : Field) (s : List Char) : List Char :=
  let shown :=
    match f.precision with
    | some p => s.take p
    | none => s
  let fill := List.replicate (f.width.getD 0 - shown.length) ' '
  if f.flags.left then shown ++ fill else fill ++ shown

/-- Places a number given by its sign, the mark of its base and its digits. -/
def placeNumber (f : Field) (negative : Bool) (mark digits : List Char) : List Char :=
  let sign :=
    if negative then ['-'] else if f.flags.plus then ['+'] else if f.flags.space then [' '] else []
  let fill := f.width.getD 0 - (sign.length + mark.length + digits.length)
  if f.flags.left then sign ++ mark ++ digits ++ List.replicate fill ' '
  else if f.flags.zeros then sign ++ mark ++ List.replicate fill '0' ++ digits
  else List.replicate fill ' ' ++ sign ++ mark ++ digits

/-- The digits of a whole number, filled with zeros to the precision. -/
def digits (f : Field) (base n : Nat) : List Char :=
  let chars := Nat.toDigits base n
  List.replicate (f.precision.getD 0 - chars.length) '0' ++ chars

/-- A whole number in base ten. -/
def decimal (f : Field) (n : Int) : List Char :=
  f.placeNumber (decide (n < 0)) [] (f.digits 10 n.natAbs)

/-- A whole number in base eight or sixteen. -/
def based (f : Field) (conversion : Char) (n : Int) : List Char :=
  let chars := f.digits (if conversion = 'o' then 8 else 16) n.natAbs
  let upper := if conversion = 'X' then chars.map Char.toUpper else chars
  f.placeNumber (decide (n < 0)) (if f.flags.alternate then ['0', conversion] else []) upper

/-- Is the conversion one with an exponent? -/
def isExponential (conversion : Char) : Bool :=
  conversion == 'e' || conversion == 'E'

/-- Does the conversion drop the zeros at the end? -/
def dropsZeros (f : Field) (conversion : Char) : Bool :=
  (conversion == 'g' || conversion == 'G') && !f.flags.alternate

/-- The precision of a double. With an exponent one digit more than the precision is shown, and
their number has to stay below the limit too: otherwise only the first digit is left. Digits that
no double has are not asked for where they would be dropped. -/
def places (f : Field) (conversion : Char) : Nat :=
  let precision := f.precision.getD 6
  if isExponential conversion && precisionLimit ≤ precision + 1 then 0
  else if f.dropsZeros conversion then min precision doubleDigits
  else precision

/-- A double with places, with an exponent, or the shorter of the two. -/
def floating (f : Field) (conversion : Char) (x : Float) : List Char :=
  let precision := f.places conversion
  let chars :=
    match Decimal.binary? x with
    | none => (Decimal.nonFinite x).toList
    | some b =>
      let (num, den) := b.fraction
      if conversion = 'f' ∨ conversion = 'F' then
        (Decimal.fixed f.flags.alternate precision num den).toList
      else if isExponential conversion then
        (Decimal.exponential f.flags.alternate 'e' precision num den).toList
      else (Decimal.general f.flags.alternate 'e' (max precision 1) num den).toList
  let shown := if conversion.isUpper then chars.map Char.toUpper else chars
  f.placeNumber (Decimal.isNegative x && !x.isNaN) [] shown

/-! ## Room -/

/-- Is there room for the width of the field? -/
def roomForWidth (f : Field) : Except Fault Unit :=
  Capacity.room .outOfMemory (f.width.getD 0)

/-- Is there room for a whole number in the field? -/
def roomForInt (f : Field) : Except Fault Unit := do
  if digitsLimit < f.precision.getD 0 then .error .outOfRange
  Capacity.room .outOfMemory (f.precision.getD 0)
  f.roomForWidth

/-- Is there room for a double in the field? One that is not finite has no digits. -/
def roomForFloat (f : Field) (conversion : Char) (x : Float) : Except Fault Unit := do
  if (Decimal.binary? x).isSome then Capacity.room .outOfMemory (f.places conversion)
  f.roomForWidth

end Field

/-- A text with every character beyond ASCII escaped. -/
def asciiOnly (s : String) : String :=
  String.ofList (s.toList.flatMap fun c =>
    if c.toNat < 128 then [c]
    else if c.toNat < 0x100 then '\\' :: 'x' :: Text.codeDigits 2 c.toNat
    else if c.toNat < 0x10000 then '\\' :: 'u' :: Text.codeDigits 4 c.toNat
    else '\\' :: 'U' :: Text.codeDigits 8 c.toNat)

namespace Content

/-- The content as text. -/
def printed : Content → String
  | text s => s
  | int n => Numeral.decimal n
  | float x => Decimal.shortestText x

/-- The content as text, quoted if it is a text. -/
def dumped : Content → String
  | text s => Text.quoted s
  | c => c.printed

/-- The content as a whole number, its fraction cut off. -/
def toInt : Content → Except Fault Int
  | int n => .ok n
  | float x => Number.toInt (.float x)
  | text _ => .error .wrongShape

/-- The content as a double. -/
def toFloat : Content → Except Fault Float
  | int n => Number.floatOfInt n
  | float x => .ok x
  | text _ => .error .wrongShape

/-- The content as a single character. -/
def toChar : Content → Except Fault (List Char)
  | text s => if s.length = 1 then .ok s.toList else .error .wrongShape
  | int n => if n < 0 ∨ 0x10FFFF < n then .error .outOfRange else .ok [Char.ofNat n.toNat]
  | float _ => .error .wrongShape

end Content

/-- The text of a field with a conversion and a content. -/
def Field.write (f : Field) (conversion : Char) (content : Content) :
    Except Fault (List Char) :=
  match conversion with
  | 's' => do
    f.roomForWidth
    return f.placeText content.printed.toList
  | 'r' => do
    f.roomForWidth
    return f.placeText content.dumped.toList
  | 'a' => do
    f.roomForWidth
    return f.placeText (asciiOnly content.dumped).toList
  | 'c' => do
    let c ← content.toChar
    f.roomForWidth
    return { f with precision := none }.placeText c
  | 'd' | 'i' | 'u' => do
    let n ← content.toInt
    f.roomForInt
    return f.decimal n
  | 'o' | 'x' | 'X' =>
    match content with
    | .int n => do
      f.roomForInt
      return f.based conversion n
    | _ => .error .wrongShape
  | 'e' | 'E' | 'f' | 'F' | 'g' | 'G' => do
    let x ← content.toFloat
    f.roomForFloat conversion x
    return f.floating conversion x
  | _ => .error .badValue

end Stepwise.Printf
