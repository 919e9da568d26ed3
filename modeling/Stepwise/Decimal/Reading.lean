/-
Doubles read from decimal text.

A number is digits with an optional point, at least one digit on either side
of it, and an optional exponent; single underscores may part two digits, and
blanks may surround the whole. It denotes the double nearest to the decimal,
infinity when that is out of range.
-/
import Stepwise.Decimal.Binary64
import Stepwise.Numeral.Reading

set_option autoImplicit false

namespace Stepwise.Decimal

/-- A run of decimal digits parted by single underscores, and what follows it. -/
def digitRun : List Char → List Nat × List Char
  | [] => ([], [])
  | c :: rest =>
    match Text.digitValue? c with
    | none => ([], c :: rest)
    | some d =>
      match rest with
      | '_' :: more =>
        let (ds, left) := digitRun more
        if ds.isEmpty then ([d], '_' :: more) else (d :: ds, left)
      | rest =>
        let (ds, left) := digitRun rest
        (d :: ds, left)

/-- The number that digits spell in base ten. -/
def ofDigitList (ds : List Nat) : Nat :=
  ds.foldl (fun acc d => acc * 10 + d) 0

/-- The exponent part of a decimal, zero when there is none; fails if the mark has no digits. -/
def readExponent? : List Char → Option (Int × List Char)
  | [] => some (0, [])
  | c :: rest =>
    if c = 'e' ∨ c = 'E' then
      let (negative, body) := Numeral.splitSign rest
      let (ds, left) := digitRun body
      if ds.isEmpty then none
      else
        let n : Int := ofDigitList ds
        some (if negative then -n else n, left)
    else some (0, c :: rest)

/-- The double nearest to `digits · 10 ^ exponent`. Decimals far outside the range of doubles are
settled by their size alone. -/
def ofDecimal (negative : Bool) (digits : Nat) (exponent : Int) : Float :=
  let size : Int := exponent + ((Nat.toDigits 10 digits).length : Int)
  if digits = 0 ∨ size < -400 then nearest negative 0 1
  else if 400 < size then nearest negative (Nat.pow 2 1100) 1
  else if exponent < 0 then nearest negative digits (Nat.pow 10 exponent.natAbs)
  else nearest negative (digits * Nat.pow 10 exponent.natAbs) 1

/-- The double a decimal text denotes. -/
def readFloat? (s : List Char) : Option Float :=
  let (negative, body) := Numeral.splitSign (s.dropWhile Numeral.isMargin)
  let (whole, afterWhole) := digitRun body
  let (part, afterPart) :=
    match afterWhole with
    | '.' :: rest => digitRun rest
    | _ => ([], afterWhole)
  if whole.isEmpty && part.isEmpty then none
  else
    match readExponent? afterPart with
    | some (e, left) =>
      if left.all Numeral.isMargin then
        some (ofDecimal negative (ofDigitList (whole ++ part)) (e - part.length))
      else none
    | none => none

end Stepwise.Decimal
