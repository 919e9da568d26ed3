/-
Doubles as decimal text.

Three ways of writing a double are used: with the fewest digits that read
back, positional from `1e-4` up to below `1e16` (the texts of values); with a
given number of places; and with a given number of significant digits. The
last two are exact: the double is a fraction, and rounding it to a grid of
decimals sends an exact half to the even neighbour.
-/
import Stepwise.Decimal.Shortest
import Stepwise.Text.Split

set_option autoImplicit false

namespace Stepwise.Decimal

/-- The digits of a natural number, as characters. -/
def digitChars (n : Nat) : List Char :=
  Nat.toDigits 10 n

/-- An exponent: its sign, then two digits at least. -/
def exponentText (mark : Char) (e : Int) : String :=
  String.singleton mark ++ (if e < 0 then "-" else "+")
    ++ Text.padLeft 2 '0' (String.ofList (digitChars e.natAbs))

/-- The digits of a number with a point before the last `places` of them. -/
def pointed (digits : Nat) (places : Nat) : List Char × List Char :=
  let chars := digitChars digits
  let all := List.replicate (places + 1 - chars.length) '0' ++ chars
  (all.take (all.length - places), all.drop (all.length - places))

/-- Drops the zeros at the end of a run of digits. -/
def dropZeros (s : List Char) : List Char :=
  (s.reverse.dropWhile (· == '0')).reverse

/-- Joins the digits before and after the point; the point is kept if `keep` or digits follow. -/
def joinPoint (keep : Bool) (whole part : List Char) : String :=
  String.ofList (whole ++ (if keep || !part.isEmpty then '.' :: part else []))

/-- A non-negative fraction with `places` digits after the point. -/
def fixed (keepPoint : Bool) (places : Nat) (num den : Nat) : String :=
  let (whole, part) := pointed (roundDiv (num * Nat.pow 10 places) den) places
  joinPoint keepPoint whole part

/-- A non-negative fraction rounded to `count` significant digits: the digits and the power of ten
of the first of them. -/
def significant (count : Nat) (num den : Nat) : Nat × Int :=
  if num = 0 then (0, 0)
  else
    let first := lead num den
    let exponent := first - ((count : Int) - 1)
    let digits :=
      if exponent < 0 then roundDiv (num * Nat.pow 10 exponent.natAbs) den
      else roundDiv num (den * Nat.pow 10 exponent.natAbs)
    -- rounding up may have carried into a new first digit
    if digits = Nat.pow 10 count then (Nat.pow 10 (count - 1), first + 1) else (digits, first)

/-- The digits of `significant` as characters, one for each place. -/
def significantChars (count digits : Nat) : List Char :=
  let chars := digitChars digits
  chars ++ List.replicate (count - chars.length) '0'

/-- A non-negative fraction as one digit, `places` digits after the point and an exponent. -/
def exponential (keepPoint : Bool) (mark : Char) (places : Nat) (num den : Nat) : String :=
  let (digits, first) := significant (places + 1) num den
  let chars := significantChars (places + 1) digits
  joinPoint keepPoint (chars.take 1) (chars.drop 1) ++ exponentText mark first

/-- A non-negative fraction with `count` significant digits: positional while the first digit has
a power from `-4` up to below `count`, with an exponent otherwise. Unless `full`, zeros at the end
and a point with nothing after it are dropped. -/
def general (full : Bool) (mark : Char) (count : Nat) (num den : Nat) : String :=
  let (digits, first) := significant count num den
  let chars := significantChars count digits
  if -4 ≤ first ∧ first < count then
    let (whole, part) :=
      if first < 0 then (['0'], List.replicate (first.natAbs - 1) '0' ++ chars)
      else (chars.take (first.toNat + 1), chars.drop (first.toNat + 1))
    joinPoint full whole (if full then part else dropZeros part)
  else
    let part := chars.drop 1
    joinPoint full (chars.take 1) (if full then part else dropZeros part)
      ++ exponentText mark first

/-- The text of a double that is not finite. -/
def nonFinite (x : Float) : String :=
  if x.isNaN then "nan" else "inf"

/-- A positive decimal written out: positional while the power of its first digit is at least `-4`
and below sixteen, with an exponent otherwise. -/
def Scientific.text (s : Scientific) : String :=
  let chars := dropZeros (digitChars s.digits)
  let first : Int := s.exponent + ((digitChars s.digits).length : Int) - 1
  if -4 ≤ first ∧ first < 16 then
    if first < 0 then
      "0." ++ String.ofList (List.replicate (first.natAbs - 1) '0' ++ chars)
    else
      let whole := chars.take (first.toNat + 1)
      let part := chars.drop (first.toNat + 1)
      String.ofList (whole ++ List.replicate (first.toNat + 1 - whole.length) '0' ++ ['.']
        ++ (if part.isEmpty then ['0'] else part))
  else joinPoint false (chars.take 1) (chars.drop 1) ++ exponentText 'e' first

/-- The text of a double: the fewest digits that read back, always with a point or an exponent. -/
def shortestText (x : Float) : String :=
  match binary? x with
  | none => if x.isNaN then "nan" else if isNegative x then "-inf" else "inf"
  | some b =>
    let magnitude := if b.mantissa = 0 then "0.0" else (shortest x.abs b).text
    if b.negative then "-" ++ magnitude else magnitude

/-- The text of a double with at most six significant digits, as step descriptions show it. -/
def briefText (x : Float) : String :=
  match binary? x with
  | none => if x.isNaN then "nan" else if isNegative x then "-inf" else "inf"
  | some b =>
    let (num, den) := b.fraction
    let magnitude := general false 'e' 6 num den
    if b.negative then "-" ++ magnitude else magnitude

end Stepwise.Decimal
