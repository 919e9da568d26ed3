/-
The fewest digits that read back.

A finite double is written with the smallest number of significant digits
that, read as a decimal and rounded to the nearest double, give the double
back; of the decimals with that many digits, with the one nearest to it. For
each digit count only two decimals have to be tried: the value's neighbours
below and above on that grid.
-/
import Stepwise.Decimal.Binary64

set_option autoImplicit false

namespace Stepwise.Decimal

/-- A positive decimal `digits · 10 ^ exponent`. -/
structure Scientific where
  /-- The significant digits, as a number. -/
  digits : Nat
  /-- The power of ten they are scaled by. -/
  exponent : Int
deriving Repr, DecidableEq

/-- A decimal as a fraction. -/
def Scientific.fraction (s : Scientific) : Nat × Nat :=
  if s.exponent < 0 then (s.digits, Nat.pow 10 s.exponent.natAbs)
  else (s.digits * Nat.pow 10 s.exponent.natAbs, 1)

/-- The largest `k` with `10 ^ k ≤ num / den`, searched downward from `top`. -/
def leadFrom (num den : Nat) (top : Int) : Nat → Int
  | 0 => top
  | steps + 1 =>
    let fits :=
      if top < 0 then den ≤ num * Nat.pow 10 top.natAbs else den * Nat.pow 10 top.natAbs ≤ num
    if fits then top else leadFrom num den (top - 1) steps

/-- The power of ten of the first digit of a positive fraction. Three bits make a decimal digit at
most and ten bits make three at least, so the search starts just above. -/
def lead (num den : Nat) : Int :=
  let bits : Int := (num.log2 : Int) - den.log2
  let top := (bits + 1) * 1233 / 4096 + 1
  leadFrom num den top 8

/-- The grid of decimals with `count` digits whose first digit has power `lead`: the neighbour at or
below the fraction. -/
def below (num den : Nat) (lead : Int) (count : Nat) : Scientific :=
  let exponent := lead - ((count : Int) - 1)
  let digits :=
    if exponent < 0 then num * Nat.pow 10 exponent.natAbs / den
    else num / (den * Nat.pow 10 exponent.natAbs)
  ⟨digits, exponent⟩

/-- Does the decimal read back as the double? -/
def Scientific.reads (s : Scientific) (x : Float) : Bool :=
  let (num, den) := s.fraction
  (nearest false num den).toBits == x.toBits

/-- Is the fraction nearer to the lower neighbour than to the next decimal of the grid? An exact
half goes to the even one. -/
def nearerBelow (num den : Nat) (s : Scientific) : Bool :=
  -- twice the fraction against the midpoint of the two neighbours
  let mid := 2 * s.digits + 1
  let (left, right) :=
    if s.exponent < 0 then (2 * num * Nat.pow 10 s.exponent.natAbs, mid * den)
    else (2 * num, mid * den * Nat.pow 10 s.exponent.natAbs)
  if left < right then true
  else if right < left then false
  else s.digits % 2 == 0

/-- The first grid with a decimal that reads back as `x`, from `count` digits on. -/
def shortestFrom (x : Float) (num den : Nat) (lead : Int) (count : Nat) : Nat → Scientific
  | 0 => below num den lead count
  | steps + 1 =>
    let low := below num den lead count
    let high : Scientific := ⟨low.digits + 1, low.exponent⟩
    match low.reads x, high.reads x with
    | true, true => if nearerBelow num den low then low else high
    | true, false => low
    | false, true => high
    | false, false => shortestFrom x num den lead (count + 1) steps

/-- The shortest decimal of a positive finite double, given with its parts. -/
def shortest (x : Float) (b : Binary) : Scientific :=
  let (num, den) := b.fraction
  shortestFrom x num den (lead num den) 1 17

end Stepwise.Decimal
