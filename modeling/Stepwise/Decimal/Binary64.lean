/-
The numbers behind the doubles.

A finite double is `± mantissa · 2 ^ exponent` with a mantissa below `2 ^ 53`;
this file opens a double into these parts and, in the other direction, rounds
any non-negative fraction to the nearest double, an exact half going to the
even mantissa. Everything else about decimal text is exact arithmetic on
natural numbers between these two functions.
-/

set_option autoImplicit false

namespace Stepwise.Decimal

/-- A finite double: `mantissa · 2 ^ exponent`, negated if `negative`. -/
structure Binary where
  /-- Is the sign bit set? -/
  negative : Bool
  /-- The significant bits, below `2 ^ 53`. -/
  mantissa : Nat
  /-- The power of two they are scaled by. -/
  exponent : Int
deriving Repr, DecidableEq

/-- The parts of a double, none for infinities and for what is not a number. -/
def binary? (x : Float) : Option Binary :=
  let bits : Nat := x.toBits.toNat
  let negative := bits / Nat.pow 2 63 == 1
  let biased : Nat := bits / Nat.pow 2 52 % Nat.pow 2 11
  let fraction : Nat := bits % Nat.pow 2 52
  if biased = 2047 then none
  else if biased = 0 then some ⟨negative, fraction, -1074⟩
  else some ⟨negative, Nat.pow 2 52 + fraction, (biased : Int) - 1075⟩

/-- Is the sign bit set? -/
def isNegative (x : Float) : Bool :=
  x.toBits.toNat / Nat.pow 2 63 == 1

/-- The quotient rounded to the nearest natural number, an exact half to the even one. -/
def roundDiv (num den : Nat) : Nat :=
  let q := num / den
  let twice := 2 * (num % den)
  if twice < den then q
  else if den < twice then q + 1
  else if q % 2 = 0 then q else q + 1

/-- The fraction `num / den · 2 ^ (-exponent)`, rounded. -/
def scaledDiv (num den : Nat) (exponent : Int) : Nat :=
  if exponent < 0 then roundDiv (num * Nat.pow 2 exponent.natAbs) den
  else roundDiv num (den * Nat.pow 2 exponent.natAbs)

/-- The exponent at which the mantissa of `num / den` has fifty-three bits, or the least one. -/
def exponentFor (num den : Nat) : Int :=
  let guess : Int := (num.log2 : Int) - den.log2 - 53
  let wide :=
    if guess < 0 then num * Nat.pow 2 guess.natAbs / den else num / (den * Nat.pow 2 guess.natAbs)
  let exact := if Nat.pow 2 53 ≤ wide then guess + 1 else guess
  if exact < -1074 then -1074 else exact

/-- The bit pattern of infinity. -/
def infinity : Nat :=
  2047 * Nat.pow 2 52

/-- The bit pattern of a mantissa of at most fifty-three bits at an exponent of at least -1074,
that of infinity if there is no such double. -/
def pattern (mantissa : Nat) (exponent : Int) : Nat :=
  let (m, e) :=
    if mantissa = Nat.pow 2 53 then (Nat.pow 2 52, exponent + 1) else (mantissa, exponent)
  if m < Nat.pow 2 52 then m
  else if 971 < e then infinity
  else (e + 1075).toNat * Nat.pow 2 52 + (m - Nat.pow 2 52)

/-- The bit pattern of the double nearest to `num / den`, an exact half going to the even mantissa;
that of infinity when the fraction lies beyond the largest double. -/
def magnitude (num den : Nat) : Nat :=
  if num = 0 then 0
  else
    let exponent := exponentFor num den
    pattern (scaledDiv num den exponent) exponent

/-- The double nearest to `num / den`, or infinity, with a sign. -/
def nearest (negative : Bool) (num den : Nat) : Float :=
  let magnitude := magnitude num den
  Float.ofBits (UInt64.ofNat (if negative then Nat.pow 2 63 + magnitude else magnitude))

/-- The double nearest to a whole number. -/
def ofInt (n : Int) : Float :=
  nearest (decide (n < 0)) n.natAbs 1

/-- A finite double as a fraction of natural numbers, the sign aside. -/
def Binary.fraction (b : Binary) : Nat × Nat :=
  if b.exponent < 0 then (b.mantissa, Nat.pow 2 b.exponent.natAbs)
  else (b.mantissa * Nat.pow 2 b.exponent.natAbs, 1)

/-- A finite double cut toward zero to a whole number. -/
def Binary.truncate (b : Binary) : Int :=
  let (num, den) := b.fraction
  if b.negative then -((num / den : Nat) : Int) else (num / den : Nat)

end Stepwise.Decimal
