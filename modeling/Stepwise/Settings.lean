/-
Settings of a trace.

The stack grows upward from its base and ends where the heap begins, so the
heap's base has to be above the stack's. Calls and loop iterations are bounded
by limits of at least one.
-/
import Stepwise.Numeral.Writing
import Stepwise.Numeral.Reading

set_option autoImplicit false

namespace Stepwise

/-- A number that was asked for. -/
inductive Amount where
  /-- The number. -/
  | number (n : Int)
  /-- None was given: the option stands there with an empty list of values. -/
  | blank
deriving Repr, DecidableEq

/-- An amount as it is shown. -/
def Amount.text : Amount → String
  | number n => Numeral.decimal n
  | blank => "[]"

/-- The number, if one was given. -/
def Amount.number? : Amount → Option Int
  | number n => some n
  | blank => none

/-- The knobs of a trace. -/
structure Settings where
  /-- The first stack address. -/
  stackBase : Int := 0x1000
  /-- The first heap address. -/
  heapBase : Int := 0x8000
  /-- What is read from the keyboard. -/
  keyboard : Amount := .number 3
  /-- How many calls may be active. -/
  maxCallDepth : Int := 32
  /-- How many iterations a loop may have. -/
  maxLoopIterations : Int := 100
deriving Repr, DecidableEq

namespace Settings

/-- Why settings cannot be used. -/
inductive Invalid where
  /-- The stack would begin below zero. -/
  | negativeStack (base : Int)
  /-- The heap would begin inside the stack or below it. -/
  | heapBelowStack (heap stack : Int)
  /-- No call could be made. -/
  | callDepth
  /-- No iteration could be made. -/
  | loopIterations
deriving Repr, DecidableEq

/-- An address with its base mark behind the sign. -/
def markedHex (n : Int) : String :=
  Numeral.sign n ++ "0x" ++ Numeral.digits 16 n.natAbs

/-- The message of an invalid setting. -/
def Invalid.message : Invalid → String
  | negativeStack base => "stack_base must not be negative (got " ++ markedHex base ++ ")"
  | heapBelowStack heap stack =>
    "heap_base " ++ markedHex heap ++ " must be above stack_base " ++ markedHex stack
  | callDepth => "max_call_depth must be at least 1"
  | loopIterations => "max_loop_iterations must be at least 1"

/-- What is wrong with the settings, if anything is: the first problem in the order of the
fields. -/
def invalid? (s : Settings) : Option Invalid :=
  if s.stackBase < 0 then some (.negativeStack s.stackBase)
  else if s.heapBase ≤ s.stackBase then some (.heapBelowStack s.heapBase s.stackBase)
  else if s.maxCallDepth < 1 then some .callDepth
  else if s.maxLoopIterations < 1 then some .loopIterations
  else none

/-- The settings, if they can be used. -/
def checked (s : Settings) : Except Invalid Settings :=
  match s.invalid? with
  | some problem => .error problem
  | none => .ok s

end Settings

/-- The base in which an address is written on a command line, and its digits: base sixteen with
`0x` or behind a dollar sign, base ten otherwise. -/
def addressDigits (text : String) : Nat × List Char :=
  let s := Text.trim text.toList
  match s with
  | '0' :: 'x' :: _ | '0' :: 'X' :: _ => (16, s)
  | '$' :: rest => (16, rest)
  | s => (10, s)

/-- An address as it is given on a command line. -/
def readAddress? (text : String) : Option Int :=
  Numeral.readInt? (addressDigits text).1 (addressDigits text).2

end Stepwise
