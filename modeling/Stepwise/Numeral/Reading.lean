/-
Whole numbers read from a text.

A number is optional blanks, an optional sign, an optional mark of its base
(`0x`, `0o`), digits that may be parted by single underscores, and optional
blanks. Digits may be those of any script. The four information separators are
blanks elsewhere in this library and are none here.
-/
import Stepwise.Text.Class

set_option autoImplicit false

namespace Stepwise.Numeral

/-- Blanks that may surround a number. -/
def isMargin (c : Char) : Bool :=
  Text.isBlank c && !(0x1C ≤ c.toNat && c.toNat ≤ 0x1F)

/-- The value of a digit in bases up to sixteen: a decimal digit of any script or a letter. -/
def digitValue? (c : Char) : Option Nat :=
  match Text.digitValue? c with
  | some d => some d
  | none =>
    if 'a' ≤ c ∧ c ≤ 'f' then some (c.toNat - 'a'.toNat + 10)
    else if 'A' ≤ c ∧ c ≤ 'F' then some (c.toNat - 'A'.toNat + 10)
    else none

/-- Reads digits of a base onto `acc`; `owed` tells that a digit must follow, as at the start or
after an underscore. Anything that is no digit of the base is left over. -/
def readDigits (base : Nat) (owed : Bool) (acc : Nat) :
    List Char → Option (Nat × List Char)
  | [] => if owed then none else some (acc, [])
  | c :: rest =>
    if c = '_' then
      if owed then none else readDigits base true acc rest
    else
      match digitValue? c with
      | some d =>
        if d < base then readDigits base false (acc * base + d) rest
        else if owed then none else some (acc, c :: rest)
      | none => if owed then none else some (acc, c :: rest)

/-- The text after the mark of a base, with the one underscore that may follow it. -/
def skipBaseMark (base : Nat) : List Char → List Char
  | '0' :: c :: rest =>
    if (base = 16 ∧ (c = 'x' ∨ c = 'X')) ∨ (base = 8 ∧ (c = 'o' ∨ c = 'O')) then
      match rest with
      | '_' :: more => more
      | _ => rest
    else '0' :: c :: rest
  | s => s

/-- The sign of a number and the text after it. -/
def splitSign : List Char → Bool × List Char
  | '-' :: rest => (true, rest)
  | '+' :: rest => (false, rest)
  | s => (false, s)

/-- A decimal digit of any script as the ASCII digit of the same value; other characters as they
are. -/
def plainDigit (c : Char) : Char :=
  match Text.digitValue? c with
  | some d => Char.ofNat ('0'.toNat + d)
  | none => c

/-- The whole number a text spells in a base. Digits of all scripts are made alike first, so the
mark of a base may begin with any zero. -/
def readInt? (base : Nat) (s : List Char) : Option Int :=
  let (negative, body) := splitSign ((s.map plainDigit).dropWhile isMargin)
  match readDigits base true 0 (skipBaseMark base body) with
  | some (n, rest) =>
    if rest.all isMargin then some (if negative then -(n : Int) else n) else none
  | none => none

/-- The natural number a run of decimal digits spells. -/
def ofDigits (s : List Char) : Nat :=
  s.foldl (fun acc c => acc * 10 + (Text.digitValue? c).getD 0) 0

end Stepwise.Numeral
