/-
Literals and escapes.

A quoted literal is the text between its quotes with the escapes resolved; a
character literal is the code of its first character. A number is written in
base sixteen after `0x`, in base eight after a leading zero, and as a decimal
with a point or an exponent if it is floating. Letters at the end of a number
only tell its type.
-/
import Stepwise.Value.Coerce
import Stepwise.Decimal.Reading

set_option autoImplicit false

namespace Stepwise

namespace Literal

/-- The character with a code, which has to be a code point. The codes from D800 to DFFF are code
points without a character: in a text such a code is written as the character with the code zero. -/
def charOfCode (n : Int) : Except Fault Char :=
  if n < -0x80000000 ∨ 0x80000000 ≤ n then .error .outOfRange
  else if n < 0 ∨ 0x10FFFF < n then .error .badValue
  else .ok (Char.ofNat n.toNat)

/-- Is the character a digit of base eight? -/
def isOctal (c : Char) : Bool :=
  '0' ≤ c && c ≤ '7'

/-- Is the character a digit of base sixteen? -/
def isHex (c : Char) : Bool :=
  c.isDigit || ('a' ≤ c && c ≤ 'f') || ('A' ≤ c && c ≤ 'F')

/-- The number that digits spell in a base. -/
def ofDigits (base : Nat) (s : List Char) : Nat :=
  s.foldl (fun acc c => acc * base + (Numeral.digitValue? c).getD 0) 0

/-- The character that a letter stands for after a backslash; most stand for themselves. -/
def escape (c : Char) : Char :=
  match c with
  | 'n' => '\n'
  | 't' => '\t'
  | 'r' => '\r'
  | '0' => Char.ofNat 0
  | 'a' => Char.ofNat 7
  | 'b' => Char.ofNat 8
  | 'f' => Char.ofNat 12
  | 'v' => Char.ofNat 11
  | c => c

/-- How a text with escapes is read on: `skip` characters belong to an escape that is already
resolved. -/
def unescapeFrom (skip : Nat) : List Char → Except Fault (List Char)
  | [] => .ok []
  | c :: rest =>
    match skip with
    | skip + 1 => unescapeFrom skip rest
    | 0 =>
      if c = '\\' then
        match rest with
        | [] => .ok ['\\']
        | d :: more =>
          if d = 'x' then
            let digits := more.takeWhile isHex
            if digits.isEmpty then .error .badValue
            else do
              let resolved ← charOfCode (ofDigits 16 digits)
              let tail ← unescapeFrom (1 + digits.length) rest
              return resolved :: tail
          else if isOctal d then do
            let digits := (rest.take 3).takeWhile isOctal
            let resolved ← charOfCode (ofDigits 8 digits)
            let tail ← unescapeFrom digits.length rest
            return resolved :: tail
          else do
            let tail ← unescapeFrom 1 rest
            return escape d :: tail
      else do
        let tail ← unescapeFrom 0 rest
        return c :: tail

/-- The code of the first character of a text with escapes, if that is resolved to a character. A code
in base sixteen stays what it is, also where it is none of a character. -/
def firstCode (s : List Char) (resolved : Char) : Nat :=
  match s with
  | '\\' :: 'x' :: digits => ofDigits 16 (digits.takeWhile isHex)
  | _ => resolved.toNat

/-- The text with its escapes resolved. -/
def unescape (s : String) : Except Fault String := do
  return String.ofList (← unescapeFrom 0 s.toList)

/-- The text without its first and last character. -/
def inner (s : List Char) : List Char :=
  (s.drop 1).dropLast

/-- The text without the characters of a set at its end. -/
def dropMarks (marks : String) (s : List Char) : List Char :=
  (s.reverse.dropWhile (Text.oneOf marks)).reverse

/-- The whole number a text spells in a base. -/
def readInt (base : Nat) (s : List Char) : Except Fault Int :=
  match Numeral.readInt? base s with
  | some n => .ok n
  | none => .error .badValue

/-- A number as written. -/
def number (s : List Char) : Except Fault Typed :=
  let digits := dropMarks "uUlLfF" s
  let endsIn (marks : String) : Bool :=
    match s.getLast? with
    | some c => Text.oneOf marks c
    | none => false
  if digits.contains '.' || digits.contains 'e' || digits.contains 'E' then
    match Decimal.readFloat? digits with
    | some x => .ok ⟨.float x, ⟨if endsIn "fF" then "float" else "double"⟩⟩
    | none => .error .badValue
  else if 1 < digits.length ∧ digits.head? = some '0' then do
    return ⟨.int (← readInt 8 digits), .int⟩
  else do
    let n ← readInt 10 digits
    return ⟨.int n, ⟨if endsIn "lL" then "long" else "int"⟩⟩

end Literal

/-- The typed value of a literal as written. -/
def literalValue (text : String) : Except Fault Typed :=
  let s := text.toList
  match s with
  | '"' :: _ => do
    let body ← Literal.unescapeFrom 0 (Literal.inner s)
    return ⟨.text (String.ofList body), ⟨"char*"⟩⟩
  | '\'' :: _ => do
    let body ← Literal.unescapeFrom 0 (Literal.inner s)
    let code :=
      match body with
      | c :: _ => Literal.firstCode (Literal.inner s) c
      | [] => 0
    return ⟨.int code, ⟨"char"⟩⟩
  | '0' :: 'x' :: _ | '0' :: 'X' :: _ => do
    return ⟨.int (← Literal.readInt 16 (Literal.dropMarks "uUlL" s)), .int⟩
  | s => Literal.number s

end Stepwise
