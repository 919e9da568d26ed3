/-
Documents written as JSON text.

A document is written on one line, or with an indentation for every level of
nesting. Texts are kept as they are except for quotes, backslashes and control
characters; numbers that are not finite are written by name. An empty list or
object never spans lines.
-/
import Stepwise.Value.Basic

set_option autoImplicit false

namespace Stepwise

/-- A document. -/
inductive Document where
  /-- Nothing. -/
  | null
  /-- A truth value. -/
  | bool (b : Bool)
  /-- A number. -/
  | number (n : Number)
  /-- A text. -/
  | text (s : String)
  /-- A list. -/
  | list (items : List Document)
  /-- Named parts in order. -/
  | object (parts : List (String × Document))
deriving Repr, Inhabited

namespace Document

/-- One character of a text. -/
def escaped (c : Char) : List Char :=
  if c = '"' then ['\\', '"']
  else if c = '\\' then ['\\', '\\']
  else if c = '\n' then ['\\', 'n']
  else if c = '\r' then ['\\', 'r']
  else if c = '\t' then ['\\', 't']
  else if c.toNat = 12 then ['\\', 'f']
  else if c.toNat = 8 then ['\\', 'b']
  else if c.toNat < 32 then '\\' :: 'u' :: Text.codeDigits 4 c.toNat
  else [c]

/-- A text in quotes. -/
def quoted (s : String) : String :=
  String.ofList ('"' :: s.toList.flatMap escaped ++ ['"'])

/-- A number; one that is not finite is written by name. -/
def numberText : Number → String
  | .int n => Numeral.decimal n
  | .float x _ =>
    if x.isNaN then "NaN"
    else if x.isInf then (if Decimal.isNegative x then "-Infinity" else "Infinity")
    else Decimal.shortestText x

/-- How the parts of a list or object are set apart. -/
structure Spacing where
  /-- Spaces for each level, if every part has a line of its own. -/
  indent : Option Nat
  /-- The level of nesting. -/
  level : Nat

namespace Spacing

/-- One level further in. -/
def deeper (s : Spacing) : Spacing :=
  { s with level := s.level + 1 }

/-- The break before a part at this level. -/
def lineBreak (s : Spacing) : String :=
  match s.indent with
  | none => ""
  | some n => "\n" ++ String.ofList (List.replicate (n * s.level) ' ')

/-- What stands between two parts at this level. -/
def separator (s : Spacing) : String :=
  match s.indent with
  | none => ", "
  | some _ => "," ++ s.lineBreak

end Spacing

mutual

/-- A document with a spacing. -/
def write (spacing : Spacing) : Document → String
  | null => "null"
  | bool b => if b then "true" else "false"
  | number n => numberText n
  | text s => quoted s
  | list items =>
    if items.isEmpty then "[]"
    else
      "[" ++ spacing.deeper.lineBreak ++ writeItems spacing.deeper items ++ spacing.lineBreak ++ "]"
  | object parts =>
    if parts.isEmpty then "\x7b\x7d"
    else
      "\x7b" ++ spacing.deeper.lineBreak ++ writeParts spacing.deeper parts ++ spacing.lineBreak
        ++ "\x7d"

/-- The items of a list. -/
def writeItems (spacing : Spacing) : List Document → String
  | [] => ""
  | [d] => write spacing d
  | d :: rest => write spacing d ++ spacing.separator ++ writeItems spacing rest

/-- The parts of an object. -/
def writeParts (spacing : Spacing) : List (String × Document) → String
  | [] => ""
  | [(name, d)] => quoted name ++ ": " ++ write spacing d
  | (name, d) :: rest =>
    quoted name ++ ": " ++ write spacing d ++ spacing.separator ++ writeParts spacing rest

end

/-- The text of a document, indented by a number of spaces for each level or on one line. -/
def render (indent : Option Int) (d : Document) : String :=
  d.write ⟨indent.map Int.toNat, 0⟩

/-- A whole number. -/
def int (n : Int) : Document := number (.int n)

end Document

mutual

/-- A value as a document. -/
def Value.document : Value → Document
  | uninit => .null
  | num n => .number n
  | text s => .text s
  | list items => .list (Value.documents items)
  | record members => .object (Value.memberDocuments members)

/-- Values as documents. -/
def Value.documents : List Value → List Document
  | [] => []
  | v :: rest => v.document :: Value.documents rest

/-- Members as named documents. -/
def Value.memberDocuments : List (String × Value) → List (String × Document)
  | [] => []
  | (name, v) :: rest => (name, v.document) :: Value.memberDocuments rest

end

end Stepwise
