/-
Templates with one content.

A template is a text in which a percent sign opens a field: flags, a width, a
precision, one length letter that is ignored, and the letter of a conversion.
Two percent signs in a row stand for one and take nothing; a percent sign
after flags or a width is a conversion like any other, and not a known one.
Exactly one field of a template takes the content. A star takes it as well,
for a width or a precision, and leaves none to show.

A width may reach a template as any text, so everything that may go wrong in a
field is told apart: a field that is not finished or has no known conversion
is a bad value, a star whose number is too large is out of range, and a field
that wants a second content, a named one or none at all has the wrong shape.
-/
import Stepwise.Printf.Field

set_option autoImplicit false

namespace Stepwise.Printf

/-- Reads the flags at the start of a text. -/
def readFlags (flags : Flags) : List Char → Flags × List Char
  | [] => (flags, [])
  | c :: rest =>
    match flags.add? c with
    | some more => readFlags more rest
    | none => (flags, c :: rest)

/-- Reads a number at the start of a text, none if there are no digits. -/
def readCount (s : List Char) : Option Nat × List Char :=
  let digits := s.takeWhile Char.isDigit
  (if digits.isEmpty then none else some (Literal.ofDigits 10 digits), s.dropWhile Char.isDigit)

/-- The first width that no field can have. -/
def widthLimit : Nat := Capacity.countLimit

/-- A field that is being read, after the percent sign that opened it. -/
structure Opening where
  /-- The shape of the field as far as it is read. -/
  field : Field
  /-- The content, unless it has been used. -/
  content : Option Content
  /-- The text that follows. -/
  rest : List Char

/-- A field opened by a percent sign: how it was read and its conversion. -/
structure Opened extends Opening where
  /-- The letter of the conversion. -/
  conversion : Char

/-- The number that a star takes from the content, on either side of zero up to a limit. -/
def starCount (limit : Nat) : Option Content → Except Fault Int
  | some (.int n) => if -(limit : Int) ≤ n ∧ n < limit then .ok n else .error .outOfRange
  | _ => .error .wrongShape

/-- Reads the width. A negative one that a star takes aligns to the left. -/
def Opening.readWidth (o : Opening) : Except Fault Opening :=
  match o.rest with
  | '*' :: rest => do
    let n ← starCount widthLimit o.content
    let flags := { o.field.flags with left := o.field.flags.left || decide (n < 0) }
    return ⟨{ o.field with flags := flags, width := some n.natAbs }, none, rest⟩
  | s =>
    let (width, rest) := readCount s
    if widthLimit ≤ width.getD 0 then .error .badValue
    else .ok ⟨{ o.field with width := width }, o.content, rest⟩

/-- Reads the precision; a lone point means zero, and so does a negative one that a star takes. -/
def Opening.readPrecision (o : Opening) : Except Fault Opening :=
  match o.rest with
  | '.' :: '*' :: rest => do
    let n ← starCount precisionLimit o.content
    return ⟨{ o.field with precision := some n.toNat }, none, rest⟩
  | '.' :: s =>
    let (precision, rest) := readCount s
    if precisionLimit ≤ precision.getD 0 then .error .badValue
    else .ok ⟨{ o.field with precision := some (precision.getD 0) }, o.content, rest⟩
  | _ => .ok o

/-- Drops one length letter at the start of a text. -/
def dropLengthLetter : List Char → List Char
  | c :: rest => if c = 'h' ∨ c = 'l' ∨ c = 'L' then rest else c :: rest
  | [] => []

/-- Reads a field after its percent sign. -/
def openField (content : Option Content) (s : List Char) : Except Fault Opened :=
  match s with
  | '(' :: _ => .error .wrongShape
  | s => do
    let (flags, s) := readFlags {} s
    let o ← Opening.readWidth ⟨⟨flags, none, none⟩, content, s⟩
    let o ← o.readPrecision
    match dropLengthLetter o.rest with
    | [] => .error .badValue
    | conversion :: rest => .ok ⟨⟨o.field, o.content, rest⟩, conversion⟩

/-- Writes a template, with at most `fuel` fields and the content still to be used. -/
def fillFrom (fuel : Nat) (content : Option Content) (s : List Char) : Except Fault (List Char) :=
  match fuel with
  | 0 => .ok []
  | fuel + 1 =>
    let plain := s.takeWhile (· != '%')
    match s.dropWhile (· != '%') with
    | [] => if content.isSome then .error .wrongShape else .ok plain
    | _ :: '%' :: s => do return plain ++ '%' :: (← fillFrom fuel content s)
    | _ :: s => do
      let opened ← openField content s
      match opened.content with
      | none => .error .wrongShape
      | some c =>
        let shown ← opened.field.write opened.conversion c
        return plain ++ shown ++ (← fillFrom fuel none opened.rest)

/-- Writes a template with its content. A template has fewer fields than characters. -/
def fill (template : List Char) (content : Content) : Except Fault (List Char) :=
  fillFrom (template.length + 1) (some content) template

end Stepwise.Printf
