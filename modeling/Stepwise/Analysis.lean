/-
A program with what is known about it before it runs: its lines, its macros
and the layouts of its structs. Scripts find the line of a step by searching
the lines for a text.
-/
import Stepwise.Layout

set_option autoImplicit false

namespace Stepwise

/-- A program and what is known about it. -/
structure Analysis where
  /-- The program. -/
  program : Program
  /-- Its source text. -/
  source : String
  /-- Its tokens. -/
  tokens : List Token
  /-- The lines of the source text. -/
  lines : List String
  /-- Its macros. -/
  macros : Macros
  /-- The layouts of its structs. -/
  layouts : Layouts
  /-- How much deeper than it needs macros and structs may be nested in one another. -/
  spare : Nat := spareDepth

/-- The highest line among tokens, one if there are none. -/
def lastLine (tokens : List Token) : Nat :=
  match (tokens.map Token.line).max? with
  | some line => line
  | none => 1

/-- Analyzes a program. -/
def analyze (program : Program) (source : String) (tokens : List Token)
    (spare : Nat := spareDepth) : Except Fault Analysis := do
  let lines := Text.lines source
  let macros := program.macros lines
  let layouts ← program.layouts spare macros
  return { program, source, tokens, lines, macros, layouts, spare }

namespace Analysis

/-- The line of the last token. -/
def lastLine (a : Analysis) : Nat :=
  Stepwise.lastLine a.tokens

/-- The function to start with. -/
def main? (a : Analysis) : Option Function :=
  a.program.function? "main"

/-- The sizes of the structs. -/
def sizes (a : Analysis) : StructSizes :=
  a.layouts.sizes

/-- The nearest line that exists. -/
def clamp (a : Analysis) (line : Int) : Int :=
  max 1 (min line a.lines.length)

/-- Does the line hold one of the texts? -/
def lineHas (needles : List String) (line : String) : Bool :=
  needles.any fun needle => Text.occursIn needle.toList line.toList

/-- The first line from `number` on that holds one of the texts. -/
def firstLineFrom? (needles : List String) (number : Int) : List String → Option Int
  | [] => none
  | line :: rest =>
    if lineHas needles line then some number else firstLineFrom? needles (number + 1) rest

/-- The first line after another that holds one of the texts; `default`, or else the other line, if
there is none. -/
def findLine (a : Analysis) (needles : List String) (after : Nat) (default : Option Int) : Int :=
  match firstLineFrom? needles (after + 1) (a.lines.drop after) with
  | some line => line
  | none => a.clamp (default.getD (max after 1))

/-- The same for a line number that may be negative: such lines are counted back from the end, and
they are searched before the first. -/
def findLineFrom (a : Analysis) (needles : List String) (after : Int) (default : Option Int) :
    Except Fault Int :=
  let back := (-after).toNat
  if after ≥ 0 then .ok (a.findLine needles after.toNat default)
  else if a.lines.length < back then .error .missingItem
  else
    match firstLineFrom? needles (after + 1) (a.lines.drop (a.lines.length - back) ++ a.lines) with
    | some line => .ok line
    | none => .ok (a.clamp (default.getD 1))

end Analysis

end Stepwise
