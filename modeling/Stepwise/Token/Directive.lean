/-
Tokens of a directive line.

A line whose first character, blanks aside, is `#` is a directive. It gives a
preprocessor token for its first word. An include with a closed file name
gives the name and the two marks around it; a definition gives the defined
name and, as one literal, whatever follows it; any other directive gives what
follows the command as one literal. Comments on the line count as spaces,
except inside quotes.
-/
import Stepwise.Token.Segment

set_option autoImplicit false

namespace Stepwise.Token

/-- Is this line a directive? -/
def isDirective (line : List Char) : Bool :=
  (Text.trimLeft line).head? == some '#'

theorem length_cut_lt {s : List Char} {cut : Cut} (h : cut.Of s) : cut.2.length < s.length := by
  have hlen := congrArg List.length h.1
  have hpos := List.length_pos_iff.2 h.2
  rw [List.length_append] at hlen
  omega

/-- The text with each comment replaced by as many spaces; a block comment that is not closed
reaches to the end. -/
def blankComments (s : List Char) : List Char :=
  match s with
  | [] => []
  | c :: rest =>
    match _quote : quoted? (c :: rest) with
    | some cut => cut.1 ++ blankComments cut.2
    | none =>
      match _comment : comment? (c :: rest) with
      | some cut => List.replicate cut.1.length ' ' ++ blankComments cut.2
      | none =>
        if c = '/' ∧ rest.head? = some '*' then List.replicate (rest.length + 1) ' '
        else c :: blankComments rest
termination_by s.length
decreasing_by
  · exact length_cut_lt (quoted?_cut _quote)
  · exact length_cut_lt (comment?_cut _comment)
  · simp

/-- Where a character first occurs from an offset on. -/
def indexFrom? (c : Char) (start : Nat) (s : List Char) : Option Nat :=
  ((s.drop start).findIdx? (· == c)).map (· + start)

/-- The first word of a text. -/
def firstWord (s : List Char) : List Char :=
  s.takeWhile fun c => !Text.isBlank c

/-- A directive line being cut into tokens. -/
structure DirectiveLine where
  /-- The number of the line. -/
  line : Nat
  /-- The column of the `#`. -/
  column : Nat
  /-- The line from the `#` on, comments blanked and trailing blanks dropped. -/
  text : List Char

namespace DirectiveLine

/-- The directive on a line. -/
def ofLine (line : Nat) (raw : List Char) : DirectiveLine :=
  { line := line
    column := (raw.takeWhile Text.isBlank).length + 1
    text := blankComments (Text.trim raw) }

/-- The token that begins at an offset of the directive. -/
def token (d : DirectiveLine) (kind : Kind) (offset : Nat) (text : List Char) : Token :=
  ⟨kind, String.ofList text, d.line, d.column + offset⟩

/-- The literal made of everything from an offset on, if that is more than blanks. -/
def remainder (d : DirectiveLine) (offset : Nat) : List Token :=
  let rest := d.text.drop offset
  let body := Text.trim rest
  if body.isEmpty then []
  else [d.token .literal (offset + (rest.takeWhile Text.isBlank).length) body]

/-- The command of the directive. -/
def command (d : DirectiveLine) : List Char :=
  firstWord d.text

/-- The name of an included file between two marks, if only blanks stand in front of it. -/
def fileName? (d : DirectiveLine) (opener closer : Char) : Option (List Token) :=
  match indexFrom? opener d.command.length d.text with
  | none => none
  | some left =>
    match indexFrom? closer (left + 1) d.text with
    | none => none
    | some right =>
      if ((d.text.drop d.command.length).take (left - d.command.length)).all Text.isBlank then
        some
          [d.token .punctuation left [opener],
            d.token .identifier (left + 1) ((d.text.drop (left + 1)).take (right - (left + 1))),
            d.token .punctuation right [closer]]
      else none

/-- The defined name and what follows it, if there is a name. -/
def definition? (d : DirectiveLine) : Option (List Token) :=
  let rest := d.text.drop d.command.length
  let gap := (rest.takeWhile Text.isBlank).length
  let name := (rest.drop gap).takeWhile Text.isWordChar
  if gap = 0 ∨ name = [] then none
  else
    let start := d.command.length + gap
    some (d.token .identifier start name :: d.remainder (start + name.length))

/-- The tokens after the command. -/
def arguments (d : DirectiveLine) : List Token :=
  let special :=
    if d.command = "#include".toList then (d.fileName? '<' '>').or (d.fileName? '"' '"')
    else if d.command = "#define".toList then d.definition?
    else none
  special.getD (d.remainder d.command.length)

/-- The tokens of the directive. -/
def tokens (d : DirectiveLine) : List Token :=
  d.token .preprocessor 0 d.command :: d.arguments

end DirectiveLine

end Stepwise.Token
