/-
Tokens of a source text.

The text is read twice. Its lines are searched for directives, each of which
gives tokens of its own; and the whole text is cut into segments, of which
the lexemes give tokens and the stray characters are reported as skipped.
Segments that begin on a directive line are passed over in the second reading,
so the two readings never claim the same place, and the tokens of both are put
in the order of their places.

A comment or a quoted text that begins on a directive line and runs past its
end still covers what it covers, since only the place where a segment begins
counts.
-/
import Stepwise.Token.Directive

set_option autoImplicit false

namespace Stepwise

namespace Token

/-- A place in a source text. -/
structure Place where
  /-- The line, from one. -/
  line : Nat := 1
  /-- The column, from one. -/
  column : Nat := 1
deriving Repr, DecidableEq

/-- The place after a character. -/
def Place.after (p : Place) (c : Char) : Place :=
  if c = '\n' then ⟨p.line + 1, 1⟩ else ⟨p.line, p.column + 1⟩

/-- The place after a text. -/
def Place.afterAll (p : Place) (s : List Char) : Place :=
  s.foldl Place.after p

/-- Segments with the places where they begin. -/
def placed (p : Place) : List Segment → List (Place × Segment)
  | [] => []
  | seg :: rest => (p, seg) :: placed (p.afterAll seg.chars) rest

/-- A character that no token covers. -/
structure Skipped where
  /-- The line it stands on. -/
  line : Nat
  /-- The column it stands in. -/
  column : Nat
  /-- The character. -/
  char : Char
deriving Repr, DecidableEq

/-- The kind of token a lexeme gives. -/
def Lexeme.tokenKind (lexeme : Lexeme) (text : String) : Kind :=
  match lexeme with
  | .number | .quoted => .literal
  | .operator => operatorKind text
  | .word => wordKind text

/-- The token of a segment, if it gives one. -/
def ofSegment? : Place × Segment → Option Token
  | (p, .lexeme lexeme chars) =>
    let text := String.ofList chars
    some ⟨lexeme.tokenKind text, text, p.line, p.column⟩
  | _ => none

/-- The report of a segment that is no part of the program. -/
def skippedOf? : Place × Segment → Option Skipped
  | (p, .stray c) => some ⟨p.line, p.column, c⟩
  | _ => none

/-- Lines with their numbers, from `n`. -/
def numbered (n : Nat) : List (List Char) → List (Nat × List Char)
  | [] => []
  | line :: rest => (n, line) :: numbered (n + 1) rest

/-- The directive lines of a text, with their numbers. -/
def directiveLines (source : List Char) : List (Nat × List Char) :=
  (numbered 1 (Text.pieces '\n' source)).filter fun entry => isDirective entry.2

/-- The tokens of the directives of a text. -/
def directiveTokens (source : List Char) : List Token :=
  (directiveLines source).flatMap fun entry =>
    (DirectiveLine.ofLine entry.1 entry.2).tokens

/-- The segments of a text that begin outside directive lines. -/
def plainSegments (source : List Char) : List (Place × Segment) :=
  let claimed := (directiveLines source).map (·.1)
  (placed {} (segments source)).filter fun entry => !claimed.contains entry.1.line

/-- What a source text is read as. -/
structure Scan where
  /-- The tokens in order of place. -/
  tokens : List Token
  /-- The characters that were skipped, in order of place. -/
  skipped : List Skipped
deriving Repr

/-- Reads a source text. -/
def scan (source : String) : Scan :=
  let s := source.toList
  let plain := plainSegments s
  { tokens := (directiveTokens s ++ plain.filterMap ofSegment?).mergeSort noLater
    skipped := plain.filterMap skippedOf? }

end Token

/-- The tokens of a source text, in order of place. -/
def tokenize (source : String) : List Token :=
  (Token.scan source).tokens

end Stepwise
