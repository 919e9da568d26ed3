/-
Formats of output calls.

A format is cut into plain characters and conversions; a percent sign that
opens no conversion is a plain character. A conversion has flags, a width, a
precision, a length and a letter; a star in place of the width or precision
takes it from the arguments. Arguments are taken from left to right, those
left over are ignored, and a doubled percent sign takes none.

A string conversion of an address reads the text stored there, through the
reader that the caller passes along.
-/
import Stepwise.Printf.Template
import Stepwise.Text.Class

set_option autoImplicit false

namespace Stepwise.Printf

/-- A width or a precision. -/
inductive Size where
  /-- Taken from the arguments. -/
  | star
  /-- As written. -/
  | digits (s : List Char)
deriving Repr, DecidableEq

/-- A conversion in a format. -/
structure Conversion where
  /-- The flags as written. -/
  flags : List Char
  /-- The width. -/
  width : Option Size
  /-- The precision. -/
  precision : Option Size
  /-- The letter. -/
  letter : Char
deriving Repr, DecidableEq

/-- A piece of a format. -/
inductive Piece where
  /-- A character that is copied. -/
  | plain (c : Char)
  /-- A conversion. -/
  | conversion (c : Conversion)
deriving Repr, DecidableEq

/-! ## Cutting a format -/

/-- Reads a width or precision at the start of a text. -/
def readSize (s : List Char) : Option Size × List Char :=
  match s with
  | '*' :: rest => (some .star, rest)
  | s =>
    let digits := s.takeWhile Text.isDecimal
    (if digits.isEmpty then none else some (.digits digits), s.dropWhile Text.isDecimal)

/-- Drops the length at the start of a text. -/
def dropLength : List Char → List Char
  | 'h' :: 'h' :: rest | 'l' :: 'l' :: rest => rest
  | c :: rest => if Text.oneOf "hlLzjt" c then rest else c :: rest
  | [] => []

/-- Reads a precision with its point at the start of a text; a point without one is left. -/
def readPoint (s : List Char) : Option Size × List Char :=
  match s with
  | '.' :: rest =>
    match readSize rest with
    | (some size, rest) => (some size, rest)
    | (none, _) => (none, s)
  | s => (none, s)

/-- Reads a conversion after its percent sign. -/
def readConversion? (s : List Char) : Option (Conversion × List Char) :=
  let flags := s.takeWhile (Text.oneOf "-+ #0")
  let (width, s) := readSize (s.dropWhile (Text.oneOf "-+ #0"))
  let (precision, s) := readPoint s
  match dropLength s with
  | letter :: rest =>
    if Text.oneOf "diouxXfFeEgGcsp%" letter then some (⟨flags, width, precision, letter⟩, rest)
    else none
  | [] => none

theorem length_readSize_le (s : List Char) : (readSize s).2.length ≤ s.length := by
  unfold readSize
  split
  · simp
  · exact (List.dropWhile_sublist (p := Text.isDecimal)).length_le

theorem length_readPoint_le (s : List Char) : (readPoint s).2.length ≤ s.length := by
  unfold readPoint
  split
  · rename_i rest
    split
    · rename_i size rest' h
      have := length_readSize_le rest
      rw [h] at this
      simp at this ⊢
      omega
    · simp
  · simp

theorem length_dropLength_le (s : List Char) : (dropLength s).length ≤ s.length := by
  unfold dropLength
  split
  · simp; omega
  · simp; omega
  · split <;> simp
  · simp

theorem length_readConversion?_lt {s rest : List Char} {c : Conversion}
    (h : readConversion? s = some (c, rest)) : rest.length < s.length := by
  unfold readConversion? at h
  have h₁ : (s.dropWhile (Text.oneOf "-+ #0")).length ≤ s.length :=
    (List.dropWhile_sublist (p := Text.oneOf "-+ #0")).length_le
  have h₂ := length_readSize_le (s.dropWhile (Text.oneOf "-+ #0"))
  have h₃ := length_readPoint_le (readSize (s.dropWhile (Text.oneOf "-+ #0"))).2
  have h₄ := length_dropLength_le
    (readPoint (readSize (s.dropWhile (Text.oneOf "-+ #0"))).2).2
  dsimp only at h
  split at h
  · rename_i letter rest' hdrop
    split at h
    · simp only [Option.some.injEq, Prod.mk.injEq] at h
      obtain ⟨-, rfl⟩ := h
      rw [hdrop] at h₄
      simp at h₄
      omega
    · simp at h
  · simp at h

/-- The pieces of a format. -/
def pieces (s : List Char) : List Piece :=
  match s with
  | [] => []
  | c :: rest =>
    if c = '%' then
      match _found : readConversion? rest with
      | some (conversion, after) => .conversion conversion :: pieces after
      | none => .plain c :: pieces rest
    else .plain c :: pieces rest
termination_by s.length
decreasing_by
  · have := length_readConversion?_lt _found
    simp
    omega
  · simp
  · simp

/-! ## Writing a format -/

/-- How the text at an address is read; without it, addresses are written as numbers. -/
abbrev Reader := Option (Int → Except Fault Value)

/-- Reads from a table of cells. -/
def readerOf (cells : Table Number Value) (address : Int) : Except Fault Value :=
  match cells.find? (.int address) with
  | some v => .ok v
  | none => .error .noSuchCell

/-- Takes the next argument. -/
def take (format : String) : List Typed → Except Fault (Value × List Typed)
  | [] => .error (.missingFormatArgument format)
  | a :: rest => .ok (a.value, rest)

/-- Takes a width or precision: as written, or as the text of the next argument. -/
def takeSize (format : String) (size : Option Size) (arguments : List Typed) :
    Except Fault (Option (List Char) × List Typed) :=
  match size with
  | none => .ok (none, arguments)
  | some (.digits s) => .ok (some s, arguments)
  | some .star => do
    let (value, rest) ← take format arguments
    return (some value.print.toList, rest)

/-- The low thirty-two bits of a number, as an unsigned number. -/
def unsignedWord (n : Int) : Int :=
  Bits.unsigned 32 n

/-- A number as a double; lists and records have none. -/
def toFloat : Value → Except Fault Float
  | .num n => n.toFloat
  | _ => .error .wrongShape

/-- The letter and content with which a conversion shows a value. -/
def contentOf (reader : Reader) (letter : Char) (value : Value) :
    Except Fault (Char × Content) :=
  match letter with
  | 's' =>
    match value, reader with
    | .num (.int n), some read => do return ('s', .text (← read n).print)
    | value, _ => .ok ('s', .text value.print)
  | 'c' =>
    match value with
    | .num (.int n) => do return ('s', .text (String.singleton (← Literal.charOfCode n)))
    | value => .ok ('s', .text (String.ofList (value.print.toList.take 1)))
  | 'p' => do return ('s', .text (Numeral.address (← value.toInt)))
  | letter =>
    match value with
    | .text _ => .error (.textForConversion letter)
    | value =>
      if letter = 'd' ∨ letter = 'i' then do return ('d', .int (← value.toInt))
      else if letter = 'u' then do return ('d', .int (unsignedWord (← value.toInt)))
      else if letter = 'o' ∨ letter = 'x' ∨ letter = 'X' then do
        return (letter, .int (unsignedWord (← value.toInt)))
      else do return (letter, .float (← toFloat value))

/-- Writes a conversion with the arguments that are left. -/
def writeConversion (format : String) (reader : Reader) (c : Conversion) (arguments : List Typed) :
    Except Fault (List Char × List Typed) :=
  if c.letter = '%' then .ok (['%'], arguments)
  else do
    let (width, arguments) ← takeSize format c.width arguments
    let (precision, arguments) ← takeSize format c.precision arguments
    let (value, arguments) ← take format arguments
    match value with
    | .uninit => .error .uninitializedFormatArgument
    | value =>
      let (letter, content) ← contentOf reader c.letter value
      let point := match precision with | some p => '.' :: p | none => []
      let shown ← fill ('%' :: c.flags ++ width.getD [] ++ point ++ [letter]) content
      return (shown, arguments)

/-- Writes the pieces of a format with the arguments that are left. -/
def writePieces (format : String) (reader : Reader) :
    List Piece → List Typed → Except Fault (List Char)
  | [], _ => .ok []
  | .plain c :: rest, arguments => do return c :: (← writePieces format reader rest arguments)
  | .conversion c :: rest, arguments => do
    let (shown, arguments) ← writeConversion format reader c arguments
    return shown ++ (← writePieces format reader rest arguments)

end Stepwise.Printf

namespace Stepwise

/-- Writes a format with its arguments. -/
def printf (format : String) (arguments : List Typed) (reader : Printf.Reader) :
    Except Fault String := do
  return String.ofList (← Printf.writePieces format reader (Printf.pieces format.toList) arguments)

end Stepwise
