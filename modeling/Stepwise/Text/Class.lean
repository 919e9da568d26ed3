/-
Classes of characters.

The classes that decide how a source text is cut (blanks, digits, word characters)
and how a text is written back (printable characters, letter case) are data of the
Unicode standard. Each of them is a list of closed ranges of code points in increasing
order. The blanks and the digits are here, and what is done with them; the larger
tables have modules of their own.

There are twenty-nine blanks: the ASCII separators, the four information separators,
and the spaces and line separators of Unicode. The same class decides which characters
the tokenizer passes over, which characters `trim` removes, and where `words` cuts.

A number in a source text may be written with the decimal digits of any script: each
script has ten of them in a row, so its digits are known from its zero. A few more
characters (superscripts, circled digits) count as digits when a text is asked whether
it is made of digits, although no number can be read from them.
-/

set_option autoImplicit false

namespace Stepwise.Text

/-! ## Ranges -/

/-- A class of characters: closed ranges of code points. -/
abbrev Ranges := List (Nat × Nat)

/-- A character is in the class when one of the ranges holds its code point. -/
def Ranges.has (ranges : Ranges) (c : Char) : Bool :=
  ranges.any fun range => range.1 ≤ c.toNat && c.toNat ≤ range.2

theorem Ranges.has_iff {ranges : Ranges} {c : Char} :
    ranges.has c = true ↔ ∃ range ∈ ranges, range.1 ≤ c.toNat ∧ c.toNat ≤ range.2 := by
  simp [Ranges.has]

/-! ## Blanks -/

/-- The ranges of blank characters. -/
def blanks : Ranges :=
  [(0x9, 0xD), (0x1C, 0x20), (0x85, 0x85), (0xA0, 0xA0), (0x1680, 0x1680), (0x2000, 0x200A),
    (0x2028, 0x2029), (0x202F, 0x202F), (0x205F, 0x205F), (0x3000, 0x3000)]

/-- Is the character a blank? -/
def isBlank (c : Char) : Bool :=
  blanks.has c

/-- The text without its leading blanks. -/
def trimLeft (s : List Char) : List Char :=
  s.dropWhile isBlank

/-- The text without its trailing blanks. -/
def trimRight (s : List Char) : List Char :=
  (s.reverse.dropWhile isBlank).reverse

/-- The text without the blanks at either end. -/
def trim (s : List Char) : List Char :=
  trimRight (trimLeft s)

/-- The words of a text, with `current` the word being read, written backwards. -/
def wordsFrom (current : List Char) : List Char → List (List Char)
  | [] => if current.isEmpty then [] else [current.reverse]
  | c :: rest =>
    if isBlank c then
      if current.isEmpty then wordsFrom [] rest else current.reverse :: wordsFrom [] rest
    else wordsFrom (c :: current) rest

/-- The longest stretches without a blank, in order. -/
def words (s : List Char) : List (List Char) :=
  wordsFrom [] s

/-! ## Digits -/

/-- The code point of every decimal zero, ASCII first. -/
def zeros : List Nat :=
  [48, 1632, 1776, 1984, 2406, 2534, 2662, 2790, 2918, 3046, 3174, 3302, 3430, 3558, 3664, 3792,
    3872, 4160, 4240, 6112, 6160, 6470, 6608, 6784, 6800, 6992, 7088, 7232, 7248, 42528, 43216,
    43264, 43472, 43504, 43600, 44016, 65296, 66720, 68912, 69734, 69872, 69942, 70096, 70384,
    70736, 70864, 71248, 71360, 71472, 71904, 72016, 72784, 73040, 73120, 92768, 92864, 93008,
    120782, 120792, 120802, 120812, 120822, 123200, 123632, 125264, 130032]

/-- Characters that stand for a digit without being a decimal digit. -/
def digitSigns : Ranges :=
  [(178, 179), (185, 185), (4969, 4977), (6618, 6618), (8304, 8304), (8308, 8313), (8320, 8329),
    (9312, 9320), (9332, 9340), (9352, 9360), (9450, 9450), (9461, 9469), (9471, 9471),
    (10102, 10110), (10112, 10120), (10122, 10130), (68160, 68163), (69216, 69224),
    (69714, 69722), (127232, 127242)]

/-- The value of a decimal digit of any script. -/
def digitValue? (c : Char) : Option Nat :=
  match zeros.find? fun start => start ≤ c.toNat && c.toNat ≤ start + 9 with
  | some start => some (c.toNat - start)
  | none => none

/-- Is the character a decimal digit of some script? -/
def isDecimal (c : Char) : Bool :=
  c.isDigit || (128 ≤ c.toNat && (digitValue? c).isSome)

/-- Does the character stand for a digit, as a decimal digit or as a digit sign? -/
def isDigitSign (c : Char) : Bool :=
  isDecimal c || (128 ≤ c.toNat && digitSigns.has c)

/-- Is the text made of digit signs, and not empty? -/
def allDigitSigns (s : List Char) : Bool :=
  !s.isEmpty && s.all isDigitSign

end Stepwise.Text
