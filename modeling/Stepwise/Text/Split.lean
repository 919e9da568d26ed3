/-
Finding and cutting: occurrences of one text in another, the pieces between
separators, line breaks, and padding to a width.

A line of a file may end in a line feed, a carriage return or both; within this
library it ends in a line feed.
-/

set_option autoImplicit false

namespace Stepwise.Text

/-- Does `needle` occur in the text, as consecutive characters? -/
def occursIn (needle : List Char) : List Char → Bool
  | [] => needle.isEmpty
  | c :: rest => needle.isPrefixOf (c :: rest) || occursIn needle rest

/-- The first piece and the rest of the pieces between separators. -/
def cutAt (sep : Char) : List Char → List Char × List (List Char)
  | [] => ([], [])
  | c :: rest =>
    let cut := cutAt sep rest
    if c = sep then ([], cut.1 :: cut.2) else (c :: cut.1, cut.2)

/-- The pieces between the separators: one more than there are separators. -/
def pieces (sep : Char) (s : List Char) : List (List Char) :=
  (cutAt sep s).1 :: (cutAt sep s).2

/-- The text with every line break written as a line feed. -/
def unifyBreaks : List Char → List Char
  | '\r' :: '\n' :: rest => '\n' :: unifyBreaks rest
  | c :: rest => (if c = '\r' then '\n' else c) :: unifyBreaks rest
  | [] => []

/-- The lines of a text, as strings. -/
def lines (source : String) : List String :=
  (pieces '\n' source.toList).map String.ofList

/-- The lines of a text that is given by its characters. -/
theorem lines_of_chars {source : String} {chars : List Char} (h : source = String.ofList chars) :
    lines source = (pieces '\n' chars).map String.ofList := by
  rw [lines, h, String.toList_ofList]

/-- One text behind another, by the characters of both. -/
theorem append_of_chars {s t : String} {front back : List Char} (hs : s = String.ofList front)
    (ht : t = String.ofList back) : s ++ t = String.ofList (front ++ back) := by
  rw [hs, ht, String.ofList_append]

/-- How many characters stand before the last occurrence of `c`, if it occurs. -/
def lastIndexOf? (c : Char) (s : List Char) : Option Nat :=
  match s.reverse.findIdx? (· == c) with
  | some i => some (s.length - 1 - i)
  | none => none

/-- Is this character among those of the string? -/
def oneOf (set : String) (c : Char) : Bool :=
  set.toList.contains c

/-- Spaces in front of the text until it is `width` characters long. -/
def padLeft (width : Nat) (fill : Char) (s : String) : String :=
  String.ofList (List.replicate (width - s.length) fill) ++ s

/-- Spaces after the text until it is `width` characters long. -/
def padRight (width : Nat) (fill : Char) (s : String) : String :=
  s ++ String.ofList (List.replicate (width - s.length) fill)

end Stepwise.Text
