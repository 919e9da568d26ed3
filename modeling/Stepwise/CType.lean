/-
C types as text.

The type of an object is the text under which it was declared, followed by a
star for each level of indirection and a bracketed count for an array:
`unsigned int`, `struct Point`, `char*`, `int[5]`. What a type is, what it
points to and how many bytes it takes are read off that text. An array's text
ends in a bracket and a pointer's in a star, so the last character decides.

A count that is no number (an array declared without one) takes the space of
a single element and has no elements.
-/
import Stepwise.Fault
import Stepwise.Table
import Stepwise.Numeral.Reading

set_option autoImplicit false

namespace Stepwise

/-- A C type, held as its text. -/
structure CType where
  /-- The type as it is written. -/
  text : String
deriving Repr, DecidableEq, Inhabited

/-- Bytes taken by each struct type, by the struct's full name. -/
abbrev StructSizes := Table String Int

namespace CType

/-- Type words that say nothing about the size. -/
def qualifiers : List String :=
  ["const", "static", "volatile", "extern", "register", "auto", "inline", "restrict"]

/-- Bytes taken by the named scalar types on a 64-bit target. -/
def scalarSizes : List (String × Int) :=
  [("char", 1), ("_Bool", 1), ("bool", 1), ("short", 2), ("int", 4), ("unsigned", 4), ("long", 8),
    ("float", 4), ("double", 8), ("size_t", 8), ("FILE", 216), ("void", 1)]

/-- Words that settle the size of a type wherever they stand in it, most telling first. -/
def tellingWords : List String :=
  ["char", "short", "long", "double", "float"]

/-- Bytes taken by any pointer. -/
def pointerSize : Int := 8

/-- Bytes taken by a type none of whose words is known. -/
def defaultSize : Int := 4

/-! ## The last character -/

/-- Does the text end in this character, blanks aside? -/
def endsIn (mark : Char) (s : List Char) : Bool :=
  (Text.trimRight s).getLast? == some mark

/-- Is it a pointer type? -/
def isPointer (t : CType) : Bool :=
  endsIn '*' t.text.toList

/-- Is it an array type? -/
def isArray (t : CType) : Bool :=
  endsIn ']' t.text.toList

/-- Does the text begin as a struct type does? -/
def namesStruct (t : CType) : Bool :=
  "struct ".toList.isPrefixOf t.text.toList

/-- Is it a struct type, and neither a pointer to one nor an array of them? -/
def isStruct (t : CType) : Bool :=
  t.namesStruct && !t.isPointer && !t.isArray

/-- Does an object of the type have parts? -/
def isAggregate (t : CType) : Bool :=
  t.isArray || t.isStruct

/-- Is it a floating type? -/
def isFloating (t : CType) : Bool :=
  !t.isPointer
    && (Text.occursIn "float".toList t.text.toList || Text.occursIn "double".toList t.text.toList)

/-- The type of a pointer to the type. -/
def pointer (t : CType) : CType :=
  ⟨t.text ++ "*"⟩

/-! ## Elements -/

/-- The text in front of the last opening bracket, trailing blanks dropped. -/
def beforeBracket? (s : List Char) : Option (List Char) :=
  match Text.lastIndexOf? '[' s with
  | some i => some (Text.trimRight (s.take i))
  | none => none

/-- What stands between the last opening bracket and the last character, blanks dropped. -/
def bracketed? (s : List Char) : Option (List Char) :=
  match Text.lastIndexOf? '[' s with
  | some i => some (Text.trim (s.drop (i + 1)).dropLast)
  | none => none

/-- The type reached by indexing or dereferencing. -/
def element (t : CType) : Except Fault CType :=
  let s := Text.trimRight t.text.toList
  if t.isArray then
    match beforeBracket? s with
    | some e => .ok ⟨String.ofList e⟩
    | none => .error .badValue
  else if t.isPointer then .ok ⟨String.ofList (Text.trimRight s.dropLast)⟩
  else .error (.notDereferenceable (String.ofList s))

/-- The number that a bracketed count spells, `other` if it is no number. -/
def count (other : Int) (s : List Char) : Except Fault Int :=
  if Text.allDigitSigns s then
    match Numeral.readInt? 10 s with
    | some n => .ok n
    | none => .error .badValue
  else .ok other

/-- The number of elements of an array type. -/
def length (t : CType) : Except Fault Int :=
  match bracketed? t.text.toList with
  | some s => count 0 s
  | none => .error .badValue

/-! ## Sizes -/

theorem length_trimRight_le (s : List Char) : (Text.trimRight s).length ≤ s.length := by
  unfold Text.trimRight
  simpa using (List.dropWhile_sublist (p := Text.isBlank) (l := s.reverse)).length_le

theorem length_trim_le (s : List Char) : (Text.trim s).length ≤ s.length :=
  Nat.le_trans (length_trimRight_le _)
    (List.dropWhile_sublist (p := Text.isBlank) (l := s)).length_le

theorem length_beforeBracket?_lt {s e : List Char} (h : beforeBracket? s = some e) :
    e.length < s.length := by
  unfold beforeBracket? Text.lastIndexOf? at h
  cases hi : s.reverse.findIdx? (· == '[') with
  | none => simp [hi] at h
  | some i =>
    simp only [hi, Option.some.injEq] at h
    subst h
    have hs : 0 < s.length := by
      cases s with
      | nil => simp at hi
      | cons c r => simp
    refine Nat.lt_of_le_of_lt (length_trimRight_le _) ?_
    simp only [List.length_take]
    omega

/-- Bytes taken by a type that is neither a pointer nor an array, from its words. -/
def wordsSize (sizes : StructSizes) (words : List String) : Int :=
  match words.filter (fun w => !qualifiers.contains w) with
  | [] => defaultSize
  | w :: rest =>
    if w = "struct" then
      (sizes.find? (" ".intercalate ((w :: rest).take 2))).getD pointerSize
    else
      match tellingWords.find? (w :: rest).contains with
      | some telling => ((scalarSizes.lookup telling).getD defaultSize)
      | none => (scalarSizes.lookup ((w :: rest).getLast (by simp))).getD defaultSize

/-- Bytes taken by the type with this text. -/
def sizeOfText (sizes : StructSizes) (text : List Char) : Except Fault Int :=
  let s := Text.trim text
  if endsIn '*' s then .ok pointerSize
  else if endsIn ']' s then
    match _found : beforeBracket? s with
    | some e =>
      match sizeOfText sizes e with
      | .ok size =>
        match count 1 ((bracketed? s).getD []) with
        | .ok n => .ok (size * n)
        | .error fault => .error fault
      | .error fault => .error fault
    | none => .error .badValue
  else .ok (wordsSize sizes ((Text.words s).map String.ofList))
termination_by text.length
decreasing_by
  exact Nat.lt_of_lt_of_le (length_beforeBracket?_lt _found) (length_trim_le text)

/-- Bytes taken by an object of the type. -/
def size (sizes : StructSizes) (t : CType) : Except Fault Int :=
  sizeOfText sizes t.text.toList

/-- The text of the innermost element type. -/
def innermostText (text : List Char) : Except Fault (List Char) :=
  if endsIn ']' text then
    match _found : beforeBracket? (Text.trimRight text) with
    | some e => innermostText e
    | none => .error .badValue
  else .ok text
termination_by text.length
decreasing_by
  exact Nat.lt_of_lt_of_le (length_beforeBracket?_lt _found) (length_trimRight_le text)

/-- The alignment of a type: that of its innermost element, which is its size, but at least one and
at most eight bytes. -/
def alignment (sizes : StructSizes) (t : CType) : Except Fault Int := do
  let inner ← innermostText t.text.toList
  let size ← sizeOfText sizes inner
  return max 1 (min size 8)

end CType

end Stepwise
