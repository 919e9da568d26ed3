/-
Cutting a text into segments.

Every text is a sequence of segments: blanks, comments, lexemes (numbers,
quoted texts, operators, words) and stray characters that fit nothing. At each
place the first of these that matches is taken, in this order: a comment, a
number, a quoted text, the longest operator, a word. A comment or a quoted
text that is not closed matches nothing, so its opening character is read as
something else or stands alone.

The main statement is `segments_flatten`: written one after the other, the
segments are the text, so nothing is lost and nothing is read twice.
-/
import Stepwise.Token.Basic
import Stepwise.Text.Class
import Stepwise.Text.Word

set_option autoImplicit false

namespace Stepwise.Token

/-- What a lexeme is. -/
inductive Lexeme where
  /-- A number. -/
  | number
  /-- A quoted text or character. -/
  | quoted
  /-- An operator or punctuation. -/
  | operator
  /-- A keyword or a name. -/
  | word
deriving Repr, DecidableEq

/-- A piece of a text. -/
inductive Segment where
  /-- One blank. -/
  | blank (c : Char)
  /-- A comment with its marks. -/
  | comment (text : List Char)
  /-- A token's text. -/
  | lexeme (kind : Lexeme) (text : List Char)
  /-- A character that is part of nothing. -/
  | stray (c : Char)
deriving Repr, DecidableEq

/-- The characters of a segment. -/
def Segment.chars : Segment → List Char
  | blank c => [c]
  | comment text => text
  | lexeme _ text => text
  | stray c => [c]

/-- A text cut in two: what a rule matched and what follows. -/
abbrev Cut := List Char × List Char

/-- A cut of `s` whose first part is not empty. -/
def Cut.Of (cut : Cut) (s : List Char) : Prop :=
  cut.1 ++ cut.2 = s ∧ cut.1 ≠ []

/-! ## Comments -/

/-- Up to and including the mark that closes a block comment. -/
def blockEnd? : List Char → Option Cut
  | [] => none
  | [_] => none
  | c :: d :: rest =>
    if c = '*' ∧ d = '/' then some ([c, d], rest)
    else (blockEnd? (d :: rest)).map fun cut => (c :: cut.1, cut.2)

/-- A comment to the end of the line, or up to its closing mark. -/
def comment? : List Char → Option Cut
  | '/' :: '/' :: rest =>
    some ('/' :: '/' :: rest.takeWhile (· != '\n'), rest.dropWhile (· != '\n'))
  | '/' :: '*' :: rest => (blockEnd? rest).map fun cut => ('/' :: '*' :: cut.1, cut.2)
  | _ => none

/-! ## Numbers -/

/-- Digits of base sixteen. -/
def isHexDigit (c : Char) : Bool :=
  c.isDigit || ('a' ≤ c && c ≤ 'f') || ('A' ≤ c && c ≤ 'F')

/-- Letters that may follow a whole number. -/
def isWholeMark (c : Char) : Bool :=
  c == 'u' || c == 'U' || c == 'l' || c == 'L'

/-- Letters one of which may follow a floating number. -/
def isFloatMark (c : Char) : Bool :=
  c == 'f' || c == 'F' || c == 'l' || c == 'L'

/-- A number in base sixteen. -/
def hexNumber? : List Char → Option Cut
  | '0' :: x :: rest =>
    if (x = 'x' ∨ x = 'X') ∧ rest.takeWhile isHexDigit ≠ [] then
      let more := rest.dropWhile isHexDigit
      some ('0' :: x :: rest.takeWhile isHexDigit ++ more.takeWhile isWholeMark,
        more.dropWhile isWholeMark)
    else none
  | _ => none

/-- The sign of an exponent, if there is one. -/
def exponentSign : List Char → Cut
  | '+' :: rest => (['+'], rest)
  | '-' :: rest => (['-'], rest)
  | s => ([], s)

/-- An exponent, or nothing if its mark is not followed by digits. -/
def exponentPart : List Char → Cut
  | [] => ([], [])
  | c :: rest =>
    let sign := exponentSign rest
    if (c = 'e' ∨ c = 'E') ∧ sign.2.takeWhile Text.isDecimal ≠ [] then
      (c :: sign.1 ++ sign.2.takeWhile Text.isDecimal, sign.2.dropWhile Text.isDecimal)
    else ([], c :: rest)

/-- One letter after a floating number, if there is one. -/
def floatMark : List Char → Cut
  | [] => ([], [])
  | c :: rest => if isFloatMark c then ([c], rest) else ([], c :: rest)

/-- A number with a point. -/
def floatNumber? (s : List Char) : Option Cut :=
  let whole := s.takeWhile Text.isDecimal
  match s.dropWhile Text.isDecimal with
  | '.' :: rest =>
    if whole = [] then none
    else
      let exponent := exponentPart (rest.dropWhile Text.isDecimal)
      let mark := floatMark exponent.2
      some (whole ++ '.' :: rest.takeWhile Text.isDecimal ++ exponent.1 ++ mark.1, mark.2)
  | _ => none

/-- A whole number. -/
def wholeNumber? (s : List Char) : Option Cut :=
  let whole := s.takeWhile Text.isDecimal
  let rest := s.dropWhile Text.isDecimal
  if whole = [] then none
  else some (whole ++ rest.takeWhile isWholeMark, rest.dropWhile isWholeMark)

/-- A number, in the first of the three forms that matches. -/
def number? (s : List Char) : Option Cut :=
  (hexNumber? s).or ((floatNumber? s).or (wholeNumber? s))

/-! ## Quoted texts, operators, words -/

/-- Up to and including the closing quote; a backslash takes the next character along, and a line
feed on its own ends the attempt. -/
def quoteEnd? (quote : Char) : List Char → Option Cut
  | [] => none
  | [c] => if c = quote then some ([c], []) else none
  | c :: d :: rest =>
    if c = quote then some ([c], d :: rest)
    else if c = '\\' then (quoteEnd? quote rest).map fun cut => (c :: d :: cut.1, cut.2)
    else if c = '\n' then none
    else (quoteEnd? quote (d :: rest)).map fun cut => (c :: cut.1, cut.2)

/-- A text in double or single quotes. -/
def quoted? : List Char → Option Cut
  | [] => none
  | c :: rest =>
    if c = '"' ∨ c = '\'' then (quoteEnd? c rest).map fun cut => (c :: cut.1, cut.2) else none

/-- Operators and punctuation of a given length. -/
def operatorsOfLength (n : Nat) : List (List Char) :=
  ((operators ++ punctuation).map String.toList).filter fun text => text.length == n

/-- All operators and punctuation, longer ones first. -/
def operatorTexts : List (List Char) :=
  operatorsOfLength 3 ++ operatorsOfLength 2 ++ operatorsOfLength 1

/-- The longest operator the text begins with. -/
def operator? (s : List Char) : Option Cut :=
  (operatorTexts.find? (·.isPrefixOf s)).map fun text => (text, s.drop text.length)

/-- A run of word characters. -/
def word? (s : List Char) : Option Cut :=
  if s.takeWhile Text.isWordChar = [] then none
  else some (s.takeWhile Text.isWordChar, s.dropWhile Text.isWordChar)

/-! ## Segments -/

/-- The first segment of a text that begins with `c`, and what follows it. -/
def firstSegment (c : Char) (rest : List Char) : Segment × List Char :=
  let s := c :: rest
  match comment? s with
  | some cut => (.comment cut.1, cut.2)
  | none =>
    match number? s with
    | some cut => (.lexeme .number cut.1, cut.2)
    | none =>
      match quoted? s with
      | some cut => (.lexeme .quoted cut.1, cut.2)
      | none =>
        match operator? s with
        | some cut => (.lexeme .operator cut.1, cut.2)
        | none =>
          match word? s with
          | some cut => (.lexeme .word cut.1, cut.2)
          | none => (if Text.isBlank c then .blank c else .stray c, rest)

/-! ## Every rule cuts the text it is given -/

theorem blockEnd?_cut {s : List Char} {cut : Cut} (h : blockEnd? s = some cut) : cut.Of s := by
  induction s generalizing cut with
  | nil => simp [blockEnd?] at h
  | cons c r ih =>
    cases r with
    | nil => simp [blockEnd?] at h
    | cons d rest =>
      simp only [blockEnd?] at h
      split at h
      · simp only [Option.some.injEq] at h
        simp [Cut.Of, ← h]
      · obtain ⟨inner, hinner, rfl⟩ := Option.map_eq_some_iff.1 h
        have := ih hinner
        simp [Cut.Of, this.1]

theorem comment?_cut {s : List Char} {cut : Cut} (h : comment? s = some cut) : cut.Of s := by
  unfold comment? at h
  split at h
  · simp only [Option.some.injEq] at h
    simp [Cut.Of, ← h]
  · obtain ⟨inner, hinner, rfl⟩ := Option.map_eq_some_iff.1 h
    simp [Cut.Of, (blockEnd?_cut hinner).1]
  · simp at h

theorem hexNumber?_cut {s : List Char} {cut : Cut} (h : hexNumber? s = some cut) : cut.Of s := by
  unfold hexNumber? at h
  split at h
  · split at h
    · simp only [Option.some.injEq] at h
      simp [Cut.Of, ← h]
    · simp at h
  · simp at h

theorem exponentSign_append (s : List Char) : (exponentSign s).1 ++ (exponentSign s).2 = s := by
  unfold exponentSign
  split <;> simp

theorem exponentPart_append (s : List Char) : (exponentPart s).1 ++ (exponentPart s).2 = s := by
  unfold exponentPart
  split
  · simp
  · dsimp only
    split
    · simp [exponentSign_append]
    · simp

theorem floatMark_append (s : List Char) : (floatMark s).1 ++ (floatMark s).2 = s := by
  unfold floatMark
  split
  · simp
  · split <;> simp

theorem floatNumber?_cut {s : List Char} {cut : Cut} (h : floatNumber? s = some cut) :
    cut.Of s := by
  unfold floatNumber? at h
  dsimp only at h
  split at h
  · rename_i rest hrest
    split at h
    · simp at h
    · rename_i hwhole
      simp only [Option.some.injEq] at h
      subst h
      refine ⟨?_, by simp⟩
      simp only [List.append_assoc, List.cons_append, floatMark_append, exponentPart_append,
        List.takeWhile_append_dropWhile]
      rw [← hrest, List.takeWhile_append_dropWhile]
  · simp at h

theorem wholeNumber?_cut {s : List Char} {cut : Cut} (h : wholeNumber? s = some cut) :
    cut.Of s := by
  unfold wholeNumber? at h
  dsimp only at h
  split at h
  · simp at h
  · rename_i hwhole
    simp only [Option.some.injEq] at h
    subst h
    refine ⟨by simp, ?_⟩
    intro hnil
    exact hwhole (List.append_eq_nil_iff.1 hnil).1

theorem number?_cut {s : List Char} {cut : Cut} (h : number? s = some cut) : cut.Of s := by
  unfold number? at h
  rcases Option.or_eq_some_iff.1 h with h | ⟨_, h⟩
  · exact hexNumber?_cut h
  · rcases Option.or_eq_some_iff.1 h with h | ⟨_, h⟩
    · exact floatNumber?_cut h
    · exact wholeNumber?_cut h

theorem quoteEnd?_append {quote : Char} {s : List Char} {cut : Cut}
    (h : quoteEnd? quote s = some cut) : cut.1 ++ cut.2 = s := by
  fun_induction quoteEnd? quote s generalizing cut with
  | case1 => simp at h
  | case2 =>
    simp only [Option.some.injEq] at h
    simp [← h]
  | case3 => simp at h
  | case4 =>
    simp only [Option.some.injEq] at h
    simp [← h]
  | case5 d rest _ ih =>
    obtain ⟨inner, hinner, rfl⟩ := Option.map_eq_some_iff.1 h
    simp [ih hinner]
  | case6 => simp at h
  | case7 c d rest _ _ _ ih =>
    obtain ⟨inner, hinner, rfl⟩ := Option.map_eq_some_iff.1 h
    simp [ih hinner]

theorem quoted?_cut {s : List Char} {cut : Cut} (h : quoted? s = some cut) : cut.Of s := by
  unfold quoted? at h
  split at h
  · simp at h
  · split at h
    · obtain ⟨inner, hinner, rfl⟩ := Option.map_eq_some_iff.1 h
      simp [Cut.Of, quoteEnd?_append hinner]
    · simp at h

theorem operatorTexts_ne_nil : ∀ text ∈ operatorTexts, text ≠ [] := by
  intro text h
  simp only [operatorTexts, operatorsOfLength, List.mem_append, List.mem_filter] at h
  rintro rfl
  simp at h

theorem operator?_cut {s : List Char} {cut : Cut} (h : operator? s = some cut) : cut.Of s := by
  unfold operator? at h
  obtain ⟨text, htext, rfl⟩ := Option.map_eq_some_iff.1 h
  have hmem := List.mem_of_find?_eq_some htext
  have hpre := List.find?_some htext
  rw [List.isPrefixOf_iff_prefix] at hpre
  obtain ⟨rest, rfl⟩ := hpre
  exact ⟨by simp, operatorTexts_ne_nil text hmem⟩

theorem word?_cut {s : List Char} {cut : Cut} (h : word? s = some cut) : cut.Of s := by
  unfold word? at h
  split at h
  · simp at h
  · rename_i hword
    simp only [Option.some.injEq] at h
    subst h
    exact ⟨by simp, hword⟩

/-- The first segment and the rest make up the text, and the segment is not empty. -/
theorem firstSegment_cut (c : Char) (rest : List Char) :
    Cut.Of ((firstSegment c rest).1.chars, (firstSegment c rest).2) (c :: rest) := by
  unfold firstSegment
  dsimp only
  split
  · rename_i cut h
    exact comment?_cut h
  · split
    · rename_i cut h
      exact number?_cut h
    · split
      · rename_i cut h
        exact quoted?_cut h
      · split
        · rename_i cut h
          exact operator?_cut h
        · split
          · rename_i cut h
            exact word?_cut h
          · split <;> simp [Cut.Of, Segment.chars]

theorem length_firstSegment_lt (c : Char) (rest : List Char) :
    (firstSegment c rest).2.length < (c :: rest).length := by
  obtain ⟨hcut, hne⟩ := firstSegment_cut c rest
  have hlen := congrArg List.length hcut
  have hpos := List.length_pos_iff.2 hne
  rw [List.length_append] at hlen
  dsimp only at hlen hpos ⊢
  omega

/-- The segments of a text. -/
def segments (s : List Char) : List Segment :=
  match s with
  | [] => []
  | c :: rest => (firstSegment c rest).1 :: segments (firstSegment c rest).2
termination_by s.length
decreasing_by exact length_firstSegment_lt c rest

/-- The segments, written one after the other, are the text. -/
theorem segments_flatten (s : List Char) : (segments s).flatMap Segment.chars = s := by
  fun_induction segments s with
  | case1 => rfl
  | case2 c rest ih =>
    rw [List.flatMap_cons, ih]
    exact (firstSegment_cut c rest).1

end Stepwise.Token
