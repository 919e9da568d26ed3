/-
Reading a text that was put together from pieces.

The tokens of a text without directives are read here without their places
(`reads`), and a piece of text is read by itself if what follows it does not change
its tokens. What a lexeme is cut to depends on the next character only: a word must
not be followed by a word character, a whole number not by a point, a sign by
nothing that makes it a longer one. Where a piece is not read by itself it still
begins with a lexeme of its class (`exists_number`, `exists_sign`, `exists_word`).

A token of a text has the kind and the shape of its class (`Lexed`). A quoted text
may run over several lines, and in a text without directives none of the lines
that begin inside of it is one; so a text made of such tokens has no directives
either (`Calm.undirected`).
-/
import Stepwise.Proofs.Recognition

set_option autoImplicit false

namespace Stepwise.Token

/-! ## Tokens without places -/

/-- The token that a lexeme gives, at no place. -/
def Lexeme.token (lexeme : Lexeme) (text : String) : Token :=
  ⟨lexeme.tokenKind text, text, 0, 0⟩

/-- The token of a sign, at no place. -/
def ofSign (text : String) : Token :=
  Lexeme.operator.token text

/-- The token of a word, at no place. -/
def ofWord (text : String) : Token :=
  Lexeme.word.token text

/-- The token of a literal, at no place. -/
def ofLiteral (text : String) : Token :=
  ⟨.literal, text, 0, 0⟩

/-- The token without its place. -/
def unplaced (t : Token) : Token :=
  { t with line := 0, column := 0 }

@[simp] theorem unplaced_kind (t : Token) : t.unplaced.kind = t.kind := rfl

@[simp] theorem unplaced_text (t : Token) : t.unplaced.text = t.text := rfl

/-- The tokens of a text, directives and places aside. -/
def reads (s : List Char) : List Token :=
  (segments s).filterMap fun part => ofSegment? (⟨0, 0⟩, part)

theorem unplaced_ofSegment? (p : Place) (part : Segment) :
    (ofSegment? (p, part)).map unplaced = ofSegment? (⟨0, 0⟩, part) := by
  cases part <;> rfl

theorem map_unplaced_located (before : List Char) (parts : List Segment) :
    ((located before parts).filterMap ofSegment?).map unplaced =
      parts.filterMap fun part => ofSegment? (⟨0, 0⟩, part) := by
  induction parts generalizing before with
  | nil => rfl
  | cons part parts ih =>
    have hpart := unplaced_ofSegment? (.following before) part
    rw [located, List.filterMap_cons, List.filterMap_cons, ← hpart]
    cases ofSegment? (Place.following before, part) with
    | none => exact ih _
    | some t => exact congrArg _ (ih _)

theorem Undirected.map_unplaced {source : String} (h : Undirected source) :
    (Stepwise.tokenize source).map unplaced = reads source.toList := by
  rw [h.tokenize, map_unplaced_located, reads]

/-! ## The first segment -/

/-- The text begins with a segment, and `rest` is left. -/
def Starts (s : List Char) (part : Segment) (rest : List Char) : Prop :=
  ∃ c more, s = c :: more ∧ firstSegment c more = (part, rest)

theorem Starts.append {s rest : List Char} {part : Segment} (h : Starts s part rest) :
    s = part.chars ++ rest := by
  obtain ⟨c, more, rfl, hfirst⟩ := h
  have hcut := (firstSegment_cut c more).1
  rw [hfirst] at hcut
  exact hcut.symm

theorem segments_of_starts {s rest : List Char} {part : Segment} (h : Starts s part rest) :
    segments s = part :: segments rest := by
  obtain ⟨c, more, rfl, hfirst⟩ := h
  rw [segments, hfirst]

theorem reads_of_starts {s text rest : List Char} {lexeme : Lexeme}
    (h : Starts s (.lexeme lexeme text) rest) :
    reads s = lexeme.token (String.ofList text) :: reads rest := by
  rw [reads, segments_of_starts h]
  rfl

@[simp] theorem reads_nil : reads [] = [] := by
  rw [reads, segments]
  rfl

theorem comment?_of_ne {c : Char} {rest : List Char} (h : c ≠ '/') :
    comment? (c :: rest) = none := by
  unfold comment?
  split
  · next heq => exact absurd (List.cons.inj heq).1 h
  · next heq => exact absurd (List.cons.inj heq).1 h
  · rfl

theorem number?_of_not_decimal {c : Char} {rest : List Char} (h : Text.isDecimal c = false) :
    number? (c :: rest) = none := by
  have hc : c ≠ '0' := by
    rintro rfl
    revert h
    decide
  have htake : (c :: rest).takeWhile Text.isDecimal = [] := by
    rw [List.takeWhile_cons, h]
    rfl
  have hhex : hexNumber? (c :: rest) = none := by
    unfold hexNumber?
    split
    · next heq => exact absurd (List.cons.inj heq).1 hc
    · rfl
  have hfloat : floatNumber? (c :: rest) = none := by
    unfold floatNumber?
    dsimp only
    split
    · rw [if_pos htake]
    · rfl
  have hwhole : wholeNumber? (c :: rest) = none := by
    unfold wholeNumber?
    dsimp only
    rw [if_pos htake]
  rw [number?, hhex, hfloat, hwhole]
  rfl

theorem quoted?_of_ne {c : Char} {rest : List Char} (h : ¬ (c = '"' ∨ c = '\'')) :
    quoted? (c :: rest) = none := by
  rw [quoted?, if_neg h]

/-- The blanks, one by one. -/
def blankChars : List Char :=
  Text.blanks.flatMap fun range =>
    (List.range' range.1 (range.2 + 1 - range.1)).map Char.ofNat

theorem mem_blankChars {c : Char} (h : Text.isBlank c = true) : c ∈ blankChars := by
  obtain ⟨range, hrange, hlo, hhi⟩ := Text.Ranges.has_iff.1 h
  refine List.mem_flatMap.2 ⟨range, hrange, List.mem_map.2 ⟨c.toNat, ?_, Char.ofNat_toNat c⟩⟩
  rw [List.mem_range'_1]
  omega

/-- A blank belongs to no word and to no number. -/
theorem not_word_of_blank {c : Char} (hc : Text.isBlank c = true) :
    Text.isWordChar c = false ∧ Text.isDecimal c = false := by
  have hdecimal : ∀ c ∈ blankChars, Text.isDecimal c = false := by decide +kernel
  refine ⟨Bool.eq_false_iff.2 fun hword => ?_, hdecimal c (mem_blankChars hc)⟩
  rw [Text.isBlank_of_isWordChar hword] at hc
  cases hc

/-- A blank is a segment of its own. -/
theorem firstSegment_blank {c : Char} (hc : Text.isBlank c = true) (rest : List Char) :
    firstSegment c rest = (.blank c, rest) := by
  have hclass : ∀ c ∈ blankChars, c ≠ '/' ∧ ¬ (c = '"' ∨ c = '\'') ∧
      ∀ text ∈ operatorTexts, text.head? ≠ some c := by
    rw [operatorTexts_eq]
    decide +kernel
  obtain ⟨hslash, hquote, hheads⟩ := hclass c (mem_blankChars hc)
  obtain ⟨hwordChar, hdecimal⟩ := not_word_of_blank hc
  have hoperator : operator? (c :: rest) = none := by
    unfold operator?
    rw [Option.map_eq_none_iff, List.find?_eq_none]
    intro text htext hpre
    obtain ⟨tail, htail⟩ := List.isPrefixOf_iff_prefix.1 hpre
    obtain ⟨d, text, rfl⟩ := List.exists_cons_of_ne_nil (operatorTexts_ne_nil text htext)
    refine hheads _ htext ?_
    rw [(List.cons.inj htail).1]
    rfl
  have hword : word? (c :: rest) = none := by
    unfold word?
    rw [List.takeWhile_cons, hwordChar]
    rfl
  unfold firstSegment
  dsimp only
  rw [comment?_of_ne hslash, number?_of_not_decimal hdecimal, quoted?_of_ne hquote, hoperator,
    hword]
  dsimp only
  rw [if_pos hc]

theorem reads_space (rest : List Char) : reads (' ' :: rest) = reads rest := by
  rw [reads, segments, firstSegment_blank (by decide)]
  rfl

/-! ## Signs -/

/-- Characters that can make a sign longer. -/
def lengthening : List Char :=
  ['=', '+', '-', '&', '|', '<', '>', '.']

theorem signs_ne_nil : ∀ sign ∈ signs, sign.toList ≠ [] := by
  have hchars : ∀ text ∈ operatorChars, text ≠ [] := by decide
  exact forall_mem_signs hchars

/-- A sign begins with no digit and no quote. -/
theorem signs_head : ∀ sign ∈ signs, ∀ c ∈ sign.toList.head?,
    Text.isDecimal c = false ∧ ¬ (c = '"' ∨ c = '\'') := by
  have hchars : ∀ text ∈ operatorChars, ∀ c ∈ text.head?,
      Text.isDecimal c = false ∧ ¬ (c = '"' ∨ c = '\'') := by
    decide
  exact forall_mem_signs hchars

/-- A sign that begins with a slash is one of two. -/
theorem signs_slash {sign : String} (hsign : sign ∈ signs) (hhead : sign.toList.head? = some '/') :
    sign = "/" ∨ sign = "/=" := by
  have hchars : ∀ text ∈ operatorChars, text.head? = some '/' →
      text = "/".toList ∨ text = "/=".toList := by
    decide
  exact (forall_mem_signs hchars sign hsign hhead).imp String.toList_inj.1 String.toList_inj.1

/-- A text that begins with a sign, and with no comment, begins with this sign or a longer one. -/
theorem exists_sign {sign : String} (hsign : sign ∈ signs) {after : List Char}
    (hcomment : comment? (sign.toList ++ after) = none) :
    ∃ longer ∈ signs, ∃ rest, Starts (sign.toList ++ after) (.lexeme .operator longer.toList) rest ∧
      sign.toList <+: longer.toList := by
  have hne := signs_ne_nil sign hsign
  have hhead := signs_head sign hsign
  have hpre : sign.toList <+: sign.toList ++ after := List.prefix_append _ _
  generalize hs : sign.toList ++ after = s at hcomment hpre ⊢
  cases hcut : operator? s with
  | none => exact absurd hpre (operator?_eq_none hcut (mem_operatorTexts_of_sign hsign))
  | some cut =>
    obtain ⟨hmem, hlongest⟩ := operator?_longest hcut
    have hlength := hlongest _ (mem_operatorTexts_of_sign hsign) hpre
    have hcutpre : cut.1 <+: s := ⟨cut.2, (operator?_cut hcut).1⟩
    refine ⟨String.ofList cut.1, mem_operatorTexts.1 hmem, cut.2, ?_, ?_⟩
    · obtain ⟨c, text, htext⟩ := List.exists_cons_of_ne_nil hne
      rw [htext] at hs hhead
      subst hs
      obtain ⟨hdecimal, hquote⟩ := hhead c rfl
      refine ⟨c, text ++ after, rfl, ?_⟩
      unfold firstSegment
      dsimp only
      rw [List.cons_append] at hcomment hcut
      rw [hcomment, number?_of_not_decimal hdecimal, quoted?_of_ne hquote, hcut,
        String.toList_ofList]
    · rw [String.toList_ofList]
      exact List.prefix_of_prefix_length_le hpre hcutpre hlength

/-- A sign that nothing makes longer is read by itself. -/
theorem starts_sign {sign : String} (hsign : sign ∈ signs) {after : List Char}
    (hcomment : comment? (sign.toList ++ after) = none)
    (hlongest : ∀ longer ∈ signs, sign.toList <+: longer.toList →
      longer.toList <+: sign.toList ++ after → longer = sign) :
    Starts (sign.toList ++ after) (.lexeme .operator sign.toList) after := by
  obtain ⟨longer, hmem, rest, hstarts, hpre⟩ := exists_sign hsign hcomment
  obtain rfl : longer = sign := hlongest longer hmem hpre ⟨rest, hstarts.append.symm⟩
  have hrest : rest = after := List.append_cancel_left hstarts.append.symm
  rwa [hrest] at hstarts

theorem reads_sign {sign : String} (hsign : sign ∈ signs) {after : List Char}
    (hcomment : comment? (sign.toList ++ after) = none)
    (hafter : ∀ c ∈ after.head?, c ∉ lengthening) :
    reads (sign.toList ++ after) = ofSign sign :: reads after := by
  have hstarts : Starts (sign.toList ++ after) (.lexeme .operator sign.toList) after := by
    refine starts_sign hsign hcomment fun longer hlonger hpre hpre' => ?_
    have htails : ∀ text ∈ operatorChars, ∀ longer ∈ operatorChars, text <+: longer →
        ∀ c ∈ (longer.drop text.length).head?, c ∈ lengthening := by
      decide
    obtain ⟨tail, htail⟩ := hpre
    have hnext := forall_mem_signs (forall_mem_signs htails sign hsign) longer hlonger ⟨tail, htail⟩
    rw [← htail, List.drop_left] at hnext
    rw [← htail, List.prefix_append_right_inj] at hpre'
    cases tail with
    | nil =>
      rw [List.append_nil] at htail
      exact String.toList_inj.1 htail.symm
    | cons c tail =>
      obtain ⟨rest, rfl⟩ := hpre'
      exact absurd (hnext c rfl) (hafter c rfl)
  rw [reads_of_starts hstarts, String.ofList_toList]
  rfl

/-- A sign that is no part of a longer one is read by itself, whatever follows. -/
theorem reads_closed {sign : String} (hsign : sign ∈ signs)
    (hclosed : ∀ longer ∈ signs, sign.toList <+: longer.toList → longer = sign)
    (hhead : sign.toList.head? ≠ some '/') (after : List Char) :
    reads (sign.toList ++ after) = ofSign sign :: reads after := by
  have hcomment : comment? (sign.toList ++ after) = none := by
    obtain ⟨c, text, htext⟩ := List.exists_cons_of_ne_nil (signs_ne_nil sign hsign)
    rw [htext] at hhead ⊢
    exact comment?_of_ne fun h => hhead (by rw [h]; rfl)
  have hstarts := starts_sign hsign hcomment fun longer hmem hpre _ => hclosed longer hmem hpre
  rw [reads_of_starts hstarts, String.ofList_toList]
  rfl

/-! ## Words -/

/-- A word: word characters, of which the first is no digit. -/
def IsWord (text : List Char) : Prop :=
  text ≠ [] ∧ (∀ c ∈ text, Text.isWordChar c = true) ∧ ∀ c ∈ text.head?, Text.isDecimal c = false

theorem operator?_of_word {c : Char} {rest : List Char} (h : Text.isWordChar c = true) :
    operator? (c :: rest) = none := by
  unfold operator?
  rw [Option.map_eq_none_iff, List.find?_eq_none]
  intro text htext hpre
  obtain ⟨tail, htail⟩ := List.isPrefixOf_iff_prefix.1 hpre
  obtain ⟨d, text, rfl⟩ := List.exists_cons_of_ne_nil (operatorTexts_ne_nil text htext)
  obtain rfl : d = c := (List.cons.inj htail).1
  have hfree := signs_not_words _ (mem_operatorTexts.1 htext) d
    (by rw [String.toList_ofList]; exact List.mem_cons_self)
  rw [h] at hfree
  cases hfree

/-- A text that begins with a word begins with all word characters there. -/
theorem starts_word {text : List Char} (h : IsWord text) (after : List Char) :
    Starts (text ++ after) (.lexeme .word (text ++ after.takeWhile Text.isWordChar))
      (after.dropWhile Text.isWordChar) := by
  obtain ⟨hne, hword, hhead⟩ := h
  obtain ⟨c, text, rfl⟩ := List.exists_cons_of_ne_nil hne
  have hc := hword c List.mem_cons_self
  have hslash : c ≠ '/' := by
    rintro rfl
    revert hc
    decide
  have hquote : ¬ (c = '"' ∨ c = '\'') := by
    rintro (rfl | rfl) <;> revert hc <;> decide
  refine ⟨c, text ++ after, rfl, ?_⟩
  have hcut : word? (c :: (text ++ after)) =
      some (c :: (text ++ after.takeWhile Text.isWordChar), after.dropWhile Text.isWordChar) := by
    unfold word?
    rw [← List.cons_append, List.takeWhile_append_of_pos hword, List.dropWhile_append_of_pos hword,
      if_neg (by rw [List.cons_append]; exact List.cons_ne_nil _ _), List.cons_append]
  unfold firstSegment
  dsimp only
  rw [comment?_of_ne hslash, number?_of_not_decimal (hhead c rfl), quoted?_of_ne hquote,
    operator?_of_word hc, hcut]
  rfl

theorem reads_word {text : String} (h : IsWord text.toList) {after : List Char}
    (hafter : ∀ c ∈ after.head?, Text.isWordChar c = false) :
    reads (text.toList ++ after) = ofWord text :: reads after := by
  have hstarts := starts_word h after
  cases after with
  | nil =>
    rw [reads_of_starts hstarts, List.takeWhile_nil, List.dropWhile_nil, List.append_nil,
      String.ofList_toList]
    rfl
  | cons c after =>
    rw [reads_of_starts hstarts, List.takeWhile_cons, List.dropWhile_cons, hafter c rfl]
    rw [if_neg Bool.false_ne_true, if_neg Bool.false_ne_true, List.append_nil,
      String.ofList_toList]
    rfl

/-! ## Numbers -/

/-- Characters that follow a literal where an expression is written. -/
def followers : List Char :=
  [' ', ')', ']', ',', '.', '+', '-']

theorem span_append {p : Char → Bool} {s t : List Char} (hs : ∀ c ∈ s, p c = true)
    (ht : ∀ c ∈ t.head?, p c = false) :
    (s ++ t).takeWhile p = s ∧ (s ++ t).dropWhile p = t := by
  have hstop : t.takeWhile p = [] ∧ t.dropWhile p = t := by
    cases t with
    | nil => exact ⟨rfl, rfl⟩
    | cons c t =>
      rw [List.takeWhile_cons, List.dropWhile_cons, ht c rfl]
      exact ⟨rfl, rfl⟩
  rw [List.takeWhile_append_of_pos hs, List.dropWhile_append_of_pos hs, hstop.1, hstop.2,
    List.append_nil]
  exact ⟨rfl, rfl⟩

theorem head?_append_of_forall {q : Char → Prop} {s after : List Char} (hs : ∀ c ∈ s, q c)
    (hafter : ∀ c ∈ after.head?, q c) : ∀ c ∈ (s ++ after).head?, q c := by
  cases s with
  | nil => exact hafter
  | cons d s =>
    rintro _ ⟨⟩
    exact hs d List.mem_cons_self

theorem isWholeMark_iff {c : Char} : isWholeMark c = true ↔ c ∈ ['u', 'U', 'l', 'L'] := by
  simp [isWholeMark, or_assoc]

theorem isFloatMark_iff {c : Char} : isFloatMark c = true ↔ c ∈ ['f', 'F', 'l', 'L'] := by
  simp [isFloatMark, or_assoc]

theorem decimal_ne {c d : Char} (hc : Text.isDecimal c = true) (hd : Text.isDecimal d = false) :
    c ≠ d := by
  rintro rfl
  rw [hc] at hd
  cases hd

/-- Only an `x` behind the first character makes a number one of base sixteen. -/
theorem hexNumber?_eq_none {c : Char} {s : List Char}
    (h : ∀ d ∈ s.head?, d ≠ 'x' ∧ d ≠ 'X') : hexNumber? (c :: s) = none := by
  unfold hexNumber?
  split
  · next mark rest heq =>
    obtain ⟨_, rfl⟩ := List.cons.inj heq
    obtain ⟨hlower, hupper⟩ := h mark rfl
    rw [if_neg]
    rintro ⟨rfl | rfl, _⟩
    · exact hlower rfl
    · exact hupper rfl
  · rfl

theorem exponentPart_of_isExponent {exponent s : List Char} (h : IsExponent exponent)
    (hs : ∀ c ∈ s.head?, Text.isDecimal c = false ∧ c ≠ 'e' ∧ c ≠ 'E') :
    exponentPart (exponent ++ s) = (exponent, s) := by
  rcases h with rfl | ⟨mark, sign, digits, rfl, hmark, hsign, hne, hdigits⟩
  · cases s with
    | nil => rfl
    | cons c s =>
      obtain ⟨_, he, hE⟩ := hs c rfl
      rw [List.nil_append, exponentPart]
      rw [if_neg]
      rintro ⟨rfl | rfl, _⟩
      · exact he rfl
      · exact hE rfl
  · obtain ⟨htake, hdrop⟩ := span_append hdigits fun c hc => (hs c hc).1
    have hcut : exponentSign (sign ++ (digits ++ s)) = (sign, digits ++ s) := by
      rcases hsign with rfl | rfl | rfl
      · -- without a sign the digits come first, and no digit is a sign
        obtain ⟨d, digits, rfl⟩ := List.exists_cons_of_ne_nil hne
        have hd := hdigits d List.mem_cons_self
        rw [List.nil_append, List.cons_append, exponentSign]
        · exact fun rest heq => decimal_ne hd (by decide) (List.cons.inj heq).1
        · exact fun rest heq => decimal_ne hd (by decide) (List.cons.inj heq).1
      · rfl
      · rfl
    rw [List.cons_append, List.append_assoc, exponentPart]
    rw [hcut, htake, hdrop, if_pos ⟨hmark, hne⟩]
    rfl

theorem floatMark_of_letter {letter s : List Char} (hlength : letter.length ≤ 1)
    (hletter : ∀ c ∈ letter, isFloatMark c = true) (hs : ∀ c ∈ s.head?, isFloatMark c = false) :
    floatMark (letter ++ s) = (letter, s) := by
  match letter, hlength with
  | [], _ =>
    cases s with
    | nil => rfl
    | cons c s =>
      rw [List.nil_append, floatMark, hs c rfl]
      rfl
  | [c], _ =>
    rw [List.singleton_append, floatMark, if_pos (hletter c List.mem_cons_self)]

/-- Digits with a point behind them are read as a number that takes the point along. -/
theorem floatNumber?_append {whole fraction exponent letter s : List Char} (hne : whole ≠ [])
    (hwhole : ∀ c ∈ whole, Text.isDecimal c = true)
    (hfraction : ∀ c ∈ fraction, Text.isDecimal c = true) (hexponent : IsExponent exponent)
    (hlength : letter.length ≤ 1) (hletter : ∀ c ∈ letter, isFloatMark c = true)
    (hs : ∀ c ∈ s.head?, Text.isDecimal c = false ∧ c ≠ 'e' ∧ c ≠ 'E' ∧ isFloatMark c = false) :
    floatNumber? (whole ++ '.' :: (fraction ++ (exponent ++ letter)) ++ s) =
      some (whole ++ '.' :: (fraction ++ (exponent ++ letter)), s) := by
  have hmarks : ∀ c ∈ ['f', 'F', 'l', 'L'],
      Text.isDecimal c = false ∧ c ≠ 'e' ∧ c ≠ 'E' := by decide
  have hlast : ∀ c ∈ (letter ++ s).head?, Text.isDecimal c = false ∧ c ≠ 'e' ∧ c ≠ 'E' := by
    refine head?_append_of_forall (fun c hc => hmarks c (isFloatMark_iff.1 (hletter c hc))) ?_
    exact fun c hc => ⟨(hs c hc).1, (hs c hc).2.1, (hs c hc).2.2.1⟩
  have hback : ∀ c ∈ (exponent ++ (letter ++ s)).head?, Text.isDecimal c = false := by
    rcases hexponent with rfl | ⟨mark, sign, digits, rfl, hmark, _⟩
    · exact fun c hc => (hlast c hc).1
    · rintro c ⟨⟩
      rcases hmark with rfl | rfl <;> decide
  have htext : whole ++ '.' :: (fraction ++ (exponent ++ letter)) ++ s =
      whole ++ '.' :: (fraction ++ (exponent ++ (letter ++ s))) := by
    simp only [List.append_assoc, List.cons_append]
  obtain ⟨htake, hdrop⟩ := span_append (t := '.' :: (fraction ++ (exponent ++ (letter ++ s))))
    hwhole (by rintro c ⟨⟩; decide)
  obtain ⟨htake', hdrop'⟩ := span_append hfraction hback
  unfold floatNumber?
  rw [htext]
  dsimp only
  rw [htake, hdrop]
  refine (if_neg hne).trans ?_
  rw [htake', hdrop', exponentPart_of_isExponent hexponent hlast,
    floatMark_of_letter hlength hletter fun c hc => (hs c hc).2.2.2]
  simp only [List.append_assoc, List.cons_append]

/-- A number is read by itself unless it is made of digits and a point follows. -/
theorem number?_append {text after : List Char} (h : IsNumber text)
    (hafter : ∀ c ∈ after.head?, c ∈ followers)
    (hpoint : after.head? = some '.' → ¬ ∀ c ∈ text, Text.isDecimal c = true) :
    number? (text ++ after) = some (text, after) := by
  have hfollow : ∀ c ∈ followers, isHexDigit c = false ∧ isWholeMark c = false ∧
      Text.isDecimal c = false ∧ c ≠ 'e' ∧ c ≠ 'E' ∧ isFloatMark c = false ∧ c ≠ 'x' ∧ c ≠ 'X' := by
    decide
  have hdigit : ∀ c, Text.isDecimal c = true → c ≠ 'x' ∧ c ≠ 'X' := fun c hc =>
    ⟨decimal_ne hc (by decide), decimal_ne hc (by decide)⟩
  have hwholeMarks : ∀ c ∈ ['u', 'U', 'l', 'L'], isHexDigit c = false ∧
      Text.isDecimal c = false ∧ c ≠ 'x' ∧ c ≠ 'X' ∧ c ≠ '.' := by decide
  rcases h with ⟨mark, digits, letters, rfl, hmark, hne, hdigits, hletters⟩ |
    ⟨whole, fraction, exponent, letter, rfl, hne, hwhole, hfraction, hexponent, hlength, hletter⟩ |
    ⟨digits, letters, rfl, hne, hdigits, hletters⟩
  · obtain ⟨htake, hdrop⟩ := span_append (t := letters ++ after) hdigits
      (head?_append_of_forall (fun c hc => (hwholeMarks c (isWholeMark_iff.1 (hletters c hc))).1)
        fun c hc => (hfollow c (hafter c hc)).1)
    obtain ⟨htake', hdrop'⟩ := span_append hletters fun c hc => (hfollow c (hafter c hc)).2.1
    rw [number?, List.cons_append, List.cons_append, List.append_assoc, hexNumber?, htake,
      if_pos ⟨hmark, hne⟩, hdrop]
    dsimp only
    rw [htake', hdrop']
    rfl
  · have hfloat := floatNumber?_append (s := after) hne hwhole hfraction hexponent hlength hletter
      fun c hc => ⟨(hfollow c (hafter c hc)).2.2.1, (hfollow c (hafter c hc)).2.2.2.1,
        (hfollow c (hafter c hc)).2.2.2.2.1, (hfollow c (hafter c hc)).2.2.2.2.2.1⟩
    have hhex :
        hexNumber? (whole ++ '.' :: (fraction ++ (exponent ++ letter)) ++ after) = none := by
      obtain ⟨c, whole, rfl⟩ := List.exists_cons_of_ne_nil hne
      rw [List.append_assoc, List.cons_append]
      refine hexNumber?_eq_none (head?_append_of_forall (fun d hd => ?_) ?_)
      · exact hdigit d (hwhole d (List.mem_cons_of_mem _ hd))
      · rintro d ⟨⟩
        decide
    rw [number?, hhex, hfloat]
    rfl
  · have hback : ∀ c ∈ (letters ++ after).head?,
        Text.isDecimal c = false ∧ c ≠ 'x' ∧ c ≠ 'X' := by
      refine head?_append_of_forall (fun c hc => ?_) fun c hc => ?_
      · have hc := hwholeMarks c (isWholeMark_iff.1 (hletters c hc))
        exact ⟨hc.2.1, hc.2.2.1, hc.2.2.2.1⟩
      · have hc := hfollow c (hafter c hc)
        exact ⟨hc.2.2.1, hc.2.2.2.2.2.2.1, hc.2.2.2.2.2.2.2⟩
    obtain ⟨htake, hdrop⟩ := span_append hdigits fun c hc => (hback c hc).1
    obtain ⟨htake', hdrop'⟩ := span_append hletters fun c hc => (hfollow c (hafter c hc)).2.1
    have hhex : hexNumber? (digits ++ (letters ++ after)) = none := by
      obtain ⟨c, digits, rfl⟩ := List.exists_cons_of_ne_nil hne
      rw [List.cons_append]
      refine hexNumber?_eq_none (head?_append_of_forall (fun d hd => ?_) fun d hd => (hback d hd).2)
      exact hdigit d (hdigits d (List.mem_cons_of_mem _ hd))
    have hfloat : floatNumber? (digits ++ (letters ++ after)) = none := by
      unfold floatNumber?
      dsimp only
      rw [hdrop]
      split
      · next rest heq =>
        -- the point can only be what follows the text
        cases letters with
        | nil =>
          refine absurd hdigits ?_
          rw [List.append_nil] at hpoint
          refine hpoint ?_
          rw [List.nil_append] at heq
          rw [heq]
          rfl
        | cons d letters =>
          have hd := hwholeMarks d (isWholeMark_iff.1 (hletters d List.mem_cons_self))
          exact absurd (List.cons.inj heq).1 hd.2.2.2.2
      · rfl
    rw [List.append_assoc, number?, hhex, hfloat, wholeNumber?]
    rw [htake, hdrop, if_neg hne, htake', hdrop']
    rfl

/-- A character that is no part of a number is in none. -/
theorem IsNumber.not_mem {text : List Char} (h : IsNumber text) {c : Char}
    (hhex : isHexDigit c = false) (hwhole : isWholeMark c = false) (hfloat : isFloatMark c = false)
    (hdecimal : Text.isDecimal c = false) (hother : c ∉ ['0', 'x', 'X', 'e', 'E', '+', '-', '.']) :
    c ∉ text := by
  have hfree : ∀ {p : Char → Bool} {s : List Char}, p c = false → (∀ d ∈ s, p d = true) → c ∉ s := by
    intro p s hp hs hmem
    rw [hs c hmem] at hp
    cases hp
  simp only [List.mem_cons, List.not_mem_nil, or_false, not_or] at hother
  obtain ⟨hzero, hx, hX, he, hE, hplus, hminus, hpoint⟩ := hother
  rcases h with ⟨mark, digits, letters, rfl, hmark, _, hdigits, hletters⟩ |
    ⟨whole, fraction, exponent, letter, rfl, _, hdigits, hfraction, hexponent, _, hletter⟩ |
    ⟨digits, letters, rfl, _, hdigits, hletters⟩
  · simp only [List.mem_cons, List.mem_append, not_or]
    refine ⟨hzero, ?_, hfree hhex hdigits, hfree hwhole hletters⟩
    rcases hmark with rfl | rfl
    · exact hx
    · exact hX
  · simp only [List.mem_cons, List.mem_append, not_or]
    refine ⟨hfree hdecimal hdigits, hpoint, hfree hdecimal hfraction, ?_, hfree hfloat hletter⟩
    rcases hexponent with rfl | ⟨mark, sign, digits, rfl, hmark, hsign, _, hdigits⟩
    · exact List.not_mem_nil
    · simp only [List.mem_cons, List.mem_append, not_or]
      refine ⟨?_, ?_, hfree hdecimal hdigits⟩
      · rcases hmark with rfl | rfl
        · exact he
        · exact hE
      · rcases hsign with rfl | rfl | rfl
        · exact List.not_mem_nil
        · exact fun hmem => hplus (List.mem_singleton.1 hmem)
        · exact fun hmem => hminus (List.mem_singleton.1 hmem)
  · rw [List.mem_append, not_or]
    exact ⟨hfree hdecimal hdigits, hfree hwhole hletters⟩

theorem IsNumber.head {text : List Char} (h : IsNumber text) :
    ∃ c rest, text = c :: rest ∧ Text.isDecimal c = true := by
  rcases h with ⟨mark, digits, letters, rfl, _⟩ |
    ⟨whole, fraction, exponent, letter, rfl, hne, hwhole, _⟩ |
    ⟨digits, letters, rfl, hne, hdigits, _⟩
  · exact ⟨'0', _, rfl, by decide⟩
  · obtain ⟨c, whole, rfl⟩ := List.exists_cons_of_ne_nil hne
    exact ⟨c, _, rfl, hwhole c List.mem_cons_self⟩
  · obtain ⟨c, digits, rfl⟩ := List.exists_cons_of_ne_nil hne
    exact ⟨c, _, rfl, hdigits c List.mem_cons_self⟩

theorem starts_of_number? {c : Char} {s : List Char} {cut : Cut} (hc : Text.isDecimal c = true)
    (h : number? (c :: s) = some cut) : Starts (c :: s) (.lexeme .number cut.1) cut.2 := by
  refine ⟨c, s, rfl, ?_⟩
  unfold firstSegment
  dsimp only
  rw [comment?_of_ne (decimal_ne hc (by decide)), h]

theorem reads_number {text : String} (h : IsNumber text.toList) {after : List Char}
    (hafter : ∀ c ∈ after.head?, c ∈ followers)
    (hpoint : after.head? = some '.' → ¬ ∀ c ∈ text.toList, Text.isDecimal c = true) :
    reads (text.toList ++ after) = ofLiteral text :: reads after := by
  have hnumber := number?_append h hafter hpoint
  obtain ⟨c, rest, htext, hc⟩ := h.head
  rw [htext, List.cons_append] at hnumber
  have hstarts := starts_of_number? hc hnumber
  rw [← List.cons_append, ← htext] at hstarts
  rw [reads_of_starts hstarts, String.ofList_toList]
  rfl

theorem number?_of_decimal {c : Char} (hc : Text.isDecimal c = true) (s : List Char) :
    ∃ cut, number? (c :: s) = some cut := by
  have hwhole : wholeNumber? (c :: s) ≠ none := by
    unfold wholeNumber?
    dsimp only
    rw [List.takeWhile_cons_of_pos hc, if_neg (List.cons_ne_nil _ _)]
    exact Option.some_ne_none _
  cases hnumber : number? (c :: s) with
  | none =>
    rw [number?, Option.or_eq_none_iff, Option.or_eq_none_iff] at hnumber
    exact absurd hnumber.2.2 hwhole
  | some cut => exact ⟨cut, rfl⟩

/-- A text that begins with a number begins with some number, whatever follows. -/
theorem exists_number {text : List Char} (h : IsNumber text) (after : List Char) :
    ∃ text' rest, Starts (text ++ after) (.lexeme .number text') rest := by
  obtain ⟨c, more, rfl, hc⟩ := h.head
  obtain ⟨cut, hcut⟩ := number?_of_decimal hc (more ++ after)
  exact ⟨cut.1, cut.2, starts_of_number? hc hcut⟩

/-- Digits do not stay what they are in front of a point. -/
theorem exists_pointed {text : List Char} (h : IsNumber text)
    (hdigits : ∀ c ∈ text, Text.isDecimal c = true) (after : List Char) :
    ∃ text' rest, Starts (text ++ '.' :: after) (.lexeme .number text') rest ∧ text' ≠ text := by
  obtain ⟨htake, hdrop⟩ := span_append (t := '.' :: after) hdigits (by rintro c ⟨⟩; decide)
  obtain ⟨c, more, rfl, hc⟩ := h.head
  obtain ⟨cut, hcut⟩ := number?_of_decimal hc (more ++ '.' :: after)
  refine ⟨cut.1, cut.2, starts_of_number? hc hcut, fun heq => ?_⟩
  rcases Option.or_eq_some_iff.1 hcut with hhex | ⟨_, hcut⟩
  · obtain ⟨mark, digits, letters, htext, hmark, _⟩ := isHexNumber_of_hexNumber? hhex
    have hmem : mark ∈ c :: more := by
      rw [← heq, htext]
      simp
    rcases hmark with rfl | rfl
    · exact decimal_ne (hdigits _ hmem) (by decide) rfl
    · exact decimal_ne (hdigits _ hmem) (by decide) rfl
  · rcases Option.or_eq_some_iff.1 hcut with hfloat | ⟨hfloat, _⟩
    · obtain ⟨whole, fraction, exponent, letter, htext, _⟩ := isFloatNumber_of_floatNumber? hfloat
      have hmem : '.' ∈ c :: more := by
        rw [← heq, htext]
        simp
      exact decimal_ne (hdigits _ hmem) (by decide) rfl
    · -- with a point behind the digits the second form always matches
      rw [List.cons_append] at htake hdrop
      unfold floatNumber? at hfloat
      dsimp only at hfloat
      rw [htake, hdrop] at hfloat
      cases hfloat

/-! ## Quoted texts -/

theorem quoteEnd?_of_quoteTail {quote : Char} (hquote : quote ≠ '\\') {tail : List Char}
    (h : QuoteTail quote tail) (after : List Char) :
    quoteEnd? quote (tail ++ after) = some (tail, after) := by
  induction h with
  | close =>
    cases after with
    | nil => rw [List.append_nil, quoteEnd?, if_pos rfl]
    | cons d after => rw [List.singleton_append, quoteEnd?, if_pos rfl]
  | escape c _ ih =>
    rw [List.cons_append, List.cons_append, quoteEnd?, if_neg hquote.symm, if_pos rfl, ih]
    rfl
  | @plain c rest hc hslash hfeed htail ih =>
    have hne : rest ≠ [] := by
      rintro rfl
      cases htail
    obtain ⟨d, rest, rfl⟩ := List.exists_cons_of_ne_nil hne
    rw [List.cons_append] at ih
    rw [List.cons_append, List.cons_append, quoteEnd?, if_neg hc, if_neg hslash, if_neg hfeed, ih]
    rfl

/-- A quoted text is recognized, whatever follows it. -/
theorem quoted?_of_isQuoted {text : List Char} (h : IsQuoted text) (after : List Char) :
    quoted? (text ++ after) = some (text, after) := by
  obtain ⟨quote, tail, rfl, hquote, htail⟩ := h
  have hback : quote ≠ '\\' := by rcases hquote with rfl | rfl <;> decide
  rw [List.cons_append, quoted?, if_pos hquote, quoteEnd?_of_quoteTail hback htail]
  rfl

theorem starts_quoted {text : List Char} (h : IsQuoted text) (after : List Char) :
    Starts (text ++ after) (.lexeme .quoted text) after := by
  have hquoted := quoted?_of_isQuoted h after
  obtain ⟨quote, tail, htext, hquote, _⟩ := h
  have hclass : ∀ c ∈ ['"', '\''], c ≠ '/' ∧ Text.isDecimal c = false := by decide
  obtain ⟨hslash, hdecimal⟩ := hclass quote (by rcases hquote with rfl | rfl <;> decide)
  rw [htext] at hquoted ⊢
  refine ⟨quote, tail ++ after, rfl, ?_⟩
  rw [List.cons_append] at hquoted
  unfold firstSegment
  dsimp only
  rw [comment?_of_ne hslash, number?_of_not_decimal hdecimal, hquoted]

theorem reads_quoted {text : String} (h : IsQuoted text.toList) (after : List Char) :
    reads (text.toList ++ after) = ofLiteral text :: reads after := by
  rw [reads_of_starts (starts_quoted h after), String.ofList_toList]
  rfl

/-! ## Lines that begin inside a text -/

/-- Something is to be seen in the text, and its first is no `#`. -/
def Unmarked (s : List Char) : Prop :=
  ∃ c, (Text.trimLeft s).head? = some c ∧ c ≠ '#'

/-- No line that begins inside the text begins with a `#`. -/
def Calm (s : List Char) : Prop :=
  ∀ before after, s = before ++ '\n' :: after → Unmarked after

theorem Unmarked.append {s : List Char} (h : Unmarked s) (t : List Char) : Unmarked (s ++ t) := by
  obtain ⟨c, hc, hmark⟩ := h
  obtain ⟨rest, hrest⟩ := List.head?_eq_some_iff.1 hc
  refine ⟨c, ?_, hmark⟩
  unfold Text.trimLeft at hrest ⊢
  rw [List.dropWhile_append, hrest]
  rfl

theorem unmarked_cons {c : Char} (hblank : Text.isBlank c = false) (hmark : c ≠ '#')
    (s : List Char) : Unmarked (c :: s) := by
  refine ⟨c, ?_, hmark⟩
  rw [Text.trimLeft, List.dropWhile_cons, hblank]
  rfl

theorem calm_of_not_mem {s : List Char} (h : '\n' ∉ s) : Calm s := by
  rintro before after rfl
  exact absurd (List.mem_append_right _ List.mem_cons_self) h

theorem Calm.append {s t : List Char} (hs : Calm s) (ht : Calm t) : Calm (s ++ t) := by
  intro before after heq
  rcases List.append_eq_append_iff.1 heq with ⟨front, _, hback⟩ | ⟨back, rfl, hback⟩
  · exact ht front after hback
  · cases back with
    | nil => exact ht [] after hback.symm
    | cons c back =>
      obtain ⟨rfl, rfl⟩ := List.cons.inj hback
      exact (hs before back rfl).append t

theorem not_isDirective_first {s : List Char} (h : Unmarked s) :
    isDirective (Text.cutAt '\n' s).1 = false := by
  induction s with
  | nil => rfl
  | cons c s ih =>
    rw [Text.cutAt]
    by_cases hfeed : c = '\n'
    · rw [if_pos hfeed]
      rfl
    · rw [if_neg hfeed]
      obtain ⟨d, hd, hmark⟩ := h
      rw [Text.trimLeft, List.dropWhile_cons] at hd
      rw [isDirective, Text.trimLeft, List.dropWhile_cons]
      cases hblank : Text.isBlank c with
      | true =>
        rw [hblank] at hd
        exact ih ⟨d, hd, hmark⟩
      | false =>
        rw [hblank] at hd
        obtain rfl : c = d := Option.some.inj hd
        exact beq_eq_false_iff_ne.2 fun h => hmark (Option.some.inj h)

theorem exists_of_mem_cutAt {s line : List Char} (h : line ∈ (Text.cutAt '\n' s).2) :
    ∃ before after, s = before ++ '\n' :: after ∧ line = (Text.cutAt '\n' after).1 := by
  induction s with
  | nil => cases h
  | cons c s ih =>
    rw [Text.cutAt] at h
    by_cases hfeed : c = '\n'
    · rw [if_pos hfeed] at h
      rcases List.mem_cons.1 h with rfl | h
      · exact ⟨[], s, by rw [hfeed]; rfl, rfl⟩
      · obtain ⟨before, after, rfl, hline⟩ := ih h
        exact ⟨c :: before, after, rfl, hline⟩
    · rw [if_neg hfeed] at h
      obtain ⟨before, after, rfl, hline⟩ := ih h
      exact ⟨c :: before, after, rfl, hline⟩

theorem Calm.undirected {source : String} (h : Calm source.toList)
    (hfirst : Unmarked source.toList) : Undirected source := by
  intro line hline
  rcases List.mem_cons.1 hline with rfl | hline
  · exact not_isDirective_first hfirst
  · obtain ⟨before, after, heq, rfl⟩ := exists_of_mem_cutAt hline
    exact not_isDirective_first (h before after heq)

theorem exists_directive {blanks : List Char} (h : ∀ c ∈ blanks, Text.isBlank c = true)
    (rest : List Char) :
    ∃ line ∈ Text.pieces '\n' (blanks ++ '#' :: rest), isDirective line = true := by
  induction blanks with
  | nil =>
    refine ⟨_, List.mem_cons_self, ?_⟩
    rw [List.nil_append, Text.cutAt, if_neg (by decide), isDirective, Text.trimLeft,
      List.dropWhile_cons, show Text.isBlank '#' = false from by decide]
    rfl
  | cons c blanks ih =>
    obtain ⟨line, hline, hdirective⟩ := ih fun d hd => h d (List.mem_cons_of_mem _ hd)
    rw [List.cons_append, Text.pieces, Text.cutAt]
    by_cases hfeed : c = '\n'
    · rw [if_pos hfeed]
      exact ⟨line, List.mem_cons_of_mem _ hline, hdirective⟩
    · rw [if_neg hfeed]
      rcases List.mem_cons.1 hline with rfl | hline
      · refine ⟨_, List.mem_cons_self, ?_⟩
        rwa [isDirective, Text.trimLeft, List.dropWhile_cons, h c List.mem_cons_self, if_pos rfl]
      · exact ⟨line, List.mem_cons_of_mem _ hline, hdirective⟩

theorem mem_pieces_append (before : List Char) {after line : List Char}
    (h : line ∈ Text.pieces '\n' after) :
    line ∈ Text.pieces '\n' (before ++ '\n' :: after) := by
  refine List.mem_cons_of_mem _ ?_
  induction before with
  | nil => exact h
  | cons c before ih =>
    rw [List.cons_append, Text.cutAt]
    by_cases hfeed : c = '\n'
    · rw [if_pos hfeed]
      exact List.mem_cons_of_mem _ ih
    · rw [if_neg hfeed]
      exact ih

/-- In a text without directives, something visible behind a line feed shows that no `#` is the
first to be seen there. -/
theorem Undirected.unmarked {source : String} (h : Undirected source)
    {before after rest : List Char} (hsource : source.toList = before ++ '\n' :: (after ++ rest))
    {c : Char} (hc : c ∈ after) (hblank : Text.isBlank c = false) : Unmarked after := by
  have hsplit : after = after.takeWhile Text.isBlank ++ Text.trimLeft after :=
    List.takeWhile_append_dropWhile.symm
  cases hseen : Text.trimLeft after with
  | nil =>
    have hall := List.dropWhile_eq_nil_iff.1 hseen c hc
    rw [hblank] at hall
    cases hall
  | cons d more =>
    refine ⟨d, by rw [hseen]; rfl, ?_⟩
    rintro rfl
    rw [hseen] at hsplit
    have hblanks : ∀ d ∈ after.takeWhile Text.isBlank, Text.isBlank d = true :=
      fun d => List.mem_takeWhile_imp
    obtain ⟨line, hline, hdirective⟩ := exists_directive hblanks (more ++ rest)
    rw [← List.cons_append, ← List.append_assoc, ← hsplit] at hline
    have hmem := mem_pieces_append before hline
    rw [← hsource] at hmem
    rw [h line hmem] at hdirective
    cases hdirective

theorem QuoteTail.last {quote : Char} {tail : List Char} (h : QuoteTail quote tail) :
    ∃ front, tail = front ++ [quote] := by
  induction h with
  | close => exact ⟨[], rfl⟩
  | escape c _ ih =>
    obtain ⟨front, rfl⟩ := ih
    exact ⟨'\\' :: c :: front, rfl⟩
  | @plain c _ _ _ _ _ ih =>
    obtain ⟨front, rfl⟩ := ih
    exact ⟨c :: front, rfl⟩

theorem Undirected.calm_quoted {source : String} (h : Undirected source)
    {before text rest : List Char} (hsource : source.toList = before ++ (text ++ rest))
    (htext : IsQuoted text) : Calm text := by
  obtain ⟨quote, tail, rfl, hquote, htail⟩ := htext
  have hclass : ∀ c ∈ ['"', '\''], c ≠ '\n' ∧ Text.isBlank c = false := by decide
  obtain ⟨hfeed, hblank⟩ := hclass quote (by rcases hquote with rfl | rfl <;> decide)
  obtain ⟨front, rfl⟩ := htail.last
  intro first after hsplit
  -- the closing quote is visible and stands behind every line feed of the text
  have hmem : quote ∈ after := by
    have hlast := congrArg List.getLast? hsplit
    rw [← List.cons_append, List.getLast?_concat] at hlast
    cases after with
    | nil =>
      rw [List.getLast?_concat] at hlast
      exact absurd (Option.some.inj hlast) hfeed
    | cons c after =>
      rw [List.getLast?_append_of_ne_nil _ (List.cons_ne_nil _ _), List.getLast?_cons_cons] at hlast
      exact List.mem_of_getLast? hlast.symm
  have hbehind : source.toList = (before ++ first) ++ '\n' :: (after ++ rest) := by
    rw [hsource, hsplit]
    simp only [List.append_assoc, List.cons_append]
  exact h.unmarked hbehind hmem hblank

/-! ## Tokens of a text -/

/-- The texts that a class of lexemes takes. -/
def Lexeme.Admits : Lexeme → List Char → Prop
  | number, text => IsNumber text
  | quoted, text => IsQuoted text ∧ Calm text
  | operator, text => String.ofList text ∈ signs
  | word, text => IsWord text

/-- A token that some text without directives has, at whatever place. -/
def Written (t : Token) : Prop :=
  ∃ source, Undirected source ∧
    ∃ u ∈ Stepwise.tokenize source, u.kind = t.kind ∧ u.text = t.text

theorem Undirected.written {source : String} (h : Undirected source) :
    ∀ t ∈ Stepwise.tokenize source, t.Written :=
  fun t ht => ⟨source, h, t, ht, rfl, rfl⟩

theorem Written.regular {t : Token} (h : t.Written) : t.Regular := by
  obtain ⟨source, hsource, u, hu, hkind, htext⟩ := h
  have hregular := hsource.regular u hu
  rwa [Regular, hkind, htext] at hregular

theorem isWord_of_segments {s text : List Char} {before after : List Segment}
    (h : segments s = before ++ .lexeme .word text :: after) : IsWord text := by
  obtain ⟨hne, hword, _⟩ := segments_fit h
  refine ⟨hne, hword, ?_⟩
  obtain ⟨c, rest, hs, hfirst⟩ := segments_eq_cons (segments_of_append h)
  rw [List.flatMap_cons] at hs
  obtain ⟨d, text, rfl⟩ := List.exists_cons_of_ne_nil hne
  obtain rfl : d = c := (List.cons.inj hs).1
  rintro _ ⟨⟩
  by_contra hdecimal
  rw [Bool.not_eq_false] at hdecimal
  -- a digit would have begun a number
  obtain ⟨cut, hcut⟩ := number?_of_decimal hdecimal rest
  obtain ⟨_, _, heq, hnumber⟩ := starts_of_number? hdecimal hcut
  obtain ⟨rfl, rfl⟩ := List.cons.inj heq
  rw [hfirst] at hnumber
  cases hnumber

/-- A written token has the kind and the shape of a class of lexemes. -/
theorem Written.admits {t : Token} (h : t.Written) :
    ∃ lexeme : Lexeme, t.kind = lexeme.tokenKind t.text ∧ lexeme.Admits t.text.toList := by
  obtain ⟨source, hsource, u, hu, hkind, htext⟩ := h
  rw [← hkind, ← htext]
  rw [hsource.tokenize, ← placed_following] at hu
  obtain ⟨entry, hentry, hu⟩ := List.mem_filterMap.1 hu
  obtain ⟨lexeme, chars, hseg, rfl⟩ := ofSegment?_eq_some hu
  have hmem := mem_placed hentry
  rw [hseg] at hmem
  obtain ⟨before, after, hsplit⟩ := List.append_of_mem hmem
  have hfits := segments_fit hsplit
  refine ⟨lexeme, rfl, ?_⟩
  show lexeme.Admits (String.ofList chars).toList
  rw [String.toList_ofList]
  cases lexeme with
  | number => exact hfits
  | quoted =>
    have hparts : source.toList =
        before.flatMap Segment.chars ++ (chars ++ after.flatMap Segment.chars) := by
      rw [← segments_flatten source.toList, hsplit, List.flatMap_append, List.flatMap_cons]
      rfl
    exact ⟨hfits, hsource.calm_quoted hparts hfits⟩
  | operator => exact hfits.1
  | word => exact isWord_of_segments hsplit

theorem operatorKind_cases (text : String) :
    operatorKind text = .operator ∨ operatorKind text = .punctuation := by
  unfold operatorKind
  split
  · exact Or.inl rfl
  · exact Or.inr rfl

theorem wordKind_cases (text : String) :
    wordKind text = .keyword ∨ wordKind text = .function ∨ wordKind text = .identifier := by
  unfold wordKind
  split
  · exact Or.inl rfl
  · split
    · exact Or.inr (Or.inl rfl)
    · exact Or.inr (Or.inr rfl)

/-- A written token that is neither a literal nor a sign is a word, and has its kind. -/
theorem Written.word {t : Token} (h : t.Written) (hliteral : t.kind ≠ .literal)
    (hsign : t.kind ≠ .operator ∧ t.kind ≠ .punctuation) :
    IsWord t.text.toList ∧ t.unplaced = ofWord t.text := by
  obtain ⟨lexeme, hkind, hadmits⟩ := h.admits
  cases lexeme with
  | number => exact absurd hkind hliteral
  | quoted => exact absurd hkind hliteral
  | operator =>
    rcases operatorKind_cases t.text with hoperator | hpunctuation
    · exact absurd (hkind.trans hoperator) hsign.1
    · exact absurd (hkind.trans hpunctuation) hsign.2
  | word =>
    refine ⟨hadmits, ?_⟩
    rw [unplaced, hkind]
    rfl

theorem Written.literal {t : Token} (h : t.Written) (hliteral : t.kind = .literal) :
    IsNumber t.text.toList ∨ IsQuoted t.text.toList ∧ Calm t.text.toList := by
  obtain ⟨lexeme, hkind, hadmits⟩ := h.admits
  rw [hliteral] at hkind
  cases lexeme with
  | number => exact Or.inl hadmits
  | quoted => exact Or.inr hadmits
  | operator =>
    rcases operatorKind_cases t.text with h | h <;> exact absurd (hkind.trans h) (by decide)
  | word =>
    rcases wordKind_cases t.text with h | h | h <;> exact absurd (hkind.trans h) (by decide)

theorem Written.sign {t : Token} (h : t.Written) {text : String}
    (hat : Grammar.isAt text t = true) (hsign : text ∈ signs) : t.unplaced = ofSign text := by
  obtain ⟨line, column, rfl⟩ := Grammar.eq_of_isAt hat h.regular hsign
  rfl

theorem Written.name {t : Token} (h : t.Written) (hname : Grammar.isName t = true) :
    IsWord t.text.toList ∧ t.unplaced = ofWord t.text := by
  have hkind := Grammar.kind_of_isName hname
  exact h.word hkind.1 ⟨hkind.2.1, hkind.2.2.1⟩

end Stepwise.Token
