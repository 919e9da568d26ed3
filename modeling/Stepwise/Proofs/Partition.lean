/-
Every text is partitioned into segments, and the tokens are the segments.

The classes of segments are described here without the rules that find them: a
comment, a number and a quoted text by their shape, an operator and a word by
their shape and by what follows them. A rule that matches gives a text of its
class, so every segment fits what follows it, and an operator or a word cannot be
made longer.

Places are described by the text in front: the line counts its line feeds, the
column the characters after the last of them. Reading a text character by
character keeps the two the same (`Place.following_append`).

Without directives nothing is claimed by the first of the two readings, and the
segments come in order of place, so sorting leaves them where they are.
-/
import Stepwise.Proofs.Words

set_option autoImplicit false

namespace Stepwise.Token

/-! ## Comments -/

/-- A comment in front of `rest`: to the end of the line, or up to the first closing mark. -/
def IsComment (text rest : List Char) : Prop :=
  (∃ body, text = '/' :: '/' :: body ∧ '\n' ∉ body ∧ ∀ c ∈ rest.head?, c = '\n') ∨
  ∃ body, text = '/' :: '*' :: (body ++ ['*', '/']) ∧ ¬ ['*', '/'] <:+: body ++ ['*']

theorem blockEnd?_first {s : List Char} {cut : Cut} (h : blockEnd? s = some cut) :
    ∃ body, cut.1 = body ++ ['*', '/'] ∧ ¬ ['*', '/'] <:+: body ++ ['*'] := by
  induction s generalizing cut with
  | nil => cases h
  | cons c r ih =>
    cases r with
    | nil => cases h
    | cons d rest =>
      rw [blockEnd?] at h
      by_cases hmark : c = '*' ∧ d = '/'
      · rw [if_pos hmark] at h
        obtain rfl := Option.some.inj h
        refine ⟨[], ?_, by decide⟩
        rw [hmark.1, hmark.2, List.nil_append]
      · rw [if_neg hmark] at h
        obtain ⟨inner, hinner, rfl⟩ := Option.map_eq_some_iff.1 h
        obtain ⟨body, hbody, hfree⟩ := ih hinner
        refine ⟨c :: body, by rw [hbody, List.cons_append], ?_⟩
        rw [List.cons_append, List.infix_cons_iff, not_or]
        refine ⟨?_, hfree⟩
        -- A mark that begins at `c` would put the slash where `d` stands.
        rintro ⟨tail, htail⟩
        have hd : d :: rest = body ++ (['*', '/'] ++ inner.2) := by
          rw [← (blockEnd?_cut hinner).1, hbody, List.append_assoc]
        rw [List.cons_append, List.cons.injEq] at htail
        obtain ⟨rfl, htail⟩ := htail
        cases body with
        | nil => cases htail
        | cons e body =>
          rw [List.cons_append, List.cons_append, List.cons.injEq] at htail
          rw [List.cons_append, List.cons.injEq] at hd
          exact hmark ⟨rfl, hd.1.trans htail.1.symm⟩

theorem isComment_of_comment? {s : List Char} {cut : Cut} (h : comment? s = some cut) :
    IsComment cut.1 cut.2 := by
  unfold comment? at h
  split at h
  · next rest =>
    obtain rfl := Option.some.inj h
    refine Or.inl ⟨_, rfl, ?_, ?_⟩
    · intro hmem
      exact absurd (List.mem_takeWhile_imp hmem) (by decide)
    · intro c hc
      have hnot := List.head?_dropWhile_not (· != '\n') rest
      rw [Option.mem_def.1 hc] at hnot
      simpa using hnot
  · next rest =>
    obtain ⟨inner, hinner, rfl⟩ := Option.map_eq_some_iff.1 h
    obtain ⟨body, hbody, hfree⟩ := blockEnd?_first hinner
    exact Or.inr ⟨body, by rw [hbody], hfree⟩
  · cases h

/-! ## Numbers -/

/-- A number in base sixteen, with the letters that may follow it. -/
def IsHexNumber (text : List Char) : Prop :=
  ∃ mark digits letters, text = '0' :: mark :: (digits ++ letters) ∧ (mark = 'x' ∨ mark = 'X') ∧
    digits ≠ [] ∧ (∀ c ∈ digits, isHexDigit c = true) ∧ ∀ c ∈ letters, isWholeMark c = true

/-- An exponent, which may be missing. -/
def IsExponent (text : List Char) : Prop :=
  text = [] ∨ ∃ mark sign digits, text = mark :: (sign ++ digits) ∧ (mark = 'e' ∨ mark = 'E') ∧
    (sign = [] ∨ sign = ['+'] ∨ sign = ['-']) ∧ digits ≠ [] ∧
    ∀ c ∈ digits, Text.isDecimal c = true

/-- A number with a point, its exponent and its letter. -/
def IsFloatNumber (text : List Char) : Prop :=
  ∃ whole fraction exponent letter, text = whole ++ '.' :: (fraction ++ (exponent ++ letter)) ∧
    whole ≠ [] ∧ (∀ c ∈ whole, Text.isDecimal c = true) ∧
    (∀ c ∈ fraction, Text.isDecimal c = true) ∧ IsExponent exponent ∧ letter.length ≤ 1 ∧
    ∀ c ∈ letter, isFloatMark c = true

/-- A whole number, with the letters that may follow it. -/
def IsWholeNumber (text : List Char) : Prop :=
  ∃ digits letters, text = digits ++ letters ∧ digits ≠ [] ∧
    (∀ c ∈ digits, Text.isDecimal c = true) ∧ ∀ c ∈ letters, isWholeMark c = true

/-- A number in one of the three forms. -/
def IsNumber (text : List Char) : Prop :=
  IsHexNumber text ∨ IsFloatNumber text ∨ IsWholeNumber text

theorem isHexNumber_of_hexNumber? {s : List Char} {cut : Cut} (h : hexNumber? s = some cut) :
    IsHexNumber cut.1 := by
  unfold hexNumber? at h
  split at h
  · next mark rest =>
    by_cases hhex : (mark = 'x' ∨ mark = 'X') ∧ rest.takeWhile isHexDigit ≠ []
    · rw [if_pos hhex] at h
      obtain rfl := Option.some.inj h
      exact ⟨mark, _, _, rfl, hhex.1, hhex.2, fun c => List.mem_takeWhile_imp,
        fun c => List.mem_takeWhile_imp⟩
    · rw [if_neg hhex] at h
      cases h
  · cases h

theorem exponentSign_cases (s : List Char) :
    (exponentSign s).1 = [] ∨ (exponentSign s).1 = ['+'] ∨ (exponentSign s).1 = ['-'] := by
  unfold exponentSign
  split
  · exact Or.inr (Or.inl rfl)
  · exact Or.inr (Or.inr rfl)
  · exact Or.inl rfl

theorem isExponent_exponentPart (s : List Char) : IsExponent (exponentPart s).1 := by
  unfold exponentPart
  split
  · exact Or.inl rfl
  · next c rest =>
    dsimp only
    split
    · next hmark =>
      exact Or.inr ⟨c, _, _, rfl, hmark.1, exponentSign_cases rest, hmark.2,
        fun d => List.mem_takeWhile_imp⟩
    · exact Or.inl rfl

theorem floatMark_letter (s : List Char) :
    (floatMark s).1.length ≤ 1 ∧ ∀ c ∈ (floatMark s).1, isFloatMark c = true := by
  unfold floatMark
  split
  · simp
  · next c rest =>
    by_cases hmark : isFloatMark c = true
    · rw [if_pos hmark]
      simp [hmark]
    · rw [if_neg hmark]
      simp

theorem isFloatNumber_of_floatNumber? {s : List Char} {cut : Cut}
    (h : floatNumber? s = some cut) : IsFloatNumber cut.1 := by
  unfold floatNumber? at h
  dsimp only at h
  split at h
  · next rest _ =>
    split at h
    · cases h
    · next hwhole =>
      obtain rfl := Option.some.inj h
      have hexponent := isExponent_exponentPart (rest.dropWhile Text.isDecimal)
      have hletter := floatMark_letter (exponentPart (rest.dropWhile Text.isDecimal)).2
      refine ⟨_, rest.takeWhile Text.isDecimal, _, _, ?_, hwhole, fun c => List.mem_takeWhile_imp,
        fun c => List.mem_takeWhile_imp, hexponent, hletter.1, hletter.2⟩
      simp only [List.append_assoc, List.cons_append]
  · cases h

theorem isWholeNumber_of_wholeNumber? {s : List Char} {cut : Cut}
    (h : wholeNumber? s = some cut) : IsWholeNumber cut.1 := by
  unfold wholeNumber? at h
  dsimp only at h
  split at h
  · cases h
  · next hwhole =>
    obtain rfl := Option.some.inj h
    exact ⟨_, _, rfl, hwhole, fun c => List.mem_takeWhile_imp, fun c => List.mem_takeWhile_imp⟩

theorem isNumber_of_number? {s : List Char} {cut : Cut} (h : number? s = some cut) :
    IsNumber cut.1 := by
  unfold number? at h
  rcases Option.or_eq_some_iff.1 h with h | ⟨_, h⟩
  · exact Or.inl (isHexNumber_of_hexNumber? h)
  · rcases Option.or_eq_some_iff.1 h with h | ⟨_, h⟩
    · exact Or.inr (Or.inl (isFloatNumber_of_floatNumber? h))
    · exact Or.inr (Or.inr (isWholeNumber_of_wholeNumber? h))

/-! ## Quoted texts -/

/-- What stands behind an opening quote, the closing quote included: a backslash takes the next
character along, and a line feed stands behind a backslash only. -/
inductive QuoteTail (quote : Char) : List Char → Prop where
  | close : QuoteTail quote [quote]
  | escape (c : Char) {rest : List Char} : QuoteTail quote rest →
      QuoteTail quote ('\\' :: c :: rest)
  | plain {c : Char} {rest : List Char} : c ≠ quote → c ≠ '\\' → c ≠ '\n' →
      QuoteTail quote rest → QuoteTail quote (c :: rest)

/-- A text or character in quotes. -/
def IsQuoted (text : List Char) : Prop :=
  ∃ quote tail, text = quote :: tail ∧ (quote = '"' ∨ quote = '\'') ∧ QuoteTail quote tail

theorem quoteTail_of_quoteEnd? {quote : Char} {s : List Char} {cut : Cut}
    (h : quoteEnd? quote s = some cut) : QuoteTail quote cut.1 := by
  fun_induction quoteEnd? quote s generalizing cut with
  | case1 => cases h
  | case2 =>
    obtain rfl := Option.some.inj h
    exact .close
  | case3 => cases h
  | case4 =>
    obtain rfl := Option.some.inj h
    exact .close
  | case5 d rest _ ih =>
    obtain ⟨inner, hinner, rfl⟩ := Option.map_eq_some_iff.1 h
    exact .escape d (ih hinner)
  | case6 => cases h
  | case7 c d rest hquote hslash hfeed ih =>
    obtain ⟨inner, hinner, rfl⟩ := Option.map_eq_some_iff.1 h
    exact .plain hquote hslash hfeed (ih hinner)

theorem isQuoted_of_quoted? {s : List Char} {cut : Cut} (h : quoted? s = some cut) :
    IsQuoted cut.1 := by
  unfold quoted? at h
  split at h
  · cases h
  · next c rest =>
    by_cases hquote : c = '"' ∨ c = '\''
    · rw [if_pos hquote] at h
      obtain ⟨inner, hinner, rfl⟩ := Option.map_eq_some_iff.1 h
      exact ⟨c, inner.1, rfl, hquote, quoteTail_of_quoteEnd? hinner⟩
    · rw [if_neg hquote] at h
      cases h

/-! ## Operators -/

/-- The operator and punctuation texts. -/
def signs : List String :=
  operators ++ punctuation

theorem mem_operatorTexts {text : List Char} :
    text ∈ operatorTexts ↔ String.ofList text ∈ signs := by
  have hto : ∀ text ∈ operatorTexts, String.ofList text ∈ signs := by decide +kernel
  have hfrom : ∀ text ∈ signs, text.toList ∈ operatorTexts := by decide +kernel
  refine ⟨hto text, fun h => ?_⟩
  have hmem := hfrom _ h
  rwa [String.toList_ofList] at hmem

/-- What holds of the characters of every sign. -/
theorem forall_mem_signs {P : List Char → Prop} (h : ∀ text ∈ operatorChars, P text) :
    ∀ sign ∈ signs, P sign.toList := by
  intro sign hsign
  refine h _ ?_
  rw [← operatorTexts_eq, mem_operatorTexts, String.ofList_toList]
  exact hsign

/-- Longer operators are tried first. -/
theorem operatorTexts_descending :
    operatorTexts.Pairwise fun a b => b.length ≤ a.length := by
  rw [operatorTexts_eq]
  decide

/-- The operator that is found is the longest that stands there. -/
theorem operator?_longest {s : List Char} {cut : Cut} (h : operator? s = some cut) :
    cut.1 ∈ operatorTexts ∧ ∀ longer ∈ operatorTexts, longer <+: s → longer.length ≤ cut.1.length := by
  obtain ⟨text, htext, rfl⟩ := Option.map_eq_some_iff.1 h
  refine ⟨List.mem_of_find?_eq_some htext, fun longer hlonger hpre => ?_⟩
  obtain ⟨_, front, back, hsplit, hfront⟩ := List.find?_eq_some_iff_append.1 htext
  have hdescending := operatorTexts_descending
  rw [hsplit] at hlonger hdescending
  rcases List.mem_append.1 hlonger with hlonger | hlonger
  · have hnot := hfront longer hlonger
    rw [List.isPrefixOf_iff_prefix.2 hpre] at hnot
    cases hnot
  · rcases List.mem_cons.1 hlonger with rfl | hlonger
    · exact Nat.le_refl _
    · exact List.rel_of_pairwise_cons (List.pairwise_append.1 hdescending).2.1 hlonger

theorem operator?_eq_none {s : List Char} (h : operator? s = none) {text : List Char}
    (htext : text ∈ operatorTexts) : ¬ text <+: s := by
  intro hpre
  have hnot := List.find?_eq_none.1 (Option.map_eq_none_iff.1 h) text htext
  exact hnot (List.isPrefixOf_iff_prefix.2 hpre)

/-! ## Segments fit their class -/

/-- A segment in front of `rest` is what its class says, and an operator or a word is as long as
it can be. -/
def Segment.Fits : Segment → List Char → Prop
  | blank c, _ => Text.isBlank c = true
  | comment text, rest => IsComment text rest
  | lexeme .number text, _ => IsNumber text
  | lexeme .quoted text, _ => IsQuoted text
  | lexeme .operator text, rest =>
    String.ofList text ∈ signs ∧
      ∀ sign ∈ signs, sign.toList <+: text ++ rest → sign.toList.length ≤ text.length
  | lexeme .word text, rest =>
    text ≠ [] ∧ (∀ c ∈ text, Text.isWordChar c = true) ∧
      ∀ c ∈ rest.head?, Text.isWordChar c = false
  | stray c, rest =>
    Text.isBlank c = false ∧ Text.isWordChar c = false ∧
      ∀ sign ∈ signs, ¬ sign.toList <+: c :: rest

theorem mem_operatorTexts_of_sign {sign : String} (h : sign ∈ signs) :
    sign.toList ∈ operatorTexts := by
  rw [mem_operatorTexts, String.ofList_toList]
  exact h

theorem word?_eq_none {c : Char} {rest : List Char} (h : word? (c :: rest) = none) :
    Text.isWordChar c = false := by
  unfold word? at h
  by_contra hword
  rw [Bool.not_eq_false] at hword
  rw [List.takeWhile_cons_of_pos hword, if_neg (List.cons_ne_nil _ _)] at h
  cases h

theorem firstSegment_fits (c : Char) (rest : List Char) :
    (firstSegment c rest).1.Fits (firstSegment c rest).2 := by
  unfold firstSegment
  dsimp only
  split
  · next cut hcut => exact isComment_of_comment? hcut
  · split
    · next cut hcut => exact isNumber_of_number? hcut
    · split
      · next cut hcut => exact isQuoted_of_quoted? hcut
      · split
        · next cut hcut =>
          obtain ⟨hmem, hlongest⟩ := operator?_longest hcut
          refine ⟨mem_operatorTexts.1 hmem, fun sign hsign hpre => ?_⟩
          rw [(operator?_cut hcut).1] at hpre
          exact hlongest _ (mem_operatorTexts_of_sign hsign) hpre
        · next hoperator =>
          split
          · next cut hcut =>
            obtain ⟨hne, hchars⟩ := word?_eq_some hcut
            exact ⟨hne, hchars, fun d => word?_boundary hcut⟩
          · next hword =>
            by_cases hblank : Text.isBlank c = true
            · rw [if_pos hblank]
              exact hblank
            · rw [if_neg hblank]
              exact ⟨Bool.not_eq_true _ ▸ hblank, word?_eq_none hword, fun sign hsign =>
                operator?_eq_none hoperator (mem_operatorTexts_of_sign hsign)⟩

/-- Every segment of a text fits what follows it. -/
theorem segments_fit {s : List Char} {before after : List Segment} {part : Segment}
    (h : segments s = before ++ part :: after) : part.Fits (after.flatMap Segment.chars) := by
  have hpart := segments_of_append h
  obtain ⟨c, rest, _, hfirst⟩ := segments_eq_cons hpart
  have hfits := firstSegment_fits c rest
  rwa [hfirst] at hfits

/-! ## Places -/

/-- The place behind a text: its line feeds are counted, and the characters after the last. -/
def Place.following (before : List Char) : Place where
  line := 1 + before.count '\n'
  column := 1 + (before.reverse.takeWhile (· != '\n')).length

/-- Segments with their places, `before` being the text in front of them. -/
def located (before : List Char) : List Segment → List (Place × Segment)
  | [] => []
  | part :: rest => (.following before, part) :: located (before ++ part.chars) rest

theorem Place.following_snoc (before : List Char) (c : Char) :
    Place.following (before ++ [c]) = (Place.following before).after c := by
  unfold Place.following Place.after
  by_cases hfeed : c = '\n'
  · rw [if_pos hfeed, hfeed]
    simp [Nat.add_assoc]
  · rw [if_neg hfeed]
    simp [hfeed, List.count_append, Nat.add_assoc]

theorem Place.following_append (before s : List Char) :
    Place.following (before ++ s) = (Place.following before).afterAll s := by
  induction s generalizing before with
  | nil => rw [List.append_nil]; rfl
  | cons c s ih =>
    calc Place.following (before ++ c :: s)
        = Place.following (before ++ [c] ++ s) := by rw [List.append_assoc, List.singleton_append]
      _ = ((Place.following before).after c).afterAll s := by rw [ih, Place.following_snoc]

theorem placed_following (before : List Char) (parts : List Segment) :
    placed (.following before) parts = located before parts := by
  induction parts generalizing before with
  | nil => rfl
  | cons part parts ih => rw [placed, located, ← Place.following_append, ih]

/-! ## Texts without directives -/

/-- No line of the text is a directive. -/
def Undirected (source : String) : Prop :=
  ∀ line ∈ Text.pieces '\n' source.toList, isDirective line = false

instance (source : String) : Decidable (Undirected source) :=
  inferInstanceAs (Decidable (∀ line ∈ Text.pieces '\n' source.toList, isDirective line = false))

theorem numbered_snd {n : Nat} {lines : List (List Char)} {entry : Nat × List Char}
    (h : entry ∈ numbered n lines) : entry.2 ∈ lines := by
  induction lines generalizing n with
  | nil => cases h
  | cons line lines ih =>
    rcases List.mem_cons.1 h with rfl | h
    · exact List.mem_cons_self
    · exact List.mem_cons_of_mem _ (ih h)

theorem Undirected.directiveLines {source : String} (h : Undirected source) :
    directiveLines source.toList = [] := by
  unfold Token.directiveLines
  rw [List.filter_eq_nil_iff]
  intro entry hentry
  rw [h _ (numbered_snd hentry)]
  decide

theorem Undirected.plainSegments {source : String} (h : Undirected source) :
    plainSegments source.toList = located [] (segments source.toList) := by
  unfold Token.plainSegments
  rw [h.directiveLines, ← placed_following]
  exact List.filter_eq_self.2 fun entry _ => rfl

theorem Undirected.tokenize {source : String} (h : Undirected source) :
    tokenize source = (located [] (segments source.toList)).filterMap ofSegment? := by
  refine tokenize_of_sorted ?_ ?_
  · unfold directiveTokens
    rw [h.directiveLines, h.plainSegments, List.flatMap_nil, List.nil_append]
  · rw [← placed_following]
    exact placed_sorted _ _

/-- **A text is the sequence of its segments, and its tokens and skipped characters are
segments.** Written one after the other the segments are the text; each fits its class and is as
long as it can be; and, no line being a directive, the tokens and the skipped characters are the
segments of these classes, in order and with their places. -/
theorem scan_partitions {source : String} (h : Undirected source) :
    (segments source.toList).flatMap Segment.chars = source.toList ∧
    (∀ before part after, segments source.toList = before ++ part :: after →
      part.Fits (after.flatMap Segment.chars)) ∧
    (scan source).tokens = (located [] (segments source.toList)).filterMap ofSegment? ∧
    (scan source).skipped = (located [] (segments source.toList)).filterMap skippedOf? := by
  refine ⟨segments_flatten _, fun before part after => segments_fit, h.tokenize, ?_⟩
  show (Token.plainSegments source.toList).filterMap skippedOf? = _
  rw [h.plainSegments]

/-- A comment over two lines moves the column back, and the sign behind it is skipped there. -/
theorem scan_partitions_comment :
    Undirected "p<<=0x1FuL/*\n*/@q->r" ∧
    (segments "p<<=0x1FuL/*\n*/@q->r".toList).length = 8 ∧
    (scan "p<<=0x1FuL/*\n*/@q->r").skipped = [⟨2, 3, '@'⟩] := by
  have hundirected : Undirected "p<<=0x1FuL/*\n*/@q->r" := by decide +kernel
  refine ⟨hundirected, by decide +kernel, ?_⟩
  rw [(scan_partitions hundirected).2.2.2]
  decide +kernel

end Stepwise.Token
