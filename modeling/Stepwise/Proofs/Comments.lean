/-
Comments, and the two readings of a text.

The tokens of a text come from two readings: its segments, of which a comment is
one, and its lines, which are searched for directives. Replacing a comment by
spaces leaves the other segments as they are, but the second reading does not
know of comments. A line that begins inside a comment is a directive if it begins
with a `#`, and a line that begins with a comment is none, whatever follows.

So the tokens stay the same exactly if neither happens (`tokenize_blanked_iff`).
The lines are compared by what is seen of their directives: the column of the
`#`, which the tokens show, and the whole line, from which they are made.
-/
import Stepwise.Proofs.Blanking
import Stepwise.Proofs.Lines
import Stepwise.Proofs.Names

set_option autoImplicit false

namespace Stepwise.Token

/-! ## Lines -/

/-- The lines of a text of which the first has begun with `lead`. -/
def linesFrom (lead s : List Char) : List (List Char) :=
  (lead ++ (Text.cutAt '\n' s).1) :: (Text.cutAt '\n' s).2

/-- The line, as far as it goes, on which a text ends that stands behind `lead`. -/
def lineSoFar (lead : List Char) : List Char → List Char
  | [] => lead
  | c :: s => if c = '\n' then lineSoFar [] s else lineSoFar (lead ++ [c]) s

theorem linesFrom_feed (lead s : List Char) :
    linesFrom lead ('\n' :: s) = lead :: linesFrom [] s := by
  rw [linesFrom, Text.cutAt, if_pos rfl, List.append_nil]
  rfl

theorem linesFrom_cons {c : Char} (h : c ≠ '\n') (lead s : List Char) :
    linesFrom lead (c :: s) = linesFrom (lead ++ [c]) s := by
  rw [linesFrom, Text.cutAt, if_neg h, linesFrom, List.append_assoc]
  rfl

/-- Texts that begin alike agree on the lines if they do so from there on. -/
theorem map_linesFrom_append {α : Type} (f : List Char → α) (lead s t u : List Char) :
    (linesFrom lead (s ++ t)).map f = (linesFrom lead (s ++ u)).map f ↔
      (linesFrom (lineSoFar lead s) t).map f = (linesFrom (lineSoFar lead s) u).map f := by
  induction s generalizing lead with
  | nil => exact Iff.rfl
  | cons c s ih =>
    rw [List.cons_append, List.cons_append, lineSoFar]
    by_cases hc : c = '\n'
    · rw [if_pos hc, hc, linesFrom_feed, linesFrom_feed, List.map_cons, List.map_cons, ← ih,
        List.cons.injEq]
      exact and_iff_right rfl
    · rw [if_neg hc, linesFrom_cons hc, linesFrom_cons hc, ih]

theorem mem_numbered_linesFrom (n : Nat) (lead s t : List Char) :
    (n + s.count '\n', lineSoFar lead s ++ (Text.cutAt '\n' t).1) ∈
      numbered n (linesFrom lead (s ++ t)) := by
  induction s generalizing n lead with
  | nil => exact List.mem_cons_self
  | cons c s ih =>
    rw [List.cons_append, lineSoFar]
    by_cases hc : c = '\n'
    · rw [if_pos hc, hc, linesFrom_feed, List.count_cons_self, numbered]
      refine List.mem_cons_of_mem _ ?_
      have hrest := ih (n + 1) []
      rwa [show n + 1 + s.count '\n' = n + (s.count '\n' + 1) from by omega] at hrest
    · rw [if_neg hc, linesFrom_cons hc, List.count_cons_of_ne hc]
      exact ih n (lead ++ [c])

/-- A line is a directive by what comes first in it. -/
theorem isDirective_append (lead s : List Char) :
    isDirective (lead ++ s) =
      if ∀ c ∈ lead, Text.isBlank c = true then isDirective s else isDirective lead := by
  unfold isDirective Text.trimLeft
  by_cases h : ∀ c ∈ lead, Text.isBlank c = true
  · rw [if_pos h, List.dropWhile_append_of_pos h]
  · rw [if_neg h, List.dropWhile_append]
    have hne : lead.dropWhile Text.isBlank ≠ [] := fun hnil => h (List.dropWhile_eq_nil_iff.1 hnil)
    obtain ⟨d, more, hmore⟩ := List.exists_cons_of_ne_nil hne
    rw [hmore]
    rfl

theorem isDirective_blanks {s : List Char} (h : ∀ c ∈ s, Text.isBlank c = true) :
    isDirective s = false := by
  unfold isDirective Text.trimLeft
  rw [List.dropWhile_eq_nil_iff.2 h]
  rfl

/-- The line itself, if it is a directive. -/
def directive? (line : List Char) : Option (List Char) :=
  if isDirective line then some line else none

/-- The column in which a line has the `#` of a directive. -/
def markColumn? (line : List Char) : Option Nat :=
  (directive? line).map fun line => (line.takeWhile Text.isBlank).length + 1

theorem markColumn?_eq_none {line : List Char} :
    markColumn? line = none ↔ isDirective line = false := by
  unfold markColumn? directive?
  rw [Option.map_eq_none_iff]
  cases isDirective line <;> simp

theorem directive?_eq_none {line : List Char} :
    directive? line = none ↔ isDirective line = false := by
  unfold directive?
  cases isDirective line <;> simp

/-- A directive has its mark in its own text, not in what follows. -/
theorem markColumn?_append_le {line rest : List Char} (h : isDirective line = true) {column : Nat}
    (hcolumn : markColumn? (line ++ rest) = some column) : column ≤ line.length := by
  obtain ⟨whole, hwhole, rfl⟩ := Option.map_eq_some_iff.1 hcolumn
  unfold directive? at hwhole
  split at hwhole
  · obtain rfl := Option.some.inj hwhole
    have hlength := (List.takeWhile_prefix Text.isBlank (l := line)).length_le
    have hne : (line.takeWhile Text.isBlank).length ≠ line.length := by
      intro heq
      have hall : line.takeWhile Text.isBlank = line :=
        (List.takeWhile_prefix Text.isBlank).eq_of_length heq
      rw [isDirective_blanks fun c hc => List.mem_takeWhile_imp (hall.symm ▸ hc)] at h
      cases h
    rw [List.takeWhile_append, if_neg hne]
    omega
  · cases hwhole

/-- Blanks in front put the mark behind them. -/
theorem lt_markColumn? {line rest : List Char} (h : ∀ c ∈ line, Text.isBlank c = true)
    {column : Nat} (hcolumn : markColumn? (line ++ rest) = some column) : line.length < column := by
  obtain ⟨whole, hwhole, rfl⟩ := Option.map_eq_some_iff.1 hcolumn
  unfold directive? at hwhole
  split at hwhole
  · obtain rfl := Option.some.inj hwhole
    rw [List.takeWhile_append_of_pos h, List.length_append]
    omega
  · cases hwhole

theorem cutAt_append_fst (s t : List Char) :
    ∃ rest, (Text.cutAt '\n' (s ++ t)).1 = (Text.cutAt '\n' s).1 ++ rest := by
  induction s with
  | nil => exact ⟨_, rfl⟩
  | cons c s ih =>
    obtain ⟨rest, hrest⟩ := ih
    rw [List.cons_append, Text.cutAt, Text.cutAt, hrest]
    by_cases hc : c = '\n'
    · exact ⟨[], by rw [if_pos hc, if_pos hc]; rfl⟩
    · exact ⟨rest, by rw [if_neg hc, if_neg hc]; rfl⟩

theorem cutAt_blanked_fst (s : List Char) :
    (Text.cutAt '\n' (blanked s)).1 = blanked (Text.cutAt '\n' s).1 := by
  induction s with
  | nil => rfl
  | cons c s ih =>
    rw [blanked, List.map_cons, Text.cutAt, Text.cutAt]
    by_cases hc : c = '\n'
    · rw [if_pos hc, if_pos rfl, if_pos hc]
      rfl
    · rw [if_neg hc, if_neg (by decide), if_neg hc]
      show ' ' :: (Text.cutAt '\n' (blanked s)).1 = _
      rw [ih, blanked, blanked, List.map_cons, if_neg hc]

/-- A line that begins with a `#` does not have it where the blanked one may have one. -/
theorem markColumn?_blanked_ne {text after : List Char}
    (h : isDirective (Text.cutAt '\n' text).1 = true) :
    markColumn? (Text.cutAt '\n' (text ++ after)).1 ≠
      markColumn? (Text.cutAt '\n' (blanked text ++ after)).1 := by
  obtain ⟨rest, hrest⟩ := cutAt_append_fst text after
  obtain ⟨rest', hrest'⟩ := cutAt_append_fst (blanked text) after
  rw [hrest, hrest', cutAt_blanked_fst]
  intro heq
  have hnone : markColumn? ((Text.cutAt '\n' text).1 ++ rest) ≠ none := by
    rw [ne_eq, markColumn?_eq_none, isDirective_append, h]
    split
    · next hblank =>
      rw [isDirective_blanks hblank] at h
      cases h
    · decide
  obtain ⟨column, hcolumn⟩ := Option.ne_none_iff_exists'.1 hnone
  have hle := markColumn?_append_le h hcolumn
  have hlt := lt_markColumn? (fun c => isBlank_of_mem_blanked) (heq ▸ hcolumn)
  rw [blanked, List.length_map] at hlt
  omega

/-- Neither does a line that begins inside the comment begin with a `#`, nor is a `#` the first to
be seen on the line on which the comment ends once the comment is blanked. -/
def Unnoticed (lead text after : List Char) : Prop :=
  (∀ line ∈ (Text.pieces '\n' text).tail, isDirective line = false) ∧
    ¬ ((∀ c ∈ lineSoFar lead (blanked text), Text.isBlank c = true) ∧
      isDirective (Text.cutAt '\n' after).1 = true)

theorem unnoticed_nil {lead after : List Char} (hlead : isDirective lead = false) :
    Unnoticed lead [] after ↔ isDirective (lead ++ (Text.cutAt '\n' after).1) = false := by
  rw [isDirective_append]
  constructor
  · rintro ⟨-, hnot⟩
    by_cases hblanks : ∀ d ∈ lead, Text.isBlank d = true
    · rw [if_pos hblanks]
      exact Bool.eq_false_iff.2 fun hmark => hnot ⟨hblanks, hmark⟩
    · rwa [if_neg hblanks]
  · intro hnot
    refine ⟨List.forall_mem_nil _, ?_⟩
    rintro ⟨hblanks, hmark⟩
    rw [if_pos (show ∀ c ∈ lead, Text.isBlank c = true from hblanks), hmark] at hnot
    cases hnot

theorem unnoticed_feed {lead text after : List Char} :
    Unnoticed lead ('\n' :: text) after ↔
      isDirective (Text.cutAt '\n' text).1 = false ∧ Unnoticed [] text after := by
  have htail : (Text.pieces '\n' ('\n' :: text)).tail = Text.pieces '\n' text := by
    rw [Text.pieces, Text.cutAt, if_pos rfl]
    rfl
  have hend : lineSoFar lead (blanked ('\n' :: text)) = lineSoFar [] (blanked text) := by
    rw [blanked, List.map_cons, if_pos rfl, lineSoFar, if_pos rfl]
    rfl
  unfold Unnoticed
  rw [htail, hend, Text.pieces, List.forall_mem_cons, and_assoc, List.tail_cons]

theorem blanked_cons {c : Char} (hc : c ≠ '\n') (s : List Char) :
    blanked (c :: s) = ' ' :: blanked s := by
  rw [blanked, List.map_cons, if_neg hc]
  rfl

theorem unnoticed_cons {c : Char} (hc : c ≠ '\n') {lead text after : List Char} :
    Unnoticed lead (c :: text) after ↔ Unnoticed (lead ++ [' ']) text after := by
  unfold Unnoticed
  rw [blanked_cons hc, lineSoFar, if_neg (by decide), Text.pieces, Text.cutAt, if_neg hc]
  rfl

/-- Line by line through the comment: `lead` is what the line has before, and `lead'` what it has
in the blanked text. -/
theorem lines_blanked {text lead lead' after : List Char}
    (hlast : ∃ c, (lead ++ text).getLast? = some c ∧ Text.isBlank c = false)
    (hlead : isDirective (lead ++ (Text.cutAt '\n' text).1) = false)
    (hlead' : isDirective lead' = false) :
    ((linesFrom lead (text ++ after)).map markColumn? =
        (linesFrom lead' (blanked text ++ after)).map markColumn? →
      Unnoticed lead' text after) ∧
    (Unnoticed lead' text after →
      (linesFrom lead (text ++ after)).map directive? =
        (linesFrom lead' (blanked text ++ after)).map directive?) := by
  induction text generalizing lead lead' with
  | nil =>
    obtain ⟨c, hc, hblank⟩ := hlast
    rw [List.append_nil] at hc
    have hvisible : ¬ ∀ d ∈ lead, Text.isBlank d = true := by
      intro hall
      rw [hall c (List.mem_of_getLast? hc)] at hblank
      cases hblank
    have hfirst : isDirective (lead ++ (Text.cutAt '\n' after).1) = false := by
      rw [isDirective_append, if_neg hvisible]
      rwa [Text.cutAt, List.append_nil] at hlead
    rw [unnoticed_nil hlead']
    constructor
    · intro heq
      have hmark : markColumn? (lead ++ (Text.cutAt '\n' after).1) =
          markColumn? (lead' ++ (Text.cutAt '\n' after).1) := (List.cons.inj heq).1
      rw [markColumn?_eq_none.2 hfirst] at hmark
      exact markColumn?_eq_none.1 hmark.symm
    · intro hfirst'
      show directive? (lead ++ (Text.cutAt '\n' after).1) :: _ =
        directive? (lead' ++ (Text.cutAt '\n' after).1) :: _
      rw [directive?_eq_none.2 hfirst, directive?_eq_none.2 hfirst']
      rfl
  | cons c text ih =>
    by_cases hfeed : c = '\n'
    · subst hfeed
      have hline : isDirective lead = false := by
        rwa [Text.cutAt, if_pos rfl, List.append_nil] at hlead
      have hlast' : ∃ d, ([] ++ text).getLast? = some d ∧ Text.isBlank d = false := by
        obtain ⟨d, hd, hblank⟩ := hlast
        cases text with
        | nil =>
          rw [List.getLast?_concat] at hd
          obtain rfl := Option.some.inj hd
          exact absurd hblank (by decide)
        | cons e text =>
          rw [List.getLast?_append_of_ne_nil _ (List.cons_ne_nil _ _),
            List.getLast?_cons_cons] at hd
          exact ⟨d, hd, hblank⟩
      have hlines : linesFrom lead ('\n' :: text ++ after) = lead :: linesFrom [] (text ++ after) :=
        linesFrom_feed lead (text ++ after)
      have hlines' : linesFrom lead' (blanked ('\n' :: text) ++ after) =
          lead' :: linesFrom [] (blanked text ++ after) :=
        linesFrom_feed lead' (blanked text ++ after)
      rw [hlines, hlines', unnoticed_feed, List.map_cons, List.map_cons, List.map_cons,
        List.map_cons, markColumn?_eq_none.2 hline, markColumn?_eq_none.2 hlead',
        directive?_eq_none.2 hline, directive?_eq_none.2 hlead', List.cons.injEq, List.cons.injEq]
      -- the next line begins inside the comment
      by_cases hmark : isDirective (Text.cutAt '\n' text).1 = true
      · constructor
        · rintro ⟨-, heq⟩
          exact absurd (List.cons.inj heq).1 (markColumn?_blanked_ne hmark)
        · rintro ⟨hnot, -⟩
          rw [hmark] at hnot
          cases hnot
      · rw [Bool.not_eq_true] at hmark
        obtain ⟨hmarks, hdirectives⟩ := @ih [] [] hlast' hmark rfl
        exact ⟨fun heq => ⟨hmark, hmarks heq.2⟩, fun hcond => ⟨rfl, hdirectives hcond.2⟩⟩
    · have hblank : isDirective (lead' ++ [' ']) = false := by
        rw [isDirective_append, hlead']
        split <;> rfl
      rw [Text.cutAt, if_neg hfeed] at hlead
      have hstep := @ih (lead ++ [c]) (lead' ++ [' '])
        (by rwa [List.append_assoc]) (by rwa [List.append_assoc]) hblank
      rwa [← unnoticed_cons hfeed, ← linesFrom_cons hfeed, ← linesFrom_cons (by decide),
        ← List.cons_append, ← List.cons_append, ← blanked_cons hfeed] at hstep

/-! ## Directives -/

theorem filter_numbered_congr {lines lines' : List (List Char)}
    (h : lines.map directive? = lines'.map directive?) (n : Nat) :
    (numbered n lines).filter (fun entry => isDirective entry.2) =
      (numbered n lines').filter fun entry => isDirective entry.2 := by
  induction lines generalizing lines' n with
  | nil =>
    cases lines' with
    | nil => rfl
    | cons line lines' => cases h
  | cons line lines ih =>
    cases lines' with
    | nil => cases h
    | cons line' lines' =>
      obtain ⟨hline, hlines⟩ := List.cons.inj h
      rw [numbered, numbered, List.filter_cons, List.filter_cons, ih hlines]
      unfold directive? at hline
      split at hline
      · next hdirective =>
        split at hline
        · obtain rfl := Option.some.inj hline
          rfl
        · cases hline
      · next hdirective =>
        split at hline
        · cases hline
        · next hdirective' => rw [if_neg hdirective, if_neg hdirective']

theorem mem_numbered {n k : Nat} {lines : List (List Char)} {line : List Char} :
    (k, line) ∈ numbered n lines ↔ ∃ i, k = n + i ∧ lines[i]? = some line := by
  induction lines generalizing n with
  | nil =>
    constructor
    · intro h
      cases h
    · rintro ⟨i, -, h⟩
      cases h
  | cons first lines ih =>
    rw [numbered, List.mem_cons, ih]
    constructor
    · rintro (h | ⟨i, rfl, h⟩)
      · obtain ⟨rfl, rfl⟩ := Prod.mk.inj h
        exact ⟨0, rfl, rfl⟩
      · exact ⟨i + 1, by omega, h⟩
    · rintro ⟨i, rfl, h⟩
      cases i with
      | zero =>
        obtain rfl := Option.some.inj h
        exact Or.inl rfl
      | succ i => exact Or.inr ⟨i, by omega, h⟩

theorem DirectiveLine.fileName?_kinds {d : DirectiveLine} {opener closer : Char}
    {tokens : List Token} (h : d.fileName? opener closer = some tokens) :
    tokens.map (·.kind) = [.punctuation, .identifier, .punctuation] := by
  unfold fileName? at h
  split at h
  · cases h
  · split at h
    · cases h
    · split at h
      · obtain rfl := Option.some.inj h
        rfl
      · cases h

/-- The command is the only preprocessor token of a directive. -/
theorem DirectiveLine.arguments_kind {d : DirectiveLine} {t : Token} (h : t ∈ d.arguments) :
    t.kind ≠ .preprocessor := by
  have hremainder : ∀ {offset}, t ∈ d.remainder offset → t.kind ≠ .preprocessor := by
    intro offset ht
    rw [remainder_kind ht]
    decide
  unfold arguments at h
  dsimp only at h
  split at h
  · cases hfile : (d.fileName? '<' '>').or (d.fileName? '"' '"') with
    | none =>
      rw [hfile] at h
      exact hremainder h
    | some tokens =>
      rw [hfile] at h
      -- a file is named by a mark, an identifier and a mark
      have hkinds : tokens.map (·.kind) = [.punctuation, .identifier, .punctuation] := by
        rcases Option.or_eq_some_iff.1 hfile with hfile | ⟨_, hfile⟩
        · exact fileName?_kinds hfile
        · exact fileName?_kinds hfile
      have hmem : t.kind ∈ tokens.map (·.kind) := List.mem_map_of_mem h
      rw [hkinds] at hmem
      intro hkind
      rw [hkind] at hmem
      exact absurd hmem (by decide)
  · split at h
    · cases hdefinition : d.definition? with
      | none =>
        rw [hdefinition] at h
        exact hremainder h
      | some tokens =>
        rw [hdefinition] at h
        unfold definition? at hdefinition
        dsimp only at hdefinition
        split at hdefinition
        · cases hdefinition
        · obtain rfl := Option.some.inj hdefinition
          rcases List.mem_cons.1 h with rfl | h
          · exact fun hkind => by cases hkind
          · exact hremainder h
    · exact hremainder h

theorem plain_kind {source : List Char} {t : Token}
    (h : t ∈ (plainSegments source).filterMap ofSegment?) : t.kind ≠ .preprocessor := by
  obtain ⟨entry, _, ht⟩ := List.mem_filterMap.1 h
  obtain ⟨lexeme, chars, _, rfl⟩ := ofSegment?_eq_some ht
  cases lexeme with
  | number => exact fun hkind => by cases hkind
  | quoted => exact fun hkind => by cases hkind
  | operator =>
    show operatorKind _ ≠ _
    rcases operatorKind_cases (String.ofList chars) with h | h <;> rw [h] <;> decide
  | word =>
    show wordKind _ ≠ _
    rcases wordKind_cases (String.ofList chars) with h | h | h <;> rw [h] <;> decide

/-- The preprocessor tokens stand where directives begin. -/
theorem mem_tokenize_preprocessor {source : String} {line column : Nat} :
    (∃ text, ⟨.preprocessor, text, line, column⟩ ∈ tokenize source) ↔
      ∃ raw, (line, raw) ∈ numbered 1 (Text.pieces '\n' source.toList) ∧
        markColumn? raw = some column := by
  constructor
  · rintro ⟨text, h⟩
    rcases mem_tokenize.1 h with h | h
    · obtain ⟨entry, hentry, ht⟩ := List.mem_flatMap.1 h
      obtain ⟨hmem, hdirective⟩ := List.mem_filter.1 hentry
      rcases List.mem_cons.1 ht with ht | ht
      · obtain ⟨-, -, hline, hcolumn⟩ := Token.mk.inj ht
        refine ⟨entry.2, ?_, ?_⟩
        · rw [hline]
          exact hmem
        · rw [markColumn?, directive?, if_pos hdirective, hcolumn]
          rfl
      · exact absurd rfl (DirectiveLine.arguments_kind ht)
    · exact absurd rfl (plain_kind h)
  · rintro ⟨raw, hmem, hcolumn⟩
    obtain ⟨whole, hwhole, rfl⟩ := Option.map_eq_some_iff.1 hcolumn
    unfold directive? at hwhole
    split at hwhole
    · next hdirective =>
      obtain rfl := Option.some.inj hwhole
      refine ⟨_, mem_tokenize.2 (Or.inl (List.mem_flatMap.2
        ⟨(line, raw), List.mem_filter.2 ⟨hmem, hdirective⟩, List.mem_cons_self⟩))⟩
    · cases hwhole

/-- Texts of equally many lines that have the same tokens have their directives at the same
places. -/
theorem marks_of_tokenize_eq {source source' : String} (h : tokenize source = tokenize source')
    (hlength : (Text.pieces '\n' source.toList).length =
      (Text.pieces '\n' source'.toList).length) :
    (Text.pieces '\n' source.toList).map markColumn? =
      (Text.pieces '\n' source'.toList).map markColumn? := by
  refine List.ext_getElem (by rw [List.length_map, List.length_map, hlength]) fun i hi hi' => ?_
  rw [List.length_map] at hi hi'
  rw [List.getElem_map, List.getElem_map]
  have hmark : ∀ (s : String) (hs : i < (Text.pieces '\n' s.toList).length) (column : Nat),
      markColumn? (Text.pieces '\n' s.toList)[i] = some column ↔
        ∃ text, ⟨.preprocessor, text, 1 + i, column⟩ ∈ tokenize s := by
    intro s hs column
    rw [mem_tokenize_preprocessor]
    constructor
    · exact fun hcolumn => ⟨_, mem_numbered.2 ⟨i, rfl, List.getElem?_eq_getElem hs⟩, hcolumn⟩
    · rintro ⟨raw, hmem, hcolumn⟩
      obtain ⟨j, hj, hraw⟩ := mem_numbered.1 hmem
      obtain rfl : i = j := by omega
      rw [List.getElem?_eq_getElem hs] at hraw
      rwa [Option.some.inj hraw]
  refine Option.ext fun column => ?_
  rw [hmark source hi, hmark source' hi', h]

/-! ## The two readings together -/

section Source

variable {source : String} {pre post : List Segment} {text : List Char}

/-- The source with a comment blanked, `pre` and `post` being the segments around it. -/
def blankedSource (pre : List Segment) (text : List Char) (post : List Segment) : String :=
  String.ofList (pre.flatMap Segment.chars ++ (blanked text ++ post.flatMap Segment.chars))

/-- What stands in front of a comment on its line. -/
def leadOf (pre : List Segment) : List Char :=
  lineSoFar [] (pre.flatMap Segment.chars)

theorem toList_of_segments (h : segments source.toList = pre ++ .comment text :: post) :
    source.toList = pre.flatMap Segment.chars ++ (text ++ post.flatMap Segment.chars) := by
  rw [← segments_flatten source.toList, h, List.flatMap_append, List.flatMap_cons]
  rfl

/-- The line on which a comment begins, if it is no directive, is none up to the comment and none
up to the end of the comment's first line. -/
theorem not_isDirective_of_line (h : segments source.toList = pre ++ .comment text :: post)
    (htext : IsBlock text)
    (hline : (Place.following (pre.flatMap Segment.chars)).line ∉ claimedLines source.toList) :
    isDirective (leadOf pre) = false ∧
      isDirective (leadOf pre ++ (Text.cutAt '\n' text).1) = false := by
  have hwhole : isDirective (leadOf pre ++
      (Text.cutAt '\n' (text ++ post.flatMap Segment.chars)).1) = false := by
    rw [Bool.eq_false_iff]
    intro hdirective
    have hmem := mem_numbered_linesFrom 1 [] (pre.flatMap Segment.chars)
      (text ++ post.flatMap Segment.chars)
    rw [← toList_of_segments h] at hmem
    exact hline (List.mem_map_of_mem (List.mem_filter.2 ⟨hmem, hdirective⟩))
  obtain ⟨rest, hrest⟩ := cutAt_append_fst text (post.flatMap Segment.chars)
  rw [hrest, ← List.append_assoc] at hwhole
  obtain ⟨body, rfl⟩ := htext
  have hvisible : ¬ ∀ c ∈ leadOf pre ++ (Text.cutAt '\n' ('/' :: '*' :: (body ++ ['*', '/']))).1,
      Text.isBlank c = true := by
    intro hall
    refine absurd (hall '/' (List.mem_append_right _ ?_)) (by decide)
    rw [Text.cutAt, if_neg (by decide)]
    exact List.mem_cons_self
  rw [isDirective_append, if_neg hvisible] at hwhole
  refine ⟨?_, hwhole⟩
  rw [isDirective_append] at hwhole
  split at hwhole
  · next hblanks => exact isDirective_blanks hblanks
  · exact hwhole

/-- The lines of the two texts, and what is seen of their directives. -/
theorem pieces_blanked (h : segments source.toList = pre ++ .comment text :: post)
    (htext : IsBlock text)
    (hline : (Place.following (pre.flatMap Segment.chars)).line ∉ claimedLines source.toList) :
    ((Text.pieces '\n' source.toList).map markColumn? =
        (Text.pieces '\n' (blankedSource pre text post).toList).map markColumn? →
      Unnoticed (leadOf pre) text (post.flatMap Segment.chars)) ∧
    (Unnoticed (leadOf pre) text (post.flatMap Segment.chars) →
      (Text.pieces '\n' source.toList).map directive? =
        (Text.pieces '\n' (blankedSource pre text post).toList).map directive?) := by
  obtain ⟨hlead, hfirst⟩ := not_isDirective_of_line h htext hline
  have hlast : ∃ c, (leadOf pre ++ text).getLast? = some c ∧ Text.isBlank c = false := by
    obtain ⟨body, rfl⟩ := htext
    refine ⟨'/', ?_, by decide⟩
    rw [show leadOf pre ++ '/' :: '*' :: (body ++ ['*', '/']) =
      leadOf pre ++ '/' :: '*' :: (body ++ ['*']) ++ ['/'] from by simp, List.getLast?_concat]
  have hlines := @lines_blanked _ _ _ (post.flatMap Segment.chars) hlast hfirst hlead
  rwa [leadOf, ← map_linesFrom_append, ← map_linesFrom_append, ← toList_of_segments h,
    ← String.toList_ofList (l := _ ++ (blanked text ++ _))] at hlines

theorem scan_blanked (h : segments source.toList = pre ++ .comment text :: post)
    (htext : IsBlock text)
    (hlines : (Text.pieces '\n' source.toList).map directive? =
      (Text.pieces '\n' (blankedSource pre text post).toList).map directive?) :
    scan (blankedSource pre text post) = scan source := by
  have hdirectives : directiveLines (blankedSource pre text post).toList =
      directiveLines source.toList := (filter_numbered_congr hlines 1).symm
  have hsegments : segments (blankedSource pre text post).toList =
      pre ++ ((blanked text).map .blank ++ post) := by
    rw [toList_of_segments h] at h
    rw [blankedSource, String.toList_ofList]
    exact segments_blanked htext h
  have hplain : ∀ {α : Type} {f : Place × Segment → Option α},
      (∀ p text, f (p, .comment text) = none) → (∀ p c, f (p, .blank c) = none) →
      (plainSegments (blankedSource pre text post).toList).filterMap f =
        (plainSegments source.toList).filterMap f := by
    intro α f hcomment hblank
    unfold plainSegments
    rw [hdirectives, hsegments, h]
    exact filterMap_placed_blanked hcomment hblank _ _ pre post text
  unfold scan directiveTokens
  dsimp only
  rw [hdirectives, hplain (fun _ _ => rfl) fun _ _ => rfl, hplain (fun _ _ => rfl) fun _ _ => rfl]

/-- **When a comment is invisible.** A block comment that begins outside quoted texts, other
comments and directives can be blanked without changing the tokens, or the tokens and the skipped
characters, if and only if no line that begins inside it begins with a `#` and, on the line on
which it ends, a `#` is not the first to be seen once it is blanked. -/
theorem tokenize_blanked_iff (h : segments source.toList = pre ++ .comment text :: post)
    (htext : IsBlock text)
    (hline : (Place.following (pre.flatMap Segment.chars)).line ∉ claimedLines source.toList) :
    (tokenize (blankedSource pre text post) = tokenize source ↔
      Unnoticed (leadOf pre) text (post.flatMap Segment.chars)) ∧
    (scan (blankedSource pre text post) = scan source ↔
      Unnoticed (leadOf pre) text (post.flatMap Segment.chars)) := by
  obtain ⟨hmarks, hdirectives⟩ := pieces_blanked h htext hline
  have hsame : Unnoticed (leadOf pre) text (post.flatMap Segment.chars) →
      scan (blankedSource pre text post) = scan source :=
    fun hcond => scan_blanked h htext (hdirectives hcond)
  have hneeded : tokenize (blankedSource pre text post) = tokenize source →
      Unnoticed (leadOf pre) text (post.flatMap Segment.chars) := by
    intro heq
    refine hmarks (marks_of_tokenize_eq heq.symm ?_)
    rw [pieces_length, pieces_length, toList_of_segments h, blankedSource, String.toList_ofList]
    simp only [List.count_append, count_blanked]
  refine ⟨⟨hneeded, fun hcond => congrArg Scan.tokens (hsame hcond)⟩, ?_, hsame⟩
  exact fun heq => hneeded (congrArg Scan.tokens heq)

end Source

/-- A comment over two lines of a declaration is invisible. -/
theorem starred_comment_is_invisible :
    segments "int a /* one\n * two */ = 1;".toList =
      segments "int a ".toList ++ .comment "/* one\n * two */".toList :: segments " = 1;".toList ∧
    tokenize (blankedSource (segments "int a ".toList) "/* one\n * two */".toList
      (segments " = 1;".toList)) = tokenize "int a /* one\n * two */ = 1;" := by
  have hsource : segments "int a /* one\n * two */ = 1;".toList =
      segments "int a ".toList ++ .comment "/* one\n * two */".toList :: segments " = 1;".toList := by
    decide +kernel
  have hblock : IsBlock "/* one\n * two */".toList := ⟨" one\n * two ".toList, by decide +kernel⟩
  refine ⟨hsource, (tokenize_blanked_iff hsource hblock (by decide +kernel)).1.2 ⟨?_, ?_⟩⟩
  · decide +kernel
  · rintro ⟨-, hmark⟩
    revert hmark
    decide +kernel

/-- A comment with a definition on a line of its own is not: the definition is read. -/
theorem commented_definition_is_read :
    segments "/*\n#define X 1\n*/\nint a;\n".toList =
      [] ++ .comment "/*\n#define X 1\n*/".toList :: segments "\nint a;\n".toList ∧
    IsBlock "/*\n#define X 1\n*/".toList ∧
    (Place.following []).line ∉ claimedLines "/*\n#define X 1\n*/\nint a;\n".toList ∧
    ⟨.preprocessor, "#define", 2, 1⟩ ∈ tokenize "/*\n#define X 1\n*/\nint a;\n" ∧
    tokenize (blankedSource [] "/*\n#define X 1\n*/".toList (segments "\nint a;\n".toList)) ≠
      tokenize "/*\n#define X 1\n*/\nint a;\n" := by
  have hread : ⟨.preprocessor, "#define", 2, 1⟩ ∈ tokenize "/*\n#define X 1\n*/\nint a;\n" :=
    mem_tokenize.2 (Or.inl (by decide +kernel))
  refine ⟨by decide +kernel, ⟨"\n#define X 1\n".toList, by decide +kernel⟩, by decide +kernel, hread,
    fun heq => ?_⟩
  rw [← heq, mem_tokenize] at hread
  revert hread
  decide +kernel

end Stepwise.Token
