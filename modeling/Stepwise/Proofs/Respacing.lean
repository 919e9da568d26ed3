/-
A text with other blanks in place of its blanks and comments.

Blanks and comments are the gaps of a text. Where the gaps of a text are written
anew, with any blanks, the text is read as before, if a gap that stands between two
things does not vanish (`Respaced`, `reads_respaced`).

In front of a gap this is the argument for blanked comments once more: numbers,
operators and words stop at the gap, be it a blank or a slash. The awkward case is
a quote that nothing closes. The new text must not close it either; so whatever
closes it there has to close it in the old text. Between two gaps the texts are the
same, but a backslash in front of a gap takes its first character along, which is
why a gap behind something has to stay a gap (`Respaced.closes`).
-/
import Stepwise.Proofs.Spacing

set_option autoImplicit false

namespace Stepwise.Token

/-! ## Gaps -/

/-- Is the segment a comment? -/
def Segment.isComment : Segment → Bool
  | comment _ => true
  | _ => false

/-- Is the segment a blank or a comment? -/
def Segment.isGap : Segment → Bool
  | blank _ => true
  | comment _ => true
  | _ => false

/-- Blanks within a line. -/
def LineBlanks (s : List Char) : Prop :=
  ∀ c ∈ s, Text.isBlank c = true ∧ c ≠ '\n'

theorem LineBlanks.blank {s : List Char} (h : LineBlanks s) : ∀ c ∈ s, Text.isBlank c = true :=
  fun c hc => (h c hc).1

theorem LineBlanks.endsOrBlank {s : List Char} (h : LineBlanks s) : EndsOrBlank s :=
  fun c hc => (h c (List.mem_of_head? hc)).1

/-- The characters of segments, one segment after the other. -/
def flat (parts : List Segment) : List Char :=
  parts.flatMap Segment.chars

@[simp] theorem flat_nil : flat [] = [] := rfl

@[simp] theorem flat_cons (part : Segment) (parts : List Segment) :
    flat (part :: parts) = part.chars ++ flat parts := List.flatMap_cons

/-- The segments are those of the text that they make up, and it is a single line. -/
structure OneLine (parts : List Segment) : Prop where
  cut : segments (flat parts) = parts
  line : '\n' ∉ flat parts

namespace OneLine

variable {part : Segment} {parts : List Segment}

theorem of_segments {s : List Char} (h : '\n' ∉ s) : OneLine (segments s) where
  cut := by rw [flat, segments_flatten]
  line := by rwa [flat, segments_flatten]

theorem tail (h : OneLine (part :: parts)) : OneLine parts where
  cut := by
    have hcut : segments (flat (part :: parts)) = [part] ++ parts := h.cut
    exact segments_of_append hcut
  line := by
    have hline := h.line
    rw [flat_cons, List.mem_append, not_or] at hline
    exact hline.2

theorem head_line (h : OneLine (part :: parts)) : '\n' ∉ part.chars := by
  have hline := h.line
  rw [flat_cons, List.mem_append, not_or] at hline
  exact hline.1

theorem fits (h : OneLine (part :: parts)) : part.Fits (flat parts) := by
  have hcut : segments (flat (part :: parts)) = [] ++ part :: parts := h.cut
  exact segments_fit hcut

/-- The first segment is cut off the text. -/
theorem first (h : OneLine (part :: parts)) :
    ∃ c more, part.chars = c :: more ∧ firstSegment c (more ++ flat parts) = (part, flat parts) := by
  obtain ⟨c, rest, hflat, hfirst⟩ := segments_eq_cons h.cut
  obtain ⟨hcut, hne⟩ := firstSegment_cut c rest
  rw [hfirst] at hcut hne
  obtain ⟨d, more, hchars⟩ := List.exists_cons_of_ne_nil hne
  dsimp only at hcut hchars
  rw [hchars, List.cons_append] at hcut
  obtain ⟨rfl, rfl⟩ := List.cons.inj hcut
  exact ⟨d, more, hchars, hfirst⟩

end OneLine

/-- A gap begins with a blank or a slash. -/
theorem Segment.head_of_gap {part : Segment} {after : List Char} (h : part.isGap = true)
    (hfits : part.Fits after) : ∃ c more, part.chars = c :: more ∧ c ∈ stops := by
  cases part with
  | blank c => exact ⟨c, [], rfl, mem_stops_of_blank hfits⟩
  | comment text =>
    rcases hfits with ⟨body, rfl, _⟩ | ⟨body, rfl, _⟩
    · exact ⟨'/', _, rfl, slash_mem_stops⟩
    · exact ⟨'/', _, rfl, slash_mem_stops⟩
  | lexeme _ _ => cases h
  | stray _ => cases h

/-- No blank is part of a number, a sign or a word, and a quoted text begins and ends in quotes. -/
theorem Segment.visible_of_fits {part : Segment} {after : List Char} (h : part.isGap = false)
    (hfits : part.Fits after) :
    (∀ c ∈ part.chars.head?, Text.isBlank c = false) ∧
      ∀ c ∈ part.chars.getLast?, Text.isBlank c = false := by
  -- most texts have no blank at all
  have hfree : (∀ c ∈ part.chars, Text.isBlank c = false) →
      (∀ c ∈ part.chars.head?, Text.isBlank c = false) ∧
        ∀ c ∈ part.chars.getLast?, Text.isBlank c = false := fun hall =>
    ⟨fun c hc => hall c (List.mem_of_head? hc), fun c hc => hall c (List.mem_of_getLast? hc)⟩
  cases part with
  | blank _ => cases h
  | comment _ => cases h
  | stray d =>
    apply hfree
    intro c hc
    rw [List.mem_singleton.1 hc]
    exact hfits.1
  | lexeme lexeme text =>
    cases lexeme with
    | number =>
      apply hfree
      intro c hc
      by_contra hblank
      rw [Bool.not_eq_false] at hblank
      exact IsNumber.not_mem_of_stop hfits (mem_stops_of_blank hblank) hc
    | quoted =>
      obtain ⟨quote, tail, rfl, hquote, htail⟩ := hfits
      have hvisible : Text.isBlank quote = false := by
        rcases hquote with rfl | rfl <;> decide
      obtain ⟨front, rfl⟩ := htail.last
      constructor
      · rintro c ⟨⟩
        exact hvisible
      · intro c hc
        have hlast : (quote :: (front ++ [quote])).getLast? = some quote := by
          rw [← List.cons_append, List.getLast?_concat]
        rw [Segment.chars, hlast] at hc
        rwa [← Option.some.inj hc]
    | operator =>
      apply hfree
      have hsigns : ∀ text ∈ operatorTexts, ∀ c ∈ blankChars, c ∉ text := by decide +kernel
      intro c hc
      by_contra hblank
      rw [Bool.not_eq_false] at hblank
      exact hsigns text (mem_operatorTexts.2 hfits.1) c (mem_blankChars hblank) hc
    | word =>
      apply hfree
      exact fun c hc => Text.isBlank_of_isWordChar (hfits.2.1 c hc)

/-! ## The same text with other gaps -/

/-- A text in which each gap of the segments is written as some blanks, perhaps none; but behind
something a gap does not vanish, unless nothing follows. -/
inductive Respaced : List Segment → List Char → Prop where
  | nil {blanks : List Char} (hblanks : LineBlanks blanks) : Respaced [] blanks
  | gap {part : Segment} {rest : List Segment} {blanks s : List Char}
      (hpart : part.isGap = true) (hblanks : LineBlanks blanks) (h : Respaced rest s) :
      Respaced (part :: rest) (blanks ++ s)
  | keep {part : Segment} {rest : List Segment} {s : List Char} (hpart : part.isGap = false)
      (hafter : ∀ next ∈ rest.head?, next.isGap = true → EndsOrBlank s) (h : Respaced rest s) :
      Respaced (part :: rest) (part.chars ++ s)

/-- Nothing follows, or a stop does. -/
def EndsOrStops (after : List Char) : Prop :=
  ∀ c ∈ after.head?, c ∈ stops

theorem EndsOrBlank.stops {after : List Char} (h : EndsOrBlank after) : EndsOrStops after :=
  fun c hc => mem_stops_of_blank (h c hc)

/-- A rule that stops in front of a stop also stops at the end. -/
theorem extend_of_stops {rule : List Char → Option Cut} {s t : List Char}
    (hrule : ∀ c ∈ stops, ∀ more, rule (s ++ c :: more) = (rule s).map (·.extend (c :: more)))
    (ht : EndsOrStops t) : rule (s ++ t) = (rule s).map (·.extend t) := by
  cases t with
  | nil =>
    have hextend : ∀ cut : Cut, cut.extend [] = cut := fun cut => by
      rw [Cut.extend, List.append_nil]
    rw [List.append_nil, funext hextend]
    exact Option.map_id'.symm
  | cons c more => exact hrule c (ht c rfl) more

namespace Respaced

variable {parts : List Segment} {s : List Char}

theorem no_feed (h : Respaced parts s) (hparts : OneLine parts) : '\n' ∉ s := by
  induction h with
  | nil hblanks => exact fun hmem => (hblanks _ hmem).2 rfl
  | gap hpart hblanks _ ih =>
    rw [List.mem_append, not_or]
    exact ⟨fun hmem => (hblanks _ hmem).2 rfl, ih hparts.tail⟩
  | keep hpart hafter _ ih =>
    rw [List.mem_append, not_or]
    exact ⟨hparts.head_line, ih hparts.tail⟩

/-- Up to the first gap the two texts are the same. -/
theorem meets (h : Respaced parts s) (hparts : OneLine parts)
    (hafter : ∀ next ∈ parts.head?, next.isGap = true → EndsOrBlank s) :
    ∃ k u v, flat parts = k ++ u ∧ s = k ++ v ∧ EndsOrStops u ∧ EndsOrBlank v := by
  induction h with
  | nil hblanks => exact ⟨[], [], _, rfl, rfl, by rintro c ⟨⟩, hblanks.endsOrBlank⟩
  | @gap part rest blanks s hpart hblanks _ ih =>
    refine ⟨[], flat (part :: rest), blanks ++ s, rfl, rfl, ?_, hafter part rfl hpart⟩
    obtain ⟨c, more, hchars, hc⟩ := Segment.head_of_gap hpart hparts.fits
    rw [flat_cons, hchars]
    rintro _ ⟨⟩
    exact hc
  | @keep part rest s hpart hnext _ ih =>
    obtain ⟨k, u, v, hu, hv, hstops, hblank⟩ := ih hparts.tail hnext
    refine ⟨part.chars ++ k, u, v, ?_, ?_, hstops, hblank⟩
    · rw [flat_cons, hu, List.append_assoc]
    · rw [hv, List.append_assoc]

end Respaced

/-! ## Quotes -/

section Quotes

variable {quote : Char} (hquote : quote = '"' ∨ quote = '\'')

include hquote

/-- Whether a quote is closed behind a text depends on what follows it, and on what follows a
backslash in front of that. -/
theorem quoteEnd?_prepend {t u : List Char}
    (hplain : quoteEnd? quote u ≠ none → quoteEnd? quote t ≠ none)
    (hescaped : quoteEnd? quote ('\\' :: u) ≠ none → quoteEnd? quote ('\\' :: t) ≠ none)
    (k : List Char) (h : quoteEnd? quote (k ++ u) ≠ none) : quoteEnd? quote (k ++ t) ≠ none := by
  induction hlength : k.length using Nat.strong_induction_on generalizing k with
  | _ n ih =>
    cases k with
    | nil => exact hplain h
    | cons c k =>
      rw [List.length_cons] at hlength
      rw [List.cons_append] at h ⊢
      by_cases hc : c = quote
      · rw [hc, quoteEnd?_quote]
        exact Option.some_ne_none _
      by_cases hslash : c = '\\'
      · subst hslash
        cases k with
        | nil => exact hescaped h
        | cons d k =>
          rw [List.length_cons] at hlength
          rw [List.cons_append, quoteEnd?_escape hquote, ne_eq, Option.map_eq_none_iff] at h ⊢
          exact ih k.length (by omega) k h rfl
      by_cases hfeed : c = '\n'
      · rw [hfeed, quoteEnd?_feed hquote] at h
        exact absurd rfl h
      · rw [quoteEnd?_plain hc hslash hfeed, ne_eq, Option.map_eq_none_iff] at h ⊢
        exact ih k.length (by omega) k h rfl

/-- A blank closes no quote and takes nothing along. -/
theorem quoteEnd?_blank {c : Char} (hc : Text.isBlank c = true) (hfeed : c ≠ '\n') (s : List Char) :
    quoteEnd? quote (c :: s) = (quoteEnd? quote s).map fun cut => (c :: cut.1, cut.2) := by
  apply quoteEnd?_plain
  · rintro rfl
    rcases hquote with rfl | rfl <;> exact absurd hc (by decide)
  · rintro rfl
    exact absurd hc (by decide)
  · exact hfeed

theorem quoteEnd?_of_blanks {blanks s : List Char} (hblanks : LineBlanks blanks)
    (h : quoteEnd? quote (blanks ++ s) ≠ none) : quoteEnd? quote s ≠ none := by
  induction blanks with
  | nil => exact h
  | cons c blanks ih =>
    obtain ⟨hc, hfeed⟩ := hblanks c List.mem_cons_self
    rw [List.cons_append, quoteEnd?_blank hquote hc hfeed, ne_eq, Option.map_eq_none_iff] at h
    exact ih (fun d hd => hblanks d (List.mem_cons_of_mem _ hd)) h

/-- A quote that is closed behind a gap is closed from in front of it, also if a backslash takes the
first character of the gap along. -/
theorem quoteEnd?_over_gap {part : Segment} {rest : List Segment} (hpart : part.isGap = true)
    (hparts : OneLine (part :: rest)) (h : quoteEnd? quote (flat rest) ≠ none) :
    quoteEnd? quote (flat (part :: rest)) ≠ none ∧
      quoteEnd? quote ('\\' :: flat (part :: rest)) ≠ none := by
  have hfits := hparts.fits
  have hfeed := hparts.head_line
  -- the gap as its first character and the others
  have hover : ∀ {c : Char} {more : List Char}, part.chars = c :: more →
      part.chars.getLast? ≠ some '\\' → more.getLast? ≠ some '\\' →
      quoteEnd? quote (flat (part :: rest)) ≠ none ∧
        quoteEnd? quote ('\\' :: flat (part :: rest)) ≠ none := by
    intro c more hchars hlast hlast'
    have hfeed' : '\n' ∉ more := fun hmem => hfeed (hchars ▸ List.mem_cons_of_mem _ hmem)
    rw [flat_cons]
    refine ⟨quoteEnd?_over hquote hfeed hlast h, ?_⟩
    rw [hchars, List.cons_append, quoteEnd?_escape hquote, ne_eq, Option.map_eq_none_iff]
    exact quoteEnd?_over hquote hfeed' hlast' h
  cases part with
  | lexeme _ _ => cases hpart
  | stray _ => cases hpart
  | blank c =>
    apply hover rfl
    · intro hc
      obtain rfl : c = '\\' := Option.some.inj hc
      have hblank : Text.isBlank '\\' = true := hfits
      exact absurd hblank (by decide)
    · rintro ⟨⟩
  | comment text =>
    rcases hfits with ⟨body, _, _, hafter⟩ | ⟨body, rfl, _⟩
    · -- nothing follows a comment to the end of the line
      cases hrest : flat rest with
      | nil =>
        rw [hrest] at h
        exact absurd rfl h
      | cons c more =>
        have hmem : '\n' ∈ flat rest := by
          rw [hrest, hafter c (by rw [hrest]; rfl)]
          exact List.mem_cons_self
        exact absurd hmem hparts.tail.line
    · apply hover rfl
      · rw [Segment.chars, ← List.cons_append, ← List.cons_append, List.getLast?_append]
        exact fun heq => by cases heq
      · rw [← List.cons_append, List.getLast?_append]
        exact fun heq => by cases heq

/-- What closes a quote in the new text closes it in the old one, be it behind a backslash or not. -/
theorem Respaced.closes {parts : List Segment} {s : List Char} (h : Respaced parts s)
    (hparts : OneLine parts) :
    (quoteEnd? quote s ≠ none → quoteEnd? quote (flat parts) ≠ none) ∧
      ((∀ next ∈ parts.head?, next.isGap = true → EndsOrBlank s) →
        quoteEnd? quote ('\\' :: s) ≠ none → quoteEnd? quote ('\\' :: flat parts) ≠ none) := by
  have hlone : quoteEnd? quote ['\\'] = none := by
    rw [quoteEnd?, if_neg (by rcases hquote with rfl | rfl <;> decide)]
  induction h with
  | @nil blanks hblanks =>
    have hopen : ∀ {s : List Char}, LineBlanks s → quoteEnd? quote s = none := by
      intro s hs
      by_contra hne
      rw [← List.append_nil s] at hne
      exact quoteEnd?_of_blanks hquote hs hne rfl
    refine ⟨fun hne => absurd (hopen hblanks) hne, fun _ hne => ?_⟩
    cases blanks with
    | nil => exact hne
    | cons c blanks =>
      rw [quoteEnd?_escape hquote, ne_eq, Option.map_eq_none_iff] at hne
      exact absurd (hopen fun d hd => hblanks d (List.mem_cons_of_mem _ hd)) hne
  | @gap part rest blanks s hpart hblanks h ih =>
    have hover := fun hne => quoteEnd?_over_gap hquote hpart hparts ((ih hparts.tail).1 hne)
    refine ⟨fun hne => (hover (quoteEnd?_of_blanks hquote hblanks hne)).1, fun hafter hne => ?_⟩
    apply (hover _).2
    -- the backslash takes a blank along, one of this gap or of a later one
    have hends : EndsOrBlank (blanks ++ s) := hafter part rfl hpart
    cases blanks with
    | cons c blanks =>
      rw [List.cons_append, quoteEnd?_escape hquote, ne_eq, Option.map_eq_none_iff] at hne
      exact quoteEnd?_of_blanks hquote (fun d hd => hblanks d (List.mem_cons_of_mem _ hd)) hne
    | nil =>
      rw [List.nil_append] at hne hends
      have hfeed := h.no_feed hparts.tail
      cases s with
      | nil => exact absurd hlone hne
      | cons c s =>
        rw [List.mem_cons, not_or] at hfeed
        rw [quoteEnd?_escape hquote, ne_eq, Option.map_eq_none_iff] at hne
        rw [quoteEnd?_blank hquote (hends c rfl) (Ne.symm hfeed.1), ne_eq, Option.map_eq_none_iff]
        exact hne
  | @keep part rest s hpart hafter _ ih =>
    obtain ⟨hplain, hescaped⟩ := ih hparts.tail
    have hprepend := quoteEnd?_prepend hquote hplain (hescaped hafter)
    rw [flat_cons]
    refine ⟨hprepend part.chars, fun _ hne => ?_⟩
    rw [← List.cons_append] at hne ⊢
    exact hprepend _ hne

end Quotes

/-! ## Reading the new text -/

/-- Where no comment begins, no block comment is left open either. -/
def Closed : List Segment → Prop
  | [] => True
  | part :: rest => (part.isGap = false → ¬ ['/', '*'] <+: flat (part :: rest)) ∧ Closed rest

instance decidableClosed : (parts : List Segment) → Decidable (Closed parts)
  | [] => isTrue trivial
  | part :: rest =>
    have := decidableClosed rest
    inferInstanceAs (Decidable
      ((part.isGap = false → ¬ ['/', '*'] <+: flat (part :: rest)) ∧ Closed rest))

/-- A comment begins with a slash, so where none begins in the old text and the new one goes on with
a blank, none begins there. -/
theorem comment?_respaced {c : Char} {k u v : List Char} (hv : EndsOrBlank v)
    (hclosed : ¬ ['/', '*'] <+: c :: (k ++ u)) (h : comment? (c :: (k ++ u)) = none) :
    comment? (c :: (k ++ v)) = none := by
  by_cases hslash : c = '/'
  · subst hslash
    cases k with
    | nil =>
      rcases hv.cases with rfl | ⟨d, more, rfl, _, hd⟩
      · rfl
      · apply comment?_of_second
        · rintro rfl
          exact absurd hd (by decide)
        · rintro rfl
          exact absurd hd (by decide)
    | cons d k =>
      apply comment?_of_second
      · rintro rfl
        cases h
      · rintro rfl
        exact hclosed ⟨k ++ u, rfl⟩
  · exact comment?_of_ne hslash

theorem Respaced.starts {part : Segment} {rest : List Segment} {s : List Char}
    (hpart : part.isGap = false) (hafter : ∀ next ∈ rest.head?, next.isGap = true → EndsOrBlank s)
    (h : Respaced rest s) (hparts : OneLine (part :: rest)) (hclosed : Closed (part :: rest)) :
    Starts (part.chars ++ s) part s := by
  obtain ⟨c, more, hchars, hfirst⟩ := hparts.first
  obtain ⟨k, u, v, hu, hv, hstops, hblank⟩ := h.meets hparts.tail hafter
  have hopen : ¬ ['/', '*'] <+: c :: ((more ++ k) ++ u) := by
    have hhead := hclosed.1 hpart
    rwa [flat_cons, hchars, hu, List.cons_append, ← List.append_assoc] at hhead
  have hcut : firstSegment c ((more ++ k) ++ u) = (part, k ++ u) := by
    rw [List.append_assoc, ← hu]
    exact hfirst
  -- the segment is no comment, so none was found in front of it
  have hnone : comment? (c :: ((more ++ k) ++ u)) = none := by
    cases hcomment : comment? (c :: ((more ++ k) ++ u)) with
    | none => rfl
    | some cut =>
      unfold firstSegment at hcut
      dsimp only at hcut
      rw [hcomment] at hcut
      rw [← (Prod.mk.inj hcut).1] at hpart
      cases hpart
  have hcomment : Carries comment? (c :: (more ++ k)) u v := by
    refine ⟨fun hfound => ?_, fun _ => comment?_respaced hblank hopen hnone⟩
    rw [List.cons_append, hnone] at hfound
    cases hfound
  have hquoted : Carries quoted? (c :: (more ++ k)) u v := by
    refine ⟨fun hfound => ?_, fun hmissed => ?_⟩
    · rw [(quoted?_cut hfound).split, List.append_assoc]
      exact quoted?_of_isQuoted (isQuoted_of_quoted? hfound) _
    · rw [List.cons_append, quoted?] at hmissed ⊢
      by_cases hquote : c = '"' ∨ c = '\''
      · rw [if_pos hquote, Option.map_eq_none_iff] at hmissed ⊢
        rw [List.append_assoc, ← hu] at hmissed
        rw [List.append_assoc, ← hv]
        obtain ⟨hplain, hescaped⟩ := h.closes hquote hparts.tail
        by_contra hne
        exact quoteEnd?_prepend hquote hplain (hescaped hafter) more hne hmissed
      · rw [if_neg hquote]
  have hne : c :: (more ++ k) ≠ [] := List.cons_ne_nil _ _
  have hnew : firstSegment c ((more ++ k) ++ v) = (part, k ++ v) := by
    apply firstSegment_carries hcomment _ hquoted _ _ hcut
    · exact .of_stop (extend_of_stops (fun d hd => number?_stop hd _) hstops)
        (extend_of_stops (fun d hd => number?_stop hd _) hblank.stops)
    · exact .of_stop (extend_of_stops (fun d hd more => operator?_stop hd _ more hne) hstops)
        (extend_of_stops (fun d hd more => operator?_stop hd _ more hne) hblank.stops)
    · exact .of_stop (extend_of_stops (fun d hd => word?_stop hd _) hstops)
        (extend_of_stops (fun d hd => word?_stop hd _) hblank.stops)
  refine ⟨c, more ++ s, by rw [hchars, List.cons_append], ?_⟩
  rw [hv, ← List.append_assoc]
  exact hnew

/-- **A text with other gaps is read as before.** -/
theorem reads_respaced {parts : List Segment} {s : List Char} (h : Respaced parts s)
    (hparts : OneLine parts) (hclosed : Closed parts) : reads s = reads (flat parts) := by
  rw [reads, reads, hparts.cut]
  induction h with
  | @nil blanks hblanks =>
    have hreads := reads_of_blanks hblanks.blank []
    rw [List.append_nil, reads_nil] at hreads
    exact hreads
  | @gap part rest blanks s hpart hblanks _ ih =>
    have hreads := reads_of_blanks hblanks.blank s
    rw [reads, reads, ih hparts.tail hclosed.2] at hreads
    rw [hreads, List.filterMap_cons]
    cases part with
    | blank c => rfl
    | comment text => rfl
    | lexeme _ _ => cases hpart
    | stray _ => cases hpart
  | keep hpart hafter h ih =>
    rw [segments_of_starts (h.starts hpart hafter hparts hclosed), List.filterMap_cons,
      List.filterMap_cons, ih hparts.tail hclosed.2]

/-! ## Trimming -/

namespace Respaced

variable {parts : List Segment} {s : List Char}

theorem of_blanks_append (h : Respaced parts s) (hparts : OneLine parts) {blanks t : List Char}
    (hs : s = blanks ++ t) (hblanks : ∀ c ∈ blanks, Text.isBlank c = true) : Respaced parts t := by
  induction h generalizing blanks t with
  | nil h => exact .nil fun c hc => h c (hs ▸ List.mem_append_right _ hc)
  | @gap part rest blanks' s hpart hblanks' h ih =>
    rcases List.append_eq_append_iff.1 hs with ⟨front, rfl, hback⟩ | ⟨back, rfl, rfl⟩
    · have hrest : Respaced rest t := ih hparts.tail hback fun c hc =>
        hblanks c (List.mem_append_right _ hc)
      have hnew : Respaced (part :: rest) ([] ++ t) := .gap hpart (by rintro c ⟨⟩) hrest
      exact hnew
    · exact .gap hpart (fun c hc => hblanks' c (List.mem_append_right _ hc)) h
  | @keep part rest s hpart hafter h ih =>
    obtain ⟨c, more, hchars, _⟩ := hparts.first
    have hvisible := (Segment.visible_of_fits hpart hparts.fits).1 c (by rw [hchars]; rfl)
    -- what is left out is blank and in front of something visible
    cases blanks with
    | nil =>
      rw [List.nil_append] at hs
      rw [← hs]
      exact .keep hpart hafter h
    | cons d blanks =>
      rw [hchars, List.cons_append, List.cons_append] at hs
      rw [(List.cons.inj hs).1, hblanks d List.mem_cons_self] at hvisible
      cases hvisible

theorem of_append_blanks (h : Respaced parts s) (hparts : OneLine parts) {blanks t : List Char}
    (hs : s = t ++ blanks) (hblanks : ∀ c ∈ blanks, Text.isBlank c = true) : Respaced parts t := by
  induction h generalizing blanks t with
  | nil h => exact .nil fun c hc => h c (hs ▸ List.mem_append_left _ hc)
  | @gap part rest blanks' s hpart hblanks' h ih =>
    rcases List.append_eq_append_iff.1 hs with ⟨front, rfl, hback⟩ | ⟨back, rfl, rfl⟩
    · exact .gap hpart hblanks' (ih hparts.tail hback hblanks)
    · have hrest : Respaced rest [] := by
        refine ih hparts.tail rfl fun c hc => ?_
        exact hblanks c (List.mem_append_right _ hc)
      have hnew := Respaced.gap hpart (fun c hc => hblanks' c (List.mem_append_left _ hc)) hrest
      rwa [List.append_nil] at hnew
  | @keep part rest s hpart hafter h ih =>
    rcases List.append_eq_append_iff.1 hs with ⟨front, rfl, hback⟩ | ⟨back, hchars, rfl⟩
    · refine .keep hpart (fun next hnext hgap => ?_) (ih hparts.tail hback hblanks)
      have hends := hafter next hnext hgap
      rw [hback] at hends
      intro c hc
      apply hends
      cases front with
      | nil => cases hc
      | cons d front => exact hc
    · -- the last character of something is visible, so nothing of it is left out
      have hback : back = [] := by
        rcases List.eq_nil_or_concat back with hback | ⟨front, c, rfl⟩
        · exact hback
        · have hvisible := (Segment.visible_of_fits hpart hparts.fits).2 c (by
            rw [hchars, List.concat_eq_append, ← List.append_assoc, List.getLast?_concat]
            rfl)
          rw [hblanks c (List.mem_append_left _ (by simp))] at hvisible
          cases hvisible
      rw [hback, List.append_nil] at hchars
      have hrest : Respaced rest [] := by
        refine ih hparts.tail rfl fun c hc => ?_
        exact hblanks c (List.mem_append_right _ hc)
      have hnew := Respaced.keep hpart (fun _ _ _ => by rintro c ⟨⟩) hrest
      rwa [List.append_nil, hchars] at hnew

/-- The blanks at the ends do not matter. -/
theorem trim (h : Respaced parts s) (hparts : OneLine parts) : Respaced parts (Text.trim s) := by
  obtain ⟨lead, tail, hs, hlead, htail⟩ := Text.exists_trim s
  exact (h.of_blanks_append hparts hs hlead).of_append_blanks hparts rfl htail

/-- What is seen first is what is seen first of the segments. -/
theorem head_trimLeft (h : Respaced parts s) (hparts : OneLine parts) :
    (Text.trimLeft s).head? =
      (parts.find? fun part => !part.isGap).bind fun part => part.chars.head? := by
  induction h with
  | @nil blanks hblanks =>
    rw [Text.trimLeft, List.dropWhile_eq_nil_iff.2 hblanks.blank]
    rfl
  | @gap part rest blanks s hpart hblanks _ ih =>
    rw [Text.trimLeft, List.dropWhile_append_of_pos hblanks.blank, List.find?_cons, hpart]
    exact ih hparts.tail
  | @keep part rest s hpart _ _ ih =>
    obtain ⟨c, more, hchars, _⟩ := hparts.first
    have hvisible := (Segment.visible_of_fits hpart hparts.fits).1 c (by rw [hchars]; rfl)
    rw [List.find?_cons, hpart, Text.trimLeft, hchars, List.cons_append,
      List.dropWhile_cons_of_neg (by rw [hvisible]; decide)]
    rw [Bool.not_false, Option.bind_some, hchars]
    rfl

end Respaced

end Stepwise.Token
