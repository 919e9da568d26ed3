/-
The two ways to take the comments out of a line.

A directive line is read with spaces in place of its comments, and quoted texts are
passed over whole (`blankComments`). The body of a macro is read with its comments
dropped, and a quoted text is not passed over (`dropComments`). On the segments of a
line both are simple: the first keeps every segment but a comment, for which it
writes spaces; the second keeps every segment but a comment, for which it writes
nothing.

So both texts are the line with other gaps, and are read alike, where the comments of
the line stand by themselves (`CommentsApart`): none begins inside quotes, none is
left open, and none is all that keeps two things apart.
-/
import Stepwise.Proofs.Respacing

set_option autoImplicit false

namespace Stepwise.Token

variable {part : Segment} {parts : List Segment}

/-- Is the segment a quoted text? -/
def Segment.isQuoted : Segment → Bool
  | lexeme .quoted _ => true
  | _ => false

/-! ## Where comments and quotes begin -/

theorem firstSegment_of_comment {c : Char} {rest : List Char} {cut : Cut}
    (h : comment? (c :: rest) = some cut) : firstSegment c rest = (.comment cut.1, cut.2) := by
  unfold firstSegment
  dsimp only
  rw [h]

theorem firstSegment_of_quoted {c : Char} {rest : List Char} {cut : Cut}
    (h : quoted? (c :: rest) = some cut) :
    firstSegment c rest = (.lexeme .quoted cut.1, cut.2) := by
  have hquote : c = '"' ∨ c = '\'' := by
    by_contra hne
    rw [quoted?_of_ne hne] at h
    cases h
  have hclass : ∀ c ∈ ['"', '\''], c ≠ '/' ∧ Text.isDecimal c = false := by decide
  obtain ⟨hslash, hdecimal⟩ := hclass c (by rcases hquote with rfl | rfl <;> decide)
  unfold firstSegment
  dsimp only
  rw [comment?_of_ne hslash, number?_of_not_decimal hdecimal, h]

/-- A text whose first segment is neither a comment nor quoted begins with neither, and what follows
its first character in the segment has no slash and no quote. -/
theorem OneLine.plain (hparts : OneLine (part :: parts)) (hcomment : part.isComment = false)
    (hquoted : part.isQuoted = false) :
    ∃ c more, part.chars = c :: more ∧ comment? (c :: (more ++ flat parts)) = none ∧
      quoted? (c :: (more ++ flat parts)) = none ∧
      ∀ d ∈ more, d ≠ '/' ∧ ¬ (d = '"' ∨ d = '\'') := by
  obtain ⟨c, more, hchars, hfirst⟩ := hparts.first
  have hfits := hparts.fits
  refine ⟨c, more, hchars, ?_, ?_, ?_⟩
  · cases hcut : comment? (c :: (more ++ flat parts)) with
    | none => rfl
    | some cut =>
      rw [firstSegment_of_comment hcut] at hfirst
      rw [← (Prod.mk.inj hfirst).1] at hcomment
      cases hcomment
  · cases hcut : quoted? (c :: (more ++ flat parts)) with
    | none => rfl
    | some cut =>
      rw [firstSegment_of_quoted hcut] at hfirst
      rw [← (Prod.mk.inj hfirst).1] at hquoted
      cases hquoted
  · cases part with
    | comment _ => cases hcomment
    | blank _ =>
      obtain ⟨_, rfl⟩ := List.cons.inj hchars
      rintro d ⟨⟩
    | stray _ =>
      obtain ⟨_, rfl⟩ := List.cons.inj hchars
      rintro d ⟨⟩
    | lexeme lexeme text =>
      replace hchars : text = c :: more := hchars
      -- none of the three characters is in a number or a word, or behind the first of a sign
      have hsigns : ∀ text ∈ operatorTexts, ∀ d ∈ ['/', '"', '\''], d ∉ text.tail := by
        rw [operatorTexts_eq]
        decide
      have hwords : ∀ d ∈ ['/', '"', '\''], Text.isWordChar d = false := by decide
      have hfree : ∀ d ∈ ['/', '"', '\''], d ∉ more := by
        intro d hd hmem
        have htext : d ∈ text := hchars ▸ List.mem_cons_of_mem _ hmem
        cases lexeme with
        | quoted => cases hquoted
        | operator =>
          have htail := hsigns text (mem_operatorTexts.2 hfits.1) d hd
          rw [hchars] at htail
          exact htail hmem
        | word =>
          have hword := hfits.2.1 d htext
          rw [hwords d hd] at hword
          cases hword
        | number =>
          have hnumber : ∀ d ∈ ['/', '"', '\''], isHexDigit d = false ∧ isWholeMark d = false ∧
              isFloatMark d = false ∧ Text.isDecimal d = false ∧
              d ∉ ['0', 'x', 'X', 'e', 'E', '+', '-', '.'] := by decide
          obtain ⟨hhex, hwhole, hfloat, hdecimal, hother⟩ := hnumber d hd
          exact IsNumber.not_mem hfits hhex hwhole hfloat hdecimal hother htext
      intro d hd
      refine ⟨?_, ?_⟩
      · rintro rfl
        exact hfree '/' (by decide) hd
      · rintro (rfl | rfl)
        · exact hfree '"' (by decide) hd
        · exact hfree '\'' (by decide) hd

/-! ## Comments dropped -/

/-- The text of the segments without the comments. -/
def withoutComments (parts : List Segment) : List Char :=
  flat (parts.filter fun part => !part.isComment)

theorem withoutComments_cons (part : Segment) (parts : List Segment) :
    withoutComments (part :: parts) =
      (if part.isComment then [] else part.chars) ++ withoutComments parts := by
  unfold withoutComments
  rw [List.filter_cons]
  cases part.isComment <;> rfl

theorem withoutComments_append (front back : List Segment) :
    withoutComments (front ++ back) = withoutComments front ++ withoutComments back := by
  rw [withoutComments, List.filter_append, flat, List.flatMap_append]
  rfl

/-- No comment begins within a text in front of `after`. -/
def Quiet : List Char → List Char → Prop
  | [], _ => True
  | c :: s, after => comment? (c :: (s ++ after)) = none ∧ Quiet s after

instance decidableQuiet : (s after : List Char) → Decidable (Quiet s after)
  | [], _ => isTrue trivial
  | c :: s, after =>
    have := decidableQuiet s after
    inferInstanceAs (Decidable (comment? (c :: (s ++ after)) = none ∧ Quiet s after))

theorem quiet_of_no_slash {s : List Char} (h : ∀ c ∈ s, c ≠ '/') (after : List Char) :
    Quiet s after := by
  induction s with
  | nil => trivial
  | cons c s ih =>
    rw [List.forall_mem_cons] at h
    exact ⟨comment?_of_ne h.1, ih h.2⟩

theorem dropComments_of_comment {s : List Char} {cut : Cut} (h : comment? s = some cut) :
    Macro.dropComments s = Macro.dropComments cut.2 := by
  cases s with
  | nil => cases h
  | cons c rest =>
    rw [Macro.dropComments]
    split
    · next cut' hcut' =>
      rw [h] at hcut'
      rw [Option.some.inj hcut']
    · next hnone =>
      rw [h] at hnone
      cases hnone

theorem dropComments_cons {c : Char} {rest : List Char} (h : comment? (c :: rest) = none) :
    Macro.dropComments (c :: rest) = c :: Macro.dropComments rest := by
  rw [Macro.dropComments]
  split
  · next cut hcut =>
    rw [h] at hcut
    cases hcut
  · rfl

theorem dropComments_of_quiet {s after : List Char} (h : Quiet s after) :
    Macro.dropComments (s ++ after) = s ++ Macro.dropComments after := by
  induction s with
  | nil => rfl
  | cons c s ih =>
    rw [List.cons_append, dropComments_cons h.1, ih h.2, List.cons_append]

/-- No comment begins inside quotes. -/
def QuotesQuiet : List Segment → Prop
  | [] => True
  | part :: rest => (part.isQuoted = true → Quiet part.chars (flat rest)) ∧ QuotesQuiet rest

instance decidableQuotesQuiet : (parts : List Segment) → Decidable (QuotesQuiet parts)
  | [] => isTrue trivial
  | part :: rest =>
    have := decidableQuotesQuiet rest
    inferInstanceAs (Decidable
      ((part.isQuoted = true → Quiet part.chars (flat rest)) ∧ QuotesQuiet rest))

theorem dropComments_flat (hparts : OneLine parts) (hquiet : QuotesQuiet parts) :
    Macro.dropComments (flat parts) = withoutComments parts := by
  induction parts with
  | nil =>
    rw [flat_nil, Macro.dropComments]
    rfl
  | cons part parts ih =>
    have hrest := ih hparts.tail hquiet.2
    rw [withoutComments_cons, flat_cons]
    by_cases hcomment : part.isComment = true
    · rw [if_pos hcomment]
      cases part with
      | comment text =>
        have hcut : comment? ((Segment.comment text).chars ++ flat parts) =
            some (text, flat parts) := comment?_of_isComment hparts.fits
        rw [dropComments_of_comment hcut]
        exact hrest
      | blank _ => cases hcomment
      | lexeme _ _ => cases hcomment
      | stray _ => cases hcomment
    · have hchars : Quiet part.chars (flat parts) := by
        by_cases hquoted : part.isQuoted = true
        · exact hquiet.1 hquoted
        · obtain ⟨c, more, heq, hnone, _, hmore⟩ := hparts.plain
            (Bool.eq_false_of_not_eq_true hcomment) (Bool.eq_false_of_not_eq_true hquoted)
          rw [heq]
          exact ⟨hnone, quiet_of_no_slash (fun d hd => (hmore d hd).1) _⟩
      rw [if_neg hcomment, dropComments_of_quiet hchars, hrest]

/-! ## Blanks behind a comment -/

/-- A comment that is not closed is not closed by blanks. -/
theorem blockEnd?_append_blanks {s t : List Char} (ht : '/' ∉ t) (h : blockEnd? s = none) :
    blockEnd? (s ++ t) = none := by
  cases hcut : blockEnd? (s ++ t) with
  | none => rfl
  | some cut =>
    refine absurd h (blockEnd?_ne_none ?_)
    obtain ⟨front, hfront, _⟩ := blockEnd?_first hcut
    have heq : (front ++ ['*', '/']) ++ cut.2 = s ++ t := by
      rw [← hfront]
      exact (blockEnd?_cut hcut).1
    rcases List.append_eq_append_iff.1 heq with ⟨more, hs, _⟩ | ⟨more, hs, hback⟩
    · exact ⟨front, more, hs.symm⟩
    · -- the closing mark ends in a slash, which is not among the blanks
      rcases List.eq_nil_or_concat more with rfl | ⟨init, last, rfl⟩
      · rw [List.append_nil] at hs
        exact ⟨front, [], by rw [List.append_nil, hs]⟩
      · have hlast := congrArg List.getLast? hs
        rw [List.concat_eq_append, ← List.append_assoc, List.getLast?_concat,
          List.getLast?_append] at hlast
        obtain rfl : '/' = last := Option.some.inj hlast
        refine absurd ?_ ht
        rw [hback]
        exact List.mem_append_left _ (by simp)

theorem comment?_append_blanks {s t : List Char} (hline : '\n' ∉ s) (ht : LineBlanks t) {cut : Cut}
    (h : comment? s = some cut) :
    ∃ u, LineBlanks u ∧ ∃ more, comment? (s ++ t) = some (more, cut.2 ++ u) := by
  have hs := (comment?_cut h).1
  rcases isComment_of_comment? h with ⟨body, hbody, hfree, hafter⟩ | hblock
  · -- to the end of the line the comment takes the blanks along
    have hrest : cut.2 = [] := by
      cases hrest : cut.2 with
      | nil => rfl
      | cons c more =>
        refine absurd ?_ hline
        rw [← hs, hrest, hafter c (by rw [hrest]; rfl)]
        exact List.mem_append_right _ List.mem_cons_self
    rw [hrest, List.append_nil] at hs
    refine ⟨[], by rintro c ⟨⟩, s ++ t, ?_⟩
    rw [hrest]
    have hcomment : IsComment (s ++ t) [] := by
      refine Or.inl ⟨body ++ t, ?_, ?_, by rintro c ⟨⟩⟩
      · rw [← hs, hbody]
        rfl
      · rw [List.mem_append, not_or]
        exact ⟨hfree, fun hmem => (ht _ hmem).2 rfl⟩
    have hcut := comment?_of_isComment hcomment
    rwa [List.append_nil] at hcut
  · refine ⟨t, ht, cut.1, ?_⟩
    have hcomment : IsComment cut.1 (cut.2 ++ t) := Or.inr hblock
    have hcut := comment?_of_isComment hcomment
    rwa [← List.append_assoc, hs] at hcut

theorem comment?_eq_none_append {c : Char} {s t : List Char} (ht : LineBlanks t)
    (h : comment? (c :: s) = none) : comment? (c :: (s ++ t)) = none := by
  by_cases hslash : c = '/'
  · subst hslash
    cases s with
    | nil =>
      cases t with
      | nil => rfl
      | cons d t =>
        have hd := (ht d List.mem_cons_self).1
        apply comment?_of_second
        · rintro rfl
          exact absurd hd (by decide)
        · rintro rfl
          exact absurd hd (by decide)
    | cons d s =>
      by_cases hstar : d = '*'
      · subst hstar
        have hopen : blockEnd? s = none := by
          rwa [comment?, Option.map_eq_none_iff] at h
        have hfree : '/' ∉ t := fun hmem => absurd (ht _ hmem).1 (by decide)
        rw [List.cons_append, comment?, blockEnd?_append_blanks hfree hopen]
        rfl
      · apply comment?_of_second _ hstar
        rintro rfl
        cases h
  · exact comment?_of_ne hslash

/-- Blanks behind a line stay behind it, or go with a comment. -/
theorem dropComments_append_blanks {s t : List Char} (hline : '\n' ∉ s) (ht : LineBlanks t) :
    ∃ u, LineBlanks u ∧ Macro.dropComments (s ++ t) = Macro.dropComments s ++ u := by
  fun_induction Macro.dropComments s generalizing t with
  | case1 =>
    refine ⟨t, ht, ?_⟩
    have hquiet : Quiet t [] := by
      refine quiet_of_no_slash (fun c hc => ?_) []
      rintro rfl
      exact absurd (ht _ hc).1 (by decide)
    have hdrop := dropComments_of_quiet hquiet
    rwa [Macro.dropComments, List.append_nil] at hdrop
  | case2 c rest cut hcut ih =>
    obtain ⟨u, hu, more, hmore⟩ := comment?_append_blanks hline ht hcut
    have hrest : '\n' ∉ cut.2 := by
      intro hmem
      refine hline ?_
      rw [← (comment?_cut hcut).1]
      exact List.mem_append_right _ hmem
    rw [dropComments_of_comment hmore]
    exact ih hrest hu
  | case3 c rest hnone ih =>
    rw [List.mem_cons, not_or] at hline
    obtain ⟨u, hu, hdrop⟩ := ih hline.2 ht
    refine ⟨u, hu, ?_⟩
    rw [List.cons_append, dropComments_cons (comment?_eq_none_append ht hnone), hdrop,
      List.cons_append]

/-! ## Comments written as spaces -/

/-- The characters of a segment, those of a comment written as spaces. -/
def Segment.spaces : Segment → List Char
  | comment text => List.replicate text.length ' '
  | part => part.chars

/-- The text of the segments with spaces in place of the comments. -/
def withSpaces (parts : List Segment) : List Char :=
  parts.flatMap Segment.spaces

theorem withSpaces_cons (part : Segment) (parts : List Segment) :
    withSpaces (part :: parts) = part.spaces ++ withSpaces parts := List.flatMap_cons

theorem blankComments_of_quoted {text after : List Char} (h : IsQuoted text) :
    blankComments (text ++ after) = text ++ blankComments after := by
  have hcut := quoted?_of_isQuoted h after
  obtain ⟨quote, tail, rfl, _⟩ := h
  rw [List.cons_append, blankComments]
  split
  · next cut hcut' =>
    rw [← List.cons_append, hcut] at hcut'
    rw [← Option.some.inj hcut']
  · next hnone =>
    rw [← List.cons_append, hcut] at hnone
    cases hnone

theorem blankComments_of_comment {text after : List Char} (h : IsComment text after) :
    blankComments (text ++ after) = List.replicate text.length ' ' ++ blankComments after := by
  have hcut := comment?_of_isComment h
  obtain ⟨more, rfl⟩ : ∃ more, text = '/' :: more := by
    rcases h with ⟨body, rfl, _⟩ | ⟨body, rfl, _⟩
    · exact ⟨_, rfl⟩
    · exact ⟨_, rfl⟩
  rw [List.cons_append, blankComments]
  split
  · next cut hcut' =>
    rw [quoted?_of_ne (by decide)] at hcut'
    cases hcut'
  · split
    · next cut hcut' =>
      rw [← List.cons_append, hcut] at hcut'
      rw [← Option.some.inj hcut']
    · next hnone =>
      rw [← List.cons_append, hcut] at hnone
      cases hnone

theorem blankComments_cons {c : Char} {rest : List Char} (hquoted : quoted? (c :: rest) = none)
    (hcomment : comment? (c :: rest) = none) (hopen : ¬ ['/', '*'] <+: c :: rest) :
    blankComments (c :: rest) = c :: blankComments rest := by
  rw [blankComments]
  split
  · next cut hcut =>
    rw [hquoted] at hcut
    cases hcut
  · split
    · next cut hcut =>
      rw [hcomment] at hcut
      cases hcut
    · rw [if_neg]
      rintro ⟨rfl, hstar⟩
      obtain ⟨more, rfl⟩ := List.head?_eq_some_iff.1 hstar
      exact hopen ⟨more, rfl⟩

/-- Characters that begin neither a comment nor a quoted text are kept. -/
theorem blankComments_plain {s : List Char} (h : ∀ c ∈ s, c ≠ '/' ∧ ¬ (c = '"' ∨ c = '\''))
    (after : List Char) : blankComments (s ++ after) = s ++ blankComments after := by
  induction s with
  | nil => rfl
  | cons c s ih =>
    obtain ⟨hslash, hquote⟩ := h c List.mem_cons_self
    rw [List.cons_append, blankComments_cons (quoted?_of_ne hquote) (comment?_of_ne hslash),
      ih fun d hd => h d (List.mem_cons_of_mem _ hd), List.cons_append]
    rintro ⟨more, heq⟩
    exact hslash (List.cons.inj heq).1.symm

/-- What is written for a text with its comments blanked begins like the text or with a space. -/
theorem head_blankComments {s : List Char} :
    ∀ c ∈ (blankComments s).head?, s.head? = some c ∨ c = ' ' := by
  intro c hc
  cases s with
  | nil =>
    rw [blankComments] at hc
    cases hc
  | cons d s =>
    rw [blankComments] at hc
    split at hc
    · next cut hcut =>
      have hcut := quoted?_cut hcut
      obtain ⟨first, more, hfirst⟩ := List.exists_cons_of_ne_nil hcut.2
      rw [hfirst] at hc
      have hwhole := hcut.1
      rw [hfirst] at hwhole
      rw [← hwhole]
      exact Or.inl hc
    · split at hc
      · next cut hcut =>
        obtain ⟨first, more, hfirst⟩ := List.exists_cons_of_ne_nil (comment?_cut hcut).2
        rw [hfirst] at hc
        exact Or.inr (Option.some.inj hc).symm
      · split at hc
        · exact Or.inr (Option.some.inj hc).symm
        · exact Or.inl hc

theorem blankComments_flat (hparts : OneLine parts) (hclosed : Closed parts) :
    blankComments (flat parts) = withSpaces parts := by
  induction parts with
  | nil =>
    rw [flat_nil, blankComments]
    rfl
  | cons part parts ih =>
    have hrest := ih hparts.tail hclosed.2
    rw [withSpaces_cons, ← hrest, flat_cons]
    -- a comment turns to spaces, a quoted text stays whole, and the rest character by character
    by_cases hcomment : part.isComment = true
    · cases part with
      | comment text => exact blankComments_of_comment hparts.fits
      | blank _ => cases hcomment
      | lexeme _ _ => cases hcomment
      | stray _ => cases hcomment
    · have hspaces : part.spaces = part.chars := by
        cases part with
        | comment text => exact absurd rfl hcomment
        | _ => rfl
      rw [hspaces]
      by_cases hquoted : part.isQuoted = true
      · have hfits : IsQuoted part.chars := by
          cases part with
          | lexeme lexeme text =>
            cases lexeme with
            | quoted => exact hparts.fits
            | _ => cases hquoted
          | _ => cases hquoted
        exact blankComments_of_quoted hfits
      · obtain ⟨c, more, hchars, hnone, hunquoted, hmore⟩ := hparts.plain
          (Bool.eq_false_of_not_eq_true hcomment) (Bool.eq_false_of_not_eq_true hquoted)
        have hopen : ¬ ['/', '*'] <+: c :: (more ++ flat parts) := by
          by_cases hgap : part.isGap = true
          · -- a blank is no slash
            cases part with
            | blank d =>
              obtain ⟨rfl, rfl⟩ := List.cons.inj hchars
              rintro ⟨rest, heq⟩
              rw [← (List.cons.inj heq).1] at hparts
              exact absurd (show Text.isBlank '/' = true from hparts.fits) (by decide)
            | comment _ => exact absurd rfl hcomment
            | lexeme _ _ => cases hgap
            | stray _ => cases hgap
          · have hhead := hclosed.1 (Bool.eq_false_of_not_eq_true hgap)
            rwa [flat_cons, hchars, List.cons_append] at hhead
        rw [hchars, List.cons_append, blankComments_cons hunquoted hnone hopen,
          blankComments_plain hmore, List.cons_append]

/-! ## Both read alike -/

/-- Where gaps stand between two things, one of them is a blank. -/
def Apart : List Segment → Prop
  | [] => True
  | part :: rest =>
    (part.isGap = false → rest.takeWhile Segment.isGap ≠ [] → rest.dropWhile Segment.isGap ≠ [] →
      ∃ gap ∈ rest.takeWhile Segment.isGap, gap.isComment = false) ∧ Apart rest

instance decidableApart : (parts : List Segment) → Decidable (Apart parts)
  | [] => isTrue trivial
  | part :: rest =>
    have := decidableApart rest
    inferInstanceAs (Decidable
      ((part.isGap = false → rest.takeWhile Segment.isGap ≠ [] →
        rest.dropWhile Segment.isGap ≠ [] →
        ∃ gap ∈ rest.takeWhile Segment.isGap, gap.isComment = false) ∧ Apart rest))

theorem OneLine.blank {c : Char} (hparts : OneLine (.blank c :: parts)) : LineBlanks [c] := by
  intro d hd
  rw [List.mem_singleton.1 hd]
  have hfeed : '\n' ∉ [c] := hparts.head_line
  exact ⟨hparts.fits, fun heq => hfeed (heq ▸ List.mem_cons_self)⟩

theorem lineBlanks_spaces (n : Nat) : LineBlanks (List.replicate n ' ') := by
  intro c hc
  rw [List.eq_of_mem_replicate hc]
  decide

theorem respaced_withSpaces (hparts : OneLine parts) : Respaced parts (withSpaces parts) := by
  induction parts with
  | nil => exact .nil (by rintro c ⟨⟩)
  | cons part parts ih =>
    have hrest := ih hparts.tail
    -- a gap begins with a blank or a space
    have hafter : ∀ next ∈ parts.head?, next.isGap = true → EndsOrBlank (withSpaces parts) := by
      intro next hnext hgap
      obtain ⟨more, rfl⟩ := List.head?_eq_some_iff.1 hnext
      rw [withSpaces_cons]
      cases next with
      | blank c =>
        rintro _ ⟨⟩
        exact hparts.tail.fits
      | comment text =>
        obtain ⟨c, rest, htext, _⟩ := hparts.tail.first
        replace htext : text = c :: rest := htext
        rw [Segment.spaces, htext, List.length_cons, List.replicate_succ]
        rintro _ ⟨⟩
        decide
      | lexeme _ _ => cases hgap
      | stray _ => cases hgap
    rw [withSpaces_cons]
    cases part with
    | blank c => exact .gap rfl hparts.blank hrest
    | comment text => exact .gap rfl (lineBlanks_spaces _) hrest
    | lexeme _ _ => exact .keep rfl hafter hrest
    | stray _ => exact .keep rfl hafter hrest

/-- Of gaps only blanks are left. -/
theorem lineBlanks_withoutComments {gaps : List Segment} (hparts : OneLine (gaps ++ parts))
    (hgaps : ∀ gap ∈ gaps, gap.isGap = true) : LineBlanks (withoutComments gaps) := by
  induction gaps with
  | nil => rintro c ⟨⟩
  | cons gap gaps ih =>
    rw [List.forall_mem_cons] at hgaps
    rw [List.cons_append] at hparts
    have hrest := ih hparts.tail hgaps.2
    rw [withoutComments_cons]
    cases gap with
    | blank c =>
      intro d hd
      rcases List.mem_append.1 hd with hd | hd
      · exact hparts.blank d hd
      · exact hrest d hd
    | comment _ => exact hrest
    | lexeme _ _ => cases hgaps.1
    | stray _ => cases hgaps.1

/-- What is left behind something begins with a blank if a gap stood there. -/
theorem endsOrBlank_withoutComments (hparts : OneLine (part :: parts))
    (hapart : Apart (part :: parts)) (hpart : part.isGap = false)
    (hafter : ∃ next ∈ parts.head?, next.isGap = true) : EndsOrBlank (withoutComments parts) := by
  have hne : parts.takeWhile Segment.isGap ≠ [] := by
    obtain ⟨next, hnext, hgap⟩ := hafter
    obtain ⟨more, rfl⟩ := List.head?_eq_some_iff.1 hnext
    rw [List.takeWhile_cons_of_pos hgap]
    exact List.cons_ne_nil _ _
  have hblank := hapart.1 hpart hne
  -- the gaps up to the next thing, if there is one
  have hsplit : parts = parts.takeWhile Segment.isGap ++ parts.dropWhile Segment.isGap :=
    List.takeWhile_append_dropWhile.symm
  have hgaps : ∀ gap ∈ parts.takeWhile Segment.isGap, gap.isGap = true :=
    fun gap => List.mem_takeWhile_imp
  generalize parts.takeWhile Segment.isGap = gaps at hsplit hgaps hblank
  generalize parts.dropWhile Segment.isGap = back at hsplit hblank
  subst hsplit
  have hblanks := lineBlanks_withoutComments hparts.tail hgaps
  by_cases hback : back = []
  · rw [hback, List.append_nil]
    exact hblanks.endsOrBlank
  · obtain ⟨gap, hgap, hcomment⟩ := hblank hback
    have hkept : withoutComments gaps ≠ [] := by
      have hmem : gap ∈ gaps.filter fun part => !part.isComment :=
        List.mem_filter.2 ⟨hgap, by rw [hcomment]; rfl⟩
      intro hnil
      have hempty := List.flatMap_eq_nil_iff.1 hnil _ hmem
      have hisGap := hgaps gap hgap
      cases gap with
      | blank _ => cases hempty
      | comment _ => cases hcomment
      | lexeme _ _ => cases hisGap
      | stray _ => cases hisGap
    rw [withoutComments_append]
    obtain ⟨d, more, heq⟩ := List.exists_cons_of_ne_nil hkept
    rw [heq] at hblanks ⊢
    rintro _ ⟨⟩
    exact (hblanks d List.mem_cons_self).1

theorem respaced_withoutComments (hparts : OneLine parts) (hapart : Apart parts) :
    Respaced parts (withoutComments parts) := by
  induction parts with
  | nil => exact .nil (by rintro c ⟨⟩)
  | cons part parts ih =>
    have hrest := ih hparts.tail hapart.2
    rw [withoutComments_cons]
    by_cases hgap : part.isGap = true
    · cases part with
      | blank c => exact .gap rfl hparts.blank hrest
      | comment text =>
        have hnew : Respaced (.comment text :: parts) ([] ++ withoutComments parts) :=
          .gap rfl (by rintro c ⟨⟩) hrest
        exact hnew
      | lexeme _ _ => cases hgap
      | stray _ => cases hgap
    · replace hgap := Bool.eq_false_of_not_eq_true hgap
      have hcomment : part.isComment = false := by
        cases part with
        | comment _ => cases hgap
        | _ => rfl
      rw [hcomment, if_neg Bool.false_ne_true]
      refine .keep hgap (fun next hnext hnextGap => ?_) hrest
      exact endsOrBlank_withoutComments hparts hapart hgap ⟨next, hnext, hnextGap⟩

/-- The comments of a line stand by themselves: none begins inside quotes, none is left open, and
none is all that keeps two things apart; and if there are any, a mark of a directive is not the
first thing to be seen. -/
structure CommentsApart (line : List Char) : Prop where
  quiet : QuotesQuiet (segments line)
  closed : Closed (segments line)
  apart : Apart (segments line)
  unmarked : (∃ part ∈ segments line, part.isComment = true) →
    ((segments line).find? fun part => !part.isGap).bind (fun part => part.chars.head?) ≠ some '#'

/-- The tokens of a text as kinds and texts. -/
def contents (text : String) : List (Kind × String) :=
  (Stepwise.tokenize text).map fun t => (t.kind, t.text)

theorem Undirected.contents {text : String} (h : Undirected text) :
    contents text = (reads text.toList).map fun t => (t.kind, t.text) := by
  rw [← h.map_unplaced, List.map_map]
  rfl

/-- A single line is no directive if its first visible character is no mark. -/
theorem undirected_of_line {line : List Char} (hline : '\n' ∉ line)
    (hmark : (Text.trimLeft line).head? ≠ some '#') : Undirected (String.ofList line) := by
  intro piece hpiece
  rw [String.toList_ofList, Text.pieces, cutAt_of_not_mem hline] at hpiece
  rw [List.mem_singleton.1 hpiece, isDirective]
  exact beq_eq_false_iff_ne.2 hmark

theorem contents_nil : contents (String.ofList []) = [] := by
  rw [(undirected_of_line List.not_mem_nil (by decide)).contents, String.toList_ofList, reads,
    segments]
  rfl

/-- A new text with other gaps has the tokens of the line. -/
theorem contents_respaced {s : List Char} (h : Respaced parts s) (hparts : OneLine parts)
    (hclosed : Closed parts)
    (hmark : (parts.find? fun part => !part.isGap).bind (fun part => part.chars.head?) ≠ some '#') :
    contents (String.ofList s) = (reads (flat parts)).map fun t => (t.kind, t.text) := by
  rw [← h.head_trimLeft hparts] at hmark
  rw [(undirected_of_line (h.no_feed hparts) hmark).contents, String.toList_ofList,
    reads_respaced h hparts hclosed]

/-- **Dropping the comments of a line gives the tokens that writing spaces for them gives**, where
they stand by themselves. -/
theorem contents_trim_eq {line : List Char} (hline : '\n' ∉ line) (h : CommentsApart line) :
    contents (String.ofList (Text.trim (Macro.dropComments line))) =
      contents (String.ofList (Text.trim (blankComments line))) := by
  have hparts : OneLine (segments line) := .of_segments hline
  have hflat : flat (segments line) = line := segments_flatten line
  have hdrop : Macro.dropComments line = withoutComments (segments line) := by
    rw [← dropComments_flat hparts h.quiet, hflat]
  have hspaces : blankComments line = withSpaces (segments line) := by
    rw [← blankComments_flat hparts h.closed, hflat]
  by_cases hcomment : ∃ part ∈ segments line, part.isComment = true
  · have hmark := h.unmarked hcomment
    rw [hdrop, hspaces,
      contents_respaced ((respaced_withoutComments hparts h.apart).trim hparts) hparts h.closed hmark,
      contents_respaced ((respaced_withSpaces hparts).trim hparts) hparts h.closed hmark]
  · -- without comments both texts are the line itself
    have hnone : ∀ part ∈ segments line, part.isComment = false := by
      intro part hpart
      exact Bool.eq_false_of_not_eq_true fun heq => hcomment ⟨part, hpart, heq⟩
    have hwithout : withoutComments (segments line) = flat (segments line) := by
      rw [withoutComments, List.filter_eq_self.2]
      intro part hpart
      rw [hnone part hpart]
      rfl
    have hwith : withSpaces (segments line) = flat (segments line) := by
      refine List.flatMap_congr fun part hpart => ?_
      cases part with
      | comment text =>
        have htrue := hnone _ hpart
        cases htrue
      | _ => rfl
    rw [hdrop, hspaces, hwithout, hwith]

end Stepwise.Token
