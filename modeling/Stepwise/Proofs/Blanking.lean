/-
A comment replaced by spaces.

A block comment is one segment. With its characters replaced by spaces, and its
line feeds kept, it is as many blanks, and the other segments and their places
stay what they are (`segments_blanked`, `filterMap_placed_blanked`).

In front of the comment this needs an argument: a rule that was tried there may
have read up to the comment, and where it failed it must fail on the spaces too.
Numbers, operators and words stop at a slash and at a space alike; an open quote
that finds no closing quote finds none after the comment's backslashes and quotes
are gone.
-/
import Mathlib.Data.List.Find
import Stepwise.Proofs.Rereading

set_option autoImplicit false

namespace Stepwise.Token

/-- The text with spaces in place of all characters but the line feeds. -/
def blanked (s : List Char) : List Char :=
  s.map fun c => if c = '\n' then '\n' else ' '

/-! ## Rules that stop in front of a character -/

/-- A cut of a text, with more text behind. -/
def Cut.extend (cut : Cut) (more : List Char) : Cut :=
  (cut.1, cut.2 ++ more)

/-- Nothing but an operator begins with one of these, and nothing else but a comment, a quoted text
or a blank goes on with one. -/
def stops : List Char :=
  '/' :: blankChars

theorem slash_mem_stops : '/' ∈ stops :=
  List.mem_cons_self

theorem mem_stops_of_blank {c : Char} (h : Text.isBlank c = true) : c ∈ stops :=
  List.mem_cons_of_mem _ (mem_blankChars h)

theorem stops_class : ∀ c ∈ stops, isHexDigit c = false ∧ isWholeMark c = false ∧
    isFloatMark c = false ∧ Text.isDecimal c = false ∧ Text.isWordChar c = false ∧
    c ∉ ['0', 'x', 'X', 'e', 'E', '+', '-', '.'] ∧ ∀ text ∈ operatorTexts, c ∉ text.tail := by
  have hword : ∀ c ∈ stops, Text.isWordChar c = false := by
    have hblanks : ∀ c ∈ blankChars, Text.isBlank c = true := by decide
    intro c hc
    rcases List.mem_cons.1 hc with rfl | hc
    · decide
    · exact (not_word_of_blank (hblanks c hc)).1
  have hnumber : ∀ c ∈ stops, isHexDigit c = false ∧ isWholeMark c = false ∧
      isFloatMark c = false ∧ Text.isDecimal c = false ∧
      c ∉ ['0', 'x', 'X', 'e', 'E', '+', '-', '.'] := by decide +kernel
  have hsigns : ∀ c ∈ stops, ∀ text ∈ operatorTexts, c ∉ text.tail := by
    rw [operatorTexts_eq]
    decide +kernel
  intro c hc
  obtain ⟨hhex, hwhole, hfloat, hdecimal, hother⟩ := hnumber c hc
  exact ⟨hhex, hwhole, hfloat, hdecimal, hword c hc, hother, hsigns c hc⟩

theorem IsNumber.not_mem_of_stop {text : List Char} (h : IsNumber text) {c : Char}
    (hc : c ∈ stops) : c ∉ text := by
  obtain ⟨hhex, hwhole, hfloat, hdecimal, _, hother, _⟩ := stops_class c hc
  exact h.not_mem hhex hwhole hfloat hdecimal hother

theorem floatNumber?_of_point {s rest : List Char}
    (h : s.dropWhile Text.isDecimal = '.' :: rest) :
    floatNumber? s =
      if s.takeWhile Text.isDecimal = [] then none
      else
        let exponent := exponentPart (rest.dropWhile Text.isDecimal)
        let mark := floatMark exponent.2
        some (s.takeWhile Text.isDecimal ++ '.' :: rest.takeWhile Text.isDecimal ++ exponent.1 ++
          mark.1, mark.2) := by
  unfold floatNumber?
  rw [h]
  rfl

theorem floatNumber?_eq_none {s : List Char}
    (h : (s.dropWhile Text.isDecimal).head? ≠ some '.') : floatNumber? s = none := by
  unfold floatNumber?
  dsimp only
  split
  · next heq =>
    rw [heq] at h
    exact absurd rfl h
  · rfl

section Stops

variable {c : Char} (hc : c ∈ stops) (s more : List Char)

theorem takeWhile_stop {p : Char → Bool} (h : p c = false) :
    (s ++ c :: more).takeWhile p = s.takeWhile p := by
  induction s with
  | nil => rw [List.nil_append, List.takeWhile_cons, h]; rfl
  | cons d s ih => rw [List.cons_append, List.takeWhile_cons, List.takeWhile_cons, ih]

theorem dropWhile_stop {p : Char → Bool} (h : p c = false) :
    (s ++ c :: more).dropWhile p = s.dropWhile p ++ c :: more := by
  induction s with
  | nil => rw [List.nil_append, List.dropWhile_cons, h]; rfl
  | cons d s ih =>
    rw [List.cons_append, List.dropWhile_cons, List.dropWhile_cons, ih]
    split <;> rfl

include hc

theorem hexNumber?_stop :
    hexNumber? (s ++ c :: more) = (hexNumber? s).map (·.extend (c :: more)) := by
  obtain ⟨hhex, hmark, _, _, _, hother, _⟩ := stops_class c hc
  match s with
  | [] =>
    unfold hexNumber?
    split
    · next heq =>
      obtain rfl := (List.cons.inj heq).1
      exact absurd (by decide) hother
    · rfl
  | [d] =>
    have hfree : c ≠ 'x' ∧ c ≠ 'X' := by
      constructor <;> (rintro rfl; exact absurd (by decide) hother)
    rw [List.singleton_append, hexNumber?_eq_none (by rintro e ⟨⟩; exact hfree),
      hexNumber?_eq_none (by rintro e ⟨⟩)]
    rfl
  | d :: e :: s =>
    by_cases hd : d = '0'
    · subst hd
      rw [List.cons_append, List.cons_append, hexNumber?, hexNumber?, takeWhile_stop _ _ hhex,
        dropWhile_stop _ _ hhex]
      split
      · dsimp only
        rw [takeWhile_stop _ _ hmark, dropWhile_stop _ _ hmark]
        rfl
      · rfl
    · unfold hexNumber?
      split
      · next heq => exact absurd (List.cons.inj heq).1 hd
      · split
        · next heq => exact absurd (List.cons.inj heq).1 hd
        · rfl

theorem exponentSign_stop :
    exponentSign (s ++ c :: more) = (exponentSign s).extend (c :: more) := by
  have hother := (stops_class c hc).2.2.2.2.2.1
  cases s with
  | nil =>
    unfold exponentSign
    split
    · next heq =>
      obtain rfl := (List.cons.inj heq).1
      exact absurd (by decide) hother
    · next heq =>
      obtain rfl := (List.cons.inj heq).1
      exact absurd (by decide) hother
    · rfl
  | cons d s =>
    by_cases hplus : d = '+'
    · rw [hplus]
      rfl
    by_cases hminus : d = '-'
    · rw [hminus]
      rfl
    · have hplain : ∀ r, exponentSign (d :: r) = ([], d :: r) := by
        intro r
        unfold exponentSign
        split
        · next heq => exact absurd (List.cons.inj heq).1 hplus
        · next heq => exact absurd (List.cons.inj heq).1 hminus
        · rfl
      rw [List.cons_append, hplain, hplain]
      rfl

theorem exponentPart_stop :
    exponentPart (s ++ c :: more) = (exponentPart s).extend (c :: more) := by
  obtain ⟨_, _, _, hdecimal, _, hother, _⟩ := stops_class c hc
  cases s with
  | nil =>
    unfold exponentPart
    refine if_neg ?_
    · rintro ⟨rfl | rfl, _⟩ <;> exact absurd (by decide) hother
  | cons d s =>
    unfold exponentPart
    rw [List.cons_append]
    dsimp only
    rw [exponentSign_stop hc, Cut.extend]
    dsimp only
    rw [takeWhile_stop _ _ hdecimal, dropWhile_stop _ _ hdecimal]
    split <;> rfl

theorem floatMark_stop : floatMark (s ++ c :: more) = (floatMark s).extend (c :: more) := by
  have hmark := (stops_class c hc).2.2.1
  cases s with
  | nil =>
    unfold floatMark
    exact if_neg (by rw [hmark]; decide)
  | cons d s =>
    unfold floatMark
    rw [List.cons_append]
    dsimp only
    split <;> rfl

theorem floatNumber?_stop :
    floatNumber? (s ++ c :: more) = (floatNumber? s).map (·.extend (c :: more)) := by
  obtain ⟨_, _, _, hdecimal, _, hother, _⟩ := stops_class c hc
  have hdrop := dropWhile_stop s more hdecimal
  cases hrest : s.dropWhile Text.isDecimal with
  | nil =>
    rw [hrest, List.nil_append] at hdrop
    rw [floatNumber?_eq_none, floatNumber?_eq_none]
    · rfl
    · rw [hrest]
      exact fun h => by cases h
    · rw [hdrop]
      rintro ⟨⟩
      exact absurd (by decide) hother
  | cons d rest =>
    rw [hrest, List.cons_append] at hdrop
    by_cases hpoint : d = '.'
    · subst hpoint
      rw [floatNumber?_of_point hdrop, floatNumber?_of_point hrest, takeWhile_stop _ _ hdecimal,
        takeWhile_stop _ _ hdecimal, dropWhile_stop _ _ hdecimal, exponentPart_stop hc, Cut.extend]
      dsimp only
      rw [floatMark_stop hc, Cut.extend]
      split <;> rfl
    · rw [floatNumber?_eq_none, floatNumber?_eq_none]
      · rfl
      · rw [hrest]
        exact fun h => hpoint (Option.some.inj h)
      · rw [hdrop]
        exact fun h => hpoint (Option.some.inj h)

theorem wholeNumber?_stop :
    wholeNumber? (s ++ c :: more) = (wholeNumber? s).map (·.extend (c :: more)) := by
  obtain ⟨_, hmark, _, hdecimal, _⟩ := stops_class c hc
  unfold wholeNumber?
  dsimp only
  rw [takeWhile_stop _ _ hdecimal, dropWhile_stop _ _ hdecimal, takeWhile_stop _ _ hmark,
    dropWhile_stop _ _ hmark]
  split <;> rfl

theorem number?_stop : number? (s ++ c :: more) = (number? s).map (·.extend (c :: more)) := by
  unfold number?
  rw [hexNumber?_stop hc, floatNumber?_stop hc, wholeNumber?_stop hc]
  cases hexNumber? s with
  | some cut => rfl
  | none => cases floatNumber? s <;> rfl

theorem word?_stop : word? (s ++ c :: more) = (word? s).map (·.extend (c :: more)) := by
  obtain ⟨_, _, _, _, hword, _⟩ := stops_class c hc
  unfold word?
  rw [takeWhile_stop _ _ hword, dropWhile_stop _ _ hword]
  split <;> rfl

theorem isPrefixOf_stop {text : List Char} (htext : text ∈ operatorTexts) (hs : s ≠ []) :
    text.isPrefixOf (s ++ c :: more) = text.isPrefixOf s := by
  have hfree := (stops_class c hc).2.2.2.2.2.2 text htext
  rw [Bool.eq_iff_iff, List.isPrefixOf_iff_prefix, List.isPrefixOf_iff_prefix]
  refine ⟨fun hpre => ?_, fun hpre => hpre.trans (List.prefix_append _ _)⟩
  -- a longer one would have the character in it
  rcases List.prefix_or_prefix_of_prefix hpre (List.prefix_append s (c :: more)) with h | ⟨rest, h⟩
  · exact h
  · subst h
    rw [List.prefix_append_right_inj] at hpre
    cases rest with
    | nil => simp
    | cons d rest =>
      obtain ⟨tail, htail⟩ := hpre
      obtain rfl : d = c := (List.cons.inj htail).1
      obtain ⟨e, s, rfl⟩ := List.exists_cons_of_ne_nil hs
      refine absurd ?_ hfree
      rw [List.cons_append, List.tail_cons]
      exact List.mem_append_right _ List.mem_cons_self

theorem operator?_stop (hs : s ≠ []) :
    operator? (s ++ c :: more) = (operator? s).map (·.extend (c :: more)) := by
  have hsame : operatorTexts.find? (·.isPrefixOf (s ++ c :: more)) =
      operatorTexts.find? (·.isPrefixOf s) :=
    List.find?_congr fun text htext => isPrefixOf_stop hc s more htext hs
  unfold operator?
  rw [hsame]
  cases hfind : operatorTexts.find? (·.isPrefixOf s) with
  | none => rfl
  | some text =>
    have hpre : text <+: s :=
      List.isPrefixOf_iff_prefix.1 (List.find?_some (p := fun text => List.isPrefixOf text s) hfind)
    rw [Option.map_some, Option.map_some, Option.map_some, Cut.extend,
      List.drop_append_of_le_length hpre.length_le]

end Stops

/-! ## Rules that do not see what follows -/

/-- What a rule finds in a text stays the same when `t`, which it does not read into, is replaced
by `u`; and if it finds nothing, it finds nothing then either. -/
structure Carries (rule : List Char → Option Cut) (s t u : List Char) : Prop where
  found : ∀ {front rest}, rule (s ++ t) = some (front, rest ++ t) →
    rule (s ++ u) = some (front, rest ++ u)
  missed : rule (s ++ t) = none → rule (s ++ u) = none

theorem Cut.Of.split {s front rest t : List Char} (h : Cut.Of (front, rest ++ t) (s ++ t)) :
    s = front ++ rest := by
  have hcut : front ++ (rest ++ t) = s ++ t := h.1
  rw [← List.append_assoc] at hcut
  exact (List.append_cancel_right hcut).symm

theorem Carries.of_stop {rule : List Char → Option Cut} {s t u : List Char}
    (ht : rule (s ++ t) = (rule s).map (·.extend t))
    (hu : rule (s ++ u) = (rule s).map (·.extend u)) : Carries rule s t u where
  found := by
    intro front rest h
    rw [ht] at h
    obtain ⟨cut, hcut, hextend⟩ := Option.map_eq_some_iff.1 h
    obtain ⟨hfront, hrest⟩ := Prod.mk.inj hextend
    rw [hu, hcut, Option.map_some, Cut.extend, hfront, List.append_cancel_right hrest]
  missed := by
    intro h
    rw [ht, Option.map_eq_none_iff] at h
    rw [hu, h]
    rfl

theorem firstSegment_carries {c : Char} {s t u rest : List Char} {part : Segment}
    (hcomment : Carries comment? (c :: s) t u) (hnumber : Carries number? (c :: s) t u)
    (hquoted : Carries quoted? (c :: s) t u) (hoperator : Carries operator? (c :: s) t u)
    (hword : Carries word? (c :: s) t u) (h : firstSegment c (s ++ t) = (part, rest ++ t)) :
    firstSegment c (s ++ u) = (part, rest ++ u) := by
  have hfound : ∀ {rule : List Char → Option Cut} {cut : Cut} {wrap : List Char → Segment},
      Carries rule (c :: s) t u → rule (c :: (s ++ t)) = some cut →
      (wrap cut.1, cut.2) = (part, rest ++ t) →
      ∃ cut', rule (c :: (s ++ u)) = some cut' ∧ (wrap cut'.1, cut'.2) = (part, rest ++ u) := by
    intro rule cut wrap hcarries hcut heq
    obtain ⟨hwrap, hrest⟩ := Prod.mk.inj heq
    have hcut' : rule (c :: s ++ t) = some (cut.1, rest ++ t) := by
      rw [← hrest]
      exact hcut
    exact ⟨_, hcarries.found hcut', by rw [hwrap]⟩
  -- the rules are tried in this order, and each finds or misses the same in both texts
  unfold firstSegment at h ⊢
  dsimp only at h ⊢
  split at h
  · next cut hcut =>
    obtain ⟨cut', hcut', heq⟩ := hfound hcomment hcut h
    rw [hcut']
    exact heq
  · next hnone =>
    rw [show comment? (c :: (s ++ u)) = none from hcomment.missed hnone]
    dsimp only
    split at h
    · next cut hcut =>
      obtain ⟨cut', hcut', heq⟩ := hfound hnumber hcut h
      rw [hcut']
      exact heq
    · next hnone =>
      rw [show number? (c :: (s ++ u)) = none from hnumber.missed hnone]
      dsimp only
      split at h
      · next cut hcut =>
        obtain ⟨cut', hcut', heq⟩ := hfound hquoted hcut h
        rw [hcut']
        exact heq
      · next hnone =>
        rw [show quoted? (c :: (s ++ u)) = none from hquoted.missed hnone]
        dsimp only
        split at h
        · next cut hcut =>
          obtain ⟨cut', hcut', heq⟩ := hfound hoperator hcut h
          rw [hcut']
          exact heq
        · next hnone =>
          rw [show operator? (c :: (s ++ u)) = none from hoperator.missed hnone]
          dsimp only
          split at h
          · next cut hcut =>
            obtain ⟨cut', hcut', heq⟩ := hfound hword hcut h
            rw [hcut']
            exact heq
          · next hnone =>
            rw [show word? (c :: (s ++ u)) = none from hword.missed hnone]
            obtain ⟨hpart, hrest⟩ := Prod.mk.inj h
            rw [hpart, List.append_cancel_right hrest]

/-! ## Comments and quoted texts in front of a comment -/

/-- A block comment with its marks. -/
def IsBlock (text : List Char) : Prop :=
  ∃ body, text = '/' :: '*' :: (body ++ ['*', '/'])

theorem blockEnd?_of_mark {body : List Char} (h : ¬ ['*', '/'] <:+: body ++ ['*'])
    (after : List Char) :
    blockEnd? (body ++ ['*', '/'] ++ after) = some (body ++ ['*', '/'], after) := by
  induction body with
  | nil => rfl
  | cons c body ih =>
    rw [List.cons_append, List.infix_cons_iff, not_or] at h
    obtain ⟨hfirst, hrest⟩ := h
    obtain ⟨d, more, hmore⟩ : ∃ d more, body ++ ['*', '/'] ++ after = d :: more :=
      List.exists_cons_of_ne_nil (by simp)
    have hmark : ¬ (c = '*' ∧ d = '/') := by
      rintro ⟨rfl, rfl⟩
      cases body with
      | nil => exact absurd (List.cons.inj hmore).1 (by decide)
      | cons e body =>
        obtain rfl := (List.cons.inj hmore).1
        exact hfirst ⟨body ++ ['*'], rfl⟩
    have hread := ih hrest
    rw [hmore] at hread
    rw [List.cons_append, List.cons_append, hmore, blockEnd?, if_neg hmark, hread]
    rfl

theorem blockEnd?_ne_none {s : List Char} (h : ['*', '/'] <:+: s) : blockEnd? s ≠ none := by
  induction s with
  | nil => exact absurd (List.infix_nil.1 h) (by decide)
  | cons c s ih =>
    cases s with
    | nil =>
      have hlength := h.length_le
      exact absurd hlength (by simp)
    | cons d s =>
      rw [blockEnd?]
      by_cases hmark : c = '*' ∧ d = '/'
      · rw [if_pos hmark]
        exact Option.some_ne_none _
      · rw [if_neg hmark, ne_eq, Option.map_eq_none_iff]
        refine ih ?_
        rcases List.infix_cons_iff.1 h with ⟨tail, htail⟩ | h
        · obtain ⟨hc, htail⟩ := List.cons.inj htail
          exact absurd ⟨hc.symm, (List.cons.inj htail).1.symm⟩ hmark
        · exact h

/-- A comment is recognized where it fits. -/
theorem comment?_of_isComment {text after : List Char} (h : IsComment text after) :
    comment? (text ++ after) = some (text, after) := by
  rcases h with ⟨body, rfl, hbody, hafter⟩ | ⟨body, rfl, hfree⟩
  · have hline : ∀ c ∈ body, (c != '\n') = true := fun c hc =>
      bne_iff_ne.2 fun heq => hbody (heq ▸ hc)
    obtain ⟨htake, hdrop⟩ := span_append (p := (· != '\n')) hline
      fun c hc => by rw [hafter c hc]; decide
    rw [List.cons_append, List.cons_append, comment?, htake, hdrop]
  · rw [List.cons_append, List.cons_append, comment?, blockEnd?_of_mark hfree]
    rfl

theorem comment?_of_second {d : Char} {rest : List Char} (hslash : d ≠ '/') (hstar : d ≠ '*') :
    comment? ('/' :: d :: rest) = none := by
  unfold comment?
  split
  · next heq => exact absurd (List.cons.inj (List.cons.inj heq).2).1 hslash
  · next heq => exact absurd (List.cons.inj (List.cons.inj heq).2).1 hstar
  · rfl

/-- In front of a block comment no other one is left open, and a line comment does not end. -/
theorem comment?_carries {c : Char} {s text after u : List Char} (htext : IsBlock text) :
    Carries comment? (c :: s) (text ++ after) u where
  found := by
    intro front rest h
    have hfits : IsComment front (rest ++ (text ++ after)) := isComment_of_comment? h
    rw [(comment?_cut h).split, List.append_assoc]
    refine comment?_of_isComment ?_
    rcases hfits with ⟨body, hfront, hbody, hafter⟩ | hblock
    · refine Or.inl ⟨body, hfront, hbody, ?_⟩
      cases rest with
      | nil =>
        obtain ⟨inner, rfl⟩ := htext
        exact absurd (hafter '/' rfl) (by decide)
      | cons e rest => exact hafter
    · exact Or.inr hblock
  missed := by
    intro h
    by_cases hc : c = '/'
    · subst hc
      obtain ⟨inner, rfl⟩ := htext
      cases s with
      | nil => cases h
      | cons e s =>
        rw [List.cons_append, List.cons_append] at h ⊢
        have hslash : e ≠ '/' := by
          rintro rfl
          cases h
        have hstar : e ≠ '*' := by
          rintro rfl
          rw [comment?, Option.map_eq_none_iff] at h
          refine blockEnd?_ne_none ?_ h
          exact ⟨s ++ '/' :: '*' :: inner, after, by simp⟩
        exact comment?_of_second hslash hstar
    · exact comment?_of_ne hc

section Quotes

variable {quote : Char} (hquote : quote = '"' ∨ quote = '\'')

theorem quoteEnd?_quote (s : List Char) : quoteEnd? quote (quote :: s) = some ([quote], s) := by
  cases s with
  | nil => rw [quoteEnd?, if_pos rfl]
  | cons d s => rw [quoteEnd?, if_pos rfl]

theorem quoteEnd?_plain {c : Char} (hc : c ≠ quote) (hslash : c ≠ '\\') (hfeed : c ≠ '\n')
    (s : List Char) :
    quoteEnd? quote (c :: s) = (quoteEnd? quote s).map fun cut => (c :: cut.1, cut.2) := by
  cases s with
  | nil => exact if_neg hc
  | cons d s => rw [quoteEnd?, if_neg hc, if_neg hslash, if_neg hfeed]

include hquote

theorem quoteEnd?_escape (d : Char) (s : List Char) :
    quoteEnd? quote ('\\' :: d :: s) =
      (quoteEnd? quote s).map fun cut => ('\\' :: d :: cut.1, cut.2) := by
  rw [quoteEnd?, if_neg (by rcases hquote with rfl | rfl <;> decide), if_pos rfl]

theorem quoteEnd?_feed (s : List Char) : quoteEnd? quote ('\n' :: s) = none := by
  have hne : '\n' ≠ quote := by rcases hquote with rfl | rfl <;> decide
  cases s with
  | nil => rw [quoteEnd?, if_neg hne]
  | cons d s => rw [quoteEnd?, if_neg hne, if_neg (by decide), if_pos rfl]

/-- A quote that is closed behind a text is closed from in front of it, if the text has no line feed
and does not end in a backslash. -/
theorem quoteEnd?_over {s after : List Char} (hfeed : '\n' ∉ s) (hlast : s.getLast? ≠ some '\\')
    (hafter : quoteEnd? quote after ≠ none) : quoteEnd? quote (s ++ after) ≠ none := by
  induction hlength : s.length using Nat.strong_induction_on generalizing s with
  | _ n ih =>
    cases s with
    | nil => exact hafter
    | cons c s =>
      rw [List.length_cons] at hlength
      rw [List.mem_cons, not_or] at hfeed
      by_cases hc : c = quote
      · rw [hc, List.cons_append, quoteEnd?_quote]
        exact Option.some_ne_none _
      by_cases hslash : c = '\\'
      · -- the backslash is not the last, so it takes a character of the text along
        subst hslash
        cases s with
        | nil => exact absurd rfl hlast
        | cons d s =>
          rw [List.length_cons] at hlength
          rw [List.cons_append, List.cons_append, quoteEnd?_escape hquote, ne_eq,
            Option.map_eq_none_iff]
          have hrest : '\n' ∉ s := fun h => hfeed.2 (List.mem_cons_of_mem _ h)
          refine ih s.length (by omega) hrest (fun h => ?_) rfl
          rw [List.getLast?_cons, List.getLast?_cons, h] at hlast
          exact hlast rfl
      · rw [List.cons_append, quoteEnd?_plain hc hslash (Ne.symm hfeed.1), ne_eq,
          Option.map_eq_none_iff]
        refine ih s.length (by omega) hfeed.2 (fun h => ?_) rfl
        rw [List.getLast?_cons, h] at hlast
        exact hlast rfl

theorem quoteEnd?_blanked {s after : List Char}
    (h : quoteEnd? quote (blanked s ++ after) ≠ none) :
    '\n' ∉ s ∧ quoteEnd? quote after ≠ none := by
  induction s with
  | nil => exact ⟨List.not_mem_nil, h⟩
  | cons c s ih =>
    rw [blanked, List.map_cons, List.cons_append] at h
    by_cases hc : c = '\n'
    · rw [if_pos hc, quoteEnd?_feed hquote] at h
      exact absurd rfl h
    · have hspace : ' ' ≠ quote := by rcases hquote with rfl | rfl <;> decide
      rw [if_neg hc, quoteEnd?_plain hspace (by decide) (by decide), ne_eq,
        Option.map_eq_none_iff] at h
      obtain ⟨hfeed, hafter⟩ := ih h
      refine ⟨?_, hafter⟩
      rw [List.mem_cons, not_or]
      exact ⟨Ne.symm hc, hfeed⟩

/-- An open quote that is not closed is not closed with the text blanked either. -/
theorem quoteEnd?_of_blanked {c : Char} {s text after : List Char} (hne : text ≠ [])
    (hlast : text.getLast? ≠ some '\\')
    (h : quoteEnd? quote (s ++ (blanked (c :: text) ++ after)) ≠ none) :
    quoteEnd? quote (s ++ (c :: text ++ after)) ≠ none := by
  have hlast' : (c :: text).getLast? ≠ some '\\' := by
    obtain ⟨d, more, rfl⟩ := List.exists_cons_of_ne_nil hne
    rwa [List.getLast?_cons_cons]
  induction hlength : s.length using Nat.strong_induction_on generalizing s with
  | _ n ih =>
    cases s with
    | nil =>
      obtain ⟨hfeed, hafter⟩ := quoteEnd?_blanked hquote h
      exact quoteEnd?_over (s := c :: text) hquote hfeed hlast' hafter
    | cons d s =>
      rw [List.length_cons] at hlength
      rw [List.cons_append] at h ⊢
      by_cases hd : d = quote
      · rw [hd, quoteEnd?_quote]
        exact Option.some_ne_none _
      by_cases hslash : d = '\\'
      · subst hslash
        cases s with
        | nil =>
          -- the backslash takes the first character of the text along
          rw [List.nil_append, blanked, List.map_cons, List.cons_append, quoteEnd?_escape hquote,
            ne_eq, Option.map_eq_none_iff] at h
          obtain ⟨hfeed, hafter⟩ := quoteEnd?_blanked hquote h
          rw [List.nil_append, List.cons_append, quoteEnd?_escape hquote, ne_eq,
            Option.map_eq_none_iff]
          exact quoteEnd?_over hquote hfeed hlast hafter
        | cons e s =>
          rw [List.length_cons] at hlength
          rw [List.cons_append, quoteEnd?_escape hquote, ne_eq, Option.map_eq_none_iff] at h ⊢
          exact ih s.length (by omega) h rfl
      by_cases hfeed : d = '\n'
      · rw [hfeed, quoteEnd?_feed hquote] at h
        exact absurd rfl h
      · rw [quoteEnd?_plain hd hslash hfeed, ne_eq, Option.map_eq_none_iff] at h ⊢
        exact ih s.length (by omega) h rfl

end Quotes

theorem quoted?_carries {c : Char} {s text after : List Char} (htext : IsBlock text) :
    Carries quoted? (c :: s) (text ++ after) (blanked text ++ after) where
  found := by
    intro front rest h
    rw [(quoted?_cut h).split, List.append_assoc]
    exact quoted?_of_isQuoted (isQuoted_of_quoted? h) _
  missed := by
    intro h
    rw [List.cons_append, quoted?] at h ⊢
    by_cases hquote : c = '"' ∨ c = '\''
    · rw [if_pos hquote, Option.map_eq_none_iff] at h ⊢
      obtain ⟨body, rfl⟩ := htext
      by_contra hnot
      refine quoteEnd?_of_blanked hquote (List.cons_ne_nil _ _) ?_ hnot h
      rw [show '*' :: (body ++ ['*', '/']) = '*' :: (body ++ ['*']) ++ ['/'] from by simp,
        List.getLast?_concat]
      decide
    · rw [if_neg hquote]

/-! ## The segments of the blanked text -/

theorem IsBlock.cons {text : List Char} (h : IsBlock text) (after : List Char) :
    ∃ t u, text ++ after = '/' :: t ∧ blanked text ++ after = ' ' :: u := by
  obtain ⟨body, rfl⟩ := h
  exact ⟨_, _, rfl, rfl⟩

theorem firstSegment_blanked {c : Char} {s text after rest : List Char} {part : Segment}
    (htext : IsBlock text)
    (h : firstSegment c (s ++ (text ++ after)) = (part, rest ++ (text ++ after))) :
    firstSegment c (s ++ (blanked text ++ after)) = (part, rest ++ (blanked text ++ after)) := by
  have hcomment : Carries comment? (c :: s) (text ++ after) (blanked text ++ after) :=
    comment?_carries htext
  have hquoted : Carries quoted? (c :: s) (text ++ after) (blanked text ++ after) :=
    quoted?_carries htext
  obtain ⟨t, u, ht, hu⟩ := htext.cons after
  rw [ht, hu] at hcomment hquoted
  rw [ht] at h
  rw [hu]
  have hslash := slash_mem_stops
  have hspace := mem_stops_of_blank (c := ' ') (by decide)
  refine firstSegment_carries hcomment ?_ hquoted ?_ ?_ h
  · exact .of_stop (number?_stop hslash _ _) (number?_stop hspace _ _)
  · exact .of_stop (operator?_stop hslash _ _ (List.cons_ne_nil _ _))
      (operator?_stop hspace _ _ (List.cons_ne_nil _ _))
  · exact .of_stop (word?_stop hslash _ _) (word?_stop hspace _ _)

/-- Blanks are segments of their own, one by one. -/
theorem segments_of_blanks {s : List Char} (h : ∀ c ∈ s, Text.isBlank c = true)
    (after : List Char) : segments (s ++ after) = s.map .blank ++ segments after := by
  induction s with
  | nil => rfl
  | cons c s ih =>
    rw [List.forall_mem_cons] at h
    rw [List.cons_append, segments, firstSegment_blank h.1, ih h.2]
    rfl

theorem reads_of_blanks {s : List Char} (h : ∀ c ∈ s, Text.isBlank c = true) (after : List Char) :
    reads (s ++ after) = reads after := by
  have hsilent : (s.map Segment.blank).filterMap (fun part => ofSegment? (⟨0, 0⟩, part)) = [] := by
    rw [List.filterMap_map]
    exact List.filterMap_eq_nil_iff.2 fun c _ => rfl
  rw [reads, segments_of_blanks h, List.filterMap_append, hsilent]
  rfl

theorem isBlank_of_mem_blanked {s : List Char} {c : Char} (h : c ∈ blanked s) :
    Text.isBlank c = true := by
  obtain ⟨d, _, rfl⟩ := List.mem_map.1 h
  split <;> decide

theorem segments_blanks (s after : List Char) :
    segments (blanked s ++ after) = (blanked s).map .blank ++ segments after :=
  segments_of_blanks (fun _ => isBlank_of_mem_blanked) after

/-- Blanking a comment leaves the other segments as they are. -/
theorem segments_blanked {pre post : List Segment} {text : List Char} (htext : IsBlock text)
    (h : segments (pre.flatMap Segment.chars ++ (text ++ post.flatMap Segment.chars)) =
      pre ++ .comment text :: post) :
    segments (pre.flatMap Segment.chars ++ (blanked text ++ post.flatMap Segment.chars)) =
      pre ++ ((blanked text).map .blank ++ post) := by
  induction pre with
  | nil =>
    have hpost : segments (post.flatMap Segment.chars) = post := by
      rw [List.nil_append, ← List.singleton_append] at h
      exact segments_of_append h
    rw [List.flatMap_nil, List.nil_append, List.nil_append, segments_blanks, hpost]
  | cons part pre ih =>
    rw [List.cons_append] at h
    obtain ⟨c, rest, hs, hfirst⟩ := segments_eq_cons h
    rw [List.flatMap_append, List.flatMap_cons] at hfirst
    have hne : part.chars ≠ [] := by
      have hcut := (firstSegment_cut c rest).2
      rw [hfirst] at hcut
      exact hcut
    obtain ⟨d, front, hfront⟩ := List.exists_cons_of_ne_nil hne
    have hflat : (part :: pre).flatMap Segment.chars =
        d :: (front ++ pre.flatMap Segment.chars) := by
      rw [List.flatMap_cons, hfront, List.cons_append]
    rw [hflat, List.cons_append] at hs
    obtain ⟨rfl, rfl⟩ := List.cons.inj hs
    rw [hflat, List.cons_append, segments, firstSegment_blanked htext hfirst, List.cons_append]
    rw [hflat, List.cons_append, segments, hfirst] at h
    rw [ih (List.cons.inj h).2]

theorem count_blanked (s : List Char) : (blanked s).count '\n' = s.count '\n' := by
  induction s with
  | nil => rfl
  | cons c s ih =>
    rw [blanked, List.map_cons, List.count_cons, List.count_cons]
    by_cases hc : c = '\n'
    · rw [if_pos hc, hc, ← ih]
      rfl
    · rw [if_neg hc, if_neg (by decide), if_neg (by simpa using hc), ← ih]
      rfl

/-! ## Places -/

theorem Place.afterAll_blanked (p : Place) (s : List Char) :
    p.afterAll (blanked s) = p.afterAll s := by
  induction s generalizing p with
  | nil => rfl
  | cons c s ih =>
    have hstep : p.after (if c = '\n' then '\n' else ' ') = p.after c := by
      by_cases hc : c = '\n'
      · rw [if_pos hc, hc]
      · rw [if_neg hc, Place.after, if_neg (by decide), Place.after, if_neg hc]
    show (p.after (if c = '\n' then '\n' else ' ')).afterAll (blanked s) = (p.after c).afterAll s
    rw [hstep, ih]

theorem placed_append (p : Place) (front back : List Segment) :
    placed p (front ++ back) =
      placed p front ++ placed (p.afterAll (front.flatMap Segment.chars)) back := by
  induction front generalizing p with
  | nil => rfl
  | cons part front ih =>
    rw [List.cons_append, placed, placed, ih, List.flatMap_cons, Place.afterAll, Place.afterAll,
      Place.afterAll, List.foldl_append, List.cons_append]

/-- What neither a comment nor a blank gives is the same for a text with the comment blanked. -/
theorem filterMap_placed_blanked {α : Type} {f : Place × Segment → Option α}
    (hcomment : ∀ p text, f (p, .comment text) = none) (hblank : ∀ p c, f (p, .blank c) = none)
    (keep : Place × Segment → Bool) (p : Place) (pre post : List Segment) (text : List Char) :
    ((placed p (pre ++ ((blanked text).map .blank ++ post))).filter keep).filterMap f =
      ((placed p (pre ++ .comment text :: post)).filter keep).filterMap f := by
  have hsilent : ∀ (p : Place) (parts : List Segment),
      (∀ part ∈ parts, ∀ q, f (q, part) = none) →
      ((placed p parts).filter keep).filterMap f = [] := by
    intro p parts hparts
    refine List.filterMap_eq_nil_iff.2 fun entry hentry => ?_
    exact hparts entry.2 (mem_placed (List.mem_of_mem_filter hentry)) entry.1
  have hblanks : ((blanked text).map Segment.blank).flatMap Segment.chars = blanked text := by
    rw [List.flatMap_map]
    exact List.flatMap_singleton' _
  rw [← List.singleton_append (x := Segment.comment text)]
  simp only [placed_append, List.filter_append, List.filterMap_append, hblanks,
    Place.afterAll_blanked]
  rw [hsilent _ ((blanked text).map .blank), hsilent _ [.comment text]]
  · rw [List.flatMap_singleton]
    rfl
  · intro part hpart q
    rw [List.mem_singleton.1 hpart]
    exact hcomment q text
  · intro part hpart q
    obtain ⟨c, _, rfl⟩ := List.mem_map.1 hpart
    exact hblank q c

end Stepwise.Token
