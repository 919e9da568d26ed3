/-
The words of a macro's body.

A macro refers to another if the other one's name stands in its body as a word.
What is expanded is not the body's text, though, but the expression that is read
from it, and so the names in the expression have to be found in the text again.

A token that is a name stands in the text as a run of word characters that ends
where no word character follows. It also begins where none precedes, unless it is
what is left of a run that begins with a number; but then the number is a literal
right in front of it, and no name in an expression follows a literal.
-/
import Stepwise.Proofs.Operands

set_option autoImplicit false

namespace Stepwise

/-! ## Words of a text -/

/-- The text has this word in it: no word character stands right before it or right behind it. -/
def Text.HasWord (s word : List Char) : Prop :=
  ∃ before after, s = before ++ (word ++ after) ∧ (∀ c ∈ before.getLast?, isWordChar c = false) ∧
    ∀ c ∈ after.head?, isWordChar c = false

theorem Text.HasWord.subset {s word : List Char} (h : HasWord s word) : word ⊆ s := by
  obtain ⟨before, after, rfl, _⟩ := h
  exact fun c hc => List.mem_append_right _ (List.mem_append_left _ hc)

namespace Token

theorem head?_dropWhile_word {s : List Char} {d : Char}
    (h : d ∈ (s.dropWhile Text.isWordChar).head?) : Text.isWordChar d = false := by
  have hnot := List.head?_dropWhile_not Text.isWordChar s
  rw [Option.mem_def.1 h] at hnot
  simpa using hnot

theorem blockEnd?_last {s : List Char} {cut : Cut} (h : blockEnd? s = some cut) :
    cut.1.getLast? = some '/' := by
  induction s generalizing cut with
  | nil => cases h
  | cons c s ih =>
    cases s with
    | nil => cases h
    | cons d s =>
      rw [blockEnd?] at h
      split at h
      · next hend =>
        obtain rfl := Option.some.inj h
        rw [hend.2]
        rfl
      · obtain ⟨inner, hinner, rfl⟩ := Option.map_eq_some_iff.1 h
        rw [List.getLast?_cons, ih hinner]
        rfl

theorem quoteEnd?_last {quote : Char} {s : List Char} {cut : Cut}
    (h : quoteEnd? quote s = some cut) : cut.1.getLast? = some quote := by
  fun_induction quoteEnd? quote s generalizing cut with
  | case1 => cases h
  | case2 =>
    obtain rfl := Option.some.inj h
    rfl
  | case3 => cases h
  | case4 d rest =>
    obtain rfl := Option.some.inj h
    rfl
  | case5 d rest _ ih =>
    obtain ⟨inner, hinner, rfl⟩ := Option.map_eq_some_iff.1 h
    rw [List.getLast?_cons, List.getLast?_cons, ih hinner]
    rfl
  | case6 => cases h
  | case7 c d rest _ _ _ ih =>
    obtain ⟨inner, hinner, rfl⟩ := Option.map_eq_some_iff.1 h
    rw [List.getLast?_cons, ih hinner]
    rfl

theorem word?_boundary {s : List Char} {cut : Cut} (h : word? s = some cut) {d : Char}
    (hd : d ∈ cut.2.head?) : Text.isWordChar d = false := by
  unfold word? at h
  split at h
  · cases h
  · obtain rfl := Option.some.inj h
    exact head?_dropWhile_word hd

theorem comment?_boundary {s : List Char} {cut : Cut} (h : comment? s = some cut) {a d : Char}
    (ha : a ∈ cut.1.getLast?) (hword : Text.isWordChar a = true) (hd : d ∈ cut.2.head?) :
    Text.isWordChar d = false := by
  unfold comment? at h
  split at h
  · next rest =>
    obtain rfl := Option.some.inj h
    have hnot := List.head?_dropWhile_not (· != '\n') rest
    rw [Option.mem_def.1 hd] at hnot
    obtain rfl : d = '\n' := by simpa using hnot
    rfl
  · obtain ⟨inner, hinner, rfl⟩ := Option.map_eq_some_iff.1 h
    rw [List.getLast?_cons, List.getLast?_cons, blockEnd?_last hinner] at ha
    obtain rfl : '/' = a := Option.some.inj ha
    cases hword
  · cases h

theorem quoted?_last {s : List Char} {cut : Cut} (h : quoted? s = some cut) {a : Char}
    (ha : a ∈ cut.1.getLast?) : Text.isWordChar a = false := by
  unfold quoted? at h
  split at h
  · cases h
  · split at h
    · next hquote =>
      obtain ⟨inner, hinner, rfl⟩ := Option.map_eq_some_iff.1 h
      rw [List.getLast?_cons, quoteEnd?_last hinner] at ha
      obtain rfl := Option.some.inj ha
      rcases hquote with hquote | hquote
      · rw [show (_ : Char) = '"' from hquote]
        rfl
      · rw [show (_ : Char) = '\'' from hquote]
        rfl
    · cases h

/-- The operators and the punctuation as characters, in the order in which they are tried. -/
def operatorChars : List (List Char) :=
  [['<', '<', '='], ['>', '>', '='], ['.', '.', '.'], ['+', '+'], ['-', '-'], ['=', '='],
    ['!', '='], ['>', '='], ['<', '='], ['&', '&'], ['|', '|'], ['<', '<'], ['>', '>'],
    ['+', '='], ['-', '='], ['*', '='], ['/', '='], ['%', '='], ['&', '='], ['|', '='],
    ['^', '='], ['-', '>'], ['+'], ['-'], ['*'], ['/'], ['%'], ['>'], ['<'], ['!'], ['&'], ['|'],
    ['^'], ['~'], ['='], ['\x7b'], ['\x7d'], ['('], [')'], ['['], [']'], [';'], [','], ['.'],
    [':'], ['?']]

theorem operatorTexts_eq : operatorTexts = operatorChars := by
  decide +kernel

theorem operator?_last {s : List Char} {cut : Cut} (h : operator? s = some cut) {a : Char}
    (ha : a ∈ cut.1.getLast?) : Text.isWordChar a = false := by
  have hoperators : ∀ text ∈ operatorTexts, text.getLast?.any Text.isWordChar = false := by
    rw [operatorTexts_eq]
    decide
  obtain ⟨text, htext, rfl⟩ := Option.map_eq_some_iff.1 h
  have hlast := hoperators text (List.mem_of_find?_eq_some htext)
  rwa [show text.getLast? = some a from ha] at hlast

/-- What the first segment of a text can be. -/
theorem firstSegment_cases (c : Char) (rest : List Char) :
    (∃ cut, comment? (c :: rest) = some cut ∧ firstSegment c rest = (.comment cut.1, cut.2)) ∨
    (∃ cut, number? (c :: rest) = some cut ∧
      firstSegment c rest = (.lexeme .number cut.1, cut.2)) ∨
    (∃ cut, quoted? (c :: rest) = some cut ∧
      firstSegment c rest = (.lexeme .quoted cut.1, cut.2)) ∨
    (∃ cut, operator? (c :: rest) = some cut ∧
      firstSegment c rest = (.lexeme .operator cut.1, cut.2)) ∨
    (∃ cut, word? (c :: rest) = some cut ∧ firstSegment c rest = (.lexeme .word cut.1, cut.2)) ∨
    word? (c :: rest) = none ∧ (firstSegment c rest).1.chars = [c] := by
  unfold firstSegment
  dsimp only
  split
  · next cut h => exact Or.inl ⟨cut, h, rfl⟩
  · split
    · next cut h => exact Or.inr (Or.inl ⟨cut, h, rfl⟩)
    · split
      · next cut h => exact Or.inr (Or.inr (Or.inl ⟨cut, h, rfl⟩))
      · split
        · next cut h => exact Or.inr (Or.inr (Or.inr (Or.inl ⟨cut, h, rfl⟩)))
        · split
          · next cut h => exact Or.inr (Or.inr (Or.inr (Or.inr (Or.inl ⟨cut, h, rfl⟩))))
          · next h =>
            refine Or.inr (Or.inr (Or.inr (Or.inr (Or.inr ⟨h, ?_⟩))))
            split <;> rfl

/-- A word is cut in two nowhere but behind a number: if another segment ends in a word character,
none follows. -/
theorem firstSegment_boundary {c : Char} {rest : List Char}
    (hnumber : ∀ text, (firstSegment c rest).1 ≠ .lexeme .number text) {a d : Char}
    (ha : a ∈ (firstSegment c rest).1.chars.getLast?) (hword : Text.isWordChar a = true)
    (hd : d ∈ (firstSegment c rest).2.head?) : Text.isWordChar d = false := by
  rcases firstSegment_cases c rest with ⟨cut, hcut, heq⟩ | ⟨cut, hcut, heq⟩ | ⟨cut, hcut, heq⟩ |
    ⟨cut, hcut, heq⟩ | ⟨cut, hcut, heq⟩ | ⟨hnone, hchars⟩
  · rw [heq] at ha hd
    exact comment?_boundary hcut ha hword hd
  · exact absurd (congrArg Prod.fst heq) (hnumber cut.1)
  · rw [heq] at ha
    rw [quoted?_last hcut ha] at hword
    cases hword
  · rw [heq] at ha
    rw [operator?_last hcut ha] at hword
    cases hword
  · rw [heq] at hd
    exact word?_boundary hcut hd
  · rw [hchars] at ha
    obtain rfl : c = a := Option.some.inj ha
    rw [word?, List.takeWhile_cons, hword] at hnone
    cases hnone

theorem segments_of_append {s : List Char} {pre post : List Segment}
    (h : segments s = pre ++ post) : segments (post.flatMap Segment.chars) = post := by
  induction pre generalizing s with
  | nil =>
    rw [List.nil_append] at h
    rw [← h, segments_flatten]
  | cons seg pre ih =>
    cases s with
    | nil =>
      rw [segments] at h
      cases h
    | cons c rest =>
      rw [segments, List.cons_append] at h
      exact ih (List.cons.inj h).2

/-- The first segment of a text, and the text behind it. -/
theorem segments_eq_cons {s : List Char} {seg : Segment} {post : List Segment}
    (h : segments s = seg :: post) :
    ∃ c rest, s = c :: rest ∧ firstSegment c rest = (seg, post.flatMap Segment.chars) := by
  cases s with
  | nil =>
    rw [segments] at h
    cases h
  | cons c rest =>
    rw [segments] at h
    obtain ⟨hseg, hpost⟩ := List.cons.inj h
    refine ⟨c, rest, rfl, Prod.ext hseg ?_⟩
    rw [← hpost, segments_flatten]

/-- A word segment that does not follow a number is a word of the text. -/
theorem hasWord_of_segments {s w : List Char} {pre post : List Segment}
    (h : segments s = pre ++ .lexeme .word w :: post)
    (hprev : ∀ text, pre.getLast? ≠ some (.lexeme .number text)) : Text.HasWord s w := by
  have htext : s = pre.flatMap Segment.chars ++ (w ++ post.flatMap Segment.chars) := by
    have hflat := segments_flatten s
    rw [h, List.flatMap_append, List.flatMap_cons] at hflat
    exact hflat.symm
  obtain ⟨hne, hchars⟩ := segments_word (h ▸ List.mem_append_right _ List.mem_cons_self)
  obtain ⟨c, w, rfl⟩ := List.exists_cons_of_ne_nil hne
  refine ⟨_, _, htext, fun a ha => ?_, fun d hd => ?_⟩
  · rcases List.eq_nil_or_concat pre with rfl | ⟨front, seg, rfl⟩
    · cases ha
    · -- the segment in front of the word ends where the word begins
      rw [List.concat_eq_append] at h hprev ha
      rw [List.append_assoc, List.singleton_append] at h
      obtain ⟨b, rest, _, hfirst⟩ := segments_eq_cons (segments_of_append h)
      have hseg : (firstSegment b rest).1 = seg := congrArg Prod.fst hfirst
      have hbehind : c ∈ (firstSegment b rest).2.head? := by
        rw [hfirst]
        rfl
      have hlast : a ∈ (firstSegment b rest).1.chars.getLast? := by
        rw [hseg]
        rw [List.flatMap_append, List.flatMap_singleton, List.getLast?_append_of_ne_nil] at ha
        · exact ha
        · rw [← hseg]
          exact (firstSegment_cut b rest).2
      by_contra hword
      have hboundary : Text.isWordChar c = false := by
        refine firstSegment_boundary (fun text htext => hprev text ?_) hlast
          (Bool.not_eq_false _ ▸ hword) hbehind
        rw [List.getLast?_concat, ← hseg, htext]
      rw [hchars c List.mem_cons_self] at hboundary
      cases hboundary
  -- behind the word there is no word character, or its segment would go on
  · obtain ⟨b, rest, _, hfirst⟩ := segments_eq_cons (segments_of_append h)
    have hlast : (c :: w).getLast hne ∈ (firstSegment b rest).1.chars.getLast? := by
      rw [hfirst]
      exact List.getLast?_eq_some_getLast hne
    have hbehind : d ∈ (firstSegment b rest).2.head? := by
      rw [hfirst]
      exact hd
    refine firstSegment_boundary (fun text htext => ?_) hlast (hchars _ (List.getLast_mem hne))
      hbehind
    rw [hfirst] at htext
    cases htext

/-! ## Tokens of a line -/

/-- The first place is not behind the second one. -/
def Place.NoLater (p q : Place) : Prop :=
  p.line < q.line ∨ p.line = q.line ∧ p.column ≤ q.column

theorem Place.noLater_afterAll (p : Place) (s : List Char) : p.NoLater (p.afterAll s) := by
  induction s generalizing p with
  | nil => exact Or.inr ⟨rfl, Nat.le_refl _⟩
  | cons c s ih =>
    have hrest : (p.after c).NoLater (p.afterAll (c :: s)) := ih (p.after c)
    have hstep : p.NoLater (p.after c) := by
      unfold Place.after
      split
      · exact Or.inl (Nat.lt_succ_self _)
      · exact Or.inr ⟨rfl, Nat.le_succ _⟩
    unfold Place.NoLater at hstep hrest ⊢
    omega

theorem noLater_of_mem_placed {p : Place} {segs : List Segment} {entry : Place × Segment}
    (h : entry ∈ placed p segs) : p.NoLater entry.1 := by
  induction segs generalizing p with
  | nil => cases h
  | cons seg segs ih =>
    rcases List.mem_cons.1 h with rfl | h
    · exact Or.inr ⟨rfl, Nat.le_refl _⟩
    · have hrest := ih h
      have hstep := p.noLater_afterAll seg.chars
      unfold Place.NoLater at hstep hrest ⊢
      omega

theorem ofSegment?_eq_some {entry : Place × Segment} {t : Token} (h : ofSegment? entry = some t) :
    ∃ kind chars, entry.2 = .lexeme kind chars ∧
      t = ⟨kind.tokenKind (String.ofList chars), String.ofList chars, entry.1.line,
        entry.1.column⟩ := by
  obtain ⟨p, seg⟩ := entry
  cases seg with
  | lexeme kind chars => exact ⟨kind, chars, rfl, (Option.some.inj h).symm⟩
  | _ => cases h

theorem placed_sorted (p : Place) (segs : List Segment) :
    ((placed p segs).filterMap ofSegment?).Pairwise fun a b => noLater a b = true := by
  induction segs generalizing p with
  | nil => exact List.Pairwise.nil
  | cons seg segs ih =>
    rw [placed, List.filterMap_cons]
    split
    · exact ih _
    · next t ht =>
      refine List.pairwise_cons.2 ⟨fun u hu => ?_, ih _⟩
      obtain ⟨entry, hentry, hu⟩ := List.mem_filterMap.1 hu
      obtain ⟨_, _, _, rfl⟩ := ofSegment?_eq_some ht
      obtain ⟨_, _, _, rfl⟩ := ofSegment?_eq_some hu
      have hstep := p.noLater_afterAll seg.chars
      have hrest := noLater_of_mem_placed hentry
      rw [noLater_iff]
      unfold Place.NoLater at hstep hrest
      dsimp only
      omega

theorem placed_map_snd (p : Place) (segs : List Segment) : (placed p segs).map Prod.snd = segs := by
  induction segs generalizing p with
  | nil => rfl
  | cons seg segs ih => rw [placed, List.map_cons, ih]

theorem eq_word_of_isName {lexeme : Lexeme} {text : String} {line column : Nat}
    (h : Grammar.isName ⟨lexeme.tokenKind text, text, line, column⟩ = true) : lexeme = .word := by
  cases lexeme with
  | word => rfl
  | operator =>
    unfold Grammar.isName Lexeme.tokenKind operatorKind at h
    dsimp only at h
    split at h <;> cases h
  | number => cases h
  | quoted => cases h

/-- Where a name stands among the tokens of a text without directives, it stands in the text, as a
word unless it follows a literal. -/
theorem hasWord_of_token {s : List Char} {pre post : List Token} {t : Token}
    (h : (placed {} (segments s)).filterMap ofSegment? = pre ++ t :: post)
    (hname : Grammar.isName t = true) (hprev : ∀ u ∈ pre.getLast?, u.kind ≠ .literal) :
    Text.HasWord s t.text.toList := by
  obtain ⟨front, back, hsplit, hpre, hback⟩ := List.filterMap_eq_append_iff.1 h
  obtain ⟨silent, entry, later, rfl, hsilent, hentry, _⟩ := List.filterMap_eq_cons_iff.1 hback
  obtain ⟨kind, chars, hseg, rfl⟩ := ofSegment?_eq_some hentry
  have hsegments : segments s = (front ++ silent).map Prod.snd ++
      .lexeme kind chars :: later.map Prod.snd := by
    rw [← placed_map_snd {} (segments s), hsplit, ← List.append_assoc, List.map_append,
      List.map_cons, hseg]
  obtain rfl := eq_word_of_isName hname
  rw [String.toList_ofList]
  refine hasWord_of_segments hsegments fun text hlast => ?_
  -- a number in front of the word would give the literal in front of the name
  rw [List.getLast?_map, Option.map_eq_some_iff] at hlast
  obtain ⟨number, hlast, hnumber⟩ := hlast
  obtain ⟨before, hbefore⟩ := List.getLast?_eq_some_iff.1 hlast
  have htokens : (before ++ [number]).filterMap ofSegment? = pre := by
    rw [← hbefore, List.filterMap_append, hpre, List.filterMap_eq_nil_iff.2 hsilent,
      List.append_nil]
  obtain ⟨place, seg⟩ := number
  obtain rfl : seg = .lexeme .number text := hnumber
  rw [List.filterMap_append] at htokens
  refine hprev ⟨.literal, String.ofList text, place.line, place.column⟩ ?_ rfl
  rw [← htokens]
  exact List.getLast?_concat

theorem cutAt_of_not_mem {sep : Char} {s : List Char} (h : sep ∉ s) :
    Text.cutAt sep s = (s, []) := by
  induction s with
  | nil => rfl
  | cons c s ih =>
    rw [List.mem_cons, not_or] at h
    rw [Text.cutAt, ih h.2, if_neg (Ne.symm h.1)]

/-- A single line is a directive or has none. -/
theorem directiveLines_of_line {s : List Char} (hline : '\n' ∉ s) :
    directiveLines s = if isDirective s then [(1, s)] else [] := by
  unfold directiveLines Text.pieces
  rw [cutAt_of_not_mem hline]
  show List.filter _ [(1, s)] = _
  rw [List.filter_cons, List.filter_nil]

/-- A directive line has a token that begins it. -/
theorem exists_isCommand {s : List Char} (h : isDirective s = true) (line : Nat) :
    ∃ t ∈ (DirectiveLine.ofLine line s).tokens, Grammar.IsCommand t := by
  refine ⟨_, List.mem_cons_self, rfl, ?_⟩
  unfold isDirective at h
  rw [beq_iff_eq] at h
  obtain ⟨rest, hrest⟩ := List.head?_eq_some_iff.1 h
  have htrim : Text.trim s = '#' :: Text.trimRight rest := by
    rw [Text.trim, hrest]
    exact Text.trimRight_append_cons [] rest rfl
  have hblank : blankComments (Text.trim s) = '#' :: blankComments (Text.trimRight rest) := by
    rw [htrim, blankComments]
    rfl
  show (String.ofList (firstWord (blankComments (Text.trim s)))).toList.head? = some '#'
  have hsharp : (!Text.isBlank '#') = true := rfl
  rw [String.toList_ofList, hblank, firstWord, List.takeWhile_cons, if_pos hsharp]
  rfl

/-- **Every name in an expression that is read from one line is a word of that line.** -/
theorem hasWord_of_parseExpr {s : String} (hline : '\n' ∉ s.toList) {e : Expr}
    (h : parseExpr (tokenize s) = .ok e) {name : String} (hname : name ∈ e.names) :
    Text.HasWord s.toList name.toList := by
  have huses := parseExpr_uses h
  have hlines := directiveLines_of_line hline
  cases hdirective : isDirective s.toList with
  | true =>
    rw [hdirective, if_pos rfl] at hlines
    obtain ⟨t, ht, hcommand⟩ := exists_isCommand hdirective 1
    refine absurd hcommand (huses.inside t (mem_tokenize.2 (Or.inl ?_)))
    rw [directiveTokens, hlines]
    exact List.mem_flatMap.2 ⟨_, List.mem_cons_self, ht⟩
  | false =>
    rw [hdirective, if_neg (by decide)] at hlines
    have htokens : directiveTokens s.toList ++ (plainSegments s.toList).filterMap ofSegment?
        = (placed {} (segments s.toList)).filterMap ofSegment? := by
      unfold directiveTokens plainSegments
      rw [hlines]
      simp
    obtain ⟨pre, t, post, hsplit, ht, rfl, hprev⟩ := huses.named name hname
    rw [tokenize_of_sorted htokens (placed_sorted _ _)] at hsplit
    exact hasWord_of_token hsplit ht hprev

end Token

/-! ## Macros -/

theorem Text.not_mem_of_mem_pieces {sep : Char} {s piece : List Char}
    (h : piece ∈ Text.pieces sep s) : sep ∉ piece := by
  unfold pieces at h
  induction s generalizing piece with
  | nil =>
    rw [List.mem_singleton.1 h]
    exact List.not_mem_nil
  | cons c s ih =>
    rw [cutAt] at h
    split at h
    · rcases List.mem_cons.1 h with rfl | h
      · exact List.not_mem_nil
      · exact ih h
    · next hne =>
      rcases List.mem_cons.1 h with rfl | h
      · rw [List.mem_cons, not_or]
        exact ⟨Ne.symm hne, ih List.mem_cons_self⟩
      · exact ih (List.mem_cons_of_mem _ h)

namespace Macro

theorem mem_of_mem_dropComments {s : List Char} {c : Char} (h : c ∈ dropComments s) : c ∈ s := by
  fun_induction dropComments s with
  | case1 => exact h
  | case2 d rest cut hcut ih =>
    rw [← (Token.comment?_cut hcut).1]
    exact List.mem_append_right _ (ih h)
  | case3 d rest hcut ih =>
    rcases List.mem_cons.1 h with rfl | h
    · exact List.mem_cons_self
    · exact List.mem_cons_of_mem _ (ih h)

theorem mem_of_mem_trim {s : List Char} {c : Char} (h : c ∈ Text.trim s) : c ∈ s := by
  obtain ⟨lead, tail, hs, _⟩ := Text.exists_trim s
  rw [hs]
  exact List.mem_append_right _ (List.mem_append_left _ h)

theorem parameterText?_subset {s text after : List Char}
    (h : parameterText? s = some (text, after)) : after ⊆ s := by
  unfold parameterText? at h
  split at h
  · next rest =>
    split at h
    · next d more hmore =>
      obtain ⟨_, rfl⟩ := Prod.mk.inj (Option.some.inj h)
      intro c hc
      refine List.mem_cons_of_mem _ ((List.dropWhile_sublist (· != ')')).subset ?_)
      rw [hmore]
      exact List.mem_cons_of_mem _ hc
    · cases h
  · cases h

theorem strip?_subset {expected s rest : List Char} (h : strip? expected s = some rest) :
    rest ⊆ s := by
  unfold strip? at h
  split at h
  · obtain rfl := Option.some.inj h
    exact List.drop_subset _ _
  · cases h

/-- The body of a macro is a part of the line that defines it. -/
theorem ofLine?_body {number : Nat} {line : List Char} {m : Macro}
    (h : ofLine? number line = some m) : m.body.toList ⊆ line := by
  unfold ofLine? at h
  obtain ⟨afterHash, hhash, h⟩ := Option.bind_eq_some_iff.1 h
  obtain ⟨afterWord, hword, h⟩ := Option.bind_eq_some_iff.1 h
  dsimp only at h
  split at h
  · cases h
  · obtain rfl := Option.some.inj h
    have hdrop : ∀ (q : Char → Bool) (s : List Char), s.dropWhile q ⊆ s := fun q s =>
      (List.dropWhile_sublist q).subset
    have hrest : (Text.trimLeft afterWord).dropWhile Text.isWordChar ⊆ line := fun c hc =>
      hdrop _ _ (strip?_subset hhash (hdrop _ _ (strip?_subset hword (hdrop _ _ (hdrop _ _ hc)))))
    intro c hc
    rw [String.toList_ofList] at hc
    have hbody := mem_of_mem_dropComments (mem_of_mem_trim hc)
    split at hbody
    · next text after hparameters => exact hrest (parameterText?_subset hparameters hbody)
    · exact hrest hbody

end Macro

/-- One macro refers to another: the other one's name is a word of its body. -/
def Macros.Refers (macros : Macros) (a b : String) : Prop :=
  macros.has b = true ∧ ∃ m, macros.find? a = some m ∧ Text.HasWord m.body.toList b.toList

theorem Program.macros_body {p : Program} {source name : String} {m : Macro}
    (h : (p.macros (Text.lines source)).find? name = some m) : '\n' ∉ m.body.toList := by
  obtain ⟨key, hmem, _⟩ := Table.mem_of_find? h
  obtain ⟨k, hk⟩ := Table.value_of_mem_putAll hmem
  obtain ⟨m', hm', heq⟩ := List.mem_map.1 hk
  obtain rfl : m' = m := (Prod.mk.inj heq).2
  obtain ⟨d, _, hd⟩ := List.mem_filterMap.1 hm'
  split at hd
  · split at hd
    · next line hline =>
      obtain ⟨piece, hpiece, rfl⟩ := List.mem_map.1 (List.mem_of_getElem? hline)
      intro hbreak
      refine Text.not_mem_of_mem_pieces hpiece ?_
      rw [← String.toList_ofList (l := piece)]
      exact Macro.ofLine?_body hd hbreak
    · cases hd
  · cases hd

/-- **What a macro can expand to.** A macro that is used where a macro's body is evaluated is one
that the macro refers to. -/
theorem Program.refers_of_expression {p : Program} {source a b : String} {m : Macro} {e : Expr}
    (hm : (p.macros (Text.lines source)).find? a = some m) (he : m.expression = .ok e)
    (hb : b ∈ e.names) (hnames : (p.macros (Text.lines source)).has b = true) :
    (p.macros (Text.lines source)).Refers a b := by
  refine ⟨hnames, m, hm, ?_⟩
  unfold Macro.expression at he
  split at he
  · cases he
  · split at he
    · next hparse =>
      obtain rfl := Except.ok.inj he
      exact Token.hasWord_of_parseExpr (Program.macros_body hm) hparse hb
    · cases he

end Stepwise
