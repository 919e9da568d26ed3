/-
Tokens written with blanks between them.

In a text a token stands in front of whatever follows it there, and the rule that
cut it may have looked at that. In front of a blank it is cut to itself again: a
number, an operator and a word stop at a blank as they stop at the end of the text
(`Lexeme.Admits.starts`), and a quoted text ends at its closing quote whatever
follows.

The blanks may be line feeds, so tokens come to stand at the beginning of a line.
None of them begins with the mark of a directive, and none has a line inside that
does; so a text made of such tokens and blanks has no directives either
(`calm_spaced`), and it is read as its segments are.
-/
import Stepwise.Proofs.Blanking
import Stepwise.Proofs.Spelling

set_option autoImplicit false

namespace Stepwise.Token

/-! ## In front of a blank -/

/-- Nothing follows, or a blank does. -/
def EndsOrBlank (after : List Char) : Prop :=
  ∀ c ∈ after.head?, Text.isBlank c = true

theorem EndsOrBlank.cases {after : List Char} (h : EndsOrBlank after) :
    after = [] ∨ ∃ c more, after = c :: more ∧ c ∈ stops ∧ Text.isBlank c = true := by
  cases after with
  | nil => exact Or.inl rfl
  | cons c more =>
    have hc := h c rfl
    exact Or.inr ⟨c, more, rfl, mem_stops_of_blank hc, hc⟩

variable {after : List Char}

theorem IsNumber.starts {text : List Char} (h : IsNumber text) (hafter : EndsOrBlank after) :
    Starts (text ++ after) (.lexeme .number text) after := by
  have halone : number? (text ++ []) = some (text, []) := by
    apply number?_append h
    · rintro c ⟨⟩
    · rintro ⟨⟩
  have hnumber : number? (text ++ after) = some (text, after) := by
    rcases hafter.cases with rfl | ⟨c, more, rfl, hstop, _⟩
    · exact halone
    · rw [List.append_nil] at halone
      rw [number?_stop hstop, halone]
      rfl
  obtain ⟨d, rest, htext, hd⟩ := h.head
  rw [htext, List.cons_append] at hnumber ⊢
  exact starts_of_number? hd hnumber

/-- A sign with nothing or a blank behind it begins no comment. -/
theorem comment?_sign {sign : String} (hsign : sign ∈ signs) (hafter : EndsOrBlank after) :
    comment? (sign.toList ++ after) = none := by
  -- a division sign is the only one that could, with what follows
  obtain ⟨c, rest, htext⟩ := List.exists_cons_of_ne_nil (signs_ne_nil sign hsign)
  by_cases hslash : c = '/'
  · rcases signs_slash hsign (by rw [htext, hslash]; rfl) with rfl | rfl
    · rcases hafter.cases with rfl | ⟨d, more, rfl, _, hd⟩
      · rfl
      · apply comment?_of_second
        · rintro rfl
          exact absurd hd (by decide)
        · rintro rfl
          exact absurd hd (by decide)
    · exact comment?_of_second (by decide) (by decide)
  · rw [htext, List.cons_append]
    exact comment?_of_ne hslash

theorem starts_spaced_sign {sign : String} (hsign : sign ∈ signs) (hafter : EndsOrBlank after) :
    Starts (sign.toList ++ after) (.lexeme .operator sign.toList) after := by
  apply starts_sign hsign (comment?_sign hsign hafter)
  intro longer hlonger hpre hpre'
  -- no sign has a blank in it, so the longer one ends where this one does
  have hwithin : longer.toList <+: sign.toList := by
    rcases hafter.cases with rfl | ⟨c, more, rfl, hstop, _⟩
    · rwa [List.append_nil] at hpre'
    · rw [← List.isPrefixOf_iff_prefix, isPrefixOf_stop hstop _ _
        (mem_operatorTexts_of_sign hlonger) (signs_ne_nil sign hsign)] at hpre'
      exact List.isPrefixOf_iff_prefix.1 hpre'
  exact String.toList_inj.1 (hwithin.eq_of_length_le hpre.length_le)

/-- The text of a lexeme is cut off in front of a blank. -/
theorem Lexeme.Admits.starts {lexeme : Lexeme} {text : List Char} (h : lexeme.Admits text)
    (hafter : EndsOrBlank after) : Starts (text ++ after) (.lexeme lexeme text) after := by
  cases lexeme with
  | number => exact IsNumber.starts h hafter
  | quoted => exact starts_quoted h.1 after
  | operator =>
    have hstarts := starts_spaced_sign h hafter
    rwa [String.toList_ofList] at hstarts
  | word =>
    have hstarts := starts_word h after
    rcases hafter.cases with rfl | ⟨c, more, rfl, hstop, _⟩
    · rw [List.append_nil]
      rwa [List.takeWhile_nil, List.append_nil, List.dropWhile_nil] at hstarts
    · have hc := (stops_class c hstop).2.2.2.2.1
      rwa [List.takeWhile_cons_of_neg (by rw [hc]; decide), List.append_nil,
        List.dropWhile_cons_of_neg (by rw [hc]; decide)] at hstarts

/-! ## No directives -/

/-- The text of a lexeme shows something, and no line inside of it begins with a mark. -/
theorem Lexeme.Admits.calm {lexeme : Lexeme} {text : List Char} (h : lexeme.Admits text) :
    Calm text ∧ Unmarked text := by
  cases lexeme with
  | number => exact Fragment.IsNumber.calm h
  | quoted =>
    obtain ⟨⟨quote, tail, rfl, hquote, _⟩, hcalm⟩ := h
    refine ⟨hcalm, ?_⟩
    rcases hquote with rfl | rfl <;> exact unmarked_cons (by decide) (by decide) tail
  | operator =>
    have hcalm := Fragment.calm_sign h
    rwa [String.toList_ofList] at hcalm
  | word => exact Fragment.IsWord.calm h

theorem Unmarked.behind_blanks {s blanks : List Char} (h : Unmarked s)
    (hblanks : ∀ c ∈ blanks, Text.isBlank c = true) : Unmarked (blanks ++ s) := by
  obtain ⟨c, hc, hmark⟩ := h
  refine ⟨c, ?_, hmark⟩
  unfold Text.trimLeft at hc ⊢
  rwa [List.dropWhile_append_of_pos hblanks]

/-- A line may begin among blanks, if something else than a mark is seen behind them. -/
theorem Calm.behind_blanks {s blanks : List Char} (h : Calm s) (hseen : Unmarked s)
    (hblanks : ∀ c ∈ blanks, Text.isBlank c = true) : Calm (blanks ++ s) := by
  intro before after heq
  rcases List.append_eq_append_iff.1 heq with ⟨front, _, hback⟩ | ⟨back, hfront, hback⟩
  · exact h front after hback
  · cases back with
    | nil => exact h [] after hback.symm
    | cons c back =>
      obtain ⟨_, rfl⟩ := List.cons.inj hback
      apply hseen.behind_blanks
      intro d hd
      apply hblanks
      rw [hfront]
      exact List.mem_append_right _ (List.mem_cons_of_mem _ hd)

/-! ## Texts of tokens with blanks between them -/

/-- Texts written one after the other, with the gaps between them. -/
def spaced (gap : Nat → String) : List String → String
  | [] => ""
  | [text] => text
  | text :: more => text ++ gap 0 ++ spaced (fun n => gap (n + 1)) more

/-- Blanks, and at least one. -/
def IsGap (s : String) : Prop :=
  s ≠ "" ∧ ∀ c ∈ s.toList, Text.isBlank c = true

theorem spaced_cons (gap : Nat → String) (text : String) {more : List String} (h : more ≠ []) :
    (spaced gap (text :: more)).toList =
      text.toList ++ ((gap 0).toList ++ (spaced (fun n => gap (n + 1)) more).toList) := by
  rw [spaced, String.toList_append, String.toList_append, List.append_assoc]
  exact h

theorem endsOrBlank_gap {gap : String} (h : IsGap gap) (rest : List Char) :
    EndsOrBlank (gap.toList ++ rest) := by
  obtain ⟨hne, hblank⟩ := h
  obtain ⟨c, more, hgap⟩ := List.exists_cons_of_ne_nil fun heq => hne (String.toList_eq_nil_iff.1 heq)
  rw [hgap] at hblank ⊢
  rintro _ ⟨⟩
  exact hblank c List.mem_cons_self

/-- Written tokens with gaps between them show something, and no line begins with a mark. -/
theorem calm_spaced {gap : Nat → String} (hgap : ∀ n, IsGap (gap n)) {tokens : List Token}
    (hwritten : ∀ t ∈ tokens, t.Written) (hne : tokens ≠ []) :
    Calm (spaced gap (tokens.map Token.text)).toList ∧
      Unmarked (spaced gap (tokens.map Token.text)).toList := by
  induction tokens generalizing gap with
  | nil => exact absurd rfl hne
  | cons t tokens ih =>
    rw [List.forall_mem_cons] at hwritten
    obtain ⟨lexeme, _, hadmits⟩ := hwritten.1.admits
    obtain ⟨hcalm, hseen⟩ := hadmits.calm
    cases tokens with
    | nil => exact ⟨hcalm, hseen⟩
    | cons u tokens =>
      obtain ⟨hcalm', hseen'⟩ := ih (fun n => hgap (n + 1)) hwritten.2 (List.cons_ne_nil _ _)
      have hmore : (u :: tokens).map Token.text ≠ [] := List.cons_ne_nil _ _
      rw [List.map_cons, spaced_cons gap t.text hmore]
      exact ⟨hcalm.append (hcalm'.behind_blanks hseen' (hgap 0).2), hseen.append _⟩

theorem undirected_spaced {gap : Nat → String} (hgap : ∀ n, IsGap (gap n)) {tokens : List Token}
    (hwritten : ∀ t ∈ tokens, t.Written) : Undirected (spaced gap (tokens.map Token.text)) := by
  by_cases hne : tokens = []
  · subst hne
    intro line hline
    rw [List.mem_singleton.1 hline]
    rfl
  · obtain ⟨hcalm, hseen⟩ := calm_spaced hgap hwritten hne
    exact hcalm.undirected hseen

/-- The segments are the lexemes and the blanks between them. -/
theorem segments_spaced {gap : Nat → String} (hgap : ∀ n, IsGap (gap n)) {tokens : List Token}
    (hwritten : ∀ t ∈ tokens, t.Written) :
    reads (spaced gap (tokens.map Token.text)).toList = tokens.map unplaced ∧
      ∀ c, .stray c ∉ segments (spaced gap (tokens.map Token.text)).toList := by
  induction tokens generalizing gap with
  | nil =>
    refine ⟨reads_nil, fun c hc => ?_⟩
    rw [List.map_nil, spaced, String.toList_empty, segments] at hc
    cases hc
  | cons t tokens ih =>
    rw [List.forall_mem_cons] at hwritten
    obtain ⟨lexeme, hkind, hadmits⟩ := hwritten.1.admits
    have htoken : lexeme.token (String.ofList t.text.toList) = t.unplaced := by
      rw [String.ofList_toList, Lexeme.token, ← hkind]
      rfl
    cases tokens with
    | nil =>
      have hstarts : Starts (t.text.toList ++ []) (.lexeme lexeme t.text.toList) [] :=
        hadmits.starts (by rintro c ⟨⟩)
      rw [List.append_nil] at hstarts
      refine ⟨?_, fun c hc => ?_⟩
      · show reads t.text.toList = _
        rw [reads_of_starts hstarts, htoken, reads_nil]
        rfl
      · replace hc : .stray c ∈ segments t.text.toList := hc
        rw [segments_of_starts hstarts, segments] at hc
        cases hc with
        | tail _ hc => cases hc
    | cons u tokens =>
      obtain ⟨hreads, hstray⟩ := ih (fun n => hgap (n + 1)) hwritten.2
      -- a gap is not empty, so the token ends in front of it
      have hstarts := hadmits.starts (endsOrBlank_gap (hgap 0)
        (spaced (fun n => gap (n + 1)) ((u :: tokens).map Token.text)).toList)
      have hsegments := segments_of_starts hstarts
      rw [segments_of_blanks (hgap 0).2] at hsegments
      have hmore : (u :: tokens).map Token.text ≠ [] := List.cons_ne_nil _ _
      rw [List.map_cons, spaced_cons gap t.text hmore]
      refine ⟨?_, fun c hc => ?_⟩
      · rw [reads_of_starts hstarts, htoken, reads_of_blanks (hgap 0).2, hreads]
        rfl
      · rw [hsegments] at hc
        rcases List.mem_cons.1 hc with hc | hc
        · cases hc
        rcases List.mem_append.1 hc with hc | hc
        · obtain ⟨d, _, hd⟩ := List.mem_map.1 hc
          cases hd
        · exact hstray c hc

/-! ## The main result -/

/-- **Tokens written apart are read back.** The tokens of a text without directives, written one
after the other with any blanks between them, are the tokens of the text so made, and it has no
character that is passed over. -/
theorem tokenize_spaced {source : String} (h : Undirected source) {gap : Nat → String}
    (hgap : ∀ n, IsGap (gap n)) :
    (Stepwise.tokenize (spaced gap ((Stepwise.tokenize source).map Token.text))).map
        (fun t => (t.kind, t.text)) =
      (Stepwise.tokenize source).map (fun t => (t.kind, t.text)) ∧
    (scan (spaced gap ((Stepwise.tokenize source).map Token.text))).skipped = [] := by
  have hundirected := undirected_spaced hgap h.written
  obtain ⟨hreads, hstray⟩ := segments_spaced hgap h.written
  constructor
  · have hplaces : ∀ tokens : List Token,
        tokens.map (fun t => (t.kind, t.text)) =
          (tokens.map unplaced).map fun t => (t.kind, t.text) := by
      intro tokens
      rw [List.map_map]
      rfl
    rw [hplaces, hundirected.map_unplaced, hreads, ← hplaces]
  · rw [(scan_partitions hundirected).2.2.2, ← placed_following, List.filterMap_eq_nil_iff]
    intro entry hentry
    have hmem := mem_placed hentry
    obtain ⟨place, part⟩ := entry
    cases part with
    | stray c => exact absurd hmem (hstray c)
    | blank c => rfl
    | comment text => rfl
    | lexeme lexeme text => rfl

/-- A mark in a quoted text over two lines is none, and `+++` is not read as `+` and `++`. -/
theorem tokenize_spaced_quoted :
    Undirected "x+++0x1Fu/.5e3f\"#\\\n\"" ∧ IsGap "\n\u2028" ∧
    (Stepwise.tokenize (spaced (fun _ => "\n\u2028")
        ((Stepwise.tokenize "x+++0x1Fu/.5e3f\"#\\\n\"").map Token.text))).map
        (fun t => (t.kind, t.text)) =
      [(.identifier, "x"), (.operator, "++"), (.operator, "+"), (.literal, "0x1Fu"),
        (.operator, "/"), (.punctuation, "."), (.literal, "5"), (.identifier, "e3f"),
        (.literal, "\"#\\\n\"")] ∧
    (scan (spaced (fun _ => "\n\u2028")
        ((Stepwise.tokenize "x+++0x1Fu/.5e3f\"#\\\n\"").map Token.text))).skipped = [] := by
  have hundirected : Undirected "x+++0x1Fu/.5e3f\"#\\\n\"" := by decide +kernel
  have hgap : IsGap "\n\u2028" := ⟨by decide, by decide⟩
  obtain ⟨htokens, hskipped⟩ := tokenize_spaced hundirected fun _ => hgap
  refine ⟨hundirected, hgap, ?_, hskipped⟩
  rw [htokens, hundirected.tokenize]
  decide +kernel

end Stepwise.Token
