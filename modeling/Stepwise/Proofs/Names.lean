/-
The names of functions.

Labels are told apart by the number sign in them, so the name of a function must
have none. A name that stands in the program has none, because it is a run of word
characters, and neither has a name that a directive defines. A directive that
includes a file gives the name of the file as a name, though, and that may be any
text. It cannot be the name of a function: in front of it stands the mark that
opens it, and in front of a function's name stands a type or a star.
-/
import Stepwise.Proofs.Tags

set_option autoImplicit false

namespace Stepwise

namespace Token

/-- The marks around the name of an included file. -/
def fileMarks : List String :=
  ["<", ">", "\""]

/-- A token without a number sign that is no mark around the name of a file. -/
structure Ordinary (t : Token) : Prop where
  sign : '#' ∉ t.text.toList
  mark : t.text ∉ fileMarks

theorem ordinary_of_word {t : Token} (h : ∀ c ∈ t.text.toList, Text.isWordChar c = true) :
    t.Ordinary where
  sign hsign := absurd (h '#' hsign) (by decide)
  mark hmark := by
    have hmarks : ∀ mark ∈ fileMarks, mark.toList.all Text.isWordChar = false := by
      decide +kernel
    have hword := List.all_eq_true.2 h
    rw [hmarks _ hmark] at hword
    cases hword

theorem ordinary_of_mem {t : Token} {texts : List String} (h : t.text ∈ texts)
    (hsign : ∀ text ∈ texts, '#' ∉ text.toList) (hmark : ∀ text ∈ texts, text ∉ fileMarks) :
    t.Ordinary :=
  ⟨hsign _ h, hmark _ h⟩

/-! ## Names that directives give -/

namespace DirectiveLine

variable {d : DirectiveLine} {t : Token}

theorem remainder_kind {offset : Nat} (h : t ∈ d.remainder offset) : t.kind = .literal := by
  unfold remainder at h
  dsimp only at h
  split at h
  · cases h
  · rw [List.mem_singleton.1 h]
    rfl

/-- The name of a file stands behind a mark, and from there on the directive has nothing but marks
and the name. -/
theorem fileName_cases {opener closer : Char} {tokens : List Token}
    (hmarks : [String.singleton opener, String.singleton closer] ⊆ fileMarks)
    (hcommand : d.command ≠ [])
    (hname : d.fileName? opener closer = some tokens) (h : t ∈ tokens)
    (hkind : t.kind = .identifier) :
    ∃ mark ∈ d.token .preprocessor 0 d.command :: tokens, mark.column < t.column ∧
      ∀ u ∈ d.token .preprocessor 0 d.command :: tokens, mark.column ≤ u.column →
        u = t ∨ u.text ∈ fileMarks := by
  unfold fileName? at hname
  split at hname
  · cases hname
  · next left hleft =>
    split at hname
    · cases hname
    · next right _ =>
      split at hname
      · obtain rfl := Option.some.inj hname
        -- the mark stands behind the command, which is not empty
        have hbehind : 0 < left := by
          obtain ⟨i, _, rfl⟩ := Option.map_eq_some_iff.1 hleft
          have hlength := List.length_pos_of_ne_nil hcommand
          omega
        have hopener : (d.token .punctuation left [opener]).text ∈ fileMarks :=
          hmarks List.mem_cons_self
        have hcloser : (d.token .punctuation right [closer]).text ∈ fileMarks :=
          hmarks (List.mem_cons_of_mem _ List.mem_cons_self)
        rcases List.mem_cons.1 h with rfl | h
        · cases hkind
        rcases List.mem_cons.1 h with rfl | h
        · refine ⟨d.token .punctuation left [opener], by simp, ?_, ?_⟩
          · show d.column + left < d.column + (left + 1)
            omega
          · -- nothing stands behind the mark but the name and the other mark
            intro u hu hcolumn
            rcases List.mem_cons.1 hu with rfl | hu
            · have hcolumn' : d.column + left ≤ d.column + 0 := hcolumn
              omega
            rcases List.mem_cons.1 hu with rfl | hu
            · exact Or.inr hopener
            rcases List.mem_cons.1 hu with rfl | hu
            · exact Or.inl rfl
            · rw [List.mem_singleton.1 hu]
              exact Or.inr hcloser
        · rw [List.mem_singleton.1 h] at hkind
          cases hkind
      · cases hname

theorem definition_word {tokens : List Token} (hname : d.definition? = some tokens)
    (h : t ∈ tokens) (hkind : t.kind = .identifier) :
    ∀ c ∈ t.text.toList, Text.isWordChar c = true := by
  unfold definition? at hname
  dsimp only at hname
  split at hname
  · cases hname
  · obtain rfl := Option.some.inj hname
    rcases List.mem_cons.1 h with rfl | h
    · intro c hc
      rw [token, String.toList_ofList] at hc
      exact List.mem_takeWhile_imp hc
    · rw [remainder_kind h] at hkind
      cases hkind

/-- A name that a directive gives is a word, or else the name of a file. -/
theorem name_cases (h : t ∈ d.tokens) (hkind : t.kind = .identifier) :
    (∀ c ∈ t.text.toList, Text.isWordChar c = true) ∨
      ∃ mark ∈ d.tokens, mark.column < t.column ∧
        ∀ u ∈ d.tokens, mark.column ≤ u.column → u = t ∨ u.text ∈ fileMarks := by
  unfold tokens at h ⊢
  rcases List.mem_cons.1 h with rfl | h
  · cases hkind
  unfold arguments at h ⊢
  dsimp only at h ⊢
  split at h
  · next hinclude =>
    rw [if_pos hinclude]
    have hcommand : d.command ≠ [] := by
      rw [hinclude]
      decide
    cases hfile : (d.fileName? '<' '>').or (d.fileName? '"' '"') with
    | none =>
      rw [hfile] at h
      rw [remainder_kind h] at hkind
      cases hkind
    | some tokens =>
      rw [hfile] at h
      -- angle brackets are tried first, then quotation marks
      rcases Option.or_eq_some_iff.1 hfile with hfile | ⟨_, hfile⟩
      · exact Or.inr (fileName_cases (by decide +kernel) hcommand hfile h hkind)
      · exact Or.inr (fileName_cases (by decide +kernel) hcommand hfile h hkind)
  · split at h
    · cases hdefinition : d.definition? with
      | none =>
        rw [hdefinition] at h
        rw [remainder_kind h] at hkind
        cases hkind
      | some tokens =>
        rw [hdefinition] at h
        exact Or.inl (definition_word hdefinition h hkind)
    · rw [remainder_kind h] at hkind
      cases hkind

end DirectiveLine

/-! ## Names behind ordinary tokens -/

theorem numbered_unique {n k : Nat} {lines : List (List Char)} {a b : List Char}
    (ha : (k, a) ∈ numbered n lines) (hb : (k, b) ∈ numbered n lines) : a = b := by
  have hle : ∀ {n k : Nat} {lines : List (List Char)} {a : List Char},
      (k, a) ∈ numbered n lines → n ≤ k := by
    intro n k lines
    induction lines generalizing n with
    | nil => exact fun h => by cases h
    | cons line lines ih =>
      intro a h
      rcases List.mem_cons.1 h with h | h
      · rw [(Prod.mk.inj h).1]
      · have := ih h
        omega
  induction lines generalizing n with
  | nil => cases ha
  | cons line lines ih =>
    rcases List.mem_cons.1 ha with ha | ha
    · rcases List.mem_cons.1 hb with hb | hb
      · rw [(Prod.mk.inj ha).2, (Prod.mk.inj hb).2]
      · have := hle hb
        have := (Prod.mk.inj ha).1
        omega
    · rcases List.mem_cons.1 hb with hb | hb
      · have := hle ha
        have := (Prod.mk.inj hb).1
        omega
      · exact ih ha hb

/-- All that stands on the line of a directive comes from it. -/
theorem mem_directive_of_line {source : String} {entry : Nat × List Char}
    (hentry : entry ∈ directiveLines source.toList) {u : Token} (hu : u ∈ tokenize source)
    (hline : u.line = entry.1) : u ∈ (DirectiveLine.ofLine entry.1 entry.2).tokens := by
  rcases mem_tokenize.1 hu with hdirective | hplain
  · obtain ⟨other, hother, hmem⟩ := List.mem_flatMap.1 hdirective
    have hnumber : other.1 = entry.1 := (DirectiveLine.mem_tokens hmem).line.symm.trans hline
    obtain ⟨number, text⟩ := entry
    obtain ⟨number', text'⟩ := other
    obtain rfl : number' = number := hnumber
    rw [numbered_unique (List.mem_of_mem_filter hentry) (List.mem_of_mem_filter hother)]
    exact hmem
  · exact absurd (hline ▸ List.mem_map_of_mem hentry) (plain_line hplain)

/-- A name outside directives has no number sign, be it of the library or not. -/
theorem plain_ordinary {source : List Char} {t : Token}
    (h : t ∈ (plainSegments source).filterMap ofSegment?)
    (hkind : t.kind = .identifier ∨ t.kind = .function) : t.Ordinary := by
  obtain ⟨⟨p, seg⟩, hmem, ht⟩ := List.mem_filterMap.1 h
  have hseg : seg ∈ segments source := mem_placed (List.mem_filter.1 hmem).1
  cases seg with
  | lexeme lexeme chars =>
    obtain rfl := Option.some.inj ht
    cases lexeme with
    | word =>
      refine ordinary_of_word fun c hc => ?_
      rw [String.toList_ofList] at hc
      exact (segments_word hseg).2 c hc
    | operator =>
      have hoperator : operatorKind (String.ofList chars) = .identifier ∨
          operatorKind (String.ofList chars) = .function := hkind
      unfold operatorKind at hoperator
      split at hoperator <;> rcases hoperator with h | h <;> cases h
    | number => rcases hkind with h | h <;> cases h
    | quoted => rcases hkind with h | h <;> cases h
  | _ => cases ht

/-- **A name that follows an ordinary token has no number sign.** -/
theorem sign_not_mem_of_ordinary {source : String} {pre post : List Token} {prev t : Token}
    (h : tokenize source = pre ++ prev :: t :: post) (hprev : prev.Ordinary)
    (hkind : t.kind = .identifier ∨ t.kind = .function) : '#' ∉ t.text.toList := by
  have hmem : ∀ u, u ∈ pre ++ prev :: t :: post → u ∈ tokenize source := by
    intro u hu
    rw [h]
    exact hu
  rcases mem_tokenize.1 (hmem t (by simp)) with hdirective | hplain
  · obtain ⟨entry, hentry, ht⟩ := List.mem_flatMap.1 hdirective
    have hname : t.kind = .identifier := by
      rcases hkind with hkind | hkind
      · exact hkind
      · exact absurd hkind (DirectiveLine.mem_tokens ht).kind.2
    have hline : ∀ {u}, u ∈ (DirectiveLine.ofLine entry.1 entry.2).tokens → u.line = entry.1 :=
      fun hu => (DirectiveLine.mem_tokens hu).line
    rcases DirectiveLine.name_cases ht hname with hword | ⟨mark, hmark, hbefore, hbehind⟩
    · exact (ordinary_of_word hword).sign
    · -- the token in front stands between the mark and the name
      have hmark' : mark ∈ tokenize source :=
        mem_tokenize.2 (Or.inl (List.mem_flatMap.2 ⟨entry, hentry, hmark⟩))
      have hsorted := tokenize_sorted source
      rw [h] at hsorted hmark'
      obtain ⟨_, htail, hcross⟩ := List.pairwise_append.1 hsorted
      obtain ⟨hfirst, htail⟩ := List.pairwise_cons.1 htail
      obtain ⟨hsecond, _⟩ := List.pairwise_cons.1 htail
      have hmarkLine := hline hmark
      have htLine := hline ht
      have hprevT := noLater_iff.1 (hfirst t List.mem_cons_self)
      have hmarkPrev : mark.line < prev.line ∨ mark.line = prev.line ∧ mark.column ≤ prev.column := by
        rcases List.mem_append.1 hmark' with hpre | hrest
        · exact noLater_iff.1 (hcross mark hpre prev List.mem_cons_self)
        rcases List.mem_cons.1 hrest with rfl | hrest
        · exact Or.inr ⟨rfl, le_rfl⟩
        rcases List.mem_cons.1 hrest with rfl | hpost
        · omega
        · have hlater := noLater_iff.1 (hsecond mark hpost)
          omega
      have hprevLine : prev.line = entry.1 := by omega
      rcases hbehind prev (mem_directive_of_line hentry (hmem prev (by simp)) hprevLine)
        (by omega) with rfl | htext
      · exact hprev.sign
      · exact absurd htext hprev.mark
  · exact (plain_ordinary hplain hkind).sign

end Token

/-! ## The tokens in front of a function's name -/

namespace Grammar

/-- The tokens end, before the rest, with one that a type or its stars can end with: a word that
begins a type, a star, or a tag behind a keyword. -/
inductive EndsType : List Token → List Token → Prop
  | word (pre : List Token) (t : Token) (rest : List Token) (h : startsType t = true) :
      EndsType (pre ++ t :: rest) rest
  | star (pre : List Token) (t : Token) (rest : List Token) (h : isAt "*" t = true) :
      EndsType (pre ++ t :: rest) rest
  | tag (pre : List Token) (keyword t : Token) (rest : List Token) (hkeyword : keyword.kind = .keyword)
      (h : t.kind = .identifier) : EndsType (pre ++ keyword :: t :: rest) rest

theorem EndsType.prepend {s rest : List Token} (h : EndsType s rest) (before : List Token) :
    EndsType (before ++ s) rest := by
  cases h with
  | word pre t rest h =>
    rw [← List.append_assoc]
    exact .word _ t _ h
  | star pre t rest h =>
    rw [← List.append_assoc]
    exact .star _ t _ h
  | tag pre keyword t rest hkeyword h =>
    rw [← List.append_assoc]
    exact .tag _ keyword t _ hkeyword h

theorem EndsType.of_suffix {s later rest : List Token} (h : EndsType later rest)
    (hs : later <:+ s) : EndsType s rest := by
  obtain ⟨pre, rfl⟩ := hs
  exact h.prepend pre

theorem kind_of_tagKeyword {t : Token} (hstarts : startsType t = true)
    (htag : tagKeywords.contains t.text = true) : t.kind = .keyword := by
  unfold startsType at hstarts
  cases hkind : t.kind with
  | keyword => rfl
  | identifier =>
    rw [hkind] at hstarts
    have hapart : ∀ text ∈ tagKeywords, typedefNames.contains text = false := by decide
    rw [hapart _ (List.contains_iff_mem.1 htag)] at hstarts
    cases hstarts
  | _ =>
    rw [hkind] at hstarts
    cases hstarts

theorem typeWords_ends {s : List Token} {r : Reading false s (List String)}
    (h : typeWords s = .ok r) : r.rest = s ∧ headStartsType s = false ∨ EndsType s r.rest := by
  fun_induction typeWords s with
  | case1 =>
    obtain rfl := Except.ok.inj h
    exact Or.inl ⟨rfl, rfl⟩
  | case2 t hstarts htag => cases h
  | case3 t hstarts htag tag rest hkind ih =>
    obtain ⟨q₁, h₁, _, hr⟩ := Parse.relax_eq_ok h
    obtain ⟨q₂, h₂, _, hq₁⟩ := Parse.after_eq_ok h₁
    obtain ⟨q₃, h₃, _, hq₂⟩ := Parse.after_eq_ok h₂
    obtain ⟨q₄, h₄, _, hq₃⟩ := Parse.map_eq_ok h₃
    rw [hr, hq₁, hq₂, hq₃]
    rcases ih h₄ with ⟨hrest, _⟩ | hends
    · rw [hrest]
      exact Or.inr (.tag [] t tag rest (kind_of_tagKeyword hstarts htag) hkind)
    · exact Or.inr (hends.prepend [t, tag])
  | case4 t hstarts htag tag rest hkind => cases h
  | case5 t rest hstarts htag hkind =>
    obtain rfl := Except.ok.inj h
    exact Or.inr (.word [] t rest hstarts)
  | case6 t rest hstarts htag hkind ih =>
    obtain ⟨q₁, h₁, _, hr⟩ := Parse.relax_eq_ok h
    obtain ⟨q₂, h₂, _, hq₁⟩ := Parse.after_eq_ok h₁
    obtain ⟨q₃, h₃, _, hq₂⟩ := Parse.map_eq_ok h₂
    rw [hr, hq₁, hq₂]
    rcases ih h₃ with ⟨hrest, _⟩ | hends
    · rw [hrest]
      exact Or.inr (.word [] t rest hstarts)
    · exact Or.inr (hends.prepend [t])
  | case7 t rest hstarts =>
    obtain rfl := Except.ok.inj h
    exact Or.inl ⟨rfl, Bool.eq_false_iff.2 hstarts⟩

theorem stars_ends {s : List Token} {r : Reading false s Nat} (h : stars s = .ok r) :
    r.rest = s ∨ EndsType s r.rest := by
  fun_induction stars s with
  | case1 =>
    obtain rfl := Except.ok.inj h
    exact Or.inl rfl
  | case2 t rest hstar ih =>
    obtain ⟨q₁, h₁, _, hr⟩ := Parse.relax_eq_ok h
    obtain ⟨q₂, h₂, _, hq₁⟩ := Parse.after_eq_ok h₁
    obtain ⟨q₃, h₃, _, hq₂⟩ := Parse.map_eq_ok h₂
    rw [hr, hq₁, hq₂]
    rcases ih h₃ with hrest | hends
    · rw [hrest]
      exact Or.inr (.star [] t rest hstar)
    · exact Or.inr (hends.prepend [t])
  | case3 t rest hstar =>
    obtain rfl := Except.ok.inj h
    exact Or.inl rfl

/-- A type takes at least one token, and ends with one that a type can end with. -/
theorem typeName_ends {s : List Token} {r : Reading false s CType} (h : typeName s = .ok r) :
    EndsType s r.rest := by
  unfold typeName at h
  split at h
  · next hhead =>
    obtain ⟨q, hq, _, hr⟩ := Parse.map_eq_ok h
    rw [hr]
    rcases typeWords_ends hq with ⟨_, hnone⟩ | hends
    · rw [hhead] at hnone
      cases hnone
    · exact hends
  · cases h

theorem functionName_cases {s : List Token} {r : Reading true s String}
    (h : functionName s = .ok r) :
    ∃ t rest, s = t :: rest ∧ (t.kind = .identifier ∨ t.kind = .function) ∧ r.value = t.text := by
  unfold functionName at h
  split at h
  · cases h
  · next t rest =>
    split at h
    · next hname =>
      obtain ⟨q, hq, hr, _⟩ := Parse.after_eq_ok h
      obtain rfl := Except.ok.inj hq
      rw [isName, Bool.or_eq_true, beq_iff_eq, beq_iff_eq] at hname
      exact ⟨t, rest, rfl, hname, hr⟩
    · cases h

/-- A function's name stands behind the type of the function. -/
theorem typedItem_function {line : Nat} {s : List Token} {r : Reading true s Item}
    (h : typedItem line s = .ok r) {f : Function} (hf : r.value = .function f) :
    ∃ t rest, EndsType s (t :: rest) ∧ (t.kind = .identifier ∨ t.kind = .function) ∧
      f.name = t.text := by
  obtain ⟨q₁, q₂, h₁, h₂, hr, _⟩ := Parse.andThen_eq_ok h
  rw [hr] at hf
  have htype := typeName_ends h₁
  split at h₂
  · obtain ⟨q₃, h₃, hq₂, _⟩ := Parse.map_eq_ok h₂
    rw [hq₂] at hf
    obtain rfl := Item.function.inj hf
    obtain ⟨q₄, q₅, h₄, h₅, hq₃, _⟩ := Parse.andThen_eq_ok h₃
    obtain ⟨q₆, q₇, h₆, h₇, hq₅, _⟩ := Parse.andThen_eq_ok h₅
    obtain ⟨_, q₈, _, h₈, hq₇, _⟩ := Parse.andThen_eq_ok h₇
    obtain ⟨_, q₉, _, h₉, hq₈, _⟩ := Parse.andThen_eq_ok h₈
    obtain ⟨_, q₁₀, _, h₁₀, hq₉, _⟩ := Parse.andThen_eq_ok h₉
    obtain ⟨_, _, hq₁₀, _⟩ := Parse.map_eq_ok h₁₀
    obtain ⟨t, rest, hrest, hkind, hname⟩ := functionName_cases h₆
    refine ⟨t, rest, ?_, hkind, ?_⟩
    · rw [← hrest]
      rcases stars_ends h₄ with hnone | hstars
      · rw [hnone]
        exact htype
      · exact hstars.of_suffix q₁.suffix
    · rw [hq₃, hq₅, hq₇, hq₈, hq₉, hq₁₀]
      exact hname
  · obtain ⟨_, q₃, _, h₃, hq₂, _⟩ := Parse.andThen_eq_ok h₂
    obtain ⟨_, _, hq₃, _⟩ := Parse.map_eq_ok h₃
    rw [hq₂, hq₃] at hf
    cases hf

theorem item_function {s : List Token} {r : Reading true s Item} (h : item s = .ok r)
    {f : Function} (hf : r.value = .function f) :
    ∃ t rest, EndsType s (t :: rest) ∧ (t.kind = .identifier ∨ t.kind = .function) ∧
      f.name = t.text := by
  unfold item at h
  split at h
  · cases h
  · split at h
    · obtain ⟨_, _, hvalue, _⟩ := Parse.map_eq_ok h
      rw [hvalue] at hf
      cases hf
    · split at h
      · split at h
        · split at h
          · obtain ⟨q₁, h₁, hr, _⟩ := Parse.after_eq_ok h
            obtain ⟨q₂, h₂, hq₁, _⟩ := Parse.after_eq_ok h₁
            obtain ⟨_, _, hq₂, _⟩ := Parse.map_eq_ok h₂
            rw [hr, hq₁, hq₂] at hf
            cases hf
          · exact typedItem_function h hf
        · exact typedItem_function h hf
      · cases h

theorem startsType_ordinary {t : Token} (h : startsType t = true) : t.Ordinary := by
  have hmem : t.text ∈ typeKeywords ++ tagKeywords ++ typedefNames := by
    unfold startsType at h
    split at h
    · rw [Bool.or_eq_true, List.contains_iff_mem, List.contains_iff_mem] at h
      exact List.mem_append_left _ (List.mem_append.2 h)
    · exact List.mem_append_right _ (List.contains_iff_mem.1 h)
    · cases h
  exact Token.ordinary_of_mem hmem (by decide +kernel) (by decide +kernel)

end Grammar

/-! ## Programs -/

/-- **The name of a function in a source text has no number sign.** -/
theorem parse_function_name {source : String} {p : Program} (h : parse (tokenize source) = .ok p)
    {f : Function} (hf : f ∈ p.functions) : '#' ∉ f.name.toList := by
  unfold parse at h
  split at h
  · next r hr =>
    obtain rfl := Except.ok.inj h
    have hitem : Item.function f ∈ r.value := by
      obtain ⟨item, hitem, hsome⟩ := List.mem_filterMap.1 hf
      cases item with
      | function f' =>
        obtain rfl := Option.some.inj hsome
        exact hitem
      | _ => cases hsome
    obtain ⟨later, q, hlater, hq, hvalue⟩ := Grammar.items_mem hr hitem
    obtain ⟨t, rest, hends, hkind, hname⟩ := Grammar.item_function hq hvalue
    rw [hname]
    have hends := hends.of_suffix hlater
    generalize htokens : tokenize source = tokens at hends
    cases hends with
    | word before prev _ hstarts =>
      exact Token.sign_not_mem_of_ordinary htokens (Grammar.startsType_ordinary hstarts) hkind
    | star before prev _ hstar =>
      rw [Grammar.isAt, Bool.and_eq_true, beq_iff_eq] at hstar
      refine Token.sign_not_mem_of_ordinary htokens ?_ hkind
      exact Token.ordinary_of_mem (List.mem_singleton.2 hstar.1) (by decide) (by decide)
    | tag before keyword prev _ hkeyword hprev =>
      have hname := Token.name_after_keyword htokens hkeyword hprev
      rw [List.append_cons] at htokens
      exact Token.sign_not_mem_of_ordinary htokens (Token.ordinary_of_word hname.word) hkind
  · cases h

end Stepwise
