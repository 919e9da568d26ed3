/-
The tags of structs.

A struct definition begins with the word `struct` and a name, side by side in the
list of tokens. The word comes from outside directives, because directives give no
keywords. So does the name: a name that a directive gives stands behind the
preprocessor token of its line, and nothing from another line comes between the
two. A name from outside directives is a run of word characters, so it has no
blank in it, and it is no keyword, so it is no qualifier.
-/
import Stepwise.Grammar.Program
import Stepwise.Proofs.Structs
import Stepwise.Token.Scan

set_option autoImplicit false

namespace Stepwise

/-! ## Readers that succeed -/

namespace Grammar.Parse

variable {α β : Type} {s : List Token}

theorem map_eq_ok {strict : Bool} {f : α → β} {p : Parse strict s α} {r : Reading strict s β}
    (h : p.map f = .ok r) : ∃ q, p = .ok q ∧ r.value = f q.value ∧ r.rest = q.rest := by
  cases p with
  | error e => cases h
  | ok q =>
    obtain rfl := Except.ok.inj h
    exact ⟨q, rfl, rfl, rfl⟩

theorem andThen_eq_ok {a b : Bool} {p : Parse a s α}
    {next : (value : α) → (rest : List Token) → rest.length + a.toNat ≤ s.length → Parse b rest β}
    {r : Reading (a || b) s β} (h : p.andThen next = .ok r) :
    ∃ q q', p = .ok q ∧ next q.value q.rest q.bound = .ok q' ∧ r.value = q'.value ∧
      r.rest = q'.rest := by
  cases p with
  | error e => cases h
  | ok q =>
    unfold andThen at h
    dsimp only at h
    cases hq : next q.value q.rest q.bound with
    | error e =>
      rw [hq] at h
      cases h
    | ok q' =>
      rw [hq] at h
      obtain rfl := Except.ok.inj h
      exact ⟨q, q', rfl, hq, rfl, rfl⟩

theorem relax_eq_ok {strict : Bool} {p : Parse strict s α} {r : Reading false s α}
    (h : p.relax = .ok r) : ∃ q, p = .ok q ∧ r.value = q.value ∧ r.rest = q.rest := by
  cases p with
  | error e => cases h
  | ok q =>
    obtain rfl := Except.ok.inj h
    exact ⟨q, rfl, rfl, rfl⟩

theorem after_eq_ok {strict : Bool} {t : Token} {p : Parse strict s α}
    {r : Reading true (t :: s) α} (h : p.after t = .ok r) :
    ∃ q, p = .ok q ∧ r.value = q.value ∧ r.rest = q.rest := by
  cases p with
  | error e => cases h
  | ok q =>
    obtain rfl := Except.ok.inj h
    exact ⟨q, rfl, rfl, rfl⟩

end Grammar.Parse

/-! ## Where a struct begins -/

/-- The tokens begin a struct with this tag: a keyword and a name. -/
def BeginsStruct (tag : String) (s : List Token) : Prop :=
  ∃ t name rest, s = t :: name :: rest ∧ t.kind = .keyword ∧ name.kind = .identifier ∧
    name.text = tag

namespace Grammar

theorem structDefinition_tag {line : Nat} {tag : String} {s : List Token}
    {r : Reading true s Struct} (h : structDefinition line tag s = .ok r) : r.value.tag = tag := by
  obtain ⟨_, q₁, _, h₁, hr, _⟩ := Parse.andThen_eq_ok h
  obtain ⟨_, q₂, _, h₂, hq₁, _⟩ := Parse.andThen_eq_ok h₁
  obtain ⟨_, q₃, _, h₃, hq₂, _⟩ := Parse.andThen_eq_ok h₂
  obtain ⟨_, _, hq₃, _⟩ := Parse.map_eq_ok h₃
  rw [hr, hq₁, hq₂, hq₃]

theorem typedItem_ne_struct {line : Nat} {s : List Token} {r : Reading true s Item}
    (h : typedItem line s = .ok r) (st : Struct) : r.value ≠ .struct st := by
  obtain ⟨_, q₁, _, h₁, hr, _⟩ := Parse.andThen_eq_ok h
  rw [hr]
  split at h₁
  · obtain ⟨_, _, hq₁, _⟩ := Parse.map_eq_ok h₁
    rw [hq₁]
    exact fun he => by cases he
  · obtain ⟨_, q₂, _, h₂, hq₁, _⟩ := Parse.andThen_eq_ok h₁
    obtain ⟨_, _, hq₂, _⟩ := Parse.map_eq_ok h₂
    rw [hq₁, hq₂]
    exact fun he => by cases he

/-- Only the word `struct` itself begins a type and reads so. -/
theorem kind_of_struct {t : Token} (hstarts : startsType t = true) (hat : isAt "struct" t = true) :
    t.kind = .keyword := by
  rw [isAt, Bool.and_eq_true, beq_iff_eq] at hat
  unfold startsType at hstarts
  rw [hat.1] at hstarts
  cases hkind : t.kind with
  | keyword => rfl
  | identifier =>
    rw [hkind] at hstarts
    exact absurd hstarts (by decide)
  | _ =>
    rw [hkind] at hstarts
    cases hstarts

theorem item_struct {s : List Token} {r : Reading true s Item} (h : item s = .ok r) {st : Struct}
    (hst : r.value = .struct st) : BeginsStruct st.tag s := by
  unfold item at h
  split at h
  · cases h
  · next t rest =>
    split at h
    · obtain ⟨_, _, hvalue, _⟩ := Parse.map_eq_ok h
      rw [hvalue] at hst
      cases hst
    · split at h
      · next hstarts =>
        split at h
        · next name brace more =>
          split at h
          · next hstruct =>
            obtain ⟨q₁, h₁, hr, _⟩ := Parse.after_eq_ok h
            obtain ⟨q₂, h₂, hq₁, _⟩ := Parse.after_eq_ok h₁
            obtain ⟨q₃, h₃, hq₂, _⟩ := Parse.map_eq_ok h₂
            rw [hr, hq₁, hq₂] at hst
            obtain rfl := Item.struct.inj hst
            exact ⟨t, name, brace :: more, rfl, kind_of_struct hstarts hstruct.1, hstruct.2.1,
              (structDefinition_tag h₃).symm⟩
          · exact absurd hst (typedItem_ne_struct h st)
        · exact absurd hst (typedItem_ne_struct h st)
      · cases h

/-- Somewhere in the tokens every item of the program begins. -/
theorem items_mem {s : List Token} {r : Reading false s (List Item)} (h : items s = .ok r)
    {i : Item} (hi : i ∈ r.value) : ∃ later q, later <:+ s ∧ item later = .ok q ∧ q.value = i := by
  induction hlength : s.length using Nat.strong_induction_on generalizing s r with
  | _ k ih =>
    cases s with
    | nil =>
      rw [items] at h
      obtain rfl := Except.ok.inj h
      cases hi
    | cons t rest =>
      rw [items] at h
      obtain ⟨q, hq, hr, _⟩ := Parse.relax_eq_ok h
      obtain ⟨first, q', hfirst, hmore, hq', _⟩ := Parse.andThen_eq_ok hq
      obtain ⟨more, hitems, hvalue, _⟩ := Parse.map_eq_ok hmore
      rw [hr, hq', hvalue] at hi
      rcases List.mem_cons.1 hi with hi | hi
      · exact ⟨t :: rest, first, List.suffix_rfl, hfirst, hi.symm⟩
      · have hlt : first.rest.length < k := by
          have hbound := first.bound
          rw [Bool.toNat_true] at hbound
          omega
        obtain ⟨later, q, hlater, hitem, hvalue⟩ := ih _ hlt hitems hi rfl
        exact ⟨later, q, hlater.trans first.suffix, hitem, hvalue⟩

end Grammar

/-! ## Words -/

/-- No blank is a word character. -/
theorem Text.isBlank_of_isWordChar {c : Char} (h : isWordChar c = true) : isBlank c = false := by
  have hblanks : ∀ range ∈ blanks, ∀ n ∈ List.range' range.1 (range.2 + 1 - range.1),
      isWordChar (Char.ofNat n) = false := by decide +kernel
  by_contra hblank
  rw [Bool.not_eq_false, isBlank, Ranges.has_iff] at hblank
  obtain ⟨range, hrange, hlow, hhigh⟩ := hblank
  have hword := hblanks range hrange c.toNat (List.mem_range'_1.2 ⟨hlow, by omega⟩)
  rw [Char.ofNat_toNat, h] at hword
  cases hword

namespace Token

/-- A name as it stands in a program: word characters, and no keyword. -/
structure IsName (t : Token) : Prop where
  nonempty : t.text.toList ≠ []
  word : ∀ c ∈ t.text.toList, Text.isWordChar c = true
  free : t.text ∉ keywords

theorem word?_eq_some {s : List Char} {cut : Cut} (h : word? s = some cut) :
    cut.1 ≠ [] ∧ ∀ c ∈ cut.1, Text.isWordChar c = true := by
  unfold word? at h
  split at h
  · cases h
  · next hne =>
    obtain rfl := Option.some.inj h
    exact ⟨hne, fun c hc => List.mem_takeWhile_imp hc⟩

theorem firstSegment_word {c : Char} {rest chars : List Char}
    (h : (firstSegment c rest).1 = .lexeme .word chars) :
    chars ≠ [] ∧ ∀ c ∈ chars, Text.isWordChar c = true := by
  unfold firstSegment at h
  dsimp only at h
  split at h
  · cases h
  · split at h
    · cases h
    · split at h
      · cases h
      · split at h
        · cases h
        · split at h
          · next cut hword =>
            obtain rfl := (Segment.lexeme.inj h).2
            exact word?_eq_some hword
          · split at h
            · cases h
            · cases h

theorem segments_word {s chars : List Char} (h : Segment.lexeme .word chars ∈ segments s) :
    chars ≠ [] ∧ ∀ c ∈ chars, Text.isWordChar c = true := by
  fun_induction segments s with
  | case1 => cases h
  | case2 c rest ih =>
    rcases List.mem_cons.1 h with h | h
    · exact firstSegment_word h.symm
    · exact ih h

theorem mem_placed {p : Place} {segs : List Segment} {entry : Place × Segment}
    (h : entry ∈ placed p segs) : entry.2 ∈ segs := by
  induction segs generalizing p with
  | nil => cases h
  | cons seg segs ih =>
    rcases List.mem_cons.1 h with rfl | h
    · exact List.mem_cons_self
    · exact List.mem_cons_of_mem _ (ih h)

/-! ## Tokens outside directives -/

/-- The lines that are directives. -/
def claimedLines (source : List Char) : List Nat :=
  (directiveLines source).map (·.1)

theorem plain_line {source : List Char} {t : Token}
    (h : t ∈ (plainSegments source).filterMap ofSegment?) : t.line ∉ claimedLines source := by
  obtain ⟨⟨p, seg⟩, hmem, ht⟩ := List.mem_filterMap.1 h
  obtain ⟨_, hclaimed⟩ := List.mem_filter.1 hmem
  have hline : t.line = p.line := by
    cases seg with
    | lexeme kind chars =>
      obtain rfl := Option.some.inj ht
      rfl
    | _ => cases ht
  rw [hline, claimedLines]
  simpa using hclaimed

/-- A name outside directives is a run of word characters. -/
theorem plain_name {source : List Char} {t : Token}
    (h : t ∈ (plainSegments source).filterMap ofSegment?) (hkind : t.kind = .identifier) :
    t.IsName := by
  obtain ⟨⟨p, seg⟩, hmem, ht⟩ := List.mem_filterMap.1 h
  have hseg : seg ∈ segments source := mem_placed (List.mem_filter.1 hmem).1
  cases seg with
  | lexeme lexeme chars =>
    obtain rfl := Option.some.inj ht
    cases lexeme with
    | word =>
      obtain ⟨hne, hchars⟩ := segments_word hseg
      refine ⟨?_, ?_, ?_⟩
      · rw [String.toList_ofList]
        exact hne
      · rw [String.toList_ofList]
        exact hchars
      · intro hkeyword
        have hword : wordKind (String.ofList chars) = .identifier := hkind
        rw [wordKind, if_pos (List.contains_iff_mem.2 hkeyword)] at hword
        cases hword
    | operator =>
      have hoperator : operatorKind (String.ofList chars) = .identifier := hkind
      unfold operatorKind at hoperator
      split at hoperator <;> cases hoperator
    | number => cases hkind
    | quoted => cases hkind
  | _ => cases ht

/-! ## Tokens of directives -/

/-- A token of a directive stands on its line and is neither a keyword nor a function of the
library; a name stands behind the command. -/
structure OfDirective (d : DirectiveLine) (t : Token) : Prop where
  line : t.line = d.line
  kind : t.kind ≠ .keyword ∧ t.kind ≠ .function
  name : t.kind = .identifier → d.column < t.column

namespace DirectiveLine

variable {d : DirectiveLine} {t : Token}

theorem ofDirective_token (d : DirectiveLine) {kind : Kind} {offset : Nat} (text : List Char)
    (hkind : kind ≠ .keyword ∧ kind ≠ .function) (hname : kind ≠ .identifier ∨ 0 < offset) :
    OfDirective d (d.token kind offset text) where
  line := rfl
  kind := hkind
  name h := by
    rcases hname with hname | hname
    · exact absurd h hname
    · show d.column < d.column + offset
      omega

theorem mem_remainder {offset : Nat} (h : t ∈ d.remainder offset) : OfDirective d t := by
  unfold remainder at h
  dsimp only at h
  split at h
  · cases h
  · obtain rfl := List.mem_singleton.1 h
    exact ofDirective_token d _ (by decide) (Or.inl (by decide))

theorem mem_fileName {opener closer : Char} {tokens : List Token}
    (hname : d.fileName? opener closer = some tokens) (h : t ∈ tokens) : OfDirective d t := by
  unfold fileName? at hname
  split at hname
  · cases hname
  · next left _ =>
    split at hname
    · cases hname
    · split at hname
      · obtain rfl := Option.some.inj hname
        rcases List.mem_cons.1 h with rfl | h
        · exact ofDirective_token d _ (by decide) (Or.inl (by decide))
        · rcases List.mem_cons.1 h with rfl | h
          · exact ofDirective_token d _ (by decide) (Or.inr (by omega))
          · obtain rfl := List.mem_singleton.1 h
            exact ofDirective_token d _ (by decide) (Or.inl (by decide))
      · cases hname

theorem mem_definition {tokens : List Token} (hname : d.definition? = some tokens)
    (h : t ∈ tokens) : OfDirective d t := by
  unfold definition? at hname
  dsimp only at hname
  split at hname
  · cases hname
  · next hgap =>
    rw [not_or] at hgap
    obtain rfl := Option.some.inj hname
    rcases List.mem_cons.1 h with rfl | h
    · exact ofDirective_token d _ (by decide) (Or.inr (by omega))
    · exact mem_remainder h

theorem mem_arguments (h : t ∈ d.arguments) : OfDirective d t := by
  unfold arguments at h
  dsimp only at h
  split at h
  · cases hfile : (d.fileName? '<' '>').or (d.fileName? '"' '"') with
    | none =>
      rw [hfile] at h
      exact mem_remainder h
    | some tokens =>
      rw [hfile] at h
      rcases Option.or_eq_some_iff.1 hfile with hfile | ⟨_, hfile⟩
      · exact mem_fileName hfile h
      · exact mem_fileName hfile h
  · split at h
    · cases hdefinition : d.definition? with
      | none =>
        rw [hdefinition] at h
        exact mem_remainder h
      | some tokens =>
        rw [hdefinition] at h
        exact mem_definition hdefinition h
    · exact mem_remainder h

theorem mem_tokens (h : t ∈ d.tokens) : OfDirective d t := by
  rcases List.mem_cons.1 h with rfl | h
  · exact ofDirective_token d _ (by decide) (Or.inl (by decide))
  · exact mem_arguments h

end DirectiveLine

theorem directive_tokens {source : List Char} {t : Token} (h : t ∈ directiveTokens source) :
    t.kind ≠ .keyword ∧ t.line ∈ claimedLines source ∧
      (t.kind = .identifier → ∃ command ∈ directiveTokens source,
        command.kind = .preprocessor ∧ command.line = t.line ∧ command.column < t.column) := by
  obtain ⟨entry, hentry, ht⟩ := List.mem_flatMap.1 h
  have hof := DirectiveLine.mem_tokens ht
  refine ⟨hof.kind.1, ?_, fun hkind => ?_⟩
  · rw [hof.line]
    exact List.mem_map_of_mem hentry
  · refine ⟨_, List.mem_flatMap.2 ⟨entry, hentry, List.mem_cons_self⟩, rfl, hof.line.symm, ?_⟩
    exact hof.name hkind

/-! ## In order of place -/

theorem noLater_iff {a b : Token} :
    noLater a b = true ↔ a.line < b.line ∨ a.line = b.line ∧ a.column ≤ b.column := by
  simp [noLater]

theorem tokenize_sorted (source : String) :
    (tokenize source).Pairwise fun a b => noLater a b = true := by
  refine List.pairwise_mergeSort ?_ ?_ _
  · intro a b c hab hbc
    rw [noLater_iff] at hab hbc ⊢
    omega
  · intro a b
    rw [Bool.or_eq_true, noLater_iff, noLater_iff]
    omega

theorem mem_tokenize {source : String} {t : Token} :
    t ∈ tokenize source ↔
      t ∈ directiveTokens source.toList ∨
        t ∈ (plainSegments source.toList).filterMap ofSegment? := by
  unfold tokenize scan
  rw [List.mem_mergeSort, List.mem_append]

/-- Tokens that are in the order of their places are the tokens of the text. -/
theorem tokenize_of_sorted {source : String} {tokens : List Token}
    (h : directiveTokens source.toList ++ (plainSegments source.toList).filterMap ofSegment?
      = tokens)
    (hsorted : tokens.Pairwise fun a b => noLater a b = true) : tokenize source = tokens := by
  unfold tokenize scan
  dsimp only
  rw [h]
  exact List.mergeSort_of_pairwise hsorted

/-- The same for a text given by its characters, which then need not be decoded again. -/
theorem tokenize_of_chars {source : String} {chars : List Char} {tokens : List Token}
    (hsource : source = String.ofList chars)
    (h : directiveTokens chars ++ (plainSegments chars).filterMap ofSegment? = tokens)
    (hsorted : tokens.Pairwise fun a b => noLater a b = true) : tokenize source = tokens := by
  have hchars : source.toList = chars := by rw [hsource, String.toList_ofList]
  rw [← hchars] at h
  exact tokenize_of_sorted h hsorted

/-- **A name that follows a keyword is a run of word characters.** -/
theorem name_after_keyword {source : String} {pre post : List Token} {t name : Token}
    (h : tokenize source = pre ++ t :: name :: post) (ht : t.kind = .keyword)
    (hname : name.kind = .identifier) : name.IsName := by
  have hmem : ∀ u, u ∈ pre ++ t :: name :: post → u ∈ tokenize source := by
    intro u hu
    rw [h]
    exact hu
  have hplain : t ∈ (plainSegments source.toList).filterMap ofSegment? := by
    rcases mem_tokenize.1 (hmem t (by simp)) with hdirective | hplain
    · exact absurd ht (directive_tokens hdirective).1
    · exact hplain
  rcases mem_tokenize.1 (hmem name (by simp)) with hdirective | hplain'
  · -- the command of the directive would have to stand between the two
    exfalso
    obtain ⟨_, hclaimed, hcommand⟩ := directive_tokens hdirective
    obtain ⟨command, hin, hkind, hline, hcolumn⟩ := hcommand hname
    -- the line of the keyword is no directive
    have hline' : t.line ≠ name.line := by
      intro heq
      exact plain_line hplain (heq ▸ hclaimed)
    have hsorted := tokenize_sorted source
    have hcommand' : command ∈ tokenize source := mem_tokenize.2 (Or.inl hin)
    rw [h] at hsorted hcommand'
    obtain ⟨_, htail, hbefore⟩ := List.pairwise_append.1 hsorted
    obtain ⟨hfirst, htail⟩ := List.pairwise_cons.1 htail
    obtain ⟨hsecond, _⟩ := List.pairwise_cons.1 htail
    have htn := noLater_iff.1 (hfirst name List.mem_cons_self)
    rcases List.mem_append.1 hcommand' with hpre | hrest
    · have hct := noLater_iff.1 (hbefore command hpre t List.mem_cons_self)
      omega
    · rcases List.mem_cons.1 hrest with rfl | hrest
      · rw [ht] at hkind
        cases hkind
      · rcases List.mem_cons.1 hrest with rfl | hpost
        · omega
        · have hnc := noLater_iff.1 (hsecond command hpost)
          omega
  · exact plain_name hplain' hname

end Token

/-! ## Programs -/

/-- The tag of a struct in a source text is a name. -/
theorem parse_tag {source : String} {p : Program} (h : parse (tokenize source) = .ok p) :
    ∀ s ∈ p.structs, ∃ name : Token, name.IsName ∧ name.text = s.tag := by
  intro s hs
  unfold parse at h
  split at h
  · next r hr =>
    obtain rfl := Except.ok.inj h
    have hitem : Item.struct s ∈ r.value := by
      obtain ⟨item, hitem, hsome⟩ := List.mem_filterMap.1 hs
      cases item with
      | struct s' =>
        obtain rfl := Option.some.inj hsome
        exact hitem
      | _ => cases hsome
    obtain ⟨later, q, ⟨pre, hpre⟩, hq, hvalue⟩ := Grammar.items_mem hr hitem
    obtain ⟨t, name, post, rfl, ht, hname, htag⟩ := Grammar.item_struct hq hvalue
    exact ⟨name, Token.name_after_keyword hpre.symm ht hname, htag⟩
  · cases h

/-- **The tag of a struct in a source text is a single word that is no qualifier.** -/
theorem parse_tagged {source : String} {p : Program} (h : parse (tokenize source) = .ok p) :
    ∀ s ∈ p.structs, s.Tagged := by
  intro s hs
  obtain ⟨name, ⟨hne, hchars, hfree⟩, htag⟩ := parse_tag h s hs
  rw [htag] at hne hchars hfree
  refine ⟨hne, fun c hc => Text.isBlank_of_isWordChar (hchars c hc), ?_⟩
  intro hqualifier
  have hkeywords : ∀ w ∈ CType.qualifiers, w ∈ Token.keywords := by decide
  exact hfree (hkeywords _ hqualifier)

end Stepwise
