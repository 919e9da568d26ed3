/-
The tokens that the text of an expression is meant to have.

The text of an expression is a sequence of fragments: literals, words, signs without
blanks and with blanks around them, commas, and types in parentheses. Each fragment
stands for tokens of its own, and the tokens of the expression are those of its
fragments (`Expr.tokens`).

Whether the text is read as these tokens is settled here in two ways. Round brackets
aside, a text that is read as tokens that begin like these is read as these
(`reads_of_bare`): wherever two fragments run together the first token read is another
one. And if no operand is out of place and no number stands in front of a point, no
two fragments run together (`Expr.reads_fragments`).
-/
import Stepwise.Proofs.Rereading

set_option autoImplicit false

namespace Stepwise

open Token

/-! ## Pieces -/

/-- A fragment of the text of an expression. -/
inductive Fragment where
  /-- A literal. -/
  | literal (text : String)
  /-- A word. -/
  | word (text : String)
  /-- A sign with no blanks around it. -/
  | sign (text : String)
  /-- A sign with a blank on either side. -/
  | spaced (text : String)
  /-- A comma and a blank. -/
  | comma
  /-- A type in parentheses. -/
  | type (type : CType)

namespace Fragment

/-- The characters of a fragment. -/
def text : Fragment → List Char
  | literal text | word text | sign text => text.toList
  | spaced text => ' ' :: (text.toList ++ [' '])
  | comma => [',', ' ']
  | type t => '(' :: (t.text.toList ++ [')'])

/-- The tokens a fragment stands for. -/
def tokens : Fragment → List Token
  | literal text => [ofLiteral text]
  | word text => [ofWord text]
  | sign text | spaced text => [ofSign text]
  | comma => [ofSign ","]
  | type t => ofSign "(" :: (reads t.text.toList ++ [ofSign ")"])

/-- The fragment is made of what tokens are made of. -/
def Good : Fragment → Prop
  | literal text => IsNumber text.toList ∨ IsQuoted text.toList ∧ Calm text.toList
  | word text => IsWord text.toList
  | sign text => text ∈ signs ∧ text.toList.head? ≠ some '/'
  | spaced text => text ∈ signs
  | comma => True
  | type t => ∃ s, (∀ u ∈ s, u.Written) ∧ Grammar.IsType s t

end Fragment

namespace Expr

mutual

/-- The fragments of the text of an expression. -/
def fragments : Expr → List Fragment
  | literal _ text => [.literal text]
  | name _ n => [.word n]
  | call _ callee arguments =>
    .word callee :: .sign "(" :: (fragmentsOfAll arguments ++ [.sign ")"])
  | index _ array position => .word array :: .sign "[" :: (fragments position ++ [.sign "]"])
  | member _ arrow object m => fragments object ++ [.sign (if arrow then "->" else "."), .word m]
  | unary _ op operand =>
    .sign op.text :: (if operand.isSimple then fragments operand
      else .sign "(" :: (fragments operand ++ [.sign ")"]))
  | stepAfter _ op operand => fragments operand ++ [.sign op.text]
  | cast _ type operand => .type type :: fragments operand
  | sizeOfType _ type => [.word "sizeof", .type type]
  | sizeOf _ operand => .word "sizeof" :: .sign "(" :: (fragments operand ++ [.sign ")"])
  | binary _ op left right =>
    fragments left ++ .spaced op.text ::
      (if groupsRight op && (right.isAdditive || right.isShift)
        then .sign "(" :: (fragments right ++ [.sign ")"]) else fragments right)
  | logic _ op left right => fragments left ++ .spaced op.text :: fragments right
  | conditional _ condition whenTrue whenFalse =>
    fragments condition ++ .spaced "?" :: (fragments whenTrue ++ .spaced ":" :: fragments whenFalse)
  | assign _ op target value => fragments target ++ .spaced (assignText op) :: fragments value

/-- The fragments of the texts of expressions parted by commas. -/
def fragmentsOfAll : List Expr → List Fragment
  | [] => []
  | [e] => fragments e
  | e :: rest => fragments e ++ .comma :: fragmentsOfAll rest

end

mutual

theorem toList_source (e : Expr) : e.source.toList = e.fragments.flatMap Fragment.text := by
  cases e with
  | literal _ text | name _ text => simp [source, fragments, Fragment.text]
  | call _ callee arguments =>
    simp [source, fragments, Fragment.text, toList_sources arguments]
  | index _ _ e | stepAfter _ _ e | cast _ _ e | sizeOf _ e =>
    simp [source, fragments, Fragment.text, toList_source e]
  | member _ arrow e _ =>
    cases arrow <;> simp [source, fragments, Fragment.text, toList_source e]
  | unary _ _ e =>
    cases hsimple : e.isSimple <;>
      simp [source, fragments, Fragment.text, toList_source e, hsimple]
  | sizeOfType _ type => simp [source, fragments, Fragment.text]
  | binary _ op left right =>
    cases hgroups : groupsRight op && (right.isAdditive || right.isShift) <;>
      simp [source, fragments, Fragment.text, toList_source left, toList_source right, hgroups]
  | logic _ _ left right | assign _ _ left right =>
    simp [source, fragments, Fragment.text, toList_source left, toList_source right]
  | conditional _ c a b =>
    simp [source, fragments, Fragment.text, toList_source c, toList_source a, toList_source b]

theorem toList_sources (es : List Expr) :
    (sources es).toList = (fragmentsOfAll es).flatMap Fragment.text := by
  match es with
  | [] => rfl
  | [e] => exact toList_source e
  | e :: e' :: rest =>
    simp [sources, fragmentsOfAll, Fragment.text, toList_source e, toList_sources (e' :: rest)]

end

/-- The tokens the text of an expression is meant to have. -/
def tokens (e : Expr) : List Token :=
  e.fragments.flatMap Fragment.tokens

end Expr

/-! ## Types -/

namespace Grammar

/-- The words of a type are the texts of its tokens, and words. -/
theorem TypeWords.words {s : List Token} {words : List String} (h : TypeWords s words)
    (hwritten : ∀ t ∈ s, t.Written) :
    s.map unplaced = words.map ofWord ∧ ∀ word ∈ words, IsWord word.toList := by
  induction h with
  | nil => exact ⟨rfl, fun word h => by cases h⟩
  | @keyword t s words hkind _ _ ih =>
    rw [List.forall_mem_cons] at hwritten
    obtain ⟨hword, htoken⟩ := hwritten.1.word (by rw [hkind]; decide) (by rw [hkind]; decide)
    obtain ⟨hrest, hwords⟩ := ih hwritten.2
    rw [List.map_cons, List.map_cons, htoken, hrest, List.forall_mem_cons]
    exact ⟨rfl, hword, hwords⟩
  | @tag t tag s words hkind _ htag _ ih =>
    rw [List.forall_mem_cons, List.forall_mem_cons] at hwritten
    obtain ⟨hword, htoken⟩ := hwritten.1.word (by rw [hkind]; decide) (by rw [hkind]; decide)
    obtain ⟨hword', htoken'⟩ := hwritten.2.1.word (by rw [htag]; decide) (by rw [htag]; decide)
    obtain ⟨hrest, hwords⟩ := ih hwritten.2.2
    rw [List.map_cons, List.map_cons, List.map_cons, List.map_cons, htoken, htoken', hrest,
      List.forall_mem_cons, List.forall_mem_cons]
    exact ⟨rfl, hword, hword', hwords⟩
  | @header t hkind _ =>
    rw [List.forall_mem_singleton] at hwritten
    obtain ⟨hword, htoken⟩ := hwritten.word (by rw [hkind]; decide) (by rw [hkind]; decide)
    rw [List.map_singleton, List.map_singleton, htoken, List.forall_mem_singleton]
    exact ⟨rfl, hword⟩

end Grammar

theorem reads_words {words : List String} (hwords : ∀ word ∈ words, IsWord word.toList)
    {after : List Char} (hafter : ∀ c ∈ after.head?, Text.isWordChar c = false) :
    reads ((" ".intercalate words).toList ++ after) = words.map ofWord ++ reads after := by
  rw [String.toList_intercalate]
  induction words with
  | nil => rfl
  | cons word words ih =>
    rw [List.forall_mem_cons] at hwords
    cases words with
    | nil =>
      rw [List.map_singleton, List.intercalate_singleton, reads_word hwords.1 hafter]
      rfl
    | cons next words =>
      rw [List.map_cons, List.map_cons, List.intercalate_cons_cons, List.append_assoc,
        List.append_assoc, reads_word hwords.1 (by rintro c ⟨⟩; decide)]
      show _ :: reads (' ' :: _) = _
      rw [reads_space]
      exact congrArg _ (ih hwords.2)

theorem reads_stars (n : Nat) {after : List Char} (hafter : ∀ c ∈ after.head?, c ∉ lengthening) :
    reads (List.replicate n '*' ++ after) = List.replicate n (ofSign "*") ++ reads after := by
  induction n with
  | zero => rfl
  | succ n ih =>
    have hstar : ∀ c ∈ (List.replicate n '*' ++ after).head?, c ∉ lengthening := by
      refine head?_append_of_forall (fun c hc => ?_) hafter
      rw [List.eq_of_mem_replicate hc]
      decide
    have hread := reads_sign (show "*" ∈ signs by decide) (comment?_of_ne (by decide)) hstar
    rw [List.replicate_succ, List.replicate_succ, List.cons_append, List.cons_append, ← ih]
    exact hread

/-- A type is read as the tokens it was read from. -/
theorem reads_type {s : List Token} {type : CType} (h : Grammar.IsType s type)
    (hwritten : ∀ t ∈ s, t.Written) {after : List Char}
    (hafter : ∀ c ∈ after.head?, Text.isWordChar c = false ∧ c ∉ lengthening) :
    reads (type.text.toList ++ after) = s.map unplaced ++ reads after := by
  obtain ⟨front, back, words, rfl, _, hfront, hback, rfl⟩ := h
  rw [List.forall_mem_append] at hwritten
  obtain ⟨hmap, hwords⟩ := hfront.words hwritten.1
  have hstars : back.map unplaced = List.replicate back.length (ofSign "*") := by
    refine List.eq_replicate_iff.2 ⟨List.length_map _, fun t ht => ?_⟩
    obtain ⟨star, hstar, rfl⟩ := List.mem_map.1 ht
    exact (hwritten.2 star hstar).sign (hback star hstar) (by decide)
  have hnext : ∀ c ∈ (List.replicate back.length '*' ++ after).head?,
      Text.isWordChar c = false := by
    refine head?_append_of_forall (fun c hc => ?_) fun c hc => (hafter c hc).1
    rw [List.eq_of_mem_replicate hc]
    decide
  rw [Grammar.starred, String.toList_append, String.toList_ofList, List.append_assoc,
    reads_words hwords hnext, reads_stars _ fun c hc => (hafter c hc).2, List.map_append, hmap,
    hstars, List.append_assoc]

theorem reads_type_alone {s : List Token} {type : CType} (h : Grammar.IsType s type)
    (hwritten : ∀ t ∈ s, t.Written) : reads type.text.toList = s.map unplaced := by
  have hread := reads_type h hwritten (show ∀ c ∈ ([] : List Char).head?, _ by simp)
  rwa [List.append_nil, reads_nil, List.append_nil] at hread

/-! ## Fragments that are read by themselves -/

theorem not_blank_of_word {c : Char} (h : Text.isWordChar c = true ∨ Text.isDecimal c = true) :
    Text.isBlank c = false := by
  by_contra hblank
  rw [Bool.not_eq_false] at hblank
  have hchar := not_word_of_blank hblank
  rcases h with h | h
  · rw [hchar.1] at h
    cases h
  · rw [hchar.2] at h
    cases h

namespace Fragment

/-- What may follow a fragment that is read by itself. -/
def Parts : Fragment → List Char → Prop
  | literal text, after =>
    (∀ c ∈ after.head?, c ∈ followers) ∧
      (after.head? = some '.' → ¬ ∀ c ∈ text.toList, Text.isDecimal c = true)
  | word _, after => ∀ c ∈ after.head?, Text.isWordChar c = false
  | sign text, after =>
    (∀ longer ∈ signs, text.toList <+: longer.toList → longer = text) ∨
      ∀ c ∈ after.head?, c ∉ lengthening
  | _, _ => True

theorem Good.comment?_sign {text : String} (h : (sign text).Good) (after : List Char) :
    comment? (text.toList ++ after) = none := by
  obtain ⟨hsign, hhead⟩ := h
  obtain ⟨c, rest, htext⟩ := List.exists_cons_of_ne_nil (signs_ne_nil text hsign)
  rw [htext] at hhead ⊢
  exact comment?_of_ne fun hc => hhead (by rw [hc]; rfl)

theorem comment?_spaced {text : String} (h : text ∈ signs) (after : List Char) :
    comment? (text.toList ++ ' ' :: after) = none := by
  by_cases hhead : text.toList.head? = some '/'
  · rcases signs_slash h hhead with rfl | rfl <;> rfl
  · exact Good.comment?_sign ⟨h, hhead⟩ _

/-- A fragment that what follows leaves alone is read as its tokens. -/
theorem Good.reads_append {p : Fragment} (h : p.Good) {after : List Char}
    (hafter : p.Parts after) : reads (p.text ++ after) = p.tokens ++ reads after := by
  cases p with
  | literal text =>
    rcases h with h | ⟨h, _⟩
    · exact reads_number h hafter.1 hafter.2
    · exact reads_quoted h after
  | word text => exact reads_word h hafter
  | sign text =>
    rcases hafter with hclosed | hafter
    · exact reads_closed h.1 hclosed h.2 after
    · exact reads_sign h.1 (h.comment?_sign after) hafter
  | spaced text =>
    -- the blank behind the sign keeps it apart from what follows
    have hsign := reads_sign h (comment?_spaced h after) (by rintro c ⟨⟩; decide)
    rw [reads_space] at hsign
    rw [Fragment.text, List.cons_append, reads_space, List.append_assoc]
    exact hsign
  | comma =>
    have hsign := reads_closed (show "," ∈ signs by decide) (by decide) (by decide) (' ' :: after)
    rw [reads_space] at hsign
    exact hsign
  | type t =>
    obtain ⟨s, hwritten, htype⟩ := h
    have hopener := reads_closed (show "(" ∈ signs by decide) (by decide) (by decide)
      (t.text.toList ++ ')' :: after)
    have hcloser := reads_closed (show ")" ∈ signs by decide) (by decide) (by decide) after
    have hinner := reads_type htype hwritten
      (show ∀ c ∈ (')' :: after).head?, Text.isWordChar c = false ∧ c ∉ lengthening by
        rintro c ⟨⟩; decide)
    calc reads ((type t).text ++ after)
        = reads ("(".toList ++ (t.text.toList ++ ')' :: after)) := by simp [Fragment.text]
      _ = ofSign "(" :: (s.map unplaced ++ reads (")".toList ++ after)) := by
          rw [hopener, hinner]
          rfl
      _ = (type t).tokens ++ reads after := by
          rw [hcloser, Fragment.tokens, reads_type_alone htype hwritten]
          simp

/-! ## Lines -/

theorem IsWord.calm {text : List Char} (h : IsWord text) : Calm text ∧ Unmarked text := by
  obtain ⟨hne, hword, _⟩ := h
  constructor
  · refine calm_of_not_mem fun hmem => ?_
    have hfeed := hword _ hmem
    revert hfeed
    decide
  · obtain ⟨c, rest, rfl⟩ := List.exists_cons_of_ne_nil hne
    have hc := hword c List.mem_cons_self
    refine unmarked_cons (not_blank_of_word (Or.inl hc)) ?_ rest
    rintro rfl
    revert hc
    decide

theorem IsNumber.calm {text : List Char} (h : IsNumber text) : Calm text ∧ Unmarked text := by
  have hfree : '\n' ∉ text := h.not_mem rfl rfl rfl (by decide) (by decide)
  refine ⟨calm_of_not_mem hfree, ?_⟩
  obtain ⟨c, rest, rfl, hc⟩ := h.head
  refine unmarked_cons (not_blank_of_word (Or.inr hc)) ?_ rest
  rintro rfl
  revert hc
  decide

theorem calm_words {words : List String} (hwords : ∀ word ∈ words, IsWord word.toList) :
    Calm (" ".intercalate words).toList := by
  rw [String.toList_intercalate]
  induction words with
  | nil => exact calm_of_not_mem (by decide)
  | cons word words ih =>
    rw [List.forall_mem_cons] at hwords
    cases words with
    | nil =>
      rw [List.map_singleton, List.intercalate_singleton]
      exact (IsWord.calm hwords.1).1
    | cons next words =>
      rw [List.map_cons, List.map_cons, List.intercalate_cons_cons]
      exact ((IsWord.calm hwords.1).1.append (calm_of_not_mem (by decide))).append (ih hwords.2)

theorem calm_sign {text : String} (h : text ∈ signs) : Calm text.toList ∧ Unmarked text.toList := by
  have hchars : ∀ text ∈ operatorChars, '\n' ∉ text ∧
      ∀ c ∈ text.head?, Text.isBlank c = false ∧ c ≠ '#' := by
    decide
  obtain ⟨hfeed, hhead⟩ := forall_mem_signs hchars text h
  refine ⟨calm_of_not_mem hfeed, ?_⟩
  obtain ⟨c, rest, htext⟩ := List.exists_cons_of_ne_nil (signs_ne_nil text h)
  rw [htext] at hhead ⊢
  exact unmarked_cons (hhead c rfl).1 (hhead c rfl).2 rest

/-- A fragment shows something, and no line inside of it begins with a mark. -/
theorem Good.calm {p : Fragment} (h : p.Good) : Calm p.text ∧ Unmarked p.text := by
  cases p with
  | literal text =>
    rcases h with h | ⟨⟨quote, tail, htext, hquote, _⟩, hcalm⟩
    · exact IsNumber.calm h
    · refine ⟨hcalm, ?_⟩
      rw [Fragment.text, htext]
      rcases hquote with rfl | rfl <;> exact unmarked_cons (by decide) (by decide) tail
  | word text => exact IsWord.calm h
  | sign text => exact calm_sign h.1
  | spaced text =>
    have hspace : Calm [' '] := calm_of_not_mem (by decide)
    obtain ⟨hcalm, hseen⟩ := calm_sign h
    refine ⟨hspace.append (hcalm.append hspace), ?_⟩
    obtain ⟨c, hc, hmark⟩ := hseen.append [' ']
    exact ⟨c, hc, hmark⟩
  | comma => exact ⟨calm_of_not_mem (by decide), unmarked_cons (by decide) (by decide) _⟩
  | type t =>
    obtain ⟨s, hwritten, front, back, words, rfl, _, hfront, _, rfl⟩ := h
    rw [List.forall_mem_append] at hwritten
    obtain ⟨_, hwords⟩ := hfront.words hwritten.1
    have hstars : Calm (List.replicate back.length '*') := by
      refine calm_of_not_mem fun hmem => ?_
      exact absurd (List.eq_of_mem_replicate hmem) (by decide)
    refine ⟨?_, unmarked_cons (by decide) (by decide) _⟩
    have htype : Calm (Grammar.starred ⟨" ".intercalate words⟩ back.length).text.toList := by
      rw [Grammar.starred, String.toList_append, String.toList_ofList]
      exact (calm_words hwords).append hstars
    exact Calm.append (s := ['(']) (calm_of_not_mem (by decide))
      (htype.append (calm_of_not_mem (by decide)))

end Fragment

/-- The text of good fragments has no directives. -/
theorem undirected_of_good {source : String} {parts : List Fragment}
    (hsource : source.toList = parts.flatMap Fragment.text) (hne : parts ≠ [])
    (hgood : ∀ p ∈ parts, p.Good) : Undirected source := by
  have hcalm : Calm (parts.flatMap Fragment.text) := by
    clear hsource hne
    induction parts with
    | nil => exact calm_of_not_mem (by decide)
    | cons p parts ih =>
      rw [List.forall_mem_cons] at hgood
      rw [List.flatMap_cons]
      exact hgood.1.calm.1.append (ih hgood.2)
  have hseen : Unmarked (parts.flatMap Fragment.text) := by
    obtain ⟨p, parts, rfl⟩ := List.exists_cons_of_ne_nil hne
    rw [List.flatMap_cons]
    exact (hgood p List.mem_cons_self).calm.2.append _
  rw [← hsource] at hcalm hseen
  exact hcalm.undirected hseen

/-! ## Round brackets aside -/

/-- Is the token a round bracket? -/
def Token.isRound (t : Token) : Bool :=
  Grammar.isAt "(" t || Grammar.isAt ")" t

/-- The tokens that are no round brackets. -/
def bare (s : List Token) : List Token :=
  s.filter fun t => !t.isRound

@[simp] theorem bare_nil : bare [] = [] := rfl

@[simp] theorem bare_append (s s' : List Token) : bare (s ++ s') = bare s ++ bare s' :=
  List.filter_append ..

theorem bare_cons_round {t : Token} (h : t.isRound = true) (s : List Token) :
    bare (t :: s) = bare s :=
  List.filter_cons_of_neg (by rw [h]; decide)

theorem bare_cons {t : Token} (h : t.isRound = false) (s : List Token) :
    bare (t :: s) = t :: bare s :=
  List.filter_cons_of_pos (by rw [h]; decide)

theorem isRound_eq_false {t : Token} (h : t.kind = .literal ∨ t.text ≠ "(" ∧ t.text ≠ ")") :
    t.isRound = false := by
  rw [Token.isRound, Bool.or_eq_false_iff, Grammar.isAt, Grammar.isAt]
  rcases h with h | ⟨hopener, hcloser⟩
  · simp [h]
  · simp [hopener, hcloser]

theorem IsWord.not_round {text : String} (h : IsWord text.toList) :
    text ≠ "(" ∧ text ≠ ")" := by
  constructor <;>
    · rintro rfl
      exact absurd (h.2.1 _ List.mem_cons_self) (by decide)

/-- The first token read decides: if it is the right one, the text was read by itself. -/
theorem reads_of_first {text after text' rest : List Char} {lexeme : Lexeme}
    (hstarts : Starts (text ++ after) (.lexeme lexeme text') rest)
    (hround : (lexeme.token (String.ofList text')).isRound = false) {t : Token}
    (ht : t.text = String.ofList text) (htround : t.isRound = false)
    (hpre : bare [t] <+: bare (reads (text ++ after))) :
    reads (text ++ after) = t :: reads after := by
  have hread := reads_of_starts hstarts
  rw [hread, bare_cons hround, bare_cons htround, List.cons_prefix_cons] at hpre
  have htext : text' = text := by
    have heq := congrArg Token.text hpre.1
    rw [ht] at heq
    exact String.ofList_injective heq.symm
  have hrest : rest = after := by
    have happend := hstarts.append
    rw [htext] at happend
    exact List.append_cancel_left happend.symm
  rw [hread, hrest, hpre.1]

/-- Whatever follows, a fragment is read by itself or as another token. -/
theorem Fragment.Good.reads_of_bare {p : Fragment} (h : p.Good) {after : List Char}
    (hpre : bare p.tokens <+: bare (reads (p.text ++ after))) :
    reads (p.text ++ after) = p.tokens ++ reads after := by
  cases p with
  | literal text =>
    rcases h with h | ⟨h, _⟩
    · obtain ⟨text', rest, hstarts⟩ := exists_number h after
      exact reads_of_first hstarts (isRound_eq_false (Or.inl rfl)) String.ofList_toList.symm
        (isRound_eq_false (Or.inl rfl)) hpre
    · exact reads_quoted h after
  | word text =>
    have hstarts := starts_word h after
    -- what follows may make a longer word of it, but no round bracket
    have hlonger :
        IsWord (String.ofList (text.toList ++ after.takeWhile Text.isWordChar)).toList := by
      obtain ⟨hne, hword, hhead⟩ := h
      rw [String.toList_ofList]
      refine ⟨fun hnil => hne (List.append_eq_nil_iff.1 hnil).1, ?_, ?_⟩
      · rw [List.forall_mem_append]
        exact ⟨hword, fun c => List.mem_takeWhile_imp⟩
      · rwa [List.head?_append_of_ne_nil _ hne]
    exact reads_of_first hstarts (isRound_eq_false (Or.inr (IsWord.not_round hlonger)))
      String.ofList_toList.symm (isRound_eq_false (Or.inr (IsWord.not_round h))) hpre
  | sign text =>
    by_cases hround : text = "(" ∨ text = ")"
    · rcases hround with rfl | rfl <;> exact reads_closed h.1 (by decide) h.2 after
    · rw [not_or] at hround
      obtain ⟨longer, hlonger, rest, hstarts, hprefix⟩ := exists_sign h.1 (h.comment?_sign after)
      -- a longer sign is no round bracket either
      have hround' : longer ≠ "(" ∧ longer ≠ ")" := by
        have hchars : ∀ text ∈ operatorChars, ∀ longer ∈ ["(", ")"], text <+: longer.toList →
            text = "(".toList ∨ text = ")".toList := by
          decide
        constructor <;>
          · rintro rfl
            rcases forall_mem_signs hchars text h.1 _ (by decide) hprefix with hopen | hclose
            · exact hround.1 (String.toList_inj.1 hopen)
            · exact hround.2 (String.toList_inj.1 hclose)
      refine reads_of_first hstarts (isRound_eq_false (Or.inr ?_)) String.ofList_toList.symm
        (isRound_eq_false (Or.inr hround)) hpre
      rw [String.ofList_toList]
      exact hround'
  | spaced text => exact h.reads_append trivial
  | comma => exact h.reads_append trivial
  | type t => exact h.reads_append trivial

/-- **Good fragments are read as other tokens, round brackets aside, or each by itself;** and then
no number made of digits stands in front of a point. -/
theorem reads_of_bare {parts : List Fragment} (hgood : ∀ p ∈ parts, p.Good) {after : List Char}
    (hpre : bare (parts.flatMap Fragment.tokens) <+:
      bare (reads (parts.flatMap Fragment.text ++ after))) :
    reads (parts.flatMap Fragment.text ++ after) =
        parts.flatMap Fragment.tokens ++ reads after ∧
      ∀ text : String, (∀ c ∈ text.toList, Text.isDecimal c = true) →
        ¬ [.literal text, .sign "."] <:+: parts := by
  induction parts with
  | nil =>
    refine ⟨rfl, fun text _ hwithin => ?_⟩
    cases List.infix_nil.1 hwithin
  | cons p parts ih =>
    rw [List.forall_mem_cons] at hgood
    rw [List.flatMap_cons, List.flatMap_cons, List.append_assoc] at hpre ⊢
    have hfirst : bare p.tokens <+:
        bare (reads (p.text ++ (parts.flatMap Fragment.text ++ after))) := by
      rw [bare_append] at hpre
      exact (List.prefix_append _ _).trans hpre
    have hread := hgood.1.reads_of_bare hfirst
    rw [hread, bare_append, bare_append, List.prefix_append_right_inj] at hpre
    obtain ⟨hrest, hpoints⟩ := ih hgood.2 hpre
    refine ⟨by rw [hread, hrest, List.append_assoc], fun text hdigits hwithin => ?_⟩
    rcases List.infix_cons_iff.1 hwithin with hstart | hwithin
    · -- the number at the front would have taken the point along
      obtain ⟨others, hothers⟩ := hstart
      obtain ⟨rfl, rfl⟩ := List.cons.inj hothers
      rcases hgood.1 with hnumber | ⟨⟨quote, tail, htext, hquote, _⟩, _⟩
      · obtain ⟨text', rest, hstarts, hne⟩ := exists_pointed hnumber hdigits
          (others.flatMap Fragment.text ++ after)
        have hother := reads_of_starts hstarts
        have heq := hread.symm.trans hother
        have htext := congrArg Token.text (List.cons.inj heq).1
        refine hne (String.ofList_injective ?_)
        rw [String.ofList_toList]
        exact htext.symm
      · have hc := hdigits quote (by rw [htext]; exact List.mem_cons_self)
        rcases hquote with rfl | rfl <;> revert hc <;> decide
    · exact hpoints text hdigits hwithin

/-! ## Operands in their places -/

namespace Expr

open Grammar (Rank Level)

/-- How tightly the text of an expression holds together. -/
def rank : Expr → Rank
  | assign .. => .assignment
  | conditional .. => .conditional
  | logic .. => .level .logical
  | binary _ op _ _ => .level (.ofBinary op)
  | unary .. | cast .. | sizeOf .. | sizeOfType .. => .unary
  | member .. | stepAfter .. => .operand
  | literal .. | name .. | call .. | index .. => .primary

/-- Does the text of the expression hold together where this rank is asked for? -/
def fits (e : Expr) (r : Rank) : Bool :=
  r.downward.contains e.rank

/-- Does the text of the expression begin with a name that stands for a type? -/
def beginsType : Expr → Bool
  | name _ n | call _ n _ | index _ n _ => Grammar.typedefNames.contains n
  | member _ _ e _ | stepAfter _ _ e | binary _ _ e _ | logic _ _ e _ | conditional _ e _ _
  | assign _ _ e _ => beginsType e
  | literal .. | unary .. | cast .. | sizeOf .. | sizeOfType .. => false

/-- Are the operands written so that they stay the operands? One without parentheses holds together
as its place asks for, and one in parentheses does not begin like a type. -/
def keepsOperands : Expr → Bool
  | literal .. | name .. | call .. | index .. | sizeOfType .. => true
  | member _ _ object _ => object.fits .operand
  | stepAfter _ _ operand => operand.fits .operand
  | unary _ _ operand => operand.isSimple || !operand.beginsType
  | sizeOf _ operand => !operand.beginsType
  | cast _ _ operand => operand.fits .unary
  | binary _ op left right =>
    left.fits (.level (.ofBinary op)) &&
      if groupsRight op && (right.isAdditive || right.isShift) then !right.beginsType
      else right.fits (.ofLevels (Level.ofBinary op).tighter)
  | logic _ _ left right => left.fits (.level .logical) && right.fits (.level .bitwise)
  | conditional _ condition _ whenFalse =>
    condition.fits (.level .logical) && whenFalse.fits .conditional
  | assign _ _ target _ => target.fits .conditional

/-- Is it a member of a number that is made of digits? -/
def dotsDigits : Expr → Bool
  | member _ false (literal _ text) _ => text.toList.all Text.isDecimal
  | _ => false

end Expr

/-! ## No two fragments run together -/

/-- The fragments are each read by itself in front of `after`. -/
def Alone (parts : List Fragment) (after : List Char) : Prop :=
  reads (parts.flatMap Fragment.text ++ after) = parts.flatMap Fragment.tokens ++ reads after

namespace Alone

variable {parts others : List Fragment} {after : List Char}

theorem nil (after : List Char) : Alone [] after := rfl

theorem append (h : Alone parts (others.flatMap Fragment.text ++ after)) (h' : Alone others after) :
    Alone (parts ++ others) after := by
  unfold Alone at *
  rw [List.flatMap_append, List.flatMap_append, List.append_assoc, h, h', List.append_assoc]

theorem cons {p : Fragment} (hgood : p.Good)
    (hparts : p.Parts (parts.flatMap Fragment.text ++ after)) (h : Alone parts after) :
    Alone (p :: parts) after := by
  unfold Alone at *
  rw [List.flatMap_cons, List.flatMap_cons, List.append_assoc, hgood.reads_append hparts, h,
    List.append_assoc]

/-- Signs that are no part of a longer one. -/
theorem closed_signs : ∀ text ∈ ["(", ")", "[", "]", "++", "--"], ∀ longer ∈ signs,
    text.toList <+: longer.toList → longer = text := by
  have hchars : ∀ text ∈ ["(", ")", "[", "]", "++", "--"], ∀ longer ∈ operatorChars,
      text.toList <+: longer → longer = text.toList := by
    decide
  exact fun text htext longer hlonger h =>
    String.toList_inj.1 (forall_mem_signs (hchars text htext) longer hlonger h)

theorem closed {text : String} (htext : text ∈ ["(", ")", "[", "]", "++", "--"])
    (hgood : (Fragment.sign text).Good) (h : Alone parts after) :
    Alone (.sign text :: parts) after :=
  .cons hgood (Or.inl (closed_signs text htext)) h

theorem enclosed {opener closer : String} (hopener : opener ∈ ["(", "["])
    (hcloser : closer ∈ [")", "]"])
    (hgood : ∀ p ∈ Fragment.sign opener :: (parts ++ [.sign closer]), p.Good)
    (h : Alone parts ([Fragment.sign closer].flatMap Fragment.text ++ after)) :
    Alone (.sign opener :: (parts ++ [.sign closer])) after := by
  have hopeners : ∀ text ∈ ["(", "["], text ∈ ["(", ")", "[", "]", "++", "--"] := by decide
  have hclosers : ∀ text ∈ [")", "]"], text ∈ ["(", ")", "[", "]", "++", "--"] := by decide
  rw [List.forall_mem_cons, List.forall_mem_append, List.forall_mem_singleton] at hgood
  refine .closed (hopeners opener hopener) hgood.1 (.append h ?_)
  exact .closed (hclosers closer hcloser) hgood.2.2 (.nil _)

end Alone

/-- The text of the expression may stand in front of `after`. -/
def Expr.Precedes (e : Expr) (after : List Char) : Prop :=
  ∀ c ∈ after.head?, c ∈ followers ∧
    (c = '.' → e.fits .operand = true ∧
      ∀ line text, e = .literal line text → ¬ ∀ d ∈ text.toList, Text.isDecimal d = true)

theorem precedes_of_head {e : Expr} {after : List Char} {c : Char} (h : after.head? = some c)
    (hc : c ∈ [' ', ')', ']', ',', '+', '-']) : e.Precedes after := by
  have hclass : ∀ c ∈ [' ', ')', ']', ',', '+', '-'], c ∈ followers ∧ c ≠ '.' := by decide
  intro d hd
  rw [h] at hd
  obtain rfl := Option.some.inj hd
  exact ⟨(hclass c hc).1, fun hpoint => absurd hpoint (hclass c hc).2⟩

theorem Expr.Precedes.inner {e e' : Expr} {after : List Char} (h : e.Precedes after)
    (hfits : e.fits .operand = false) : e'.Precedes after := by
  intro c hc
  refine ⟨(h c hc).1, fun hpoint => ?_⟩
  have hoperand := ((h c hc).2 hpoint).1
  rw [hfits] at hoperand
  cases hoperand

theorem Expr.Precedes.not_word {e : Expr} {after : List Char} (h : e.Precedes after) :
    ∀ c ∈ after.head?, Text.isWordChar c = false := by
  have hclass : ∀ c ∈ followers, Text.isWordChar c = false := by decide
  exact fun c hc => hclass c (h c hc).1

theorem word_not_lengthening {c : Char} (h : Text.isWordChar c = true ∨ Text.isDecimal c = true) :
    c ∉ lengthening := by
  have hclass : ∀ c ∈ lengthening, Text.isWordChar c = false ∧ Text.isDecimal c = false := by
    decide
  intro hmem
  rcases h with h | h
  · rw [(hclass c hmem).1] at h
    cases h
  · rw [(hclass c hmem).2] at h
    cases h

theorem head_of_good {p : Fragment} (hgood : p.Good)
    (hp : (∃ text, p = .literal text) ∨ ∃ text, p = .word text) (after : List Char) :
    ∀ c ∈ (p.text ++ after).head?, c ∉ lengthening := by
  rcases hp with ⟨text, rfl⟩ | ⟨text, rfl⟩
  · rcases hgood with hnumber | ⟨⟨quote, tail, htext, hquote, _⟩, _⟩
    · obtain ⟨c, rest, htext, hc⟩ := hnumber.head
      rw [Fragment.text, htext]
      rintro _ ⟨⟩
      exact word_not_lengthening (Or.inr hc)
    · rw [Fragment.text, htext]
      rintro _ ⟨⟩
      rcases hquote with rfl | rfl <;> decide
  · obtain ⟨hne, hword, _⟩ := hgood
    obtain ⟨c, rest, htext⟩ := List.exists_cons_of_ne_nil hne
    rw [Fragment.text, htext]
    rintro _ ⟨⟩
    exact word_not_lengthening (Or.inl (hword c (by rw [htext]; exact List.mem_cons_self)))

namespace Expr

/-- The text of an operand begins with a literal or a word. -/
theorem head_of_operand {e : Expr} (hfits : e.fits .operand = true)
    (hgood : ∀ p ∈ e.fragments, p.Good) (hkeeps : ∀ part ∈ e.parts, part.keepsOperands = true)
    (after : List Char) :
    ∀ c ∈ (e.fragments.flatMap Fragment.text ++ after).head?, c ∉ lengthening := by
  cases e with
  | literal _ text =>
    rw [fragments, List.flatMap_cons, List.append_assoc]
    exact head_of_good (hgood _ List.mem_cons_self) (Or.inl ⟨text, rfl⟩) _
  | name _ n | call _ n _ | index _ n _ =>
    rw [fragments, List.flatMap_cons, List.append_assoc]
    exact head_of_good (hgood _ List.mem_cons_self) (Or.inr ⟨n, rfl⟩) _
  | member _ _ e _ | stepAfter _ _ e =>
    rw [fragments, List.forall_mem_append] at hgood
    rw [parts, List.forall_mem_cons] at hkeeps
    rw [fragments, List.flatMap_append, List.append_assoc]
    exact head_of_operand hkeeps.1 hgood.1 hkeeps.2 _
  | unary | cast | sizeOf | sizeOfType | logic | conditional | assign => cases hfits
  | binary _ op =>
    rcases op with op | op <;> cases op <;> cases hfits

theorem fits_of_isSimple {e : Expr} (h : e.isSimple = true) : e.fits .operand = true := by
  cases e with
  | literal | name | call | index | member => rfl
  | _ => cases h

mutual

/-- If operands are in their places and no number stands in front of a point, the text of an
expression is read as its tokens. -/
theorem alone {e : Expr} (hgood : ∀ p ∈ e.fragments, p.Good)
    (hkeeps : ∀ part ∈ e.parts, part.keepsOperands = true)
    (hdots : ∀ part ∈ e.parts, part.dotsDigits = false) {after : List Char}
    (hafter : e.Precedes after) : Alone e.fragments after := by
  cases e with
  | literal line text =>
    refine .cons (hgood _ List.mem_cons_self)
      ⟨fun c hc => (hafter c hc).1, fun hpoint => ?_⟩ (.nil _)
    exact ((hafter '.' hpoint).2 rfl).2 line text rfl
  | name _ n => exact .cons (hgood _ List.mem_cons_self) hafter.not_word (.nil _)
  | call _ callee arguments =>
    rw [fragments, List.forall_mem_cons] at hgood
    rw [parts, List.forall_mem_cons] at hkeeps hdots
    refine .cons hgood.1 (by rintro c ⟨⟩; decide) (.enclosed (by decide) (by decide) hgood.2 ?_)
    rw [List.forall_mem_cons, List.forall_mem_append] at hgood
    exact aloneAll hgood.2.2.1 hkeeps.2 hdots.2 rfl
  | index _ array position =>
    rw [fragments, List.forall_mem_cons] at hgood
    rw [parts, List.forall_mem_cons] at hkeeps hdots
    refine .cons hgood.1 (by rintro c ⟨⟩; decide) (.enclosed (by decide) (by decide) hgood.2 ?_)
    rw [List.forall_mem_cons, List.forall_mem_append] at hgood
    exact alone hgood.2.2.1 hkeeps.2 hdots.2 (precedes_of_head rfl (by decide))
  | member _ arrow object m =>
    rw [fragments, List.forall_mem_append, List.forall_mem_cons, List.forall_mem_singleton] at hgood
    obtain ⟨hobject, hsign, hword⟩ := hgood
    rw [parts, List.forall_mem_cons] at hkeeps hdots
    have hbefore : object.Precedes
        ([.sign (if arrow then "->" else "."), .word m].flatMap Fragment.text ++ after) := by
      cases arrow with
      | true => exact precedes_of_head rfl (by decide)
      | false =>
        rintro c ⟨⟩
        refine ⟨by decide, fun _ => ⟨hkeeps.1, ?_⟩⟩
        -- in front of a point there is no number made of digits alone
        rintro line text rfl hdigits
        have hdot := hdots.1
        rw [dotsDigits, List.all_eq_true.2 hdigits] at hdot
        cases hdot
    refine .append (alone hobject hkeeps.2 hdots.2 hbefore) (.cons hsign (Or.inr ?_) ?_)
    · rw [List.flatMap_singleton]
      exact head_of_good hword (Or.inr ⟨m, rfl⟩) after
    · exact .cons hword hafter.not_word (.nil _)
  | unary _ op operand =>
    rw [fragments] at hgood ⊢
    rw [parts, List.forall_mem_cons] at hkeeps hdots
    rw [List.forall_mem_cons] at hgood
    -- a sign must not make a longer one with the first character of its operand
    by_cases hsimple : operand.isSimple = true
    · rw [if_pos hsimple] at hgood ⊢
      refine .cons hgood.1 (Or.inr ?_) (alone hgood.2 hkeeps.2 hdots.2 (hafter.inner rfl))
      exact head_of_operand (fits_of_isSimple hsimple) hgood.2 hkeeps.2 after
    · rw [if_neg hsimple] at hgood ⊢
      refine .cons hgood.1 (Or.inr (by rintro c ⟨⟩; decide))
        (.enclosed (by decide) (by decide) hgood.2 ?_)
      rw [List.forall_mem_cons, List.forall_mem_append] at hgood
      exact alone hgood.2.2.1 hkeeps.2 hdots.2 (precedes_of_head rfl (by decide))
  | stepAfter _ op operand =>
    rw [fragments, List.forall_mem_append, List.forall_mem_singleton] at hgood
    rw [parts, List.forall_mem_cons] at hkeeps hdots
    have hbefore : operand.Precedes ([Fragment.sign op.text].flatMap Fragment.text ++ after) := by
      cases op <;> exact precedes_of_head rfl (by decide)
    refine .append (alone hgood.1 hkeeps.2 hdots.2 hbefore) (.closed ?_ hgood.2 (.nil _))
    cases op <;> decide
  | cast _ type operand =>
    rw [fragments, List.forall_mem_cons] at hgood
    rw [parts, List.forall_mem_cons] at hkeeps hdots
    exact .cons hgood.1 trivial (alone hgood.2 hkeeps.2 hdots.2 (hafter.inner rfl))
  | sizeOfType _ type =>
    rw [fragments, List.forall_mem_cons, List.forall_mem_singleton] at hgood
    exact .cons hgood.1 (by rintro c ⟨⟩; decide) (.cons hgood.2 trivial (.nil _))
  | sizeOf _ operand =>
    rw [fragments, List.forall_mem_cons] at hgood
    rw [parts, List.forall_mem_cons] at hkeeps hdots
    refine .cons hgood.1 (by rintro c ⟨⟩; decide) (.enclosed (by decide) (by decide) hgood.2 ?_)
    rw [List.forall_mem_cons, List.forall_mem_append] at hgood
    exact alone hgood.2.2.1 hkeeps.2 hdots.2 (precedes_of_head rfl (by decide))
  | binary line op left right =>
    have hfits : (binary line op left right).fits .operand = false := by
      rcases op with op | op <;> cases op <;> rfl
    rw [fragments] at hgood ⊢
    rw [parts, List.forall_mem_cons, List.forall_mem_append] at hkeeps hdots
    rw [List.forall_mem_append, List.forall_mem_cons] at hgood
    refine .append (alone hgood.1 hkeeps.2.1 hdots.2.1 (precedes_of_head rfl (by decide)))
      (.cons hgood.2.1 trivial ?_)
    -- a sum on the right begins with a parenthesis, anything else by itself
    by_cases hgroups : (groupsRight op && (right.isAdditive || right.isShift)) = true
    · rw [if_pos hgroups] at hgood ⊢
      refine .enclosed (by decide) (by decide) hgood.2.2 ?_
      rw [List.forall_mem_cons, List.forall_mem_append] at hgood
      exact alone hgood.2.2.2.1 hkeeps.2.2 hdots.2.2 (precedes_of_head rfl (by decide))
    · rw [if_neg hgroups] at hgood ⊢
      exact alone hgood.2.2 hkeeps.2.2 hdots.2.2 (hafter.inner hfits)
  | logic _ op left right | assign _ op left right =>
    rw [fragments, List.forall_mem_append, List.forall_mem_cons] at hgood
    rw [parts, List.forall_mem_cons, List.forall_mem_append] at hkeeps hdots
    refine .append (alone hgood.1 hkeeps.2.1 hdots.2.1 (precedes_of_head rfl (by decide)))
      (.cons hgood.2.1 trivial ?_)
    exact alone hgood.2.2 hkeeps.2.2 hdots.2.2 (hafter.inner rfl)
  | conditional _ condition whenTrue whenFalse =>
    rw [fragments, List.forall_mem_append, List.forall_mem_cons, List.forall_mem_append,
      List.forall_mem_cons] at hgood
    obtain ⟨hcondition, hquestion, htrue, hcolon, hfalse⟩ := hgood
    rw [parts, List.forall_mem_cons, List.forall_mem_append, List.forall_mem_append] at hkeeps hdots
    refine .append (alone hcondition hkeeps.2.1.1 hdots.2.1.1 (precedes_of_head rfl (by decide)))
      (.cons hquestion trivial (.append ?_ (.cons hcolon trivial ?_)))
    · exact alone htrue hkeeps.2.1.2 hdots.2.1.2 (precedes_of_head rfl (by decide))
    · exact alone hfalse hkeeps.2.2 hdots.2.2 (hafter.inner rfl)

theorem aloneAll {es : List Expr} (hgood : ∀ p ∈ fragmentsOfAll es, p.Good)
    (hkeeps : ∀ part ∈ partsOfAll es, part.keepsOperands = true)
    (hdots : ∀ part ∈ partsOfAll es, part.dotsDigits = false) {after : List Char}
    (hafter : after.head? = some ')') : Alone (fragmentsOfAll es) after := by
  match es with
  | [] => exact .nil _
  | [e] =>
    rw [partsOfAll, List.forall_mem_append] at hkeeps hdots
    exact alone hgood hkeeps.1 hdots.1 (precedes_of_head hafter (by decide))
  | e :: e' :: rest =>
    rw [fragmentsOfAll, List.forall_mem_append, List.forall_mem_cons] at hgood
    · rw [partsOfAll, List.forall_mem_append] at hkeeps hdots
      rw [fragmentsOfAll]
      · refine .append (alone hgood.1 hkeeps.1 hdots.1 (precedes_of_head rfl (by decide)))
          (.cons hgood.2.1 trivial ?_)
        exact aloneAll hgood.2.2 hkeeps.2 hdots.2 hafter
      · exact List.cons_ne_nil _ _
    · exact List.cons_ne_nil _ _

end

/-! ## Points behind digits -/

mutual

/-- The fragments of a part stand together in the whole. -/
theorem part_within_fragments (e : Expr) : ∀ part ∈ e.parts, part.fragments <:+: e.fragments := by
  cases e with
  | literal | name | sizeOfType =>
    rw [parts]
    exact List.forall_mem_singleton.2 List.infix_rfl
  | call _ callee arguments =>
    -- an expression is a part of itself; any other part of it is one of an operand's
    rw [parts, List.forall_mem_cons]
    refine ⟨List.infix_rfl, fun part hpart => ?_⟩
    apply (part_within_fragmentsOfAll arguments part hpart).trans
    exact ⟨[.word callee, .sign "("], [.sign ")"], by simp [fragments]⟩
  | index _ array e =>
    rw [parts, List.forall_mem_cons]
    refine ⟨List.infix_rfl, fun part hpart => (part_within_fragments e part hpart).trans ?_⟩
    exact ⟨[.word array, .sign "["], [.sign "]"], by simp [fragments]⟩
  | member _ _ e _ | stepAfter _ _ e =>
    rw [parts, List.forall_mem_cons]
    refine ⟨List.infix_rfl, fun part hpart => (part_within_fragments e part hpart).trans ?_⟩
    rw [fragments]
    exact (List.prefix_append _ _).isInfix
  | unary _ op e =>
    rw [parts, List.forall_mem_cons]
    refine ⟨List.infix_rfl, fun part hpart => (part_within_fragments e part hpart).trans ?_⟩
    rw [fragments]
    split
    · exact (List.suffix_cons _ _).isInfix
    · exact ⟨[.sign op.text, .sign "("], [.sign ")"], by simp⟩
  | cast _ _ e =>
    rw [parts, List.forall_mem_cons]
    refine ⟨List.infix_rfl, fun part hpart => (part_within_fragments e part hpart).trans ?_⟩
    rw [fragments]
    exact (List.suffix_cons _ _).isInfix
  | sizeOf _ e =>
    rw [parts, List.forall_mem_cons]
    refine ⟨List.infix_rfl, fun part hpart => (part_within_fragments e part hpart).trans ?_⟩
    exact ⟨[.word "sizeof", .sign "("], [.sign ")"], by simp [fragments]⟩
  | binary _ op left right =>
    rw [parts, List.forall_mem_cons, List.forall_mem_append]
    refine ⟨List.infix_rfl, fun part hpart => (part_within_fragments left part hpart).trans ?_,
      fun part hpart => (part_within_fragments right part hpart).trans ?_⟩
    · rw [fragments]
      exact (List.prefix_append _ _).isInfix
    · rw [fragments]
      split
      · exact ⟨left.fragments ++ [.spaced op.text, .sign "("], [.sign ")"], by simp⟩
      · exact ⟨left.fragments ++ [.spaced op.text], [], by simp⟩
  | logic _ _ left right | assign _ _ left right =>
    rw [parts, List.forall_mem_cons, List.forall_mem_append]
    refine ⟨List.infix_rfl, fun part hpart => (part_within_fragments left part hpart).trans ?_,
      fun part hpart => (part_within_fragments right part hpart).trans ?_⟩
    · rw [fragments]
      exact (List.prefix_append _ _).isInfix
    · rw [fragments]
      exact ((List.suffix_cons _ _).trans (List.suffix_append _ _)).isInfix
  | conditional _ c a b =>
    rw [parts, List.forall_mem_cons, List.forall_mem_append, List.forall_mem_append]
    refine ⟨List.infix_rfl, ⟨fun part hpart => (part_within_fragments c part hpart).trans ?_,
      fun part hpart => (part_within_fragments a part hpart).trans ?_⟩,
      fun part hpart => (part_within_fragments b part hpart).trans ?_⟩
    · rw [fragments]
      exact (List.prefix_append _ _).isInfix
    · exact ⟨c.fragments ++ [.spaced "?"], .spaced ":" :: b.fragments, by simp [fragments]⟩
    · exact ⟨c.fragments ++ .spaced "?" :: (a.fragments ++ [.spaced ":"]), [], by simp [fragments]⟩

theorem part_within_fragmentsOfAll (es : List Expr) :
    ∀ part ∈ partsOfAll es, part.fragments <:+: fragmentsOfAll es := by
  match es with
  | [] =>
    intro part hpart
    cases hpart
  | [e] =>
    rw [partsOfAll, List.forall_mem_append]
    exact ⟨part_within_fragments e, fun part hpart => by cases hpart⟩
  | e :: e' :: rest =>
    rw [partsOfAll, List.forall_mem_append]
    refine ⟨fun part hpart => (part_within_fragments e part hpart).trans ?_,
      fun part hpart => (part_within_fragmentsOfAll (e' :: rest) part hpart).trans ?_⟩
    · exact ⟨[], .comma :: fragmentsOfAll (e' :: rest), by simp [fragmentsOfAll]⟩
    · exact ⟨e.fragments ++ [.comma], [], by simp [fragmentsOfAll]⟩

end

theorem fragments_of_dotsDigits {e : Expr} (h : e.dotsDigits = true) :
    ∃ text : String, (∀ c ∈ text.toList, Text.isDecimal c = true) ∧
      [.literal text, .sign "."] <:+: e.fragments := by
  unfold dotsDigits at h
  split at h
  · next text m =>
    refine ⟨text, List.all_eq_true.1 h, [], [.word m], ?_⟩
    simp [fragments]
  · cases h

end Expr

end Stepwise
