/-
What the grammar derives, the readers read.

A reader stops where the next token cannot go on with what was read, so each
rank has a set of tokens that go on with it (`Rank.continues`), and what follows
an expression must begin with none of them (`Stops`). The closing token of a
bracket, the operator of a looser level and the end of the tokens all stop a
rank.

Operations of one level and selections recur on the left in the grammar, while the
readers loop. So for these ranks the induction says what is read when the loop goes
on behind the derived tokens: if the loop gives a value from there, the reader
gives that value from the beginning (`Reads`).

Reading and deriving then agree on tokens that have the kind of their text, and the
tokens of a text without directives have it.
-/
import Stepwise.Proofs.Derivation
import Stepwise.Syntax.Equality

set_option autoImplicit false

namespace Stepwise

/-! ## Characters of a text

A property of all characters is decidable too, by going through all of them. What is asked here is
about the few characters of a text, and is decided along the text. -/

instance Text.decidableForallMem (p : Char → Prop) [DecidablePred p] (s : List Char) :
    Decidable (∀ c ∈ s, p c) :=
  List.decidableBAll p s

instance Text.decidableForallHead (p : Char → Prop) [DecidablePred p] (first : Option Char) :
    Decidable (∀ c ∈ first, p c) :=
  Option.decidableForallMem first

/-! ## Regular tokens -/

/-- A sign that is no literal has the kind of its text. -/
def Token.Regular (t : Token) : Prop :=
  t.kind ≠ .literal → t.text ∈ Token.signs → t.kind = Token.operatorKind t.text

theorem Token.signs_not_words :
    ∀ sign ∈ Token.signs, ∀ c ∈ sign.toList, Text.isWordChar c = false := by
  have hchars : ∀ text ∈ Token.operatorChars, ∀ c ∈ text, Text.isWordChar c = false := by decide
  exact Token.forall_mem_signs hchars

theorem Token.regular_of_segment {source : List Char} {entry : Token.Place × Token.Segment}
    {t : Token} (hseg : entry.2 ∈ Token.segments source) (ht : Token.ofSegment? entry = some t) :
    t.Regular := by
  obtain ⟨lexeme, chars, hentry, rfl⟩ := Token.ofSegment?_eq_some ht
  intro hkind hsign
  cases lexeme with
  | number => exact absurd rfl hkind
  | quoted => exact absurd rfl hkind
  | operator => rfl
  | word =>
    -- A word is made of word characters, and no sign has one.
    rw [hentry] at hseg
    obtain ⟨hne, hword⟩ := Token.segments_word hseg
    obtain ⟨c, rest, rfl⟩ := List.exists_cons_of_ne_nil hne
    have hmem : c ∈ (String.ofList (c :: rest)).toList := by
      rw [String.toList_ofList]
      exact List.mem_cons_self
    have hfree := Token.signs_not_words _ hsign c hmem
    rw [hword c List.mem_cons_self] at hfree
    cases hfree

theorem Token.Undirected.regular {source : String} (h : Token.Undirected source) :
    ∀ t ∈ Stepwise.tokenize source, t.Regular := by
  intro t ht
  rw [h.tokenize, ← Token.placed_following] at ht
  obtain ⟨entry, hentry, ht⟩ := List.mem_filterMap.1 ht
  exact Token.regular_of_segment (Token.mem_placed hentry) ht

namespace Grammar

/-! ## Readers that succeed -/

section Gives

variable {α β : Type} {s rest : List Token} {strict : Bool}

/-- The reader gives this value and leaves these tokens. -/
def Parse.Gives (p : Parse strict s α) (value : α) (rest : List Token) : Prop :=
  ∃ r, p = .ok r ∧ r.value = value ∧ r.rest = rest

namespace Parse.Gives

theorem done (value : α) : (Parse.done value : Parse false s α).Gives value s :=
  ⟨_, rfl, rfl, rfl⟩

theorem map {p : Parse strict s α} {value : α} (h : p.Gives value rest) (f : α → β) :
    (p.map f).Gives (f value) rest := by
  obtain ⟨r, rfl, rfl, rfl⟩ := h
  exact ⟨_, rfl, rfl, rfl⟩

theorem relax {p : Parse strict s α} {value : α} (h : p.Gives value rest) :
    p.relax.Gives value rest := by
  obtain ⟨r, rfl, rfl, rfl⟩ := h
  exact ⟨_, rfl, rfl, rfl⟩

theorem after {p : Parse strict s α} {value : α} (h : p.Gives value rest) (t : Token) :
    (p.after t).Gives value rest := by
  obtain ⟨r, rfl, rfl, rfl⟩ := h
  exact ⟨_, rfl, rfl, rfl⟩

theorem andThen {a b : Bool} {p : Parse a s α}
    {next : (value : α) → (rest : List Token) → rest.length + a.toNat ≤ s.length → Parse b rest β}
    {value : α} {value' : β} {mid : List Token} (h : p.Gives value mid)
    (hnext : ∀ hlength, (next value mid hlength).Gives value' rest) :
    (p.andThen next).Gives value' rest := by
  obtain ⟨r, rfl, rfl, rfl⟩ := h
  obtain ⟨q, hq, rfl, rfl⟩ := hnext r.bound
  refine ⟨⟨q.value, q.rest, q.suffix.trans r.suffix, ?_⟩, ?_, rfl, rfl⟩
  · have h₁ := r.bound
    have h₂ := q.bound
    cases a <;> cases b <;> simp at h₁ h₂ ⊢ <;> omega
  · unfold Parse.andThen
    dsimp only
    rw [hq]

end Parse.Gives

end Gives

/-! ## What goes on with an expression -/

variable {s rest : List Token} {t : Token} {e : Expr}

namespace Rank

/-- Does the token go on with what was just read at the rank, whatever binds tighter aside? -/
def goesOn : Rank → Token → Bool
  | assignment, t => (assignmentAt? t).isSome
  | conditional, t => isAt "?" t
  | level l, t => (operatorAt? l t).isSome
  | unary, _ => false
  | operand, t => isAt "." t || isAt "->" t || (stepAt? t).isSome
  | primary, t => isAt "(" t || isAt "[" t

/-- The rank and the tighter ones. -/
def downward : Rank → List Rank
  | assignment => assignment :: conditional :: (Level.all.map level ++ [unary, operand, primary])
  | conditional => conditional :: (Level.all.map level ++ [unary, operand, primary])
  | level l => level l :: (l.tighter.map level ++ [unary, operand, primary])
  | unary => [unary, operand, primary]
  | operand => [operand, primary]
  | primary => [primary]

/-- Does the token go on with an expression of the rank? -/
def continues (r : Rank) (t : Token) : Bool :=
  r.downward.any fun r' => r'.goesOn t

theorem downward_eq {r r' : Rank} (h : r.next? = some r') : r.downward = r :: r'.downward := by
  cases r with
  | level l => cases l <;> cases h <;> rfl
  | _ => cases h <;> rfl

theorem continues_eq {r r' : Rank} (h : r.next? = some r') (t : Token) :
    r.continues t = (r.goesOn t || r'.continues t) := by
  rw [continues, downward_eq h, List.any_cons]
  rfl

end Rank

/-- The tokens do not go on with an expression of the rank. -/
def Stops (r : Rank) (rest : List Token) : Prop :=
  ∀ t ∈ rest.head?, r.continues t = false

theorem stops_nil (r : Rank) : Stops r [] := by
  intro t h
  cases h

theorem stops_cons {r : Rank} (h : r.continues t = false) (rest : List Token) :
    Stops r (t :: rest) := by
  intro u hu
  rwa [← Option.some.inj hu]

namespace Stops

variable {r r' : Rank}

theorem head (h : Stops r (t :: rest)) (hnext : r.next? = some r') :
    r.goesOn t = false ∧ r'.continues t = false := by
  have hstops := h t rfl
  rw [Rank.continues_eq hnext, Bool.or_eq_false_iff] at hstops
  exact hstops

theorem tighter (h : Stops r rest) (hnext : r.next? = some r') : Stops r' rest := by
  cases rest with
  | nil => exact stops_nil r'
  | cons t rest => exact stops_cons (h.head hnext).2 rest

end Stops

/-! ## The texts of signs -/

theorem eq_of_isAt {text : String} (hat : isAt text t = true) (hregular : t.Regular)
    (hsign : text ∈ Token.signs) :
    ∃ line column, t = ⟨Token.operatorKind text, text, line, column⟩ := by
  obtain ⟨rfl, hkind⟩ := isAt_iff.1 hat
  refine ⟨t.line, t.column, ?_⟩
  rw [← hregular hkind hsign]

theorem assignmentAt?_of_isAt {op : Option ArithOp} (hat : isAt (assignText op) t = true)
    (hregular : t.Regular) :
    assignmentAt? t = some op ∧ Rank.continues .conditional t = false := by
  have hsign : assignText op ∈ Token.signs := by
    rcases op with _ | op
    · decide
    · cases op <;> decide
  obtain ⟨line, column, rfl⟩ := eq_of_isAt hat hregular hsign
  rcases op with _ | op
  · exact ⟨rfl, rfl⟩
  · cases op <;> exact ⟨rfl, rfl⟩

theorem operatorAt?_logic {op : LogicOp} (hat : isAt op.text t = true) (hregular : t.Regular) :
    operatorAt? .logical t = some (.logic t.line op) ∧
      Rank.continues (.level .bitwise) t = false := by
  have hsign : op.text ∈ Token.signs := by cases op <;> decide
  obtain ⟨line, column, rfl⟩ := eq_of_isAt hat hregular hsign
  cases op <;> exact ⟨rfl, rfl⟩

theorem operatorAt?_binary {op : BinaryOp} (hat : isAt op.text t = true) (hregular : t.Regular) :
    operatorAt? (.ofBinary op) t = some (.binary t.line op) ∧
      (Rank.ofLevels (Level.ofBinary op).tighter).continues t = false := by
  have hsign : op.text ∈ Token.signs := by
    rcases op with op | op <;> cases op <;> decide
  obtain ⟨line, column, rfl⟩ := eq_of_isAt hat hregular hsign
  rcases op with op | op <;> cases op <;> exact ⟨rfl, rfl⟩

theorem unaryAt?_of_isAt {op : UnaryOp} (hat : isAt op.text t = true) (hregular : t.Regular) :
    unaryAt? t = some op := by
  have hsign : ∀ op ∈ UnaryOp.all, op.text ∈ Token.signs := by decide
  have hall : op ∈ UnaryOp.all := by
    cases op with
    | step op => cases op <;> decide
    | _ => decide
  obtain ⟨line, column, rfl⟩ := eq_of_isAt hat hregular (hsign op hall)
  cases op with
  | step op => cases op <;> rfl
  | _ => rfl

theorem stepAt?_of_isAt {op : StepOp} (hat : isAt op.text t = true) (hregular : t.Regular) :
    (isAt "." t || isAt "->" t) = false ∧ stepAt? t = some op ∧
      Rank.continues .primary t = false := by
  have hsign : op.text ∈ Token.signs := by cases op <;> decide
  obtain ⟨line, column, rfl⟩ := eq_of_isAt hat hregular hsign
  cases op <;> exact ⟨rfl, rfl, rfl⟩

theorem member_sign {arrow : Bool} (hat : isAt (if arrow then "->" else ".") t = true)
    (hregular : t.Regular) :
    (isAt "." t || isAt "->" t) = true ∧ (t.text == "->") = arrow ∧
      Rank.continues .primary t = false := by
  have hsign : (if arrow then "->" else ".") ∈ Token.signs := by cases arrow <;> decide
  obtain ⟨line, column, rfl⟩ := eq_of_isAt hat hregular hsign
  cases arrow <;> exact ⟨rfl, rfl, rfl⟩

theorem question_sign (hat : isAt "?" t = true) (hregular : t.Regular) :
    Rank.continues (.level .logical) t = false := by
  obtain ⟨line, column, rfl⟩ := eq_of_isAt hat hregular (by decide)
  rfl

/-- A sign that ends whatever stands in front of it. -/
theorem closing_sign {text : String} (htext : text ∈ [")", "]", ":", ","])
    (hat : isAt text t = true) (hregular : t.Regular) :
    t.kind = .punctuation ∧ Rank.continues .assignment t = false := by
  have hsigns : ∀ text ∈ [")", "]", ":", ","], text ∈ Token.signs := by decide
  obtain ⟨line, column, rfl⟩ := eq_of_isAt hat hregular (hsigns text htext)
  rw [List.mem_cons, List.mem_cons, List.mem_cons, List.mem_singleton] at htext
  rcases htext with rfl | rfl | rfl | rfl <;> exact ⟨rfl, rfl⟩

theorem opening_sign (hat : isAt "(" t = true) (hregular : t.Regular) : t.kind = .punctuation := by
  obtain ⟨line, column, rfl⟩ := eq_of_isAt hat hregular (by decide)
  rfl

theorem punct_gives {text : String} (htext : text ∈ [")", "]", ":", ","])
    (hat : isAt text t = true) (hregular : t.Regular) (rest : List Token) :
    (punct text (t :: rest)).Gives t rest := by
  have hkind := (closing_sign htext hat hregular).1
  obtain ⟨rfl, _⟩ := isAt_iff.1 hat
  rw [punct, expectOr, if_pos ⟨hkind, Or.inr rfl⟩]
  exact .after (.done t) t

/-! ## Types -/

theorem typeWords_gives {words : List String} (h : TypeWords s words)
    (hrest : headStartsType rest = false) : (typeWords (s ++ rest)).Gives words rest := by
  induction h with
  | nil =>
    rw [List.nil_append]
    cases rest with
    | nil => exact .done _
    | cons t rest =>
      unfold typeWords
      rw [headStartsType] at hrest
      rw [hrest, if_neg (by decide)]
      exact .done _
  | @keyword t s words hkind hword hs ih =>
    have hstarts : startsType t = true := by
      rw [startsType, hkind, Bool.or_eq_true]
      exact Or.inl (List.contains_iff_mem.2 hword)
    -- a word of this kind takes no tag behind it
    have htag : tagKeywords.contains t.text ≠ true := fun h =>
      (tagKeywords_apart _ (List.contains_iff_mem.1 h)).1 hword
    have hidentifier : t.kind ≠ .identifier := by
      rw [hkind]
      decide
    rw [List.cons_append]
    unfold typeWords
    rw [if_pos hstarts, if_neg htag, if_neg hidentifier]
    exact ((ih.map _).after t).relax
  | @tag t tag s words hkind hword htag hs ih =>
    have hstarts : startsType t = true := by
      rw [startsType, hkind, Bool.or_eq_true]
      exact Or.inr (List.contains_iff_mem.2 hword)
    rw [List.cons_append, List.cons_append, typeWords, if_pos hstarts,
      if_pos (List.contains_iff_mem.2 hword), if_pos htag]
    exact (((ih.map _).after tag).after t).relax
  | @header t hkind hword =>
    have hstarts : startsType t = true := by
      rw [startsType, hkind]
      exact List.contains_iff_mem.2 hword
    have htag : tagKeywords.contains t.text ≠ true := fun h =>
      (tagKeywords_apart _ (List.contains_iff_mem.1 h)).2 hword
    rw [List.cons_append, List.nil_append]
    unfold typeWords
    rw [if_pos hstarts, if_neg htag, if_pos hkind]
    exact ((Parse.Gives.done _).after t).relax

theorem stars_gives {back : List Token} (hback : ∀ star ∈ back, isAt "*" star = true)
    (hrest : headIs "*" rest = false) : (stars (back ++ rest)).Gives back.length rest := by
  induction back with
  | nil =>
    rw [List.nil_append]
    cases rest with
    | nil => exact .done _
    | cons t rest =>
      rw [headIs] at hrest
      rw [stars, hrest, if_neg (by decide)]
      exact .done _
  | cons star back ih =>
    rw [List.cons_append, stars, if_pos (hback star List.mem_cons_self)]
    exact (((ih fun u hu => hback u (List.mem_cons_of_mem _ hu)).map _).after star).relax

theorem TypeWords.headStartsType {words : List String} (h : TypeWords s words) (hne : s ≠ [])
    (rest : List Token) : headStartsType (s ++ rest) = true := by
  cases h with
  | nil => exact absurd rfl hne
  | keyword hkind hword _ =>
    rw [List.cons_append, Grammar.headStartsType, startsType, hkind, Bool.or_eq_true]
    exact Or.inl (List.contains_iff_mem.2 hword)
  | tag hkind hword _ _ =>
    rw [List.cons_append, Grammar.headStartsType, startsType, hkind, Bool.or_eq_true]
    exact Or.inr (List.contains_iff_mem.2 hword)
  | header hkind hword =>
    rw [List.cons_append, Grammar.headStartsType, startsType, hkind]
    exact List.contains_iff_mem.2 hword

/-- A sign begins no type. -/
theorem startsType_sign {text : String} (hat : isAt text t = true) (hregular : t.Regular)
    (hsign : text ∈ Token.signs) : startsType t = false := by
  obtain ⟨line, column, rfl⟩ := eq_of_isAt hat hregular hsign
  by_cases hoperator : Token.operators.contains text = true
  · rw [Token.operatorKind, if_pos hoperator]
    rfl
  · rw [Token.operatorKind, if_neg hoperator]
    rfl

theorem headStartsType_append (hs : headStartsType s = false) (ht : startsType t = false)
    (rest : List Token) : headStartsType (s ++ t :: rest) = false := by
  cases s with
  | nil => exact ht
  | cons u s => exact hs

/-- A type is read up to the token behind it. -/
theorem starredTypeName_gives {type : CType} (h : IsType s type) (hregular : ∀ u ∈ s, u.Regular)
    (hstar : isAt "*" t = false) (hstarts : startsType t = false) :
    (starredTypeName (s ++ t :: rest)).Gives type (t :: rest) := by
  obtain ⟨front, back, words, rfl, hne, hfront, hback, rfl⟩ := h
  rw [List.append_assoc]
  have hbehind : headStartsType (back ++ t :: rest) = false := by
    refine headStartsType_append ?_ hstarts rest
    cases back with
    | nil => rfl
    | cons star back =>
      exact startsType_sign (hback star List.mem_cons_self)
        (hregular star (List.mem_append_right _ List.mem_cons_self)) (by decide)
  have htype : (typeName (front ++ (back ++ t :: rest))).Gives ⟨" ".intercalate words⟩
      (back ++ t :: rest) := by
    rw [typeName, if_pos (hfront.headStartsType hne _)]
    exact (typeWords_gives hfront hbehind).map _
  have hstars : (stars (back ++ t :: rest)).Gives back.length (t :: rest) :=
    stars_gives hback hstar
  exact htype.andThen fun _ => hstars.map _

theorem typeInParens_gives {type : CType} {closer : Token} (opener : Token) (h : IsType s type)
    (hregular : ∀ u ∈ s, u.Regular) (hcloser : isAt ")" closer = true)
    (hregular' : closer.Regular) (rest : List Token) :
    (typeInParens (opener :: (s ++ closer :: rest))).Gives type rest := by
  have hstar : isAt "*" closer = false := by
    obtain ⟨line, column, rfl⟩ := eq_of_isAt hcloser hregular' (by decide)
    rfl
  have hstarts := startsType_sign hcloser hregular' (by decide)
  refine .after (.andThen (starredTypeName_gives h hregular hstar hstarts) fun _ => ?_) opener
  exact (punct_gives (by decide) hcloser hregular' rest).map _

theorem IsType.headStartsType {type : CType} (h : IsType s type) (rest : List Token) :
    headStartsType (s ++ rest) = true := by
  obtain ⟨front, back, words, rfl, hne, hfront, _, _⟩ := h
  rw [List.append_assoc]
  exact hfront.headStartsType hne _

/-! ## Expressions -/

/-- The tokens begin with an operand, not with an operator, a size or a conversion. -/
def BeginsOperand (s : List Token) : Prop :=
  ∃ t rest, s = t :: rest ∧ unaryAt? t = none ∧ isSizeOf t = false ∧ opensType s = false

/-- How the readers meet tokens that spell the tree at a rank: where the grammar recurs on the
left, whatever the loop gives behind the tokens is given from their beginning on. -/
def Reads : Rank → List Token → Expr → Prop
  | .assignment, s, e => ∀ rest, Stops .assignment rest → (assignment (s ++ rest)).Gives e rest
  | .conditional, s, e => ∀ rest, Stops .conditional rest → (conditional (s ++ rest)).Gives e rest
  | .level l, s, e => ∀ rest value left, Stops (.ofLevels l.tighter) rest →
      (operations l l.tighter e rest).Gives value left →
      (binary (l :: l.tighter) (s ++ rest)).Gives value left
  | .unary, s, e => ∀ rest, Stops .unary rest → (unary (s ++ rest)).Gives e rest
  | .operand, s, e => ∀ rest value left, Stops .primary rest →
      (selections e rest).Gives value left → (unary (s ++ rest)).Gives value left
  | .primary, s, e => ∀ rest, Stops .primary rest →
      BeginsOperand (s ++ rest) ∧ (primary (s ++ rest)).Gives e rest

theorem operations_stop {l : Level} (h : Stops (.level l) rest) (e : Expr) :
    (operations l l.tighter e rest).Gives e rest := by
  cases rest with
  | nil =>
    rw [operations]
    exact .done e
  | cons t rest =>
    have hnone : operatorAt? l t = none := by
      have hhead := (h.head rfl).1
      rw [Rank.goesOn, Option.isSome_eq_false_iff, Option.isNone_iff_eq_none] at hhead
      exact hhead
    rw [operations, hnone]
    exact .done e

theorem selections_stop (h : Stops .operand rest) (e : Expr) :
    (selections e rest).Gives e rest := by
  cases rest with
  | nil =>
    rw [selections]
    exact .done e
  | cons t rest =>
    have hhead := (h.head rfl).1
    rw [Rank.goesOn, Bool.or_eq_false_iff, Option.isSome_eq_false_iff,
      Option.isNone_iff_eq_none] at hhead
    unfold selections
    rw [hhead.1, if_neg (by decide), hhead.2]
    exact .done e

theorem Reads.binary {levels : List Level} (hchain : Level.Chain levels)
    (h : Reads (.ofLevels levels) s e) (hstops : Stops (.ofLevels levels) rest) :
    (binary levels (s ++ rest)).Gives e rest := by
  cases levels with
  | nil =>
    rw [Grammar.binary]
    exact h rest hstops
  | cons l tighter =>
    obtain rfl := hchain l tighter rfl
    exact h rest e rest (hstops.tighter rfl) (operations_stop hstops e)

/-- An operand is read by the reader for what stands in front of it. -/
theorem unary_of_primary {value : Expr} {left : List Token} (hbegins : BeginsOperand s)
    (hprimary : (primary s).Gives e rest) (h : (selections e rest).Gives value left) :
    (unary s).Gives value left := by
  obtain ⟨t, s, rfl, hunary, hsize, hopens⟩ := hbegins
  rw [unary, hunary]
  dsimp only
  rw [if_neg (by rw [hsize]; decide), if_neg (by rw [hopens]; decide)]
  exact hprimary.andThen fun _ => h

theorem Reads.tighter {r r' : Rank} (hnext : r.next? = some r') (h : Reads r' s e) :
    Reads r s e := by
  -- the reader of a rank reads the next one and stops if nothing of its own follows
  cases r with
  | assignment =>
    obtain rfl := Option.some.inj hnext
    intro rest hstops
    rw [assignment]
    refine .andThen (h rest (hstops.tighter rfl)) fun _ => ?_
    cases rest with
    | nil => exact .done e
    | cons t rest =>
      have hhead := (hstops.head rfl).1
      rw [Rank.goesOn, Option.isSome_eq_false_iff, Option.isNone_iff_eq_none] at hhead
      dsimp only
      rw [hhead]
      exact .done e
  | conditional =>
    obtain rfl := Option.some.inj hnext
    intro rest hstops
    have hlogical : Stops (.level .logical) rest := hstops.tighter rfl
    rw [conditional]
    refine .andThen (h.binary Level.chain_all hlogical) fun _ => ?_
    cases rest with
    | nil => exact .done e
    | cons t rest =>
      have hhead := (hstops.head rfl).1
      rw [Rank.goesOn] at hhead
      dsimp only
      rw [if_neg (by rw [hhead]; decide)]
      exact .done e
  | level l =>
    obtain rfl := Option.some.inj hnext
    intro rest value left hstops hloop
    rw [Grammar.binary]
    exact (h.binary (Level.chain_tighter l) hstops).andThen fun _ => hloop
  | unary =>
    obtain rfl := Option.some.inj hnext
    intro rest hstops
    have hoperand : Stops .operand rest := hstops.tighter rfl
    exact h rest e rest (hoperand.tighter rfl) (selections_stop hoperand e)
  | operand =>
    obtain rfl := Option.some.inj hnext
    intro rest value left hstops hloop
    obtain ⟨hbegins, hprimary⟩ := h rest hstops
    exact unary_of_primary hbegins hprimary hloop
  | primary => cases hnext

/-- The tokens of an expression do not begin with a closing parenthesis, nor are they an opening
one alone. -/
def Opens (s : List Token) : Prop :=
  ∃ t rest, s = t :: rest ∧ isAt ")" t = false ∧ (isAt "(" t = true → rest ≠ [])

theorem Opens.append (h : Opens s) (rest : List Token) : Opens (s ++ rest) := by
  obtain ⟨t, s, rfl, hcloser, hopener⟩ := h
  refine ⟨t, s ++ rest, rfl, hcloser, fun h => ?_⟩
  rw [Ne, List.append_eq_nil_iff, not_and]
  intro hnil
  exact absurd hnil (hopener h)

/-- The token is this sign, so it is no other. -/
theorem isAt_of_ne {text other : String} (hat : isAt text t = true) (hne : text ≠ other) :
    isAt other t = false := by
  by_contra hother
  rw [Bool.not_eq_false] at hother
  exact hne ((isAt_iff.1 hat).1.symm.trans (isAt_iff.1 hother).1)

/-- A token that is no sign is neither parenthesis. -/
theorem isAt_of_kind {text : String} (hkind : t.kind ≠ .operator ∧ t.kind ≠ .punctuation)
    (hregular : t.Regular) (hsign : text ∈ Token.signs) : isAt text t = false := by
  by_contra hat
  rw [Bool.not_eq_false] at hat
  obtain ⟨line, column, rfl⟩ := eq_of_isAt hat hregular hsign
  by_cases hoperator : Token.operators.contains text = true
  · exact hkind.1 (if_pos hoperator)
  · exact hkind.2 (if_neg hoperator)

theorem kind_of_isName (h : isName t = true) :
    t.kind ≠ .literal ∧ t.kind ≠ .operator ∧ t.kind ≠ .punctuation ∧ t.kind ≠ .keyword := by
  rw [isName, Bool.or_eq_true, beq_iff_eq, beq_iff_eq] at h
  rcases h with h | h <;> rw [h] <;> decide

theorem kind_of_isSizeOf (h : isSizeOf t = true) : t.kind = .keyword := by
  rw [isSizeOf, Bool.and_eq_true, beq_iff_eq] at h
  exact h.1

theorem opens_of_kind (hkind : t.kind ≠ .operator ∧ t.kind ≠ .punctuation) (hregular : t.Regular)
    (rest : List Token) : Opens (t :: rest) := by
  refine ⟨t, rest, rfl, isAt_of_kind hkind hregular (by decide), fun hopener => ?_⟩
  rw [isAt_of_kind hkind hregular (by decide)] at hopener
  cases hopener

theorem opens_of_isName (h : isName t = true) (hregular : t.Regular) (rest : List Token) :
    Opens (t :: rest) :=
  opens_of_kind ⟨(kind_of_isName h).2.1, (kind_of_isName h).2.2.1⟩ hregular rest

theorem Derives.opens {r : Rank} (h : Derives r s e) (hregular : ∀ t ∈ s, t.Regular) : Opens s := by
  induction h with
  | tighter _ _ ih => exact ih hregular
  | assign _ _ _ ih _ => exact (ih fun t ht => hregular t (List.mem_append_left _ ht)).append _
  | conditional _ _ _ _ _ ih _ _ =>
    exact (ih fun t ht => hregular t (List.mem_append_left _ ht)).append _
  | logic _ _ _ ih _ => exact (ih fun t ht => hregular t (List.mem_append_left _ ht)).append _
  | binary _ _ _ ih _ => exact (ih fun t ht => hregular t (List.mem_append_left _ ht)).append _
  | @unary s t op operand hop _ _ =>
    have htexts : op.text ≠ ")" ∧ op.text ≠ "(" := by
      cases op with
      | step op => cases op <;> decide
      | _ => decide
    refine ⟨t, s, rfl, isAt_of_ne hop htexts.1, fun hopener => ?_⟩
    rw [isAt_of_ne hop htexts.2] at hopener
    cases hopener
  | @sizeOfType s t opener closer type hsize _ _ _ =>
    refine opens_of_kind ?_ (hregular t List.mem_cons_self) _
    rw [kind_of_isSizeOf hsize]
    decide
  | @sizeOf s t operand hsize _ _ _ =>
    refine opens_of_kind ?_ (hregular t List.mem_cons_self) _
    rw [kind_of_isSizeOf hsize]
    decide
  | cast hopener _ _ _ _ =>
    exact ⟨_, _, rfl, isAt_of_ne hopener (by decide), fun _ => by simp⟩
  | member _ _ _ ih => exact (ih fun t ht => hregular t (List.mem_append_left _ ht)).append _
  | stepAfter _ _ ih => exact (ih fun t ht => hregular t (List.mem_append_left _ ht)).append _
  | @literal t hkind =>
    refine opens_of_kind ?_ (hregular t List.mem_cons_self) _
    rw [hkind]
    decide
  | @name t hname => exact opens_of_isName hname (hregular t List.mem_cons_self) _
  | @call s t _ _ _ hname _ _ _ _ _ =>
    exact opens_of_isName hname (hregular t List.mem_cons_self) _
  | @index s t _ _ _ hname _ _ _ _ =>
    exact opens_of_isName hname (hregular t List.mem_cons_self) _
  | parens hopener _ _ _ _ =>
    exact ⟨_, _, rfl, isAt_of_ne hopener (by decide), fun _ => by simp⟩

/-! ## Arguments -/

section Arguments

variable {arguments : List (List Token × Expr)} {first : List Token × Expr} {closer : Token}

/-- Arguments behind the first are read up to the closing parenthesis. -/
theorem moreArguments_gives (hjoined : Joined ((first :: arguments).map Prod.fst) s)
    (hreads : ∀ argument ∈ first :: arguments, Reads .assignment argument.1 argument.2)
    (hregular : ∀ t ∈ s, t.Regular) (hcloser : isAt ")" closer = true)
    (hregular' : closer.Regular) (rest : List Token) :
    ∃ mid, (assignment (s ++ closer :: rest)).Gives first.2 mid ∧
      (moreArguments mid).Gives (arguments.map Prod.snd) (closer :: rest) := by
  have hstops := stops_cons (closing_sign (by decide) hcloser hregular').2 rest
  induction arguments generalizing first s with
  | nil =>
    cases hjoined
    refine ⟨closer :: rest, hreads first List.mem_cons_self _ hstops, ?_⟩
    rw [moreArguments, if_neg (by rw [isAt_of_ne hcloser (by decide)]; decide)]
    exact .done _
  | cons next arguments ih =>
    cases hjoined with
    | @more _ _ s' comma _ hcomma hjoined =>
      have hcommaRegular : comma.Regular :=
        hregular comma (List.mem_append_right _ List.mem_cons_self)
      obtain ⟨mid, hnext, hmore⟩ := ih hjoined
        (fun argument h => hreads argument (List.mem_cons_of_mem _ h))
        (fun t ht => hregular t (List.mem_append_right _ (List.mem_cons_of_mem _ ht)))
      refine ⟨comma :: (s' ++ closer :: rest), ?_, ?_⟩
      · rw [List.append_assoc, List.cons_append]
        exact hreads first List.mem_cons_self _
          (stops_cons (closing_sign (by decide) hcomma hcommaRegular).2 _)
      · rw [moreArguments, if_pos hcomma]
        exact ((hnext.andThen fun _ => hmore.map _).after comma).relax

theorem Joined.begins {others : List (List Token)} {used : List Token}
    (h : Joined (s :: others) used) : ∃ rest, used = s ++ rest := by
  cases h with
  | one => exact ⟨[], (List.append_nil s).symm⟩
  | more _ _ => exact ⟨_, rfl⟩

theorem Joined.mem {stretches : List (List Token)} {used : List Token}
    (h : Joined stretches used) {stretch : List Token} (hstretch : stretch ∈ stretches)
    (ht : t ∈ stretch) : t ∈ used := by
  induction h with
  | nil => cases hstretch
  | one s =>
    rwa [← List.mem_singleton.1 hstretch]
  | more _ _ ih =>
    rcases List.mem_cons.1 hstretch with rfl | hstretch
    · exact List.mem_append_left _ ht
    · exact List.mem_append_right _ (List.mem_cons_of_mem _ (ih hstretch))

theorem arguments_gives (hjoined : Joined (arguments.map Prod.fst) s)
    (hderives : ∀ argument ∈ arguments, Derives .assignment argument.1 argument.2)
    (hreads : ∀ argument ∈ arguments, Reads .assignment argument.1 argument.2)
    (hregular : ∀ t ∈ s, t.Regular) (hcloser : isAt ")" closer = true)
    (hregular' : closer.Regular) (rest : List Token) :
    (Grammar.arguments (s ++ closer :: rest)).Gives (arguments.map Prod.snd) (closer :: rest) := by
  cases arguments with
  | nil =>
    cases hjoined
    rw [List.nil_append, Grammar.arguments, if_pos (by exact hcloser)]
    exact .done _
  | cons first arguments =>
    obtain ⟨mid, hfirst, hmore⟩ :=
      moreArguments_gives hjoined hreads hregular hcloser hregular' rest
    have hopens : Opens (s ++ closer :: rest) := by
      obtain ⟨others, rfl⟩ := hjoined.begins
      refine (Opens.append ((hderives first List.mem_cons_self).opens ?_) _).append _
      exact fun t ht => hregular t (List.mem_append_left _ ht)
    have hhead : headIs ")" (s ++ closer :: rest) = false := by
      obtain ⟨t, rest', heq, hnot, _⟩ := hopens
      rw [heq]
      exact hnot
    rw [Grammar.arguments, if_neg (by rw [hhead]; decide)]
    exact (hfirst.andThen fun _ => hmore.map _).relax

end Arguments

/-! ## One rule at a time -/

namespace Reads

variable {s' : List Token} {left right : Expr}

theorem assign {op : Option ArithOp} (hleft : Reads .conditional s left)
    (hop : isAt (assignText op) t = true) (ht : t.Regular) (hright : Reads .assignment s' right) :
    Reads .assignment (s ++ t :: s') (.assign t.line op left right) := by
  intro rest hstops
  obtain ⟨hassign, hcontinues⟩ := assignmentAt?_of_isAt hop ht
  have htarget := hleft (t :: (s' ++ rest)) (stops_cons hcontinues _)
  have hvalue := hright rest hstops
  rw [List.append_assoc, List.cons_append, assignment]
  refine htarget.andThen fun _ => ?_
  dsimp only
  rw [hassign]
  exact ((hvalue.map _).after t).relax

theorem conditional {s₁ s₂ s₃ : List Token} {colon : Token} {e₁ e₂ e₃ : Expr}
    (h₁ : Reads (.level .logical) s₁ e₁) (hquestion : isAt "?" t = true) (ht : t.Regular)
    (h₂ : Reads .assignment s₂ e₂) (hcolon : isAt ":" colon = true) (hregular : colon.Regular)
    (h₃ : Reads .conditional s₃ e₃) :
    Reads .conditional (s₁ ++ t :: (s₂ ++ colon :: s₃)) (.conditional t.line e₁ e₂ e₃) := by
  intro rest hstops
  have hcolonStops := stops_cons (closing_sign (by decide) hcolon hregular).2 (s₃ ++ rest)
  have hcondition := h₁.binary Level.chain_all
    (stops_cons (question_sign hquestion ht) (s₂ ++ colon :: (s₃ ++ rest)))
  have htrue := h₂ (colon :: (s₃ ++ rest)) hcolonStops
  have hfalse := h₃ rest hstops
  rw [List.append_assoc, List.cons_append, List.append_assoc, List.cons_append,
    Grammar.conditional]
  refine hcondition.andThen fun _ => ?_
  dsimp only
  rw [if_pos hquestion]
  refine ((htrue.andThen fun _ => ?_).after t).relax
  exact (punct_gives (by decide) hcolon hregular _).andThen fun _ => hfalse.map _

/-- The loop over the operators of a level takes one operation more. -/
theorem operation {l : Level} {make : Expr → Expr → Expr} (hleft : Reads (.level l) s left)
    (hmake : operatorAt? l t = some make)
    (hcontinues : (Rank.ofLevels l.tighter).continues t = false)
    (hright : Reads (.ofLevels l.tighter) s' right) :
    Reads (.level l) (s ++ t :: s') (make left right) := by
  intro rest value remaining hstops hloop
  have hoperand := hright.binary (Level.chain_tighter l) hstops
  rw [List.append_assoc, List.cons_append]
  refine hleft _ value remaining (stops_cons hcontinues _) ?_
  rw [operations, hmake]
  exact ((hoperand.andThen fun _ => hloop).after t).relax

theorem unary {op : UnaryOp} (hop : isAt op.text t = true) (ht : t.Regular)
    (h : Reads .unary s e) : Reads .unary (t :: s) (.unary t.line op e) := by
  intro rest hstops
  rw [List.cons_append, Grammar.unary, unaryAt?_of_isAt hop ht]
  exact ((h rest hstops).map _).after t

theorem sizeOfType {opener closer : Token} {type : CType} (hsize : isSizeOf t = true)
    (hopener : isAt "(" opener = true) (htype : IsType s type) (hregular : ∀ u ∈ s, u.Regular)
    (hcloser : isAt ")" closer = true) (hregular' : closer.Regular) :
    Reads .unary (t :: opener :: (s ++ [closer])) (.sizeOfType t.line type) := by
  intro rest hstops
  have hnone : unaryAt? t = none := if_neg (by rw [kind_of_isSizeOf hsize]; decide)
  have hopens : opensType (opener :: (s ++ closer :: rest)) = true := by
    rw [opensType, hopener, htype.headStartsType, Bool.and_true]
  have hgives := typeInParens_gives opener htype hregular hcloser hregular' rest
  rw [List.cons_append, List.cons_append, List.append_assoc, List.singleton_append, Grammar.unary,
    hnone]
  dsimp only
  rw [if_pos hsize, if_pos hopens]
  exact (hgives.map _).after t

theorem sizeOf (hsize : isSizeOf t = true) (h : Reads .unary s e) (hopens : opensType s = false)
    (hmore : Opens s) : Reads .unary (t :: s) (.sizeOf t.line e) := by
  intro rest hstops
  have hnone : unaryAt? t = none := if_neg (by rw [kind_of_isSizeOf hsize]; decide)
  -- The operand is more than an opening parenthesis, so what follows it opens no type.
  have hopens' : opensType (s ++ rest) = false := by
    obtain ⟨u, s, rfl, _, hmore⟩ := hmore
    rw [opensType, Bool.and_eq_false_iff] at hopens
    rw [List.cons_append, opensType, Bool.and_eq_false_iff]
    by_cases hparen : isAt "(" u = true
    · obtain ⟨v, s, rfl⟩ := List.exists_cons_of_ne_nil (hmore hparen)
      exact hopens
    · exact Or.inl (Bool.not_eq_true _ ▸ hparen)
  rw [List.cons_append, Grammar.unary, hnone]
  dsimp only
  rw [if_pos hsize, if_neg (by rw [hopens']; decide)]
  exact ((h rest hstops).map _).after t

theorem cast {opener closer : Token} {type : CType} (hopener : isAt "(" opener = true)
    (hopener' : opener.Regular) (htype : IsType s type) (hregular : ∀ u ∈ s, u.Regular)
    (hcloser : isAt ")" closer = true) (hregular' : closer.Regular) (h : Reads .unary s' e) :
    Reads .unary (opener :: (s ++ closer :: s')) (.cast opener.line type e) := by
  intro rest hstops
  have hkind := opening_sign hopener hopener'
  have hnone : unaryAt? opener = none := if_neg (by rw [hkind]; decide)
  have hsize : isSizeOf opener = false := by
    rw [isSizeOf, hkind]
    rfl
  have hopens : opensType (opener :: (s ++ closer :: (s' ++ rest))) = true := by
    rw [opensType, hopener, htype.headStartsType, Bool.and_true]
  have hgives := typeInParens_gives opener htype hregular hcloser hregular' (s' ++ rest)
  have hoperand := h rest hstops
  rw [List.cons_append, List.append_assoc, List.cons_append, Grammar.unary, hnone]
  dsimp only
  rw [if_neg (by rw [hsize]; decide), if_pos hopens]
  exact hgives.andThen fun _ => hoperand.map _

theorem member {m : Token} {arrow : Bool} (h : Reads .operand s e)
    (hat : isAt (if arrow then "->" else ".") t = true) (ht : t.Regular)
    (hkind : m.kind = .identifier) :
    Reads .operand (s ++ [t, m]) (.member t.line arrow e m.text) := by
  intro rest value remaining hstops hloop
  obtain ⟨hselects, harrow, hcontinues⟩ := member_sign hat ht
  rw [List.append_assoc, List.cons_append, List.singleton_append]
  refine h _ value remaining (stops_cons hcontinues _) ?_
  rw [selections, if_pos hselects, if_pos hkind, harrow]
  exact ((hloop.after m).after t).relax

theorem stepAfter {op : StepOp} (h : Reads .operand s e) (hat : isAt op.text t = true)
    (ht : t.Regular) : Reads .operand (s ++ [t]) (.stepAfter t.line op e) := by
  intro rest value remaining hstops hloop
  obtain ⟨hselects, hstep, hcontinues⟩ := stepAt?_of_isAt hat ht
  rw [List.append_assoc, List.singleton_append]
  refine h _ value remaining (stops_cons hcontinues _) ?_
  unfold selections
  rw [if_neg (by rw [hselects]; decide), hstep]
  exact (hloop.after t).relax

theorem literal (hkind : t.kind = .literal) :
    Reads .primary [t] (.literal t.line t.text) := by
  intro rest _
  refine ⟨⟨t, rest, rfl, if_neg (by rw [hkind]; decide), ?_, ?_⟩, ?_⟩
  · rw [isSizeOf, hkind]
    rfl
  · rw [List.cons_append, opensType, isAt, hkind, bne_self_eq_false, Bool.and_false,
      Bool.false_and]
  · rw [List.cons_append, List.nil_append]
    unfold primary
    rw [if_pos hkind]
    exact (Parse.Gives.done _).after t

theorem begins_of_isName (h : isName t = true) (hregular : t.Regular) (rest : List Token) :
    BeginsOperand (t :: rest) := by
  obtain ⟨_, hoperator, hpunctuation, hkeyword⟩ := kind_of_isName h
  refine ⟨t, rest, rfl, if_neg hoperator, ?_, ?_⟩
  · rw [isSizeOf, beq_eq_false_iff_ne.2 hkeyword]
    rfl
  · rw [opensType, isAt_of_kind ⟨hoperator, hpunctuation⟩ hregular (by decide)]
    rfl

theorem name (hname : isName t = true) (ht : t.Regular) :
    Reads .primary [t] (.name t.line t.text) := by
  intro rest hstops
  refine ⟨begins_of_isName hname ht _, ?_⟩
  rw [List.cons_append, List.nil_append]
  unfold primary
  rw [if_neg (kind_of_isName hname).1, if_pos hname]
  cases rest with
  | nil => exact (Parse.Gives.done _).after t
  | cons u rest =>
    have hhead := hstops u rfl
    rw [Rank.continues, Rank.downward, List.any_cons, List.any_nil, Bool.or_false, Rank.goesOn,
      Bool.or_eq_false_iff] at hhead
    dsimp only
    rw [if_neg (by rw [hhead.1]; decide), if_neg (by rw [hhead.2]; decide)]
    exact (Parse.Gives.done _).after t

theorem call {opener closer : Token} {es : List Expr} (hname : isName t = true) (ht : t.Regular)
    (hopener : isAt "(" opener = true)
    (harguments : ∀ rest, (arguments (s ++ closer :: rest)).Gives es (closer :: rest))
    (hcloser : isAt ")" closer = true) (hregular : closer.Regular) :
    Reads .primary (t :: opener :: (s ++ [closer])) (.call t.line t.text es) := by
  intro rest _
  refine ⟨begins_of_isName hname ht _, ?_⟩
  rw [List.cons_append, List.cons_append, List.append_assoc, List.singleton_append]
  unfold primary
  rw [if_neg (kind_of_isName hname).1, if_pos hname]
  dsimp only
  rw [if_pos hopener]
  refine (((harguments rest).andThen fun _ => ?_).after opener).after t
  exact (punct_gives (by decide) hcloser hregular rest).map _

theorem index {opener closer : Token} (hname : isName t = true) (ht : t.Regular)
    (hopener : isAt "[" opener = true) (h : Reads .assignment s e)
    (hcloser : isAt "]" closer = true) (hregular : closer.Regular) :
    Reads .primary (t :: opener :: (s ++ [closer])) (.index t.line t.text e) := by
  intro rest _
  have hposition := h (closer :: rest)
    (stops_cons (closing_sign (by decide) hcloser hregular).2 _)
  refine ⟨begins_of_isName hname ht _, ?_⟩
  rw [List.cons_append, List.cons_append, List.append_assoc, List.singleton_append]
  unfold primary
  rw [if_neg (kind_of_isName hname).1, if_pos hname]
  dsimp only
  rw [if_neg (by rw [isAt_of_ne hopener (by decide)]; decide), if_pos hopener]
  refine ((hposition.andThen fun _ => ?_).after opener).after t
  exact (punct_gives (by decide) hcloser hregular rest).map _

theorem parens {opener closer : Token} (hopener : isAt "(" opener = true)
    (hopener' : opener.Regular) (hstarts : headStartsType s = false) (h : Reads .assignment s e)
    (hcloser : isAt ")" closer = true) (hregular : closer.Regular) :
    Reads .primary (opener :: (s ++ [closer])) e := by
  intro rest _
  have hkind := opening_sign hopener hopener'
  have hinner := h (closer :: rest)
    (stops_cons (closing_sign (by decide) hcloser hregular).2 _)
  rw [List.cons_append, List.append_assoc, List.singleton_append]
  refine ⟨⟨opener, _, rfl, if_neg (by rw [hkind]; decide), ?_, ?_⟩, ?_⟩
  · rw [isSizeOf, hkind]
    rfl
  · rw [opensType, headStartsType_append hstarts (startsType_sign hcloser hregular (by decide)),
      Bool.and_false]
  · have hname : isName opener = false := by
      rw [isName, hkind]
      rfl
    unfold primary
    rw [if_neg (by rw [hkind]; decide), if_neg (by rw [hname]; decide), if_pos hopener]
    refine (hinner.andThen fun _ => ?_).after opener
    exact (punct_gives (by decide) hcloser hregular rest).map _

end Reads

/-! ## What is derived is read -/

/-- What the grammar derives from regular tokens, the readers read. -/
theorem Derives.reads {r : Rank} (h : Derives r s e) (hregular : ∀ t ∈ s, t.Regular) :
    Reads r s e := by
  -- each rule is a branch of a reader, which is told from the others by the first tokens
  induction h with
  | tighter hnext _ ih => exact (ih hregular).tighter hnext
  | assign _ hop _ ihleft ihright =>
    rw [List.forall_mem_append, List.forall_mem_cons] at hregular
    exact (ihleft hregular.1).assign hop hregular.2.1 (ihright hregular.2.2)
  | conditional _ hquestion _ hcolon _ ih₁ ih₂ ih₃ =>
    rw [List.forall_mem_append, List.forall_mem_cons, List.forall_mem_append,
      List.forall_mem_cons] at hregular
    obtain ⟨hs₁, ht, hs₂, hcolon', hs₃⟩ := hregular
    exact (ih₁ hs₁).conditional hquestion ht (ih₂ hs₂) hcolon hcolon' (ih₃ hs₃)
  | logic _ hop _ ihleft ihright =>
    rw [List.forall_mem_append, List.forall_mem_cons] at hregular
    obtain ⟨hoperator, hcontinues⟩ := operatorAt?_logic hop hregular.2.1
    exact (ihleft hregular.1).operation hoperator hcontinues (ihright hregular.2.2)
  | binary _ hop _ ihleft ihright =>
    rw [List.forall_mem_append, List.forall_mem_cons] at hregular
    obtain ⟨hoperator, hcontinues⟩ := operatorAt?_binary hop hregular.2.1
    exact (ihleft hregular.1).operation hoperator hcontinues (ihright hregular.2.2)
  | unary hop _ ih =>
    rw [List.forall_mem_cons] at hregular
    exact .unary hop hregular.1 (ih hregular.2)
  | sizeOfType hsize hopener htype hcloser =>
    rw [List.forall_mem_cons, List.forall_mem_cons, List.forall_mem_append,
      List.forall_mem_singleton] at hregular
    exact .sizeOfType hsize hopener htype hregular.2.2.1 hcloser hregular.2.2.2
  | sizeOf hsize hderives hopens ih =>
    rw [List.forall_mem_cons] at hregular
    exact .sizeOf hsize (ih hregular.2) hopens (hderives.opens hregular.2)
  | cast hopener htype hcloser _ ih =>
    rw [List.forall_mem_cons, List.forall_mem_append, List.forall_mem_cons] at hregular
    obtain ⟨hopener', hs, hcloser', hs'⟩ := hregular
    exact .cast hopener hopener' htype hs hcloser hcloser' (ih hs')
  | member _ hat hkind ih =>
    rw [List.forall_mem_append, List.forall_mem_cons] at hregular
    exact (ih hregular.1).member hat hregular.2.1 hkind
  | stepAfter _ hat ih =>
    rw [List.forall_mem_append, List.forall_mem_singleton] at hregular
    exact (ih hregular.1).stepAfter hat hregular.2
  | literal hkind => exact .literal hkind
  | name hname => exact .name hname (hregular _ List.mem_cons_self)
  | call hname hopener hderives hjoined hcloser ih =>
    rw [List.forall_mem_cons, List.forall_mem_cons, List.forall_mem_append,
      List.forall_mem_singleton] at hregular
    obtain ⟨ht, _, hs, hcloser'⟩ := hregular
    refine .call hname ht hopener (fun rest => ?_) hcloser hcloser'
    refine arguments_gives hjoined hderives (fun argument h => ih argument h ?_) hs hcloser
      hcloser' rest
    exact fun u hu => hs u (hjoined.mem (List.mem_map_of_mem h) hu)
  | index hname hopener _ hcloser ih =>
    rw [List.forall_mem_cons, List.forall_mem_cons, List.forall_mem_append,
      List.forall_mem_singleton] at hregular
    obtain ⟨ht, _, hs, hcloser'⟩ := hregular
    exact .index hname ht hopener (ih hs) hcloser hcloser'
  | parens hopener hstarts _ hcloser ih =>
    rw [List.forall_mem_cons, List.forall_mem_append, List.forall_mem_singleton] at hregular
    exact .parens hopener hregular.1 hstarts (ih hregular.2.1) hcloser hregular.2.2

end Grammar

/-- On regular tokens an expression is read just when it is derived. -/
theorem parseExpr_eq_ok_iff {tokens : List Token} (hregular : ∀ t ∈ tokens, t.Regular) {e : Expr} :
    parseExpr tokens = .ok e ↔ Grammar.Derives .assignment tokens e := by
  constructor
  · intro h
    unfold parseExpr at h
    split at h
    · next r hr =>
      split at h
      · next hrest =>
        obtain rfl := Except.ok.inj h
        obtain ⟨used, hused, hderives⟩ := Grammar.assignment_derives tokens r hr
        rw [hrest, List.append_nil] at hused
        rwa [← hused] at hderives
      · cases h
    · cases h
  · intro h
    have hgives := h.reads hregular [] (Grammar.stops_nil _)
    rw [List.append_nil] at hgives
    obtain ⟨r, hr, rfl, hrest⟩ := hgives
    unfold parseExpr
    rw [hr]
    dsimp only
    split
    · rfl
    · next hcons =>
      rw [hrest] at hcons
      cases hcons

/-- **An expression is read from a text without directives just when the grammar derives it.**
So the tokens of such a text derive at most one tree. -/
theorem parseExpr_iff_derives {source : String} (h : Token.Undirected source) (e : Expr) :
    (parseExpr (tokenize source) = .ok e ↔ Grammar.Derives .assignment (tokenize source) e) ∧
    ∀ e', Grammar.Derives .assignment (tokenize source) e →
      Grammar.Derives .assignment (tokenize source) e' → e' = e := by
  refine ⟨parseExpr_eq_ok_iff h.regular, fun e' he he' => ?_⟩
  have hread := (parseExpr_eq_ok_iff h.regular).2 he
  have hread' := (parseExpr_eq_ok_iff h.regular).2 he'
  rw [hread] at hread'
  exact (Except.ok.inj hread').symm

/-- A parenthesis before a type word makes a conversion, so what follows is no difference. -/
theorem conversion_is_derived :
    Token.Undirected "p = (size_t)-q" ∧
    Grammar.Derives .assignment (tokenize "p = (size_t)-q")
      (.assign 1 none (.name 1 "p") (.cast 1 ⟨"size_t"⟩ (.unary 1 .minus (.name 1 "q")))) := by
  have hundirected : Token.Undirected "p = (size_t)-q" := by decide +kernel
  have htokens : tokenize "p = (size_t)-q" =
      [⟨.identifier, "p", 1, 1⟩, ⟨.operator, "=", 1, 3⟩, ⟨.punctuation, "(", 1, 5⟩,
        ⟨.identifier, "size_t", 1, 6⟩, ⟨.punctuation, ")", 1, 12⟩, ⟨.operator, "-", 1, 13⟩,
        ⟨.identifier, "q", 1, 14⟩] :=
    Token.tokenize_of_sorted (by decide +kernel) (by decide +kernel)
  refine ⟨hundirected, (parseExpr_iff_derives hundirected _).1.1 ?_⟩
  rw [htokens]
  decide +kernel

end Stepwise
