/-
The grammar of expressions, and that the readers follow it.

The grammar is a relation between tokens and a tree, given apart from the readers.
Each rank of expressions holds those of the next tighter one; the levels of binary
operators and the selections behind an operand recur on the left, an assignment on
the right. Two rules look ahead: an expression in parentheses does not begin with
a type word, and the operand of a size does not begin with a type in parentheses.
Without these a conversion could be read as something else.

A terminal of the grammar is told by its text alone, a literal being none whatever
its text. The readers ask for its kind in some places, so they follow the grammar
on all tokens (`assignment_derives` and its companions), but the way back needs
tokens that have the kind that belongs to their text.
-/
import Stepwise.Proofs.Partition

set_option autoImplicit false

namespace Stepwise

namespace Grammar

/-! ## The grammar -/

/-- The levels that bind tighter than a level, loosest first. -/
def Level.tighter : Level → List Level
  | logical => [bitwise, relational, shift, additive, multiplicative]
  | bitwise => [relational, shift, additive, multiplicative]
  | relational => [shift, additive, multiplicative]
  | shift => [additive, multiplicative]
  | additive => [multiplicative]
  | multiplicative => []

/-- How tightly an expression holds together. -/
inductive Rank where
  /-- Assignments. -/
  | assignment
  /-- Choices between two expressions. -/
  | conditional
  /-- Operations of a level. -/
  | level (l : Level)
  /-- Operators in front of an operand, sizes and conversions. -/
  | unary
  /-- Selections and steps behind an operand. -/
  | operand
  /-- Literals, names, calls, elements, and whatever stands in parentheses. -/
  | primary
deriving Repr, DecidableEq

namespace Rank

/-- The rank that operands of the first of these levels have. -/
def ofLevels : List Level → Rank
  | [] => unary
  | l :: _ => level l

/-- The next tighter rank. -/
def next? : Rank → Option Rank
  | assignment => some conditional
  | conditional => some (level .logical)
  | level l => some (ofLevels l.tighter)
  | unary => some operand
  | operand => some primary
  | primary => none

end Rank

/-- Tokens of type words, and the words. A name from the standard headers ends them. -/
inductive TypeWords : List Token → List String → Prop where
  | nil : TypeWords [] []
  | keyword {t : Token} {s : List Token} {words : List String} :
      t.kind = .keyword → t.text ∈ typeKeywords → TypeWords s words →
      TypeWords (t :: s) (t.text :: words)
  | tag {t tag : Token} {s : List Token} {words : List String} :
      t.kind = .keyword → t.text ∈ tagKeywords → tag.kind = .identifier → TypeWords s words →
      TypeWords (t :: tag :: s) (t.text :: tag.text :: words)
  | header {t : Token} : t.kind = .identifier → t.text ∈ typedefNames → TypeWords [t] [t.text]

/-- Tokens of a type: words, and stars behind them. -/
def IsType (s : List Token) (type : CType) : Prop :=
  ∃ front back words, s = front ++ back ∧ front ≠ [] ∧ TypeWords front words ∧
    (∀ star ∈ back, isAt "*" star) ∧
    type = starred ⟨" ".intercalate words⟩ back.length

/-- Stretches of tokens, joined by commas. -/
inductive Joined : List (List Token) → List Token → Prop where
  | nil : Joined [] []
  | one (s : List Token) : Joined [s] s
  | more {s next rest : List Token} {comma : Token} {others : List (List Token)} :
      isAt "," comma → Joined (next :: others) rest →
      Joined (s :: next :: others) (s ++ comma :: rest)

/-- The tokens spell the tree, at a rank. -/
inductive Derives : Rank → List Token → Expr → Prop where
  | tighter {r r' : Rank} {s : List Token} {e : Expr} :
      r.next? = some r' → Derives r' s e → Derives r s e
  | assign {s s' : List Token} {t : Token} {op : Option ArithOp} {target value : Expr} :
      Derives .conditional s target → isAt (assignText op) t →
      Derives .assignment s' value →
      Derives .assignment (s ++ t :: s') (.assign t.line op target value)
  | conditional {s₁ s₂ s₃ : List Token} {t colon : Token} {e₁ e₂ e₃ : Expr} :
      Derives (.level .logical) s₁ e₁ → isAt "?" t → Derives .assignment s₂ e₂ →
      isAt ":" colon → Derives .conditional s₃ e₃ →
      Derives .conditional (s₁ ++ t :: (s₂ ++ colon :: s₃)) (.conditional t.line e₁ e₂ e₃)
  | logic {s s' : List Token} {t : Token} {op : LogicOp} {left right : Expr} :
      Derives (.level .logical) s left → isAt op.text t →
      Derives (.level .bitwise) s' right →
      Derives (.level .logical) (s ++ t :: s') (.logic t.line op left right)
  | binary {s s' : List Token} {t : Token} {op : BinaryOp} {left right : Expr} :
      Derives (.level (.ofBinary op)) s left → isAt op.text t →
      Derives (.ofLevels (Level.ofBinary op).tighter) s' right →
      Derives (.level (.ofBinary op)) (s ++ t :: s') (.binary t.line op left right)
  | unary {s : List Token} {t : Token} {op : UnaryOp} {operand : Expr} :
      isAt op.text t → Derives .unary s operand →
      Derives .unary (t :: s) (.unary t.line op operand)
  | sizeOfType {s : List Token} {t opener closer : Token} {type : CType} :
      isSizeOf t → isAt "(" opener → IsType s type →
      isAt ")" closer →
      Derives .unary (t :: opener :: (s ++ [closer])) (.sizeOfType t.line type)
  | sizeOf {s : List Token} {t : Token} {operand : Expr} :
      isSizeOf t → Derives .unary s operand → opensType s = false →
      Derives .unary (t :: s) (.sizeOf t.line operand)
  | cast {s s' : List Token} {opener closer : Token} {type : CType} {operand : Expr} :
      isAt "(" opener → IsType s type → isAt ")" closer →
      Derives .unary s' operand →
      Derives .unary (opener :: (s ++ closer :: s')) (.cast opener.line type operand)
  | member {s : List Token} {t m : Token} {arrow : Bool} {object : Expr} :
      Derives .operand s object → isAt (if arrow then "->" else ".") t →
      m.kind = .identifier →
      Derives .operand (s ++ [t, m]) (.member t.line arrow object m.text)
  | stepAfter {s : List Token} {t : Token} {op : StepOp} {operand : Expr} :
      Derives .operand s operand → isAt op.text t →
      Derives .operand (s ++ [t]) (.stepAfter t.line op operand)
  | literal {t : Token} : t.kind = .literal → Derives .primary [t] (.literal t.line t.text)
  | name {t : Token} : isName t → Derives .primary [t] (.name t.line t.text)
  | call {s : List Token} {t opener closer : Token} {arguments : List (List Token × Expr)} :
      isName t → isAt "(" opener →
      (∀ argument ∈ arguments, Derives .assignment argument.1 argument.2) →
      Joined (arguments.map Prod.fst) s → isAt ")" closer →
      Derives .primary (t :: opener :: (s ++ [closer]))
        (.call t.line t.text (arguments.map Prod.snd))
  | index {s : List Token} {t opener closer : Token} {position : Expr} :
      isName t → isAt "[" opener → Derives .assignment s position →
      isAt "]" closer →
      Derives .primary (t :: opener :: (s ++ [closer])) (.index t.line t.text position)
  | parens {s : List Token} {opener closer : Token} {e : Expr} :
      isAt "(" opener → headStartsType s = false → Derives .assignment s e →
      isAt ")" closer → Derives .primary (opener :: (s ++ [closer])) e

/-! ## Signs -/

variable {s : List Token} {t : Token}

theorem isAt_iff {text : String} : isAt text t = true ↔ t.text = text ∧ t.kind ≠ .literal := by
  rw [isAt, Bool.and_eq_true, beq_iff_eq, bne_iff_ne]

/-- What is looked up by its text is written so. -/
theorem isAt_of_find? {α : Type} {text : α → String} {all : List α} {a : α}
    (h : (if t.kind = .operator then all.find? (fun b => text b == t.text) else none) = some a) :
    isAt (text a) t = true := by
  by_cases hkind : t.kind = .operator
  · rw [if_pos hkind] at h
    have htext := List.find?_some h
    rw [beq_iff_eq] at htext
    rw [isAt_iff, htext, hkind]
    exact ⟨rfl, by decide⟩
  · rw [if_neg hkind] at h
    cases h

/-- What an operator of a level makes is an operation of that level. -/
theorem operatorAt?_eq_some {l : Level} {make : Expr → Expr → Expr}
    (h : operatorAt? l t = some make) :
    (∃ op : LogicOp, l = .logical ∧ isAt op.text t = true ∧ make = .logic t.line op) ∨
    ∃ op : BinaryOp, l = .ofBinary op ∧ isAt op.text t = true ∧ make = .binary t.line op := by
  unfold operatorAt? at h
  by_cases hkind : t.kind = .operator
  · rw [if_pos hkind] at h
    obtain ⟨make', hmake, rfl⟩ := Option.map_eq_some_iff.1 h
    unfold Level.make? at hmake
    split at hmake
    · obtain ⟨op, hop, rfl⟩ := Option.map_eq_some_iff.1 hmake
      exact Or.inl ⟨op, rfl, isAt_of_find? (by rw [if_pos hkind]; exact hop), rfl⟩
    · split at hmake
      · next op hop =>
        by_cases hlevel : Level.ofBinary op = l
        · rw [if_pos hlevel] at hmake
          obtain rfl := Option.some.inj hmake
          exact Or.inr ⟨op, hlevel.symm, isAt_of_find? (by rw [if_pos hkind]; exact hop), rfl⟩
        · rw [if_neg hlevel] at hmake
          cases hmake
      · cases hmake
  · rw [if_neg hkind] at h
    cases h

/-! ## The tokens a reader takes -/

/-- From the first tokens on up to the second ones the tree is spelled. -/
def Spans (r : Rank) (s rest : List Token) (e : Expr) : Prop :=
  ∃ used, s = used ++ rest ∧ Derives r used e

/-- From the first tokens on up to the second ones a type is spelled. -/
def SpansType (s rest : List Token) (type : CType) : Prop :=
  ∃ used, s = used ++ rest ∧ IsType used type

theorem Spans.tighter {r r' : Rank} {rest : List Token} {e : Expr} (hnext : r.next? = some r')
    (h : Spans r' s rest e) : Spans r s rest e := by
  obtain ⟨used, hs, hused⟩ := h
  exact ⟨used, hs, .tighter hnext hused⟩

theorem Spans.operation {l : Level} {mid rest : List Token} {left right : Expr}
    {make : Expr → Expr → Expr} (hmake : operatorAt? l t = some make)
    (hleft : Spans (.level l) s (t :: mid) left)
    (hright : Spans (.ofLevels l.tighter) mid rest right) :
    Spans (.level l) s rest (make left right) := by
  obtain ⟨used, rfl, hused⟩ := hleft
  obtain ⟨used', rfl, hused'⟩ := hright
  refine ⟨used ++ t :: used', by rw [List.append_assoc, List.cons_append], ?_⟩
  rcases operatorAt?_eq_some hmake with ⟨op, rfl, hop, rfl⟩ | ⟨op, rfl, hop, rfl⟩
  · exact .logic hused hop hused'
  · exact .binary hused hop hused'

theorem punct_spans (text : String) (s : List Token) :
    (punct text s).Meets fun _ rest => ∃ u, s = u :: rest ∧ isAt text u = true := by
  unfold punct expectOr
  split
  · exact .fail _
  · next u rest =>
    split
    · next hkind =>
      refine .after (.done ⟨u, rfl, ?_⟩)
      rw [isAt_iff, hkind.1]
      rcases hkind.2 with htext | htext
      · cases htext
      · exact ⟨(Option.some.inj htext).symm, by decide⟩
    · exact .fail _

/-! ## Types -/

theorem startsType_cases (h : startsType t = true) :
    (t.kind = .keyword ∧ (t.text ∈ typeKeywords ∨ t.text ∈ tagKeywords)) ∨
    (t.kind = .identifier ∧ t.text ∈ typedefNames) := by
  unfold startsType at h
  cases hkind : t.kind with
  | keyword =>
    rw [hkind, Bool.or_eq_true, List.contains_iff_mem, List.contains_iff_mem] at h
    exact Or.inl ⟨rfl, h⟩
  | identifier =>
    rw [hkind, List.contains_iff_mem] at h
    exact Or.inr ⟨rfl, h⟩
  | _ =>
    rw [hkind] at h
    cases h

theorem tagKeywords_apart : ∀ word ∈ tagKeywords, word ∉ typeKeywords ∧ word ∉ typedefNames := by
  decide

theorem typeWords_spans (s : List Token) :
    (typeWords s).Meets fun words rest => ∃ used, s = used ++ rest ∧ TypeWords used words := by
  fun_induction typeWords s with
  | case1 => exact .done ⟨[], rfl, .nil⟩
  | case2 t hstarts htag => exact .relax (.after (.fail _))
  | case3 t hstarts htag tag rest hkind ih =>
    refine .relax (.after (.after (.map (ih.imp ?_))))
    rintro words rest' ⟨used, rfl, hused⟩
    refine ⟨t :: tag :: used, rfl, .tag ?_ (List.contains_iff_mem.1 htag) hkind hused⟩
    exact kind_of_tagKeyword hstarts htag
  | case4 t hstarts htag tag rest hkind => exact .relax (.after (.fail _))
  | case5 t rest hstarts htag hkind =>
    refine .relax (.after (.done ⟨[t], rfl, ?_⟩))
    rcases startsType_cases hstarts with ⟨hkeyword, _⟩ | ⟨_, hword⟩
    · rw [hkind] at hkeyword
      cases hkeyword
    · exact .header hkind hword
  | case6 t rest hstarts htag hkind ih =>
    refine .relax (.after (.map (ih.imp ?_)))
    rintro words rest' ⟨used, rfl, hused⟩
    refine ⟨t :: used, rfl, ?_⟩
    rcases startsType_cases hstarts with ⟨hkeyword, hword | hword⟩ | ⟨hidentifier, _⟩
    · exact .keyword hkeyword hword hused
    · exact absurd (List.contains_iff_mem.2 hword) htag
    · exact absurd hidentifier hkind
  | case7 t rest hstarts => exact .done ⟨[], rfl, .nil⟩

theorem stars_spans (s : List Token) :
    (stars s).Meets fun n rest => ∃ used, s = used ++ rest ∧ n = used.length ∧
      ∀ star ∈ used, isAt "*" star = true := by
  fun_induction stars s with
  | case1 => exact .done ⟨[], rfl, rfl, fun star h => by cases h⟩
  | case2 t rest hstar ih =>
    refine .relax (.after (.map (ih.imp ?_)))
    rintro n rest' ⟨used, rfl, rfl, hused⟩
    refine ⟨t :: used, rfl, rfl, ?_⟩
    rintro star (_ | ⟨_, h⟩)
    · exact hstar
    · exact hused star h
  | case3 t rest hstar => exact .done ⟨[], rfl, rfl, fun star h => by cases h⟩

theorem typeWords_ne_nil (hstarts : headStartsType s = true) :
    (typeWords s).Meets fun words _ => words ≠ [] := by
  cases s with
  | nil => cases hstarts
  | cons t s =>
    rw [headStartsType] at hstarts
    unfold typeWords
    rw [if_pos hstarts]
    split
    · split
      · exact .relax (.after (.fail _))
      · split
        · exact .relax (.after (.after (.map fun _ _ => List.cons_ne_nil _ _)))
        · exact .relax (.after (.fail _))
    · split
      · exact .relax (.after (.done (List.cons_ne_nil _ _)))
      · exact .relax (.after (.map fun _ _ => List.cons_ne_nil _ _))

theorem typeName_spans (s : List Token) :
    (typeName s).Meets fun type rest => ∃ used words, s = used ++ rest ∧ used ≠ [] ∧
      TypeWords used words ∧ type = ⟨" ".intercalate words⟩ := by
  unfold typeName
  split
  · next hstarts =>
    refine .map fun r hr => ?_
    obtain ⟨used, hs, hused⟩ := typeWords_spans s r hr
    refine ⟨used, r.value, hs, ?_, hused, rfl⟩
    rintro rfl
    refine typeWords_ne_nil hstarts r hr ?_
    generalize r.value = words at hused
    cases hused
    rfl
  · exact .fail _

theorem starredTypeName_spans (s : List Token) :
    (starredTypeName s).Meets fun type rest => SpansType s rest type := by
  refine .andThen (typeName_spans s) ?_
  rintro type rest _ ⟨used, words, rfl, hne, hused, rfl⟩
  refine .map ((stars_spans rest).imp ?_)
  rintro n rest' ⟨back, rfl, rfl, hback⟩
  exact ⟨used ++ back, by rw [List.append_assoc], used, back, words, rfl, hne, hused, hback, rfl⟩

/-- A type in parentheses, between them. -/
theorem typeInParens_spans (hopens : opensType s = true) :
    (typeInParens s).Meets fun type rest => ∃ opener closer mid, s = opener :: mid ∧
      isAt "(" opener = true ∧ SpansType mid (closer :: rest) type ∧ isAt ")" closer = true := by
  cases s with
  | nil => cases hopens
  | cons opener s =>
    rw [opensType, Bool.and_eq_true] at hopens
    refine .after (.andThen (starredTypeName_spans s) fun type rest _ htype => ?_)
    refine .map ((punct_spans ")" rest).imp ?_)
    rintro _ rest' ⟨closer, rfl, hcloser⟩
    exact ⟨opener, closer, s, rfl, hopens.1, htype, hcloser⟩

/-! ## Expressions -/

theorem selections_derives {s₀ : List Token} {e : Expr} (h : Spans .operand s₀ s e) :
    (selections e s).Meets fun e rest => Spans .operand s₀ rest e := by
  fun_induction selections e s with
  | case1 => exact .done h
  | case2 e t hat => exact .relax (.after (.fail _))
  | case3 e t hat m rest hkind ih =>
    refine .relax (.after (.after (ih ?_)))
    obtain ⟨used, rfl, hused⟩ := h
    refine ⟨used ++ [t, m], by simp, .member hused ?_ hkind⟩
    rw [Bool.or_eq_true] at hat
    by_cases harrow : t.text = "->"
    · rw [beq_iff_eq.2 harrow, if_pos rfl]
      rcases hat with hat | hat
      · rw [isAt_iff, harrow] at hat
        exact absurd hat.1 (by decide)
      · exact hat
    · rw [beq_eq_false_iff_ne.2 harrow, if_neg (by decide)]
      rcases hat with hat | hat
      · exact hat
      · exact absurd (isAt_iff.1 hat).1 harrow
  | case4 e t hat m rest hkind => exact .relax (.after (.fail _))
  | case5 e t rest hat op hop ih =>
    refine .relax (.after (ih ?_))
    obtain ⟨used, rfl, hused⟩ := h
    exact ⟨used ++ [t], by simp, .stepAfter hused (isAt_of_find? hop)⟩
  | case6 e t rest hat hop => exact .done h

/-- Arguments of a call with the tokens of each, up to the tokens left. -/
def SpansAll (s rest : List Token) (es : List Expr) : Prop :=
  ∃ arguments : List (List Token × Expr), es = arguments.map Prod.snd ∧
    (∀ argument ∈ arguments, Derives .assignment argument.1 argument.2) ∧
    ∃ used, s = used ++ rest ∧ Joined (arguments.map Prod.fst) used

theorem SpansAll.cons {mid rest : List Token} {e e' : Expr} {es : List Expr}
    (h : Spans .assignment s (t :: mid) e) (hcomma : isAt "," t = true)
    (hrest : SpansAll mid rest (e' :: es)) : SpansAll s rest (e :: e' :: es) := by
  obtain ⟨used, rfl, hused⟩ := h
  obtain ⟨arguments, hes, hderives, used', rfl, hjoined⟩ := hrest
  cases arguments with
  | nil => cases hes
  | cons argument arguments =>
    refine ⟨(used, e) :: argument :: arguments, by rw [hes]; rfl, ?_, used ++ t :: used', by simp,
      .more hcomma hjoined⟩
    rintro a (_ | ⟨_, ha⟩)
    · exact hused
    · exact hderives a ha

theorem SpansAll.one {rest : List Token} {e : Expr} (h : Spans .assignment s rest e) :
    SpansAll s rest [e] := by
  obtain ⟨used, rfl, hused⟩ := h
  refine ⟨[(used, e)], rfl, ?_, used, rfl, .one used⟩
  rintro a (_ | ⟨_, ha⟩)
  · exact hused
  · cases ha

/-- The levels go on from the first of them. -/
def Level.Chain (levels : List Level) : Prop :=
  ∀ l rest, levels = l :: rest → rest = l.tighter

theorem Level.chain_all : Level.Chain Level.all := by
  rintro l rest ⟨⟩
  rfl

theorem Level.chain_tighter (l : Level) : Level.Chain l.tighter := by
  rintro l' rest h
  cases l <;> cases h <;> rfl

theorem headStartsType_of_append {rest : List Token} (h : headStartsType (s ++ rest) = false) :
    headStartsType s = false := by
  cases s with
  | nil => rfl
  | cons t s => exact h

theorem opensType_of_append {rest : List Token} (h : opensType (s ++ rest) = false) :
    opensType s = false := by
  cases s with
  | nil => rfl
  | cons t s =>
    rw [List.cons_append, opensType, Bool.and_eq_false_iff] at h
    rw [opensType, Bool.and_eq_false_iff]
    exact h.imp id headStartsType_of_append

mutual

/-- A reader takes tokens that spell what it gives. The induction is that of the readers: on the
tokens, and for the same tokens on how tightly they bind. -/
theorem assignment_derives (s : List Token) :
    (assignment s).Meets fun e rest => Spans .assignment s rest e := by
  rw [assignment]
  refine .andThen (conditional_derives s) fun left rest hlength hleft => ?_
  have hdone : Spans .assignment s rest left := hleft.tighter rfl
  cases rest with
  | nil => exact .done hdone
  | cons t rest =>
    dsimp only
    split
    · next op hop =>
      refine .relax (.after (.map ((assignment_derives rest).imp ?_)))
      rintro right rest' ⟨used', rfl, hright⟩
      obtain ⟨used, rfl, hleft⟩ := hleft
      exact ⟨used ++ t :: used', by simp, .assign hleft (isAt_of_find? hop) hright⟩
    · exact .done hdone
termination_by 20 * s.length + 11
decreasing_by
  · omega
  · simp at hlength; omega

theorem conditional_derives (s : List Token) :
    (conditional s).Meets fun e rest => Spans .conditional s rest e := by
  rw [conditional]
  refine .andThen (binary_derives Level.chain_all s) fun condition rest hlength hcondition => ?_
  have hdone : Spans .conditional s rest condition := hcondition.tighter rfl
  cases rest with
  | nil => exact .done hdone
  | cons t rest =>
    dsimp only
    split
    · next hat =>
      refine .relax (.after (.andThen (assignment_derives rest) ?_))
      intro whenTrue rest₁ hlength₁ htrue
      refine .andThen (punct_spans ":" rest₁) fun _ rest₂ hlength₂ hcolon => ?_
      obtain ⟨colon, rfl, hcolon⟩ := hcolon
      refine .map ((conditional_derives rest₂).imp ?_)
      rintro whenFalse rest₃ ⟨used₃, rfl, hfalse⟩
      obtain ⟨used₂, rfl, htrue⟩ := htrue
      obtain ⟨used₁, rfl, hcondition⟩ := hcondition
      exact ⟨used₁ ++ t :: (used₂ ++ colon :: used₃), by simp,
        .conditional hcondition hat htrue hcolon hfalse⟩
    · exact .done hdone
termination_by 20 * s.length + 10
decreasing_by
  · simp [Level.all]
  · simp at hlength; omega
  · simp at hlength hlength₁ hlength₂; omega

theorem binary_derives {levels : List Level} (hchain : Level.Chain levels) (s : List Token) :
    (binary levels s).Meets fun e rest => Spans (.ofLevels levels) s rest e := by
  match levels, hchain with
  | [], _ =>
    rw [binary]
    exact unary_derives s
  | level :: tighter, hchain =>
    have htighter : tighter = level.tighter := hchain level tighter rfl
    have hrest : Level.Chain tighter := htighter ▸ Level.chain_tighter level
    rw [binary]
    refine .andThen (binary_derives hrest s) fun left rest hlength hleft => ?_
    rw [htighter] at hleft ⊢
    exact operations_derives level (hleft.tighter rfl)
termination_by 20 * s.length + levels.length + 3
decreasing_by
  · simp
  · simp
  · simp [htighter] at hlength ⊢; omega

theorem operations_derives (level : Level) {s₀ s : List Token} {left : Expr}
    (hleft : Spans (.level level) s₀ s left) :
    (operations level level.tighter left s).Meets fun e rest => Spans (.level level) s₀ rest e := by
  match s with
  | [] =>
    rw [operations]
    exact .done hleft
  | t :: s =>
    rw [operations]
    split
    · next make hmake =>
      refine .relax (.after (.andThen (binary_derives (Level.chain_tighter level) s) ?_))
      intro right rest hlength hright
      exact operations_derives level (.operation hmake hleft hright)
    · exact .done hleft
termination_by 20 * s.length + level.tighter.length
decreasing_by
  · simp; omega
  · simp at hlength ⊢; omega

theorem unary_derives (s : List Token) :
    (unary s).Meets fun e rest => Spans .unary s rest e := by
  match s with
  | [] =>
    rw [unary]
    exact .fail _
  | t :: s =>
    rw [unary]
    split
    · next op hop =>
      refine .after (.map ((unary_derives s).imp ?_))
      rintro operand rest ⟨used, rfl, hoperand⟩
      exact ⟨t :: used, rfl, .unary (isAt_of_find? hop) hoperand⟩
    · split
      · next hsize =>
        split
        · next hopens =>
          refine .after (.map ((typeInParens_spans hopens).imp ?_))
          rintro type rest ⟨opener, closer, mid, rfl, hopener, ⟨used, rfl, htype⟩, hcloser⟩
          exact ⟨t :: opener :: (used ++ [closer]), by simp,
            .sizeOfType hsize hopener htype hcloser⟩
        · next hopens =>
          refine .after (.map ((unary_derives s).imp ?_))
          rintro operand rest ⟨used, rfl, hoperand⟩
          -- what is measured does not begin like a type in parentheses
          refine ⟨t :: used, rfl, .sizeOf hsize hoperand ?_⟩
          exact opensType_of_append (Bool.not_eq_true _ ▸ hopens)
      · split
        · next hopens =>
          refine .andThen (typeInParens_spans hopens) fun type rest hlength htype => ?_
          refine .map ((unary_derives rest).imp ?_)
          rintro operand rest' ⟨used', rfl, hoperand⟩
          obtain ⟨opener, closer, mid, hs, hopener, ⟨used, rfl, htype⟩, hcloser⟩ := htype
          obtain ⟨rfl, rfl⟩ := List.cons.inj hs
          exact ⟨t :: (used ++ closer :: used'), by simp, .cast hopener htype hcloser hoperand⟩
        · next hopens =>
          refine .andThen (primary_derives (Bool.not_eq_true _ ▸ hopens)) fun e rest _ he => ?_
          exact (selections_derives (he.tighter rfl)).imp fun _ _ h => h.tighter rfl
termination_by 20 * s.length + 2
decreasing_by
  · simp
  · simp
  · simp at hlength ⊢; omega
  · simp

theorem primary_derives {s : List Token} (hopens : opensType s = false) :
    (primary s).Meets fun e rest => Spans .primary s rest e := by
  match s, hopens with
  | [], _ =>
    rw [primary]
    exact .fail _
  | t :: s, hopens =>
    unfold primary
    split
    · next hliteral => exact .after (.done ⟨[t], rfl, .literal hliteral⟩)
    · split
      · next hname =>
        match s with
        | [] => exact .after (.done ⟨[t], rfl, .name hname⟩)
        | u :: s =>
          dsimp only
          split
          · next hat =>
            refine .after (.after (.andThen (arguments_derives s) fun args rest _ hargs => .map ?_))
            refine (punct_spans ")" rest).imp ?_
            rintro _ rest' ⟨closer, rfl, hcloser⟩
            obtain ⟨arguments, rfl, harguments, used, rfl, hjoined⟩ := hargs
            exact ⟨t :: u :: (used ++ [closer]), by simp,
              .call hname hat harguments hjoined hcloser⟩
          · split
            · next hat =>
              refine .after (.after (.andThen (assignment_derives s) fun e rest _ he => .map ?_))
              refine (punct_spans "]" rest).imp ?_
              rintro _ rest' ⟨closer, rfl, hcloser⟩
              obtain ⟨used, rfl, he⟩ := he
              exact ⟨t :: u :: (used ++ [closer]), by simp, .index hname hat he hcloser⟩
            · exact .after (.done ⟨[t], rfl, .name hname⟩)
      · split
        · next hat =>
          refine .after (.andThen (assignment_derives s) fun e rest _ he => .map ?_)
          refine (punct_spans ")" rest).imp ?_
          rintro _ rest' ⟨closer, rfl, hcloser⟩
          obtain ⟨used, rfl, he⟩ := he
          refine ⟨t :: (used ++ [closer]), by simp, .parens hat ?_ he hcloser⟩
          -- no type begins behind the parenthesis, or a cast would have been read
          rw [opensType, hat, Bool.true_and] at hopens
          exact headStartsType_of_append hopens
        · exact .fail _
termination_by 20 * s.length + 1
decreasing_by
  · simp; omega
  · simp; omega
  · simp; omega

theorem arguments_derives (s : List Token) :
    (arguments s).Meets fun es rest => SpansAll s rest es := by
  rw [arguments]
  split
  · refine .done ⟨[], rfl, ?_, [], rfl, .nil⟩
    intro argument h
    cases h
  · refine .relax (.andThen (assignment_derives s) fun first rest hlength hfirst => .map ?_)
    exact moreArguments_derives hfirst
termination_by 20 * s.length + 12
decreasing_by
  · omega
  · simp at hlength; omega

theorem moreArguments_derives {s₀ s : List Token} {first : Expr}
    (hfirst : Spans .assignment s₀ s first) :
    (moreArguments s).Meets fun es rest => SpansAll s₀ rest (first :: es) := by
  match s with
  | [] =>
    rw [moreArguments]
    exact .done (.one hfirst)
  | t :: s =>
    rw [moreArguments]
    split
    · next hat =>
      refine .relax (.after (.andThen (assignment_derives s) ?_))
      intro next rest hlength hnext
      exact .map ((moreArguments_derives hnext).imp fun more rest' h => .cons hfirst hat h)
    · exact .done (.one hfirst)
termination_by 20 * s.length
decreasing_by
  · simp; omega
  · simp at hlength ⊢; omega

end

end Grammar

end Stepwise
