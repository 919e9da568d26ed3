/-
What stands behind the token at which the parser stops.

A reader stops at the first token that it cannot use: what stands behind that token
plays no part in where it stops and in what it reports (`Parse.Agrees`). Most readers
decide by the next token. An opening parenthesis is looked behind to tell a conversion
from an expression, and so is `void` in front of a closing one, and the name of a
struct; but in each of these cases the token itself is consumed whatever stands behind
it, so the reader does not stop at it (`Parse.LeavesUnder`). Only a function is told from a
declaration by a look ahead over all tokens.
-/
import Stepwise.Proofs.Operands
import Stepwise.Proofs.Stopping

set_option autoImplicit false

namespace Stepwise

namespace Grammar

variable {r r' s s' : List Token}

/-! ## Tokens with another end -/

/-- The first list ends in the tokens `r`, and the second is the same up to there and ends in `r'`. -/
def Swaps (r r' s s' : List Token) : Prop :=
  ∃ w, s = w ++ r ∧ s' = w ++ r'

namespace Swaps

theorem head? (hhead : r'.head? = r.head?) (h : Swaps r r' s s') : s'.head? = s.head? := by
  obtain ⟨w, rfl, rfl⟩ := h
  cases w with
  | nil => exact hhead
  | cons t w => rfl

theorem nil (hhead : r'.head? = r.head?) (h : Swaps r r' [] s') : s' = [] :=
  List.head?_eq_none_iff.1 (h.head? hhead)

theorem cons {t : Token} (hhead : r'.head? = r.head?) (h : Swaps r r' (t :: s) s') :
    ∃ u, s' = t :: u :=
  List.head?_eq_some_iff.1 (h.head? hhead)

/-- Behind the first token they are swapped as well, unless the other end begins with it. -/
theorem tail {t : Token} (h : Swaps r r' (t :: s) (t :: s')) : t :: s = r ∨ Swaps r r' s s' := by
  obtain ⟨w, hs, hs'⟩ := h
  cases w with
  | nil => exact Or.inl hs
  | cons u w => exact Or.inr ⟨w, (List.cons.inj hs).2, (List.cons.inj hs').2⟩

end Swaps

/-! ## Readers that stop at the same token -/

section Agrees

variable {α β : Type} {strict : Bool}

/-- Where the reader stops, fewer than so many tokens are left. -/
structure Parse.LeavesUnder (n : Nat) (p : Parse strict s α) : Prop where
  reads : ∀ q, p = .ok q → q.rest.length < n
  stops : ∀ f, p = .error f → f.rest.length < n

namespace Parse.LeavesUnder

variable {n : Nat}

theorem of_lt (h : s.length < n) (p : Parse strict s α) : p.LeavesUnder n :=
  ⟨fun q _ => Nat.lt_of_le_of_lt q.suffix.length_le h,
    fun f _ => Nat.lt_of_le_of_lt f.suffix.length_le h⟩

theorem after {p : Parse strict s α} (h : p.LeavesUnder n) (t : Token) :
    (p.after t).LeavesUnder n := by
  constructor
  · intro q hq
    cases p with
    | error e => cases hq
    | ok r =>
      obtain rfl := Except.ok.inj hq
      exact h.reads r rfl
  · intro f hf
    cases p with
    | ok r => cases hf
    | error e =>
      obtain rfl := Except.error.inj hf
      exact h.stops e rfl

/-- Behind a token there are fewer than with it. -/
theorem behind {t : Token} (p : Parse strict s α) : (p.after t).LeavesUnder (t :: s).length :=
  (of_lt (Nat.lt_succ_self _) p).after t

theorem map {p : Parse strict s α} (h : p.LeavesUnder n) (g : α → β) : (p.map g).LeavesUnder n := by
  constructor
  · intro q hq
    cases p with
    | error e => cases hq
    | ok r =>
      obtain rfl := Except.ok.inj hq
      exact h.reads r rfl
  · intro f hf
    cases p with
    | ok r => cases hf
    | error e =>
      obtain rfl := Except.error.inj hf
      exact h.stops e rfl

theorem relax {p : Parse strict s α} (h : p.LeavesUnder n) : p.relax.LeavesUnder n := by
  constructor
  · intro q hq
    cases p with
    | error e => cases hq
    | ok r =>
      obtain rfl := Except.ok.inj hq
      exact h.reads r rfl
  · intro f hf
    cases p with
    | ok r => cases hf
    | error e =>
      obtain rfl := Except.error.inj hf
      exact h.stops e rfl

theorem andThen {a b : Bool} {p : Parse a s α}
    {next : (value : α) → (rest : List Token) → rest.length + a.toNat ≤ s.length → Parse b rest β}
    (h : p.LeavesUnder n) : (p.andThen next).LeavesUnder n := by
  -- reading: the first reader agrees on what it reads, the second on what that leaves
  constructor
  · intro q hq
    cases p with
    | error e => cases hq
    | ok r =>
      unfold Parse.andThen at hq
      dsimp only at hq
      split at hq
      · cases hq
      · next q' hq' =>
        obtain rfl := Except.ok.inj hq
        exact Nat.lt_of_le_of_lt q'.suffix.length_le (h.reads r rfl)
  · intro f hf
    cases p with
    | error e =>
      obtain rfl := Except.error.inj hf
      exact h.stops e rfl
    | ok r =>
      unfold Parse.andThen at hf
      dsimp only at hf
      split at hf
      · next e he =>
        obtain rfl := Except.error.inj hf
        exact Nat.lt_of_le_of_lt e.suffix.length_le (h.reads r rfl)
      · cases hf

end Parse.LeavesUnder

/-- As long as the first reader does not stop behind the beginning of `r`, the second stops at the
same place, with the same value or the same problem. -/
structure Parse.Agrees (r r' : List Token) (p : Parse strict s α) (p' : Parse strict s' α) : Prop where
  reads : ∀ q, p = .ok q → r <:+ q.rest →
    ∃ q', p' = .ok q' ∧ q'.value = q.value ∧ Swaps r r' q.rest q'.rest
  stops : ∀ f, p = .error f → r <:+ f.rest →
    ∃ f', p' = .error f' ∧ f'.problem = f.problem ∧ Swaps r r' f.rest f'.rest

namespace Parse.Agrees

theorem done (h : Swaps r r' s s') (value : α) :
    Agrees r r' (Parse.done value : Parse false s α) (Parse.done value : Parse false s' α) := by
  constructor
  · intro q hq _
    obtain rfl := Except.ok.inj hq
    exact ⟨_, rfl, rfl, h⟩
  · intro f hf
    cases hf

theorem fail (h : Swaps r r' s s') (problem : Problem) :
    Agrees r r' (Parse.fail problem : Parse strict s α) (Parse.fail problem : Parse strict s' α) := by
  constructor
  · intro q hq
    cases hq
  · intro f hf _
    obtain rfl := Except.error.inj hf
    exact ⟨_, rfl, rfl, h⟩

theorem map {p : Parse strict s α} {p' : Parse strict s' α} (h : Agrees r r' p p') (g : α → β) :
    Agrees r r' (p.map g) (p'.map g) := by
  constructor
  · intro q hq hr
    cases p with
    | error e => cases hq
    | ok q₀ =>
      obtain rfl := Except.ok.inj hq
      obtain ⟨q', rfl, hvalue, hrest⟩ := h.reads q₀ rfl hr
      exact ⟨_, rfl, congrArg g hvalue, hrest⟩
  · intro f hf hr
    cases p with
    | ok q₀ => cases hf
    | error e =>
      obtain rfl := Except.error.inj hf
      obtain ⟨f', rfl, hproblem, hrest⟩ := h.stops e rfl hr
      exact ⟨_, rfl, hproblem, hrest⟩

theorem relax {p : Parse strict s α} {p' : Parse strict s' α} (h : Agrees r r' p p') :
    Agrees r r' p.relax p'.relax := by
  constructor
  · intro q hq hr
    cases p with
    | error e => cases hq
    | ok q₀ =>
      obtain rfl := Except.ok.inj hq
      obtain ⟨q', rfl, hvalue, hrest⟩ := h.reads q₀ rfl hr
      exact ⟨_, rfl, hvalue, hrest⟩
  · intro f hf hr
    cases p with
    | ok q₀ => cases hf
    | error e =>
      obtain rfl := Except.error.inj hf
      obtain ⟨f', rfl, hproblem, hrest⟩ := h.stops e rfl hr
      exact ⟨_, rfl, hproblem, hrest⟩

/-- Nothing has to be shown of a reader that goes on behind the beginning of `r`. -/
theorem of_leavesUnder {p : Parse strict s α} {p' : Parse strict s' α}
    (h : p.LeavesUnder r.length) : Agrees r r' p p' := by
  constructor
  · intro q hq hsuffix
    exact absurd (h.reads q hq) (Nat.not_lt.2 hsuffix.length_le)
  · intro f hf hsuffix
    exact absurd (h.stops f hf) (Nat.not_lt.2 hsuffix.length_le)

theorem after {t : Token} {p : Parse strict s α} {p' : Parse strict s' α}
    (hswaps : Swaps r r' (t :: s) (t :: s')) (h : Swaps r r' s s' → Agrees r r' p p') :
    Agrees r r' (p.after t) (p'.after t) := by
  rcases hswaps.tail with rfl | htail
  · exact .of_leavesUnder (.behind p)
  constructor
  · intro q hq hr
    cases p with
    | error e => cases hq
    | ok q₀ =>
      obtain rfl := Except.ok.inj hq
      obtain ⟨q', rfl, hvalue, hrest⟩ := (h htail).reads q₀ rfl hr
      exact ⟨_, rfl, hvalue, hrest⟩
  · intro f hf hr
    cases p with
    | ok q₀ => cases hf
    | error e =>
      obtain rfl := Except.error.inj hf
      obtain ⟨f', rfl, hproblem, hrest⟩ := (h htail).stops e rfl hr
      exact ⟨_, rfl, hproblem, hrest⟩

theorem andThen {a b : Bool} {p : Parse a s α} {p' : Parse a s' α}
    {next : (value : α) → (rest : List Token) → rest.length + a.toNat ≤ s.length → Parse b rest β}
    {next' : (value : α) → (rest : List Token) → rest.length + a.toNat ≤ s'.length → Parse b rest β}
    (h : Agrees r r' p p')
    (hnext : ∀ value rest rest' hlength hlength', Swaps r r' rest rest' →
      Agrees r r' (next value rest hlength) (next' value rest' hlength')) :
    Agrees r r' (p.andThen next) (p'.andThen next') := by
  constructor
  · intro q hq hr
    cases p with
    | error e => cases hq
    | ok q₀ =>
      unfold Parse.andThen at hq
      dsimp only at hq
      split at hq
      · cases hq
      · next q₁ hq₁ =>
        obtain rfl := Except.ok.inj hq
        obtain ⟨⟨value, rest, hsuffix, hbound⟩, rfl, rfl, hrest⟩ :=
          h.reads q₀ rfl (hr.trans q₁.suffix)
        obtain ⟨q₂, hq₂, hvalue, hrest₂⟩ := (hnext _ _ _ q₀.bound hbound hrest).reads q₁ hq₁ hr
        unfold Parse.andThen
        dsimp only
        rw [hq₂]
        exact ⟨_, rfl, hvalue, hrest₂⟩
  -- stopping: in the first reader, or in the second behind what the first has read
  · intro f hf hr
    cases p with
    | error e =>
      obtain rfl := Except.error.inj hf
      obtain ⟨f', rfl, hproblem, hrest⟩ := h.stops e rfl hr
      exact ⟨_, rfl, hproblem, hrest⟩
    | ok q₀ =>
      unfold Parse.andThen at hf
      dsimp only at hf
      split at hf
      · next e he =>
        obtain rfl := Except.error.inj hf
        obtain ⟨⟨value, rest, hsuffix, hbound⟩, rfl, rfl, hrest⟩ :=
          h.reads q₀ rfl (hr.trans e.suffix)
        obtain ⟨e', he', hproblem, hrest'⟩ := (hnext _ _ _ q₀.bound hbound hrest).stops e he hr
        unfold Parse.andThen
        dsimp only
        rw [he']
        exact ⟨_, rfl, hproblem, hrest'⟩
      · cases hf

end Parse.Agrees

end Agrees

open Parse (Agrees)

/-! ## Types -/

theorem headStartsType_eq (s : List Token) : headStartsType s = s.head?.any startsType := by
  cases s <;> rfl

theorem headIs_eq (text : String) (s : List Token) : headIs text s = s.head?.any (isAt text) := by
  cases s <;> rfl

theorem typeWords_leavesUnder (h : headStartsType s = true) :
    (typeWords s).LeavesUnder s.length := by
  cases s with
  | nil => cases h
  | cons t s =>
    rw [headStartsType] at h
    unfold typeWords
    rw [if_pos h]
    split
    · split
      · exact .relax (.behind _)
      · split
        · exact .relax (.behind _)
        · exact .relax (.behind _)
    · split
      · exact .relax (.behind _)
      · exact .relax (.behind _)

theorem typeName_leavesUnder (h : headStartsType s = true) :
    (typeName s).LeavesUnder s.length := by
  unfold typeName
  rw [if_pos h]
  exact .map (typeWords_leavesUnder h) _

theorem typeInParens_leavesUnder {t : Token} :
    (typeInParens (t :: s)).LeavesUnder (t :: s).length :=
  .behind _

section Head

variable (hhead : r'.head? = r.head?)

include hhead

theorem expectOr_agrees (problem : Problem) (kind : Token.Kind) (text : Option String)
    (h : Swaps r r' s s') :
    Agrees r r' (expectOr problem kind text s) (expectOr problem kind text s') := by
  cases s with
  | nil =>
    obtain rfl := h.nil hhead
    exact .fail h problem
  | cons t s =>
    obtain ⟨u, rfl⟩ := h.cons hhead
    unfold expectOr
    dsimp only
    split
    · exact .after h fun htail => .done htail t
    · exact .fail h problem

theorem punct_agrees (text : String) (h : Swaps r r' s s') :
    Agrees r r' (punct text s) (punct text s') :=
  expectOr_agrees hhead _ _ _ h

theorem typeWords_agrees (s : List Token) {s' : List Token} (h : Swaps r r' s s') :
    Agrees r r' (typeWords s) (typeWords s') := by
  cases s with
  | nil =>
    obtain rfl := h.nil hhead
    exact .done h []
  | cons t s =>
    obtain ⟨s', rfl⟩ := h.cons hhead
    by_cases hstarts : startsType t = true
    · rcases h.tail with hr | htail
      · exact .of_leavesUnder (hr ▸ typeWords_leavesUnder hstarts)
      unfold typeWords
      rw [if_pos hstarts, if_pos hstarts]
      split
      · cases s with
        | nil =>
          obtain rfl := htail.nil hhead
          exact .relax (.after h fun htail => .fail htail _)
        | cons tag s =>
          obtain ⟨s', rfl⟩ := htail.cons hhead
          dsimp only
          split
          · exact .relax (.after h fun htail => .after htail fun hrest =>
              .map (typeWords_agrees s hrest) _)
          · exact .relax (.after h fun htail => .fail htail _)
      · split
        · exact .relax (.after h fun htail => .done htail _)
        · exact .relax (.after h fun htail => .map (typeWords_agrees s htail) _)
    · unfold typeWords
      rw [if_neg hstarts, if_neg hstarts]
      exact .done h []

theorem typeName_agrees (h : Swaps r r' s s') : Agrees r r' (typeName s) (typeName s') := by
  have hstarts : headStartsType s' = headStartsType s := by
    rw [headStartsType_eq, headStartsType_eq, h.head? hhead]
  unfold typeName
  rw [hstarts]
  split
  · exact .map (typeWords_agrees hhead s h) _
  · exact .fail h _

theorem stars_agrees (s : List Token) {s' : List Token} (h : Swaps r r' s s') :
    Agrees r r' (stars s) (stars s') := by
  match s with
  | [] =>
    obtain rfl := h.nil hhead
    exact .done h 0
  | t :: s =>
    obtain ⟨u, rfl⟩ := h.cons hhead
    unfold stars
    split
    · exact .relax (.after h fun htail => .map (stars_agrees s htail) _)
    · exact .done h 0

theorem typeInParens_agrees (h : Swaps r r' s s') :
    Agrees r r' (typeInParens s) (typeInParens s') := by
  cases s with
  | nil =>
    obtain rfl := h.nil hhead
    exact .fail h _
  | cons t s =>
    obtain ⟨u, rfl⟩ := h.cons hhead
    refine .after h fun htail => .andThen ?_ fun type rest rest' _ _ hrest => ?_
    · exact .andThen (typeName_agrees hhead htail) fun type rest rest' _ _ hrest =>
        .map (stars_agrees hhead rest hrest) _
    · exact .map (punct_agrees hhead ")" hrest) _

/-! ## Expressions -/

omit hhead in
/-- An opening parenthesis is consumed, whatever stands behind it. -/
theorem unary_leavesUnder {t : Token} (h : isAt "(" t = true) :
    (unary (t :: s)).LeavesUnder (t :: s).length := by
  rw [unary]
  split
  · exact .behind _
  · split
    · split
      · exact .behind _
      · exact .behind _
    · split
      · exact .andThen typeInParens_leavesUnder
      · refine .andThen ?_
        unfold primary
        rw [if_pos h]
        split
        · exact .behind _
        · split
          · split
            · exact .behind _
            · split
              · exact .behind _
              · split
                · exact .behind _
                · exact .behind _
          · exact .behind _

/-- Whether a type in parentheses begins is seen from two tokens. -/
theorem opensType_eq (h : Swaps r r' s s') :
    opensType s' = opensType s ∨ ∃ t u, s = t :: u ∧ s = r ∧ isAt "(" t = true := by
  cases s with
  | nil =>
    obtain rfl := h.nil hhead
    exact Or.inl rfl
  | cons t u =>
    obtain ⟨u', rfl⟩ := h.cons hhead
    rw [opensType, opensType]
    cases hat : isAt "(" t with
    | false => exact Or.inl rfl
    | true =>
      rcases h.tail with hr | htail
      · exact Or.inr ⟨t, u, rfl, hr, hat⟩
      · rw [headStartsType_eq, headStartsType_eq, htail.head? hhead]
        exact Or.inl rfl

theorem selections_agrees (e : Expr) (s : List Token) {s' : List Token} (h : Swaps r r' s s') :
    Agrees r r' (selections e s) (selections e s') := by
  match s with
  | [] =>
    obtain rfl := h.nil hhead
    exact .done h e
  | t :: s =>
    obtain ⟨s', rfl⟩ := h.cons hhead
    unfold selections
    split
    · rcases h.tail with hr | htail
      · refine .of_leavesUnder (hr ▸ ?_)
        split
        · exact .relax (.behind _)
        · split
          · exact .relax (.behind _)
          · exact .relax (.behind _)
      · match s with
        | [] =>
          obtain rfl := htail.nil hhead
          exact .relax (.after h fun htail => .fail htail _)
        | m :: s =>
          obtain ⟨s', rfl⟩ := htail.cons hhead
          dsimp only
          split
          · exact .relax (.after h fun htail => .after htail fun hrest =>
              selections_agrees _ s hrest)
          · exact .relax (.after h fun htail => .fail htail _)
    · split
      · exact .relax (.after h fun htail => selections_agrees _ s htail)
      · exact .done h e

set_option linter.unusedSectionVars false in
mutual

theorem assignment_agrees (s : List Token) {s' : List Token} (h : Swaps r r' s s') :
    Agrees r r' (assignment s) (assignment s') := by
  rw [assignment, assignment]
  refine .andThen (conditional_agrees s h) fun left rest rest' hlength _ hrest => ?_
  match rest with
  | [] =>
    obtain rfl := hrest.nil hhead
    exact .done hrest left
  | t :: rest =>
    obtain ⟨rest', rfl⟩ := hrest.cons hhead
    dsimp only
    split
    · exact .relax (.after hrest fun htail => .map (assignment_agrees rest htail) _)
    · exact .done hrest left
termination_by 20 * s.length + 11
decreasing_by
  · omega
  · simp at hlength; omega

theorem conditional_agrees (s : List Token) {s' : List Token} (h : Swaps r r' s s') :
    Agrees r r' (conditional s) (conditional s') := by
  rw [conditional, conditional]
  refine .andThen (binary_agrees Level.all s h) fun condition rest rest' hlength _ hrest => ?_
  match rest with
  | [] =>
    obtain rfl := hrest.nil hhead
    exact .done hrest condition
  | t :: rest =>
    obtain ⟨rest', rfl⟩ := hrest.cons hhead
    dsimp only
    split
    · refine .relax (.after hrest fun htail => ?_)
      refine .andThen (assignment_agrees rest htail) fun whenTrue rest rest' hlength₁ _ hrest => ?_
      refine .andThen (punct_agrees hhead ":" hrest) fun _ rest rest' hlength₂ _ hrest => ?_
      exact .map (conditional_agrees rest hrest) _
    · exact .done hrest condition
termination_by 20 * s.length + 10
decreasing_by
  · simp [Level.all]
  · simp at hlength; omega
  · simp at hlength hlength₁ hlength₂; omega

theorem binary_agrees (levels : List Level) (s : List Token) {s' : List Token}
    (h : Swaps r r' s s') : Agrees r r' (binary levels s) (binary levels s') := by
  match levels with
  | [] =>
    rw [binary, binary]
    exact unary_agrees s h
  | level :: tighter =>
    rw [binary, binary]
    exact .andThen (binary_agrees tighter s h) fun left rest rest' hlength _ hrest =>
      operations_agrees level tighter left rest hrest
termination_by 20 * s.length + levels.length + 3
decreasing_by
  · simp
  · simp
  · simp at hlength ⊢; omega

theorem operations_agrees (level : Level) (tighter : List Level) (left : Expr) (s : List Token)
    {s' : List Token} (h : Swaps r r' s s') :
    Agrees r r' (operations level tighter left s) (operations level tighter left s') := by
  match s with
  | [] =>
    obtain rfl := h.nil hhead
    rw [operations]
    exact .done h left
  | t :: s =>
    obtain ⟨s', rfl⟩ := h.cons hhead
    rw [operations, operations]
    split
    · exact .relax (.after h fun htail => .andThen (binary_agrees tighter s htail)
        fun right rest rest' hlength _ hrest => operations_agrees level tighter _ rest hrest)
    · exact .done h left
termination_by 20 * s.length + tighter.length
decreasing_by
  · simp; omega
  · simp at hlength ⊢; omega

theorem unary_agrees (s : List Token) {s' : List Token} (h : Swaps r r' s s') :
    Agrees r r' (unary s) (unary s') := by
  match s with
  | [] =>
    obtain rfl := h.nil hhead
    rw [unary]
    exact .fail h _
  | t :: s =>
    obtain ⟨s', rfl⟩ := h.cons hhead
    rcases opensType_eq hhead h with hopens | ⟨_, _, hs, hr, hat⟩
    · rw [unary, unary, hopens]
      split
      · exact .after h fun htail => .map (unary_agrees s htail) _
      · split
        · -- the size of an operand in parentheses, or that of a type
          rcases h.tail with hr | htail
          · refine .of_leavesUnder (hr ▸ ?_)
            split
            · exact .behind _
            · exact .behind _
          · rcases opensType_eq hhead htail with hinner | ⟨u, v, rfl, hr, hat⟩
            · rw [hinner]
              split
              · exact .after h fun htail => .map (typeInParens_agrees hhead htail) _
              · exact .after h fun htail => .map (unary_agrees s htail) _
            · split
              · exact .of_leavesUnder (hr ▸ .after (.map typeInParens_leavesUnder _) t)
              · exact .of_leavesUnder (hr ▸ .after (.map (unary_leavesUnder hat) _) t)
        · split
          · exact .andThen (typeInParens_agrees hhead h) fun type rest rest' hlength _ hrest =>
              .map (unary_agrees rest hrest) _
          · exact .andThen (primary_agrees (t :: s) h) fun e rest rest' _ _ hrest =>
              selections_agrees hhead e rest hrest
    · obtain ⟨rfl, rfl⟩ := List.cons.inj hs
      exact .of_leavesUnder (hr ▸ unary_leavesUnder hat)
termination_by 20 * s.length + 2
decreasing_by
  · simp
  · simp
  · simp at hlength ⊢; omega
  · simp

theorem primary_agrees (s : List Token) {s' : List Token} (h : Swaps r r' s s') :
    Agrees r r' (primary s) (primary s') := by
  match s with
  | [] =>
    obtain rfl := h.nil hhead
    rw [primary]
    exact .fail h _
  | t :: s =>
    obtain ⟨s', rfl⟩ := h.cons hhead
    unfold primary
    split
    · exact .after h fun htail => .done htail _
    · split
      · -- a name looks at the token behind it, and that may be where the lists part
        rcases h.tail with hr | htail
        · refine .of_leavesUnder (hr ▸ ?_)
          split
          · exact .behind _
          · split
            · exact .behind _
            · split
              · exact .behind _
              · exact .behind _
        · rcases hs : s with _ | ⟨u, v⟩
          · rw [hs] at h htail
            obtain rfl := htail.nil hhead
            exact .after h fun htail => .done htail _
          · rw [hs] at h htail
            obtain ⟨v', rfl⟩ := htail.cons hhead
            have hlength : v.length < s.length := by simp [hs]
            dsimp only
            split
            · exact .after h fun htail => .after htail fun hinner =>
                .andThen (arguments_agrees v hinner) fun args rest rest' _ _ hrest =>
                  .map (punct_agrees hhead ")" hrest) _
            · split
              · exact .after h fun htail => .after htail fun hinner =>
                  .andThen (assignment_agrees v hinner) fun position rest rest' _ _ hrest =>
                    .map (punct_agrees hhead "]" hrest) _
              · exact .after h fun htail => .done htail _
      · split
        · exact .after h fun htail => .andThen (assignment_agrees s htail)
            fun e rest rest' _ _ hrest => .map (punct_agrees hhead ")" hrest) _
        · exact .fail h _
termination_by 20 * s.length + 1
decreasing_by
  · simp; omega
  · simp; omega
  · simp; omega

theorem arguments_agrees (s : List Token) {s' : List Token} (h : Swaps r r' s s') :
    Agrees r r' (arguments s) (arguments s') := by
  have hcloses : headIs ")" s' = headIs ")" s := by
    rw [headIs_eq, headIs_eq, h.head? hhead]
  rw [arguments, arguments, hcloses]
  split
  · exact .done h []
  · exact .relax (.andThen (assignment_agrees s h) fun first rest rest' hlength _ hrest =>
      .map (moreArguments_agrees rest hrest) _)
termination_by 20 * s.length + 12
decreasing_by
  · omega
  · simp at hlength; omega

theorem moreArguments_agrees (s : List Token) {s' : List Token} (h : Swaps r r' s s') :
    Agrees r r' (moreArguments s) (moreArguments s') := by
  match s with
  | [] =>
    obtain rfl := h.nil hhead
    rw [moreArguments]
    exact .done h []
  | t :: s =>
    obtain ⟨s', rfl⟩ := h.cons hhead
    rw [moreArguments, moreArguments]
    split
    · exact .relax (.after h fun htail => .andThen (assignment_agrees s htail)
        fun next rest rest' hlength _ hrest => .map (moreArguments_agrees rest hrest) _)
    · exact .done h []
termination_by 20 * s.length
decreasing_by
  · simp; omega
  · simp at hlength ⊢; omega

end

/-! ## Declarations -/

mutual

theorem initializer_agrees (s : List Token) {s' : List Token} (h : Swaps r r' s s') :
    Agrees r r' (initializer s) (initializer s') := by
  match s with
  | [] =>
    obtain rfl := h.nil hhead
    rw [initializer]
    exact .map (assignment_agrees hhead [] h) _
  | t :: s =>
    obtain ⟨s', rfl⟩ := h.cons hhead
    rw [initializer, initializer]
    split
    · refine .andThen (punct_agrees hhead _ h) fun brace rest rest' hlength _ hrest => ?_
      exact .andThen (initializers_agrees rest hrest) fun items rest rest' _ _ hrest =>
        .map (punct_agrees hhead _ hrest) _
    · exact .map (assignment_agrees hhead (t :: s) h) _
termination_by 2 * s.length
decreasing_by simp at hlength ⊢; omega

theorem initializers_agrees (s : List Token) {s' : List Token} (h : Swaps r r' s s') :
    Agrees r r' (initializers s) (initializers s') := by
  have hcloses : headIs "\x7d" s' = headIs "\x7d" s := by
    rw [headIs_eq, headIs_eq, h.head? hhead]
  rw [initializers, initializers, hcloses]
  split
  · exact .done h []
  · refine .relax (.andThen (initializer_agrees s h) fun first rest rest' hlength _ hrest => ?_)
    match rest with
    | [] =>
      obtain rfl := hrest.nil hhead
      exact .done hrest _
    | t :: rest =>
      obtain ⟨rest', rfl⟩ := hrest.cons hhead
      dsimp only
      split
      · exact .relax (.after hrest fun htail => .map (initializers_agrees rest htail) _)
      · exact .done hrest _
termination_by 2 * s.length + 1
decreasing_by
  · omega
  · simp at hlength; omega

end

theorem brackets_agrees (h : Swaps r r' s s') : Agrees r r' (brackets s) (brackets s') := by
  cases s with
  | nil =>
    obtain rfl := h.nil hhead
    exact .done h _
  | cons t s =>
    obtain ⟨s', rfl⟩ := h.cons hhead
    rw [brackets, brackets]
    split
    · refine .relax ?_
      rcases h.tail with hr | htail
      · refine .of_leavesUnder (hr ▸ ?_)
        split
        · exact .behind _
        · exact .behind _
      · have hcloses : headIs "]" s' = headIs "]" s := by
          rw [headIs_eq, headIs_eq, htail.head? hhead]
        rw [hcloses]
        split
        · exact .after h fun htail => .map (punct_agrees hhead "]" htail) _
        · exact .after h fun htail => .andThen (assignment_agrees hhead s htail)
            fun size rest rest' _ _ hrest => .map (punct_agrees hhead "]" hrest) _
    · exact .done h _

theorem initialization_agrees (h : Swaps r r' s s') :
    Agrees r r' (initialization s) (initialization s') := by
  cases s with
  | nil =>
    obtain rfl := h.nil hhead
    exact .done h _
  | cons t s =>
    obtain ⟨s', rfl⟩ := h.cons hhead
    rw [initialization, initialization]
    split
    · exact .relax (.after h fun htail => .map (initializer_agrees hhead s htail) _)
    · exact .done h _

theorem variableDecl_agrees (h : Swaps r r' s s') :
    Agrees r r' (variableDecl s) (variableDecl s') := by
  refine .andThen (stars_agrees hhead s h) fun depth rest rest' _ _ hrest => ?_
  refine .andThen (expectOr_agrees hhead _ _ _ hrest) fun name rest rest' _ _ hrest => ?_
  exact .andThen (brackets_agrees hhead hrest) fun brackets rest rest' _ _ hrest =>
    .map (initialization_agrees hhead hrest) _

theorem variableDecls_agrees (s : List Token) {s' : List Token} (h : Swaps r r' s s') :
    Agrees r r' (variableDecls s) (variableDecls s') := by
  rw [variableDecls, variableDecls]
  refine .andThen (variableDecl_agrees hhead h) fun first rest rest' hlength _ hrest => ?_
  match rest with
  | [] =>
    obtain rfl := hrest.nil hhead
    exact .done hrest _
  | t :: rest =>
    obtain ⟨rest', rfl⟩ := hrest.cons hhead
    dsimp only
    split
    · exact .relax (.after hrest fun htail => .map (variableDecls_agrees rest htail) _)
    · exact .done hrest _
termination_by s.length
decreasing_by simp at hlength; omega

theorem declaration_agrees (line : Nat) (h : Swaps r r' s s') :
    Agrees r r' (declaration line s) (declaration line s') :=
  .andThen (typeName_agrees hhead h) fun _ rest _ _ _ hrest =>
    .map (variableDecls_agrees hhead rest hrest) _

/-! ## Statements -/

theorem tokensOnLine_agrees (line : Nat) (s : List Token) {s' : List Token} (h : Swaps r r' s s') :
    Agrees r r' (tokensOnLine line s) (tokensOnLine line s') := by
  match s with
  | [] =>
    obtain rfl := h.nil hhead
    exact .done h []
  | t :: s =>
    obtain ⟨s', rfl⟩ := h.cons hhead
    unfold tokensOnLine
    split
    · exact .relax (.after h fun htail => .map (tokensOnLine_agrees line s htail) _)
    · exact .done h []

theorem directive_agrees (h : Swaps r r' s s') : Agrees r r' (directive s) (directive s') :=
  .andThen (expectOr_agrees hhead _ _ _ h) fun t rest _ _ _ hrest =>
    .map (tokensOnLine_agrees hhead t.line rest hrest) _

theorem optionalExpr_agrees (closing : String) (h : Swaps r r' s s') :
    Agrees r r' (optionalExpr closing s) (optionalExpr closing s') := by
  have hcloses : headIs closing s' = headIs closing s := by
    rw [headIs_eq, headIs_eq, h.head? hhead]
  unfold optionalExpr
  rw [hcloses]
  split
  · exact .done h _
  · exact .relax (.map (assignment_agrees hhead s h) _)

theorem exprInParens_agrees (h : Swaps r r' s s') :
    Agrees r r' (exprInParens s) (exprInParens s') :=
  .andThen (punct_agrees hhead "(" h) fun _ _ _ _ _ hrest =>
    .andThen (assignment_agrees hhead _ hrest) fun _ _ _ _ _ hrest =>
      .map (punct_agrees hhead ")" hrest) _

theorem forInit_agrees (line : Nat) (h : Swaps r r' s s') :
    Agrees r r' (forInit line s) (forInit line s') := by
  have hcloses : headIs ";" s' = headIs ";" s := by
    rw [headIs_eq, headIs_eq, h.head? hhead]
  have hstarts : headStartsType s' = headStartsType s := by
    rw [headStartsType_eq, headStartsType_eq, h.head? hhead]
  unfold forInit
  rw [hcloses, hstarts]
  split
  · exact .done h _
  · split
    · exact .relax (.map (declaration_agrees hhead line h) _)
    · exact .relax (.map (assignment_agrees hhead s h) _)

theorem forClauses_agrees (line : Nat) (h : Swaps r r' s s') :
    Agrees r r' (forClauses line s) (forClauses line s') := by
  refine .andThen (punct_agrees hhead "(" h) fun _ rest rest' _ _ hrest => ?_
  refine .andThen (forInit_agrees hhead line hrest) fun init rest rest' _ _ hrest => ?_
  refine .andThen (punct_agrees hhead ";" hrest) fun _ rest rest' _ _ hrest => ?_
  refine .andThen (optionalExpr_agrees hhead ";" hrest) fun condition rest rest' _ _ hrest => ?_
  refine .andThen (punct_agrees hhead ";" hrest) fun _ rest rest' _ _ hrest => ?_
  refine .andThen (optionalExpr_agrees hhead ")" hrest) fun update rest rest' _ _ hrest => ?_
  exact .map (punct_agrees hhead ")" hrest) _

theorem doCondition_agrees (h : Swaps r r' s s') :
    Agrees r r' (doCondition s) (doCondition s') :=
  .andThen (expectOr_agrees hhead _ _ _ h) fun _ _ _ _ _ hrest =>
    .andThen (exprInParens_agrees hhead hrest) fun _ _ _ _ _ hrest =>
      .map (punct_agrees hhead ";" hrest) _

theorem declStmt_agrees (line : Nat) (h : Swaps r r' s s') :
    Agrees r r' (declStmt line s) (declStmt line s') :=
  .andThen (declaration_agrees hhead line h) fun _ _ _ _ _ hrest =>
    .map (punct_agrees hhead ";" hrest) _

theorem exprStmt_agrees (line : Nat) (h : Swaps r r' s s') :
    Agrees r r' (exprStmt line s) (exprStmt line s') :=
  .andThen (assignment_agrees hhead s h) fun _ _ _ _ _ hrest =>
    .map (punct_agrees hhead ";" hrest) _

mutual

theorem statement_agrees (s : List Token) {s' : List Token} (h : Swaps r r' s s') :
    Agrees r r' (statement s) (statement s') := by
  match s with
  | [] =>
    obtain rfl := h.nil hhead
    rw [statement]
    exact .fail h _
  | t :: s =>
    obtain ⟨s', rfl⟩ := h.cons hhead
    unfold statement
    split
    · exact .map (directive_agrees hhead h) _
    · split
      · exact .map (block_agrees (t :: s) h) _
      · split
        · exact .after h fun htail => .done htail _
        · split
          · -- a choice may have a second branch, so it looks at the token behind the first
            refine .after h fun htail => ?_
            refine .andThen (exprInParens_agrees hhead htail)
              fun condition rest rest' hlength _ hrest => ?_
            refine .andThen (statement_agrees rest hrest)
              fun whenTrue rest rest' hlength' _ hrest => ?_
            match rest with
            | [] =>
              obtain rfl := hrest.nil hhead
              exact .done hrest _
            | u :: rest =>
              obtain ⟨rest', rfl⟩ := hrest.cons hhead
              dsimp only
              split
              · exact .relax (.after hrest fun htail => .map (statement_agrees rest htail) _)
              · exact .done hrest _
          · exact .after h fun htail => .andThen (forClauses_agrees hhead t.line htail)
              fun clauses rest rest' hlength _ hrest => .map (statement_agrees rest hrest) _
          · exact .after h fun htail => .andThen (exprInParens_agrees hhead htail)
              fun condition rest rest' hlength _ hrest => .map (statement_agrees rest hrest) _
          · exact .after h fun htail => .andThen (statement_agrees s htail)
              fun body rest rest' _ _ hrest => .map (doCondition_agrees hhead hrest) _
          · exact .after h fun htail => .andThen (exprInParens_agrees hhead htail)
              fun subject rest rest' hlength _ hrest => .map (statement_agrees rest hrest) _
          · exact .after h fun htail => .andThen (optionalExpr_agrees hhead ";" htail)
              fun value rest rest' _ _ hrest => .map (punct_agrees hhead ";" hrest) _
          · exact .after h fun htail => .andThen (conditional_agrees hhead s htail)
              fun label rest rest' _ _ hrest => .map (punct_agrees hhead ":" hrest) _
          · exact .after h fun htail => .map (punct_agrees hhead ":" htail) _
          · exact .after h fun htail => .map (punct_agrees hhead ";" htail) _
          · exact .after h fun htail => .map (punct_agrees hhead ";" htail) _
          · split
            · exact declStmt_agrees hhead t.line h
            · exact exprStmt_agrees hhead t.line h
termination_by 3 * s.length + 1
decreasing_by
  · simp at hlength ⊢; omega
  · simp at hlength hlength' ⊢; omega
  · simp at hlength ⊢; omega
  · simp at hlength ⊢; omega
  · simp
  · simp at hlength ⊢; omega
  · omega

theorem block_agrees (s : List Token) {s' : List Token} (h : Swaps r r' s s') :
    Agrees r r' (block s) (block s') := by
  rw [block, block]
  refine .andThen (punct_agrees hhead _ h) fun brace rest rest' hlength _ hrest => ?_
  exact .andThen (statements_agrees rest hrest) fun body rest rest' _ _ hrest =>
    .map (punct_agrees hhead _ hrest) _
termination_by 3 * s.length
decreasing_by simp at hlength; omega

theorem statements_agrees (s : List Token) {s' : List Token} (h : Swaps r r' s s') :
    Agrees r r' (statements s) (statements s') := by
  match s with
  | [] =>
    obtain rfl := h.nil hhead
    rw [statements]
    exact .fail h _
  | t :: s =>
    obtain ⟨s', rfl⟩ := h.cons hhead
    rw [statements, statements]
    split
    · exact .done h []
    · exact .relax (.andThen (statement_agrees (t :: s) h)
        fun first rest rest' hlength _ hrest => .map (statements_agrees rest hrest) _)
termination_by 3 * s.length + 2
decreasing_by
  · omega
  · simp at hlength ⊢; omega

end

/-! ## Programs -/

theorem skipToBracket_agrees (s : List Token) {s' : List Token} (h : Swaps r r' s s') :
    Agrees r r' (skipToBracket s) (skipToBracket s') := by
  match s with
  | [] =>
    obtain rfl := h.nil hhead
    exact .fail h _
  | t :: s =>
    obtain ⟨s', rfl⟩ := h.cons hhead
    unfold skipToBracket
    split
    · exact .done h _
    · exact .relax (.after h fun htail => skipToBracket_agrees s htail)

theorem parameterBrackets_agrees (h : Swaps r r' s s') :
    Agrees r r' (parameterBrackets s) (parameterBrackets s') := by
  cases s with
  | nil =>
    obtain rfl := h.nil hhead
    exact .done h _
  | cons t s =>
    obtain ⟨s', rfl⟩ := h.cons hhead
    rw [parameterBrackets, parameterBrackets]
    split
    · exact .relax (.after h fun htail => .andThen (skipToBracket_agrees hhead s htail)
        fun _ rest rest' _ _ hrest => .map (punct_agrees hhead "]" hrest) _)
    · exact .done h _

theorem parameterName_agrees (h : Swaps r r' s s') :
    Agrees r r' (parameterName s) (parameterName s') := by
  cases s with
  | nil =>
    obtain rfl := h.nil hhead
    exact .done h _
  | cons t s =>
    obtain ⟨s', rfl⟩ := h.cons hhead
    rw [parameterName, parameterName]
    split
    · exact .relax (.after h fun htail => .done htail _)
    · exact .done h _

theorem parameter_agrees (h : Swaps r r' s s') : Agrees r r' (parameter s) (parameter s') := by
  cases s with
  | nil =>
    obtain rfl := h.nil hhead
    exact .fail h _
  | cons t s =>
    obtain ⟨s', rfl⟩ := h.cons hhead
    rw [parameter, parameter]
    split
    · exact .relax (.after h fun htail => .done htail _)
    · refine .andThen (typeName_agrees hhead h) fun type rest rest' _ _ hrest => ?_
      refine .andThen (stars_agrees hhead rest hrest) fun depth rest rest' _ _ hrest => ?_
      refine .andThen (parameterName_agrees hhead hrest) fun name rest rest' _ _ hrest => ?_
      exact .map (parameterBrackets_agrees hhead hrest) _

theorem parameters_agrees (s : List Token) {s' : List Token} (h : Swaps r r' s s') :
    Agrees r r' (parameters s) (parameters s') := by
  rw [parameters, parameters]
  refine .andThen (parameter_agrees hhead h) fun first rest rest' hlength _ hrest => ?_
  cases rest with
  | nil =>
    obtain rfl := hrest.nil hhead
    exact .done hrest _
  | cons t rest =>
    obtain ⟨rest', rfl⟩ := hrest.cons hhead
    dsimp only
    split
    · exact .relax (.after hrest fun htail => .map (parameters_agrees rest htail) _)
    · exact .done hrest _
termination_by s.length
decreasing_by simp only [List.length_cons, Bool.toNat_false] at hlength; omega

end Head

/-! ## Look ahead -/

/-- The same is seen in both lists by looking ahead: their first tokens, whether they are an empty
list of parameters written out, and whether they bring a function's body. -/
structure SeenAlike (r r' : List Token) : Prop where
  head : r'.head? = r.head?
  voids : isVoidList r' = isVoidList r
  bodies : ∀ depth, hasBody depth r' = hasBody depth r

section Seen

variable (hseen : SeenAlike r r')

include hseen

theorem isVoidList_eq (h : Swaps r r' s s') : isVoidList s' = isVoidList s := by
  obtain ⟨w, rfl, rfl⟩ := h
  cases w with
  | nil => exact hseen.voids
  | cons t w =>
    have htail : Swaps r r' (w ++ r) (w ++ r') := ⟨w, rfl, rfl⟩
    rw [List.cons_append, List.cons_append, isVoidList, isVoidList, headIs_eq, headIs_eq,
      htail.head? hseen.head]

theorem hasBody_eq (depth : Int) (h : Swaps r r' s s') : hasBody depth s' = hasBody depth s := by
  obtain ⟨w, rfl, rfl⟩ := h
  induction w generalizing depth with
  | nil => exact hseen.bodies depth
  | cons t w ih =>
    rw [List.cons_append, List.cons_append, hasBody, hasBody, ih, ih, ih]

theorem parameterList_agrees (h : Swaps r r' s s') :
    Agrees r r' (parameterList s) (parameterList s') := by
  have hcloses : headIs ")" s' = headIs ")" s := by
    rw [headIs_eq, headIs_eq, h.head? hseen.head]
  unfold parameterList
  rw [hcloses, isVoidList_eq hseen h]
  split
  · exact .done h []
  · split
    · cases s with
      | nil =>
        obtain rfl := h.nil hseen.head
        exact .done h []
      | cons t s =>
        obtain ⟨s', rfl⟩ := h.cons hseen.head
        exact .relax (.after h fun htail => .done htail [])
    · exact parameters_agrees hseen.head s h

omit hseen in
theorem functionName_agrees (hhead : r'.head? = r.head?) (h : Swaps r r' s s') :
    Agrees r r' (functionName s) (functionName s') := by
  cases s with
  | nil =>
    obtain rfl := h.nil hhead
    exact .fail h _
  | cons t s =>
    obtain ⟨s', rfl⟩ := h.cons hhead
    rw [functionName, functionName]
    split
    · exact .after h fun htail => .done htail _
    · exact .fail h _

theorem functionDefinition_agrees (line : Nat) (type : CType) (h : Swaps r r' s s') :
    Agrees r r' (functionDefinition line type s) (functionDefinition line type s') := by
  have hhead := hseen.head
  refine .andThen (stars_agrees hhead s h) fun depth rest rest' _ _ hrest => ?_
  refine .andThen (functionName_agrees hhead hrest) fun name rest rest' _ _ hrest => ?_
  refine .andThen (punct_agrees hhead "(" hrest) fun _ rest rest' _ _ hrest => ?_
  refine .andThen (parameterList_agrees hseen hrest) fun parameters rest rest' _ _ hrest => ?_
  refine .andThen (punct_agrees hhead ")" hrest) fun _ rest rest' _ _ hrest => ?_
  exact .map (block_agrees hhead rest hrest) _

omit hseen in
theorem structFields_agrees (hhead : r'.head? = r.head?) (s : List Token) {s' : List Token}
    (h : Swaps r r' s s') : Agrees r r' (structFields s) (structFields s') := by
  match s with
  | [] =>
    obtain rfl := h.nil hhead
    rw [structFields]
    exact .fail h _
  | t :: s =>
    obtain ⟨s', rfl⟩ := h.cons hhead
    rw [structFields, structFields]
    split
    · exact .done h []
    · refine .relax (.andThen (declaration_agrees hhead t.line h)
        fun first rest rest' hlength _ hrest => ?_)
      refine .andThen (punct_agrees hhead ";" hrest) fun _ rest rest' hlength' _ hrest => ?_
      exact .map (structFields_agrees hhead rest hrest) _
termination_by s.length
decreasing_by simp at hlength hlength' ⊢; omega

omit hseen in
theorem structDefinition_agrees (hhead : r'.head? = r.head?) (line : Nat) (tag : String)
    (h : Swaps r r' s s') :
    Agrees r r' (structDefinition line tag s) (structDefinition line tag s') := by
  refine .andThen (punct_agrees hhead _ h) fun _ rest rest' _ _ hrest => ?_
  refine .andThen (structFields_agrees hhead rest hrest) fun fields rest rest' _ _ hrest => ?_
  refine .andThen (punct_agrees hhead _ hrest) fun _ rest rest' _ _ hrest => ?_
  exact .map (punct_agrees hhead ";" hrest) _

theorem typedItem_agrees (line : Nat) (h : Swaps r r' s s') :
    Agrees r r' (typedItem line s) (typedItem line s') := by
  refine .andThen (typeName_agrees hseen.head h) fun type rest rest' _ _ hrest => ?_
  rw [hasBody_eq hseen 0 hrest]
  split
  · exact .map (functionDefinition_agrees hseen line type hrest) _
  · exact .andThen (variableDecls_agrees hseen.head rest hrest) fun vars rest rest' _ _ hrest =>
      .map (punct_agrees hseen.head ";" hrest) _

omit hseen in
/-- The word `struct` and the tag behind it are consumed together. -/
theorem typedItem_leavesUnder {line : Nat} {t tag : Token} (hstarts : startsType t = true)
    (hstruct : isAt "struct" t = true) (htag : tag.kind = .identifier) :
    (typedItem line (t :: tag :: s)).LeavesUnder (tag :: s).length := by
  refine .andThen ?_
  have hhead : headStartsType (t :: tag :: s) = true := hstarts
  rw [typeName, if_pos hhead]
  refine .map ?_ _
  have htext : t.text = "struct" := by
    rw [isAt, Bool.and_eq_true, beq_iff_eq] at hstruct
    exact hstruct.1
  rw [typeWords, if_pos hstarts, htext, if_pos (by decide), if_pos htag]
  exact .relax (.after (.behind _) t)

omit hseen in
theorem item_eq_typedItem {t : Token} (hkind : t.kind ≠ .preprocessor)
    (hstarts : startsType t = true) (hnot : ∀ tag brace more, s = tag :: brace :: more →
      ¬(isAt "struct" t = true ∧ tag.kind = .identifier ∧ isAt "\x7b" brace = true)) :
    item (t :: s) = typedItem t.line (t :: s) := by
  unfold item
  dsimp only
  rw [if_neg hkind, if_pos hstarts]
  split
  · next tag brace more => exact if_neg (hnot tag brace more rfl)
  · rfl

omit hseen in
theorem item_eq_struct {t tag brace : Token} (hkind : t.kind ≠ .preprocessor)
    (hstarts : startsType t = true) (hstruct : isAt "struct" t = true) (htag : tag.kind = .identifier)
    (hbrace : isAt "\x7b" brace = true) :
    item (t :: tag :: brace :: s) =
      (((structDefinition t.line tag.text (brace :: s)).map Item.struct).after tag).after t := by
  unfold item
  dsimp only
  rw [if_neg hkind, if_pos hstarts, if_pos ⟨hstruct, htag, hbrace⟩]

omit hseen in
/-- A type word is consumed, whatever stands behind it. -/
theorem item_leavesUnder {t : Token} (hkind : t.kind ≠ .preprocessor) (hstarts : startsType t = true) :
    (item (t :: s)).LeavesUnder (t :: s).length := by
  have htyped : ∀ u, (typedItem t.line (t :: u)).LeavesUnder (t :: u).length :=
    fun u => .andThen (typeName_leavesUnder hstarts)
  unfold item
  dsimp only
  rw [if_neg hkind, if_pos hstarts]
  split
  · split
    · exact .behind _
    · exact htyped _
  · exact htyped _

/-- So is the name behind the word `struct`. -/
theorem struct_agrees {t tag : Token} (hkind : t.kind ≠ .preprocessor) (hstarts : startsType t = true)
    (hstruct : isAt "struct" t = true) (htag : tag.kind = .identifier)
    (h : Swaps r r' (t :: tag :: s) (t :: tag :: s')) (htail : Swaps r r' (tag :: s) (tag :: s')) :
    Agrees r r' (item (t :: tag :: s)) (item (t :: tag :: s')) := by
  have hhead := hseen.head
  have htyped : ∀ {u}, (∀ brace more, u = brace :: more → ¬isAt "\x7b" brace = true) →
      item (t :: tag :: u) = typedItem t.line (t :: tag :: u) := by
    intro u hu
    refine item_eq_typedItem hkind hstarts ?_
    rintro _ brace more heq ⟨_, _, hbrace⟩
    exact hu brace more (List.cons.inj heq).2 hbrace
  rcases htail.tail with hr | hmore
  · refine .of_leavesUnder (hr ▸ ?_)
    cases s with
    | nil =>
      rw [htyped fun _ _ hu => by cases hu]
      exact typedItem_leavesUnder hstarts hstruct htag
    | cons brace s =>
      by_cases hbrace : isAt "\x7b" brace = true
      · rw [item_eq_struct hkind hstarts hstruct htag hbrace]
        exact .after (.behind _) t
      · rw [htyped fun _ _ hu => (List.cons.inj hu).1 ▸ hbrace]
        exact typedItem_leavesUnder hstarts hstruct htag
  · -- the lists part further behind, so both have a brace here or neither has
    cases s with
    | nil =>
      obtain rfl := hmore.nil hhead
      rw [htyped fun _ _ hu => by cases hu]
      exact typedItem_agrees hseen t.line h
    | cons brace s =>
      obtain ⟨s', rfl⟩ := hmore.cons hhead
      by_cases hbrace : isAt "\x7b" brace = true
      · rw [item_eq_struct hkind hstarts hstruct htag hbrace,
          item_eq_struct hkind hstarts hstruct htag hbrace]
        exact .after h fun htail => .after htail fun hrest =>
          .map (structDefinition_agrees hhead t.line tag.text hrest) _
      · rw [htyped fun _ _ hu => (List.cons.inj hu).1 ▸ hbrace,
          htyped fun _ _ hu => (List.cons.inj hu).1 ▸ hbrace]
        exact typedItem_agrees hseen t.line h

theorem item_agrees (h : Swaps r r' s s') : Agrees r r' (item s) (item s') := by
  have hhead := hseen.head
  cases s with
  | nil =>
    obtain rfl := h.nil hhead
    exact .fail h _
  | cons t s =>
    obtain ⟨s', rfl⟩ := h.cons hhead
    by_cases hkind : t.kind = .preprocessor
    · unfold item
      dsimp only
      rw [if_pos hkind, if_pos hkind]
      exact .map (directive_agrees hhead h) _
    by_cases hstarts : startsType t = true
    · rcases h.tail with hr | htail
      · exact .of_leavesUnder (hr ▸ item_leavesUnder hkind hstarts)
      cases s with
      | nil =>
        obtain rfl := htail.nil hhead
        rw [item_eq_typedItem hkind hstarts fun _ _ _ hu => by cases hu]
        exact typedItem_agrees hseen t.line h
      | cons tag s =>
        obtain ⟨s', rfl⟩ := htail.cons hhead
        by_cases hstruct : isAt "struct" t = true ∧ tag.kind = .identifier
        · exact struct_agrees hseen hkind hstarts hstruct.1 hstruct.2 h htail
        · have htyped : ∀ u, item (t :: tag :: u) = typedItem t.line (t :: tag :: u) := by
            intro u
            refine item_eq_typedItem hkind hstarts ?_
            rintro tag' _ _ heq ⟨hat, htag', _⟩
            obtain rfl := (List.cons.inj heq).1
            exact hstruct ⟨hat, htag'⟩
          rw [htyped, htyped]
          exact typedItem_agrees hseen t.line h
    · unfold item
      dsimp only
      rw [if_neg hkind, if_neg hkind, if_neg hstarts, if_neg hstarts]
      exact .fail h _

theorem items_agrees (s : List Token) {s' : List Token} (h : Swaps r r' s s') :
    Agrees r r' (items s) (items s') := by
  match s with
  | [] =>
    obtain rfl := h.nil hseen.head
    rw [items]
    exact .done h []
  | t :: s =>
    obtain ⟨s', rfl⟩ := h.cons hseen.head
    rw [items, items]
    exact .relax (.andThen (item_agrees hseen h) fun first rest rest' hlength _ hrest =>
      .map (items_agrees rest hrest) _)
termination_by s.length
decreasing_by simp at hlength ⊢; omega

end Seen

/-! ## The main result -/

/-- Items are read until no token is left. -/
theorem items_meets (s : List Token) : (items s).Meets fun _ rest => rest = [] := by
  cases s with
  | nil =>
    rw [items]
    exact .done rfl
  | cons t s =>
    rw [items]
    exact .relax (.andThen (P := fun _ _ => True) (fun _ _ => trivial) fun first rest hlength _ =>
      .map (items_meets rest))
termination_by s.length
decreasing_by simp at hlength ⊢; omega

/-- A problem is reported at the first token that was not consumed, on its line or on that of the
last token. -/
theorem Failure.error_cases (f : Failure s) :
    f.error.problem = f.problem ∧ f.error.token = f.rest.head? ∧
      (∀ t, f.error.token = some t → f.error.line = t.line) ∧
      (f.error.token = none → f.error.line = (s.getLast?.map Token.line).getD 1) := by
  refine ⟨rfl, rfl, ?_, ?_⟩
  · intro t ht
    have hhead : f.rest.head? = some t := ht
    rw [Failure.error, hhead]
  · intro hnone
    have hhead : f.rest.head? = none := hnone
    rw [Failure.error, hhead]
    cases s.getLast? <;> rfl

end Grammar

/-- **The parser stops at the token that it reports.** Whatever the tokens are, they are either read
to the end, or a problem is reported with the first token that was not consumed, and without one just
if all were consumed. Its line is that of this token, or else of the last one, or one. The problem is
one of that token, and never that the tokens ended too early. And what stands behind that token plays
no part, as long as it looks the same from afar.

That the end of input is no problem of its own rests on the list of problems. A reader consumes a token
by a case distinction in which it is there, so no reader has a place where it would run out of tokens
while it consumes one, and nothing had to be guarded against. -/
theorem parse_stops_at_offending_token (tokens : List Token) :
    (∃ r, Grammar.items tokens = .ok r ∧ r.rest = [] ∧ parse tokens = .ok ⟨r.value⟩) ∨
    ∃ f e consumed, Grammar.items tokens = .error f ∧ parse tokens = .error e ∧
      consumed ++ f.rest = tokens ∧ e.token = f.rest.head? ∧
      (e.token = none ↔ consumed = tokens) ∧
      (∀ t, e.token = some t → e.line = t.line) ∧
      (e.token = none → e.line = (tokens.getLast?.map Token.line).getD 1) ∧
      e.problem.OffendedBy e.token ∧ e.problem.message ≠ "Unexpected end of input" ∧
      ∀ rest, Grammar.SeenAlike f.rest rest →
        ∃ e', parse (consumed ++ rest) = .error e' ∧ e'.problem = e.problem ∧ e'.token = e.token := by
  cases hitems : Grammar.items tokens with
  | ok r =>
    refine Or.inl ⟨r, rfl, Grammar.items_meets tokens r hitems, ?_⟩
    rw [parse, hitems]
  | error f =>
    obtain ⟨hproblem, htoken, hline, hlast⟩ := f.error_cases
    obtain ⟨consumed, hconsumed⟩ := f.suffix
    refine Or.inr ⟨f, f.error, consumed, rfl, by rw [parse, hitems], hconsumed, htoken, ?_, hline,
      hlast, ?_, f.error.problem.message_ne, ?_⟩
    · rw [htoken, List.head?_eq_none_iff]
      constructor
      · intro hrest
        rw [← hconsumed, hrest, List.append_nil]
      · intro hall
        rw [hall] at hconsumed
        exact List.append_right_eq_self.1 hconsumed
    · rw [hproblem, htoken]
      exact Grammar.items_blames tokens f hitems
    · intro rest hseen
      have hswaps : Grammar.Swaps f.rest rest tokens (consumed ++ rest) :=
        ⟨consumed, hconsumed.symm, rfl⟩
      obtain ⟨f', hf', hsame, w, hw, hw'⟩ :=
        (Grammar.items_agrees hseen tokens hswaps).stops f hitems List.suffix_rfl
      obtain rfl : w = [] := List.append_left_eq_self.1 hw.symm
      refine ⟨f'.error, by rw [parse, hf'], hsame, ?_⟩
      rw [f'.error_cases.2.1, htoken, hw']
      exact hseen.head

/-- A declaration that breaks off is reported on the line of its last token. -/
example : parse [⟨.keyword, "int", 3, 1⟩] = .error ⟨.variableName, none, 3⟩ := by cbv

end Stepwise
