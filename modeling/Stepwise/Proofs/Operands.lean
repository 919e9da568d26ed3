/-
The operands of an expression.

The names in an expression are the texts of tokens it was read from. More than
that, none of these tokens follows a literal: between two operands there always is
an operator, a bracket or a type, so a name that stands right behind a number cannot
be read as one.

What a reader takes is said as a pair of lists, the tokens it was given and those
it leaves. Readers that go on from an operand are given the tokens that the operand
began with, so that the parts of an expression are joined where they are read.
-/
import Stepwise.Proofs.Likeness
import Stepwise.Proofs.Names

set_option autoImplicit false

namespace Stepwise

/-! ## Readers and what they leave -/

namespace Grammar

variable {α β : Type} {s : List Token}

/-- Whatever the reader gives, it is as described, and so are the tokens it leaves. -/
def Parse.Meets {strict : Bool} (p : Parse strict s α) (Q : α → List Token → Prop) : Prop :=
  ∀ r, p = .ok r → Q r.value r.rest

namespace Parse.Meets

variable {strict : Bool} {Q : α → List Token → Prop}

theorem done {value : α} (h : Q value s) : (Parse.done value : Parse false s α).Meets Q := by
  intro r hr
  obtain rfl := Except.ok.inj hr
  exact h

theorem fail (problem : Problem) : (Parse.fail problem : Parse strict s α).Meets Q := by
  intro r hr
  cases hr

theorem imp {p : Parse strict s α} {P : α → List Token → Prop} (h : p.Meets P)
    (hPQ : ∀ value rest, P value rest → Q value rest) : p.Meets Q :=
  fun r hr => hPQ _ _ (h r hr)

theorem map {p : Parse strict s β} {f : β → α} (h : p.Meets fun b rest => Q (f b) rest) :
    (p.map f).Meets Q := by
  intro r hr
  obtain ⟨q, hq, hvalue, hrest⟩ := Parse.map_eq_ok hr
  rw [hvalue, hrest]
  exact h q hq

theorem relax {p : Parse strict s α} (h : p.Meets Q) : p.relax.Meets Q := by
  intro r hr
  obtain ⟨q, hq, hvalue, hrest⟩ := Parse.relax_eq_ok hr
  rw [hvalue, hrest]
  exact h q hq

theorem after {t : Token} {p : Parse strict s α} (h : p.Meets Q) : (p.after t).Meets Q := by
  intro r hr
  obtain ⟨q, hq, hvalue, hrest⟩ := Parse.after_eq_ok hr
  rw [hvalue, hrest]
  exact h q hq

theorem andThen {a b : Bool} {p : Parse a s β}
    {next : (value : β) → (rest : List Token) → rest.length + a.toNat ≤ s.length → Parse b rest α}
    {P : β → List Token → Prop} (h : p.Meets P)
    (hnext : ∀ value rest hlength, P value rest → (next value rest hlength).Meets Q) :
    (p.andThen next).Meets Q := by
  intro r hr
  obtain ⟨q, q', hq, hq', hvalue, hrest⟩ := Parse.andThen_eq_ok hr
  rw [hvalue, hrest]
  exact hnext _ _ _ (h q hq) q' hq'

end Parse.Meets

/-! ## Tokens of an expression -/

/-- The token begins a directive. -/
def IsCommand (t : Token) : Prop :=
  t.kind = .preprocessor ∧ t.text.toList.head? = some '#'

/-- The token may stand between two operands: it is no literal, and it begins no directive. -/
structure Separates (t : Token) : Prop where
  kind : t.kind ≠ .literal
  inside : ¬IsCommand t

theorem separates_of_kind {t : Token} {kind : Token.Kind} (h : t.kind = kind)
    (hkind : kind ≠ .literal ∧ kind ≠ .preprocessor) : Separates t where
  kind := by
    rw [h]
    exact hkind.1
  inside hcommand := hkind.2 (h.symm.trans hcommand.1)

theorem separates_of_isAt {t : Token} {text : String} (h : isAt text t = true)
    (htext : text.toList.head? ≠ some '#') : Separates t := by
  rw [isAt, Bool.and_eq_true, beq_iff_eq, bne_iff_ne] at h
  refine ⟨h.2, fun hcommand => htext ?_⟩
  rw [← h.1]
  exact hcommand.2

/-- Tokens that an expression with these names is read from: none of them begins a directive, and
each name is the text of one that does not follow a literal. -/
structure Uses (used : List Token) (names : List String) : Prop where
  inside : ∀ t ∈ used, ¬IsCommand t
  named : ∀ n ∈ names, ∃ pre t post, used = pre ++ t :: post ∧ isName t = true ∧ t.text = n ∧
    ∀ u ∈ pre.getLast?, u.kind ≠ .literal

/-- From the first tokens on up to the second ones, an expression with these names is read. -/
def Takes (s rest : List Token) (names : List String) : Prop :=
  ∃ used, s = used ++ rest ∧ Uses used names

namespace Uses

variable {used used' : List Token} {names names' : List String} {t : Token}

theorem nil : Uses [] [] where
  inside _ h := by cases h
  named _ h := by cases h

/-- Two operands with a token between them. -/
theorem join (h : Uses used names) (ht : Separates t) (h' : Uses used' names') :
    Uses (used ++ t :: used') (names ++ names') where
  inside u hu := by
    rcases List.mem_append.1 hu with hu | hu
    · exact h.inside u hu
    · rcases List.mem_cons.1 hu with rfl | hu
      · exact ht.inside
      · exact h'.inside u hu
  named n hn := by
    rcases List.mem_append.1 hn with hn | hn
    · obtain ⟨pre, u, post, rfl, hu⟩ := h.named n hn
      exact ⟨pre, u, post ++ t :: used', by simp, hu⟩
    · obtain ⟨pre, u, post, rfl, hname, htext, hlast⟩ := h'.named n hn
      refine ⟨used ++ t :: pre, u, post, by simp, hname, htext, ?_⟩
      intro v hv
      rw [List.getLast?_append_cons, List.getLast?_cons] at hv
      cases hpre : pre.getLast? with
      | none =>
        rw [hpre] at hv
        obtain rfl : t = v := Option.some.inj hv
        exact ht.kind
      | some w =>
        rw [hpre] at hv
        obtain rfl : w = v := Option.some.inj hv
        exact hlast w hpre

theorem not_isCommand_of_isName (h : isName t = true) : ¬IsCommand t := by
  rintro ⟨hkind, _⟩
  rw [isName, hkind] at h
  cases h

theorem name (h : isName t = true) : Uses [t] [t.text] where
  inside u hu := by
    rw [List.mem_singleton.1 hu]
    exact not_isCommand_of_isName h
  named n hn := ⟨[], t, [], rfl, h, (List.mem_singleton.1 hn).symm, fun u hu => by cases hu⟩

end Uses

namespace Takes

variable {s mid rest : List Token} {names names' : List String} {t u : Token}

theorem nothing (s : List Token) : Takes s s [] :=
  ⟨[], rfl, .nil⟩

theorem join (h : Takes s (t :: mid) names) (ht : Separates t) (h' : Takes mid rest names') :
    Takes s rest (names ++ names') := by
  obtain ⟨used, rfl, hused⟩ := h
  obtain ⟨used', rfl, hused'⟩ := h'
  exact ⟨used ++ t :: used', by simp, hused.join ht hused'⟩

theorem behind (ht : Separates t) (h : Takes s rest names) : Takes (t :: s) rest names :=
  (nothing (t :: s)).join ht h

theorem close (h : Takes s (t :: rest) names) (ht : Separates t) : Takes s rest names := by
  have hclosed := h.join ht (nothing rest)
  rwa [List.append_nil] at hclosed

/-- Tokens that hold no names may follow without a token between. -/
theorem extend (h : Takes s mid names) (h' : Takes mid rest []) : Takes s rest names := by
  obtain ⟨used, rfl, hused⟩ := h
  obtain ⟨used', rfl, hused'⟩ := h'
  refine ⟨used ++ used', by simp, ⟨fun t ht => ?_, fun n hn => ?_⟩⟩
  · rcases List.mem_append.1 ht with ht | ht
    · exact hused.inside t ht
    · exact hused'.inside t ht
  · obtain ⟨pre, t, post, rfl, ht⟩ := hused.named n hn
    exact ⟨pre, t, post ++ used', by simp, ht⟩

theorem literal (h : t.kind = .literal) : Takes (t :: rest) rest [] := by
  refine ⟨[t], rfl, ⟨fun u hu => ?_, fun n hn => by cases hn⟩⟩
  rw [List.mem_singleton.1 hu]
  rintro ⟨hkind, _⟩
  rw [h] at hkind
  cases hkind

theorem name (h : isName t = true) : Takes (t :: rest) rest [t.text] :=
  ⟨[t], rfl, .name h⟩

/-- A name with something in brackets behind it. -/
theorem named (h : isName t = true) (hu : Separates u) (hinner : Takes s rest names) :
    Takes (t :: u :: s) rest (t.text :: names) :=
  (name h).join hu hinner

end Takes

/-! ## Types -/

section Types

theorem punct_meets (text : String) (s : List Token) :
    (punct text s).Meets fun _ rest => ∃ t, s = t :: rest ∧ Separates t := by
  unfold punct expectOr
  split
  · exact .fail _
  · next t rest =>
    split
    · next hkind => exact .after (.done ⟨t, rfl, separates_of_kind hkind.1 (by decide)⟩)
    · exact .fail _

/-- What is in brackets is read up to the closing one. -/
theorem close_meets {s₀ s : List Token} {names : List String} (h : Takes s₀ s names)
    (text : String) : (punct text s).Meets fun _ rest => Takes s₀ rest names := by
  refine (punct_meets text s).imp ?_
  rintro _ rest ⟨t, rfl, ht⟩
  exact h.close ht

theorem startsType_separates {t : Token} (h : startsType t = true) : Separates t := by
  unfold startsType at h
  cases hkind : t.kind with
  | keyword => exact separates_of_kind hkind (by decide)
  | identifier => exact separates_of_kind hkind (by decide)
  | _ =>
    rw [hkind] at h
    cases h

theorem typeWords_meets (s : List Token) :
    (typeWords s).Meets fun _ rest => Takes s rest [] := by
  fun_induction typeWords s with
  | case1 => exact .done (.nothing _)
  | case2 t hstarts htag => exact .relax (.after (.fail _))
  | case3 t hstarts htag tag rest hkind ih =>
    refine .relax (.after (.after (.map (ih.imp fun _ _ h => ?_))))
    exact .behind (startsType_separates hstarts) (.behind (separates_of_kind hkind (by decide)) h)
  | case4 t hstarts htag tag rest hkind => exact .relax (.after (.fail _))
  | case5 t rest hstarts htag hkind =>
    exact .relax (.after (.done (.behind (startsType_separates hstarts) (.nothing _))))
  | case6 t rest hstarts htag hkind ih =>
    exact .relax (.after (.map (ih.imp fun _ _ h => .behind (startsType_separates hstarts) h)))
  | case7 t rest hstarts => exact .done (.nothing _)

theorem stars_meets (s : List Token) : (stars s).Meets fun _ rest => Takes s rest [] := by
  fun_induction stars s with
  | case1 => exact .done (.nothing _)
  | case2 t rest hstar ih =>
    exact .relax (.after (.map (ih.imp fun _ _ h =>
      .behind (separates_of_isAt hstar (by decide)) h)))
  | case3 t rest hstar => exact .done (.nothing _)

theorem starredTypeName_meets (s : List Token) :
    (starredTypeName s).Meets fun _ rest => Takes s rest [] := by
  refine .andThen (P := fun _ rest => Takes s rest []) ?_ fun type rest _ htype => ?_
  · unfold typeName
    split
    · exact .map (typeWords_meets s)
    · exact .fail _
  · exact .map ((stars_meets rest).imp fun _ _ h => htype.extend h)

/-- A type in parentheses is read up to the closing one. -/
theorem typeInParens_meets {s : List Token} (h : opensType s = true) :
    (typeInParens s).Meets fun _ rest => ∃ t, Takes s (t :: rest) [] ∧ Separates t := by
  cases s with
  | nil => cases h
  | cons t s =>
    rw [opensType, Bool.and_eq_true] at h
    have hopen : Separates t := separates_of_isAt h.1 (by decide)
    refine .after (.andThen (starredTypeName_meets s) fun type rest _ htype => ?_)
    refine .map ((punct_meets ")" rest).imp ?_)
    rintro _ rest' ⟨u, rfl, hu⟩
    exact ⟨u, htype.behind hopen, hu⟩

end Types

/-! ## Expressions -/

theorem operatorAt?_names {level : Level} {t : Token} {make : Expr → Expr → Expr}
    (h : operatorAt? level t = some make) (left right : Expr) :
    (make left right).names = left.names ++ right.names := by
  unfold operatorAt? at h
  split at h
  · obtain ⟨make', hmake, rfl⟩ := Option.map_eq_some_iff.1 h
    unfold Level.make? at hmake
    split at hmake
    · obtain ⟨op, _, rfl⟩ := Option.map_eq_some_iff.1 hmake
      rfl
    · split at hmake
      · split at hmake
        · obtain rfl := Option.some.inj hmake
          rfl
        · cases hmake
      · cases hmake
  · cases h

theorem separates_of_operator {γ : Type} {t : Token} {x : Option γ} {c : γ}
    (h : (if t.kind = .operator then x else none) = some c) : Separates t := by
  split at h
  · next hkind => exact separates_of_kind hkind (by decide)
  · cases h

theorem selections_meets {s₀ s : List Token} {e : Expr} (h : Takes s₀ s e.names) :
    (selections e s).Meets fun e rest => Takes s₀ rest e.names := by
  fun_induction selections e s with
  | case1 => exact .done h
  | case2 e t hat => exact .relax (.after (.fail _))
  | case3 e t hat m rest hkind ih =>
    rw [Bool.or_eq_true] at hat
    have ht : Separates t := by
      rcases hat with hat | hat
      · exact separates_of_isAt hat (by decide)
      · exact separates_of_isAt hat (by decide)
    exact .relax (.after (.after (ih ((h.close ht).close (separates_of_kind hkind (by decide))))))
  | case4 e t hat m rest hkind => exact .relax (.after (.fail _))
  | case5 e t rest hat op hop ih =>
    exact .relax (.after (ih (h.close (separates_of_operator hop))))
  | case6 e t rest hat hop => exact .done h

mutual

/-- A reader of expressions takes every name from a token that does not follow a literal. The
induction is that of the readers: on the tokens, and for the same tokens on how tightly they bind. -/
theorem assignment_meets (s : List Token) :
    (assignment s).Meets fun e rest => Takes s rest e.names := by
  rw [assignment]
  refine .andThen (conditional_meets s) fun left rest hlength hleft => ?_
  cases rest with
  | nil => exact .done hleft
  | cons t rest =>
    dsimp only
    split
    · next op hop =>
      exact .relax (.after (.map ((assignment_meets rest).imp fun _ _ hright =>
        hleft.join (separates_of_operator hop) hright)))
    · exact .done hleft
termination_by 20 * s.length + 11
decreasing_by
  · omega
  · simp at hlength; omega

theorem conditional_meets (s : List Token) :
    (conditional s).Meets fun e rest => Takes s rest e.names := by
  rw [conditional]
  refine .andThen (binary_meets Level.all s) fun condition rest hlength hcondition => ?_
  cases rest with
  | nil => exact .done hcondition
  | cons t rest =>
    dsimp only
    split
    · next hat =>
      refine .relax (.after (.andThen (assignment_meets rest) fun whenTrue rest' hlength₁ htrue => ?_))
      refine .andThen (punct_meets ":" rest') fun _ rest'' hlength₂ hcolon => ?_
      obtain ⟨u, rfl, hu⟩ := hcolon
      exact .map ((conditional_meets rest'').imp fun _ _ hfalse =>
        hcondition.join (separates_of_isAt hat (by decide)) (htrue.join hu hfalse))
    · exact .done hcondition
termination_by 20 * s.length + 10
decreasing_by
  · simp [Level.all]
  · simp at hlength; omega
  · simp at hlength hlength₁ hlength₂; omega

theorem binary_meets (levels : List Level) (s : List Token) :
    (binary levels s).Meets fun e rest => Takes s rest e.names := by
  match levels with
  | [] =>
    rw [binary]
    exact unary_meets s
  | level :: tighter =>
    rw [binary]
    exact .andThen (binary_meets tighter s) fun left rest hlength hleft =>
      operations_meets level tighter hleft
termination_by 20 * s.length + levels.length + 3
decreasing_by
  · simp
  · simp
  · simp at hlength ⊢; omega

theorem operations_meets (level : Level) (tighter : List Level) {s₀ s : List Token} {left : Expr}
    (hleft : Takes s₀ s left.names) :
    (operations level tighter left s).Meets fun e rest => Takes s₀ rest e.names := by
  match s with
  | [] =>
    rw [operations]
    exact .done hleft
  | t :: s =>
    rw [operations]
    split
    · next make hmake =>
      refine .relax (.after (.andThen (binary_meets tighter s) fun right rest hlength hright => ?_))
      refine operations_meets level tighter ?_
      rw [operatorAt?_names hmake]
      exact hleft.join (separates_of_operator hmake) hright
    · exact .done hleft
termination_by 20 * s.length + tighter.length
decreasing_by
  · simp; omega
  · simp at hlength ⊢; omega

theorem unary_meets (s : List Token) :
    (unary s).Meets fun e rest => Takes s rest e.names := by
  match s with
  | [] =>
    rw [unary]
    exact .fail _
  | t :: s =>
    rw [unary]
    split
    · next op hop =>
      exact .after (.map ((unary_meets s).imp fun _ _ h => .behind (separates_of_operator hop) h))
    · split
      · next hsize =>
        have ht : Separates t := by
          rw [isSizeOf, Bool.and_eq_true, beq_iff_eq] at hsize
          exact separates_of_kind hsize.1 (by decide)
        split
        · next hopens =>
          refine .after (.map ((typeInParens_meets hopens).imp ?_))
          rintro _ _ ⟨u, h, hu⟩
          exact .behind ht (h.close hu)
        · exact .after (.map ((unary_meets s).imp fun _ _ h => .behind ht h))
      · split
        · next hopens =>
          refine .andThen (typeInParens_meets hopens) fun type rest hlength htype => ?_
          obtain ⟨u, htype, hu⟩ := htype
          exact .map ((unary_meets rest).imp fun _ _ h => htype.join hu h)
        · exact .andThen (primary_meets (t :: s)) fun e rest _ he => selections_meets he
termination_by 20 * s.length + 2
decreasing_by
  · simp
  · simp
  · simp at hlength ⊢; omega
  · simp

theorem primary_meets (s : List Token) :
    (primary s).Meets fun e rest => Takes s rest e.names := by
  match s with
  | [] =>
    rw [primary]
    exact .fail _
  | t :: s =>
    unfold primary
    split
    · next hliteral => exact .after (.done (.literal hliteral))
    · split
      · next hname =>
        match s with
        | [] => exact .after (.done (.name hname))
        | u :: s =>
          dsimp only
          split
          · next hat =>
            refine .after (.after (.andThen (arguments_meets s) fun args rest _ hargs => .map ?_))
            exact close_meets (Takes.named hname (separates_of_isAt hat (by decide)) hargs) ")"
          · split
            · next hat =>
              refine .after (.after (.andThen (assignment_meets s) fun position rest _ h => .map ?_))
              exact close_meets (Takes.named hname (separates_of_isAt hat (by decide)) h) "]"
            · exact .after (.done (.name hname))
      · split
        · next hat =>
          refine .after (.andThen (assignment_meets s) fun e rest _ he => .map ?_)
          exact close_meets (he.behind (separates_of_isAt hat (by decide))) ")"
        · exact .fail _
termination_by 20 * s.length + 1
decreasing_by
  · simp; omega
  · simp; omega
  · simp; omega

theorem arguments_meets (s : List Token) :
    (arguments s).Meets fun es rest => Takes s rest (Expr.namesOf es) := by
  rw [arguments]
  split
  · exact .done (.nothing s)
  · refine .relax (.andThen (assignment_meets s) fun first rest hlength hfirst => .map ?_)
    exact moreArguments_meets hfirst
termination_by 20 * s.length + 12
decreasing_by
  · omega
  · simp at hlength; omega

theorem moreArguments_meets {s₀ s : List Token} {names : List String} (h : Takes s₀ s names) :
    (moreArguments s).Meets fun es rest => Takes s₀ rest (names ++ Expr.namesOf es) := by
  match s with
  | [] =>
    rw [moreArguments]
    exact .done (by rwa [Expr.namesOf, List.append_nil])
  | t :: s =>
    rw [moreArguments]
    split
    · next hat =>
      refine .relax (.after (.andThen (assignment_meets s) fun next rest hlength hnext => .map ?_))
      refine (moreArguments_meets (h.join (separates_of_isAt hat (by decide)) hnext)).imp ?_
      intro more rest' hmore
      rwa [List.append_assoc] at hmore
    · exact .done (by rwa [Expr.namesOf, List.append_nil])
termination_by 20 * s.length
decreasing_by
  · simp; omega
  · simp at hlength ⊢; omega

end

end Grammar

theorem parseExpr_uses {tokens : List Token} {e : Expr} (h : parseExpr tokens = .ok e) :
    Grammar.Uses tokens e.names := by
  unfold parseExpr at h
  split at h
  · next r hr =>
    split at h
    · next hrest =>
      obtain rfl := Except.ok.inj h
      obtain ⟨used, hused, huses⟩ := Grammar.assignment_meets tokens r hr
      rw [hrest, List.append_nil] at hused
      rwa [← hused] at huses
    · cases h
  · cases h

end Stepwise
