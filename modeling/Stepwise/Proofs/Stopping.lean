/-
Problems and the tokens they are reported at.

That reading ends, and that a problem is reported at the first token that was not
consumed, is in the types of the readers: each of them goes on with fewer tokens, or
with the same tokens one level further down. What the types leave open is whether the
problem is one of that token. It is: the token at which a reader stops is none of those
that the problem asks for, and what is said to be missing at the end of the tokens is
not said at a token (`Parse.Blames`). This is gone through reader by reader.

A token is consumed only where it was looked at: the case distinction that consumes it
has it at hand. So there is no reading past the end that a guard would have to catch,
and among the problems there is none for it.
-/
import Stepwise.Grammar.Program

set_option autoImplicit false

namespace Stepwise

/-! ## Problems and the tokens they are reported at -/

namespace Problem

/-- Is the token none of those that the problem asks for? What is missing at the end of the tokens
only is not missing at a token. -/
def Refuses : Problem → Token → Prop
  | expected kind text, t => ¬(t.kind = kind ∧ (text = none ∨ text = some t.text))
  | tag _, t | variableName, t | memberName, t => t.kind ≠ .identifier
  | typeSpecifier, t => Grammar.startsType t = false
  | functionName, t => Grammar.isName t = false
  | whileAfterDo, t => ¬(t.kind = .keyword ∧ t.text = "while")
  | closingBrace, _ | closingBracket, _ | statement, _ | expression, _ => False
  | noExpression, t => t.kind ≠ .literal ∧ Grammar.isName t = false ∧ Grammar.isAt "(" t = false ∧
      Grammar.unaryAt? t = none ∧ Grammar.isSizeOf t = false
  | noItem, t => t.kind ≠ .preprocessor ∧ Grammar.startsType t = false
  | trailing, _ => True

/-- Is something missing if there are no more tokens? -/
def Lacks : Problem → Prop
  | noExpression | noItem | trailing => False
  | _ => True

/-- Is the problem one of the place at which it is reported: a token, or the end of the tokens? -/
def OffendedBy (p : Problem) : Option Token → Prop
  | some t => p.Refuses t
  | none => p.Lacks

/-- There is no message that only says that the tokens ended. -/
theorem message_ne (p : Problem) : p.message ≠ "Unexpected end of input" := by
  cases p with
  | expected kind text =>
    intro h
    have hhead := congrArg (fun s => s.toList.head?) h
    simp only [message, String.toList_append, List.append_assoc] at hhead
    exact absurd hhead (by simp)
  | tag keyword =>
    intro h
    have hhead : ("Expected " ++ keyword ++ " tag").toList.head? = _ :=
      congrArg (fun s => s.toList.head?) h
    simp only [String.toList_append, List.append_assoc] at hhead
    exact absurd hhead (by simp)
  | _ => decide

end Problem

namespace Grammar

section Blames

variable {α β : Type} {s : List Token} {strict : Bool}

/-- Every problem that the reader reports is one of the token at which it stops. -/
def Parse.Blames (p : Parse strict s α) : Prop :=
  ∀ f, p = .error f → f.problem.OffendedBy f.rest.head?

namespace Parse.Blames

theorem done (value : α) : (Parse.done value : Parse false s α).Blames := by
  intro f hf
  cases hf

theorem fail {problem : Problem} (h : problem.OffendedBy s.head?) :
    (Parse.fail problem : Parse strict s α).Blames := by
  intro f hf
  obtain rfl := Except.error.inj hf
  exact h

theorem map {p : Parse strict s α} (h : p.Blames) (g : α → β) : (p.map g).Blames := by
  intro f hf
  cases p with
  | ok r => cases hf
  | error e =>
    obtain rfl := Except.error.inj hf
    exact h e rfl

theorem relax {p : Parse strict s α} (h : p.Blames) : p.relax.Blames := by
  intro f hf
  cases p with
  | ok r => cases hf
  | error e =>
    obtain rfl := Except.error.inj hf
    exact h e rfl

theorem after {p : Parse strict s α} (h : p.Blames) (t : Token) : (p.after t).Blames := by
  intro f hf
  cases p with
  | ok r => cases hf
  | error e =>
    obtain rfl := Except.error.inj hf
    exact h e rfl

theorem andThen {a b : Bool} {p : Parse a s α}
    {next : (value : α) → (rest : List Token) → rest.length + a.toNat ≤ s.length → Parse b rest β}
    (h : p.Blames) (hnext : ∀ value rest hlength, (next value rest hlength).Blames) :
    (p.andThen next).Blames := by
  intro f hf
  cases p with
  | error e =>
    obtain rfl := Except.error.inj hf
    exact h e rfl
  | ok r =>
    unfold Parse.andThen at hf
    dsimp only at hf
    split at hf
    · next e he =>
      obtain rfl := Except.error.inj hf
      exact hnext _ _ _ e he
    · cases hf

end Parse.Blames

theorem expectOr_blames (problem : Problem) {kind : Token.Kind} {text : Option String}
    (hend : problem.Lacks)
    (h : ∀ t : Token, ¬(t.kind = kind ∧ (text = none ∨ text = some t.text)) → problem.Refuses t)
    (s : List Token) : (expectOr problem kind text s).Blames := by
  unfold expectOr
  split
  · exact .fail hend
  · next t rest =>
    split
    · exact (Parse.Blames.done t).after t
    · next hnot => exact .fail (h t hnot)

theorem punct_blames (text : String) (s : List Token) : (punct text s).Blames :=
  expectOr_blames (.expected .punctuation (some text)) trivial (fun _ h => h) s

/-! ### Types -/

theorem typeWords_blames (s : List Token) : (typeWords s).Blames := by
  fun_induction typeWords s with
  | case1 => exact .done _
  | case2 t hstarts htag =>
    refine .relax (.after ?_ t)
    exact .fail trivial
  | case3 t hstarts htag tag rest hkind ih => exact .relax (.after (.after (.map ih _) _) _)
  | case4 t hstarts htag tag rest hkind =>
    refine .relax (.after ?_ t)
    exact .fail hkind
  | case5 t rest hstarts htag hkind => exact .relax (.after (.done _) _)
  | case6 t rest hstarts htag hkind ih => exact .relax (.after (.map ih _) _)
  | case7 t rest hstarts => exact .done _

theorem typeName_blames (s : List Token) : (typeName s).Blames := by
  unfold typeName
  split
  · exact .map (typeWords_blames s) _
  · next hstarts =>
    cases s with
    | nil => exact .fail trivial
    | cons t s => exact .fail (Bool.eq_false_iff.2 hstarts)

theorem stars_blames (s : List Token) : (stars s).Blames := by
  fun_induction stars s with
  | case1 => exact .done _
  | case2 t rest hstar ih => exact .relax (.after (.map ih _) _)
  | case3 t rest hstar => exact .done _

theorem typeInParens_blames (s : List Token) : (typeInParens s).Blames := by
  cases s with
  | nil => exact .fail trivial
  | cons t s =>
    refine .after (.andThen ?_ fun type rest _ => .map (punct_blames ")" rest) _) t
    exact .andThen (typeName_blames s) fun type rest _ => .map (stars_blames rest) _

/-! ### Expressions -/

theorem selections_blames (e : Expr) (s : List Token) : (selections e s).Blames := by
  fun_induction selections e s with
  | case1 => exact .done _
  | case2 e t hat =>
    refine .relax (.after ?_ t)
    exact .fail trivial
  | case3 e t hat m rest hkind ih => exact .relax (.after (.after ih _) _)
  | case4 e t hat m rest hkind =>
    refine .relax (.after ?_ t)
    exact .fail hkind
  | case5 e t rest hat op hop ih => exact .relax (.after ih _)
  | case6 e t rest hat hop => exact .done _

mutual

theorem assignment_blames (s : List Token) : (assignment s).Blames := by
  rw [assignment]
  refine .andThen (conditional_blames s) fun left rest hlength => ?_
  cases rest with
  | nil => exact .done _
  | cons t rest =>
    dsimp only
    split
    · exact .relax (.after (.map (assignment_blames rest) _) _)
    · exact .done _
termination_by 20 * s.length + 11
decreasing_by
  · omega
  · simp at hlength; omega

theorem conditional_blames (s : List Token) : (conditional s).Blames := by
  rw [conditional]
  refine .andThen (binary_blames Level.all s) fun condition rest hlength => ?_
  cases rest with
  | nil => exact .done _
  | cons t rest =>
    dsimp only
    split
    · refine .relax (.after (.andThen (assignment_blames rest) fun whenTrue rest' hlength₁ => ?_) _)
      refine .andThen (punct_blames ":" rest') fun _ rest'' hlength₂ => ?_
      exact .map (conditional_blames rest'') _
    · exact .done _
termination_by 20 * s.length + 10
decreasing_by
  · simp [Level.all]
  · simp at hlength; omega
  · simp at hlength hlength₁ hlength₂; omega

theorem binary_blames (levels : List Level) (s : List Token) : (binary levels s).Blames := by
  match levels with
  | [] =>
    rw [binary]
    exact unary_blames s
  | level :: tighter =>
    rw [binary]
    exact .andThen (binary_blames tighter s) fun left rest hlength =>
      operations_blames level tighter left rest
termination_by 20 * s.length + levels.length + 3
decreasing_by
  · simp
  · simp
  · simp at hlength ⊢; omega

theorem operations_blames (level : Level) (tighter : List Level) (left : Expr) (s : List Token) :
    (operations level tighter left s).Blames := by
  match s with
  | [] =>
    rw [operations]
    exact .done _
  | t :: s =>
    rw [operations]
    split
    · exact .relax (.after (.andThen (binary_blames tighter s) fun right rest hlength =>
        operations_blames level tighter _ rest) _)
    · exact .done _
termination_by 20 * s.length + tighter.length
decreasing_by
  · simp; omega
  · simp at hlength ⊢; omega

theorem unary_blames (s : List Token) : (unary s).Blames := by
  match s with
  | [] =>
    rw [unary]
    exact .fail trivial
  | t :: s =>
    rw [unary]
    split
    · exact .after (.map (unary_blames s) _) _
    · next hunary =>
      split
      · split
        · exact .after (.map (typeInParens_blames s) _) _
        · exact .after (.map (unary_blames s) _) _
      · next hsize =>
        split
        · exact .andThen (typeInParens_blames (t :: s)) fun type rest hlength =>
            .map (unary_blames rest) _
        · exact .andThen (primary_blames (t :: s) fun u hu => by
            rw [← Option.mem_some_iff.1 hu]
            exact ⟨hunary, Bool.eq_false_iff.2 hsize⟩) fun e rest _ => selections_blames e rest
termination_by 20 * s.length + 2
decreasing_by
  · simp
  · simp
  · simp at hlength ⊢; omega
  · simp

/-- Operators in front and sizes are read before a primary expression is. -/
theorem primary_blames (s : List Token)
    (h : ∀ u ∈ s.head?, unaryAt? u = none ∧ isSizeOf u = false) : (primary s).Blames := by
  match s with
  | [] =>
    rw [primary]
    exact .fail trivial
  | t :: s =>
    unfold primary
    split
    · exact .after (.done _) _
    · next hliteral =>
      split
      · match s with
        | [] => exact .after (.done _) _
        | u :: s =>
          dsimp only
          split
          · exact .after (.after (.andThen (arguments_blames s) fun args rest _ =>
              .map (punct_blames ")" rest) _) _) _
          · split
            · exact .after (.after (.andThen (assignment_blames s) fun position rest _ =>
                .map (punct_blames "]" rest) _) _) _
            · exact .after (.done _) _
      · next hname =>
        split
        · exact .after (.andThen (assignment_blames s) fun e rest _ =>
            .map (punct_blames ")" rest) _) _
        · next hat =>
          obtain ⟨hunary, hsize⟩ := h t rfl
          exact .fail ⟨hliteral, Bool.eq_false_iff.2 hname, Bool.eq_false_iff.2 hat,
            hunary, hsize⟩
termination_by 20 * s.length + 1
decreasing_by
  · simp; omega
  · simp; omega
  · simp; omega

theorem arguments_blames (s : List Token) : (arguments s).Blames := by
  rw [arguments]
  split
  · exact .done _
  · exact .relax (.andThen (assignment_blames s) fun first rest hlength =>
      .map (moreArguments_blames rest) _)
termination_by 20 * s.length + 12
decreasing_by
  · omega
  · simp at hlength; omega

theorem moreArguments_blames (s : List Token) : (moreArguments s).Blames := by
  match s with
  | [] =>
    rw [moreArguments]
    exact .done _
  | t :: s =>
    rw [moreArguments]
    split
    · exact .relax (.after (.andThen (assignment_blames s) fun next rest hlength =>
        .map (moreArguments_blames rest) _) _)
    · exact .done _
termination_by 20 * s.length
decreasing_by
  · simp; omega
  · simp at hlength ⊢; omega

end

/-! ### Declarations -/

mutual

theorem initializer_blames (s : List Token) : (initializer s).Blames := by
  match s with
  | [] =>
    rw [initializer]
    exact .map (assignment_blames []) _
  | t :: s =>
    rw [initializer]
    split
    · refine .andThen (punct_blames _ (t :: s)) fun brace rest hlength => ?_
      exact .andThen (initializers_blames rest) fun items rest _ => .map (punct_blames _ rest) _
    · exact .map (assignment_blames (t :: s)) _
termination_by 2 * s.length
decreasing_by simp at hlength ⊢; omega

theorem initializers_blames (s : List Token) : (initializers s).Blames := by
  rw [initializers]
  split
  · exact .done _
  · refine .relax (.andThen (initializer_blames s) fun first rest hlength => ?_)
    cases rest with
    | nil => exact .done _
    | cons t rest =>
      dsimp only
      split
      · exact .relax (.after (.map (initializers_blames rest) _) _)
      · exact .done _
termination_by 2 * s.length + 1
decreasing_by
  · omega
  · simp at hlength; omega

end

theorem brackets_blames (s : List Token) : (brackets s).Blames := by
  cases s with
  | nil => exact .done _
  | cons t s =>
    rw [brackets]
    split
    · refine .relax ?_
      split
      · exact .after (.map (punct_blames "]" s) _) t
      · exact .after (.andThen (assignment_blames s) fun size rest _ =>
          .map (punct_blames "]" rest) _) t
    · exact .done _

theorem initialization_blames (s : List Token) : (initialization s).Blames := by
  cases s with
  | nil => exact .done _
  | cons t s =>
    rw [initialization]
    split
    · exact .relax (.after (.map (initializer_blames s) _) t)
    · exact .done _

theorem not_identifier {t : Token}
    (h : ¬(t.kind = .identifier ∧ ((none : Option String) = none ∨ none = some t.text))) :
    t.kind ≠ .identifier :=
  fun hkind => h ⟨hkind, Or.inl rfl⟩

theorem variableDecl_blames (s : List Token) : (variableDecl s).Blames := by
  refine .andThen (stars_blames s) fun depth rest _ => ?_
  refine .andThen (expectOr_blames .variableName trivial (fun _ => not_identifier) rest)
    fun name rest _ => ?_
  exact .andThen (brackets_blames rest) fun brackets rest _ => .map (initialization_blames rest) _

theorem variableDecls_blames (s : List Token) : (variableDecls s).Blames := by
  rw [variableDecls]
  refine .andThen (variableDecl_blames s) fun first rest hlength => ?_
  cases rest with
  | nil => exact .done _
  | cons t rest =>
    dsimp only
    split
    · exact .relax (.after (.map (variableDecls_blames rest) _) t)
    · exact .done _
termination_by s.length
decreasing_by simp at hlength; omega

theorem declaration_blames (line : Nat) (s : List Token) : (declaration line s).Blames :=
  .andThen (typeName_blames s) fun _ rest _ => .map (variableDecls_blames rest) _

/-! ### Statements -/

theorem tokensOnLine_blames (line : Nat) (s : List Token) : (tokensOnLine line s).Blames := by
  fun_induction tokensOnLine line s with
  | case1 => exact .done _
  | case2 t rest hline ih => exact .relax (.after (.map ih _) t)
  | case3 t rest hline => exact .done _

theorem directive_blames (s : List Token) : (directive s).Blames :=
  .andThen (expectOr_blames (.expected .preprocessor none) trivial (fun _ h => h) s)
    fun t rest _ => .map (tokensOnLine_blames t.line rest) _

theorem optionalExpr_blames (closing : String) (s : List Token) :
    (optionalExpr closing s).Blames := by
  unfold optionalExpr
  split
  · exact .done _
  · exact .relax (.map (assignment_blames s) _)

theorem exprInParens_blames (s : List Token) : (exprInParens s).Blames :=
  .andThen (punct_blames "(" s) fun _ rest _ =>
    .andThen (assignment_blames rest) fun _ rest _ => .map (punct_blames ")" rest) _

theorem forInit_blames (line : Nat) (s : List Token) : (forInit line s).Blames := by
  unfold forInit
  split
  · exact .done _
  · split
    · exact .relax (.map (declaration_blames line s) _)
    · exact .relax (.map (assignment_blames s) _)

theorem forClauses_blames (line : Nat) (s : List Token) : (forClauses line s).Blames := by
  refine .andThen (punct_blames "(" s) fun _ rest _ => ?_
  refine .andThen (forInit_blames line rest) fun init rest _ => ?_
  refine .andThen (punct_blames ";" rest) fun _ rest _ => ?_
  refine .andThen (optionalExpr_blames ";" rest) fun condition rest _ => ?_
  refine .andThen (punct_blames ";" rest) fun _ rest _ => ?_
  refine .andThen (optionalExpr_blames ")" rest) fun update rest _ => ?_
  exact .map (punct_blames ")" rest) _

theorem doCondition_blames (s : List Token) : (doCondition s).Blames := by
  refine .andThen (expectOr_blames .whileAfterDo trivial ?_ s) fun _ rest _ => ?_
  · rintro t hnot ⟨hkind, htext⟩
    exact hnot ⟨hkind, Or.inr (congrArg some htext.symm)⟩
  · exact .andThen (exprInParens_blames rest) fun _ rest _ => .map (punct_blames ";" rest) _

theorem declStmt_blames (line : Nat) (s : List Token) : (declStmt line s).Blames :=
  .andThen (declaration_blames line s) fun _ rest _ => .map (punct_blames ";" rest) _

theorem exprStmt_blames (line : Nat) (s : List Token) : (exprStmt line s).Blames :=
  .andThen (assignment_blames s) fun _ rest _ => .map (punct_blames ";" rest) _

mutual

theorem statement_blames (s : List Token) : (statement s).Blames := by
  match s with
  | [] =>
    rw [statement]
    exact .fail trivial
  | t :: s =>
    unfold statement
    split
    · exact .map (directive_blames (t :: s)) _
    · split
      · exact .map (block_blames (t :: s)) _
      · split
        · exact .after (.done _) t
        · split
          · -- a choice may have a second branch
            refine .after (.andThen (exprInParens_blames s) fun condition rest hlength => ?_) t
            refine .andThen (statement_blames rest) fun whenTrue rest' hlength' => ?_
            cases rest' with
            | nil => exact .done _
            | cons u rest' =>
              dsimp only
              split
              · exact .relax (.after (.map (statement_blames rest') _) u)
              · exact .done _
          · exact .after (.andThen (forClauses_blames t.line s) fun clauses rest hlength =>
              .map (statement_blames rest) _) t
          · exact .after (.andThen (exprInParens_blames s) fun condition rest hlength =>
              .map (statement_blames rest) _) t
          · exact .after (.andThen (statement_blames s) fun body rest _ =>
              .map (doCondition_blames rest) _) t
          · exact .after (.andThen (exprInParens_blames s) fun subject rest hlength =>
              .map (statement_blames rest) _) t
          · exact .after (.andThen (optionalExpr_blames ";" s) fun value rest _ =>
              .map (punct_blames ";" rest) _) t
          · exact .after (.andThen (conditional_blames s) fun label rest _ =>
              .map (punct_blames ":" rest) _) t
          · exact .after (.map (punct_blames ":" s) _) t
          · exact .after (.map (punct_blames ";" s) _) t
          · exact .after (.map (punct_blames ";" s) _) t
          · split
            · exact declStmt_blames t.line (t :: s)
            · exact exprStmt_blames t.line (t :: s)
termination_by 3 * s.length + 1
decreasing_by
  all_goals simp at *
  all_goals omega

theorem block_blames (s : List Token) : (block s).Blames := by
  rw [block]
  refine .andThen (punct_blames _ s) fun brace rest hlength => ?_
  exact .andThen (statements_blames rest) fun body rest _ => .map (punct_blames _ rest) _
termination_by 3 * s.length
decreasing_by simp at hlength; omega

theorem statements_blames (s : List Token) : (statements s).Blames := by
  match s with
  | [] =>
    rw [statements]
    exact .fail trivial
  | t :: s =>
    rw [statements]
    split
    · exact .done _
    · exact .relax (.andThen (statement_blames (t :: s)) fun first rest hlength =>
        .map (statements_blames rest) _)
termination_by 3 * s.length + 2
decreasing_by
  · omega
  · simp at hlength ⊢; omega

end

/-! ### Programs -/

theorem skipToBracket_blames (s : List Token) : (skipToBracket s).Blames := by
  fun_induction skipToBracket s with
  | case1 => exact .fail trivial
  | case2 t rest hat => exact .done _
  | case3 t rest hat ih => exact .relax (.after ih t)

theorem parameterBrackets_blames (s : List Token) : (parameterBrackets s).Blames := by
  cases s with
  | nil => exact .done _
  | cons t s =>
    rw [parameterBrackets]
    split
    · exact .relax (.after (.andThen (skipToBracket_blames s) fun _ rest _ =>
        .map (punct_blames "]" rest) _) t)
    · exact .done _

theorem parameterName_blames (s : List Token) : (parameterName s).Blames := by
  cases s with
  | nil => exact .done _
  | cons t s =>
    rw [parameterName]
    split
    · exact .relax (.after (.done _) t)
    · exact .done _

theorem parameter_blames (s : List Token) : (parameter s).Blames := by
  cases s with
  | nil => exact .fail trivial
  | cons t s =>
    rw [parameter]
    split
    · exact .relax (.after (.done _) t)
    · refine .andThen (typeName_blames (t :: s)) fun type rest _ => ?_
      refine .andThen (stars_blames rest) fun depth rest _ => ?_
      refine .andThen (parameterName_blames rest) fun name rest _ => ?_
      exact .map (parameterBrackets_blames rest) _

theorem parameters_blames (s : List Token) : (parameters s).Blames := by
  rw [parameters]
  refine .andThen (parameter_blames s) fun first rest hlength => ?_
  cases rest with
  | nil => exact .done _
  | cons t rest =>
    dsimp only
    split
    · exact .relax (.after (.map (parameters_blames rest) _) t)
    · exact .done _
termination_by s.length
decreasing_by simp at hlength; omega

theorem parameterList_blames (s : List Token) : (parameterList s).Blames := by
  unfold parameterList
  split
  · exact .done _
  · split
    · split
      · exact .done _
      · exact .relax (.after (.done _) _)
    · exact parameters_blames s

theorem functionName_blames (s : List Token) : (functionName s).Blames := by
  cases s with
  | nil => exact .fail trivial
  | cons t s =>
    rw [functionName]
    split
    · exact .after (.done _) t
    · next hname => exact .fail (Bool.eq_false_iff.2 hname)

theorem functionDefinition_blames (line : Nat) (type : CType) (s : List Token) :
    (functionDefinition line type s).Blames := by
  refine .andThen (stars_blames s) fun depth rest _ => ?_
  refine .andThen (functionName_blames rest) fun name rest _ => ?_
  refine .andThen (punct_blames "(" rest) fun _ rest _ => ?_
  refine .andThen (parameterList_blames rest) fun parameters rest _ => ?_
  refine .andThen (punct_blames ")" rest) fun _ rest _ => ?_
  exact .map (block_blames rest) _

theorem structFields_blames (s : List Token) : (structFields s).Blames := by
  match s with
  | [] =>
    rw [structFields]
    exact .fail trivial
  | t :: s =>
    rw [structFields]
    split
    · exact .done _
    · refine .relax (.andThen (declaration_blames t.line (t :: s)) fun first rest hlength => ?_)
      refine .andThen (punct_blames ";" rest) fun _ rest' hlength' => ?_
      exact .map (structFields_blames rest') _
termination_by s.length
decreasing_by simp at hlength hlength' ⊢; omega

theorem structDefinition_blames (line : Nat) (tag : String) (s : List Token) :
    (structDefinition line tag s).Blames := by
  refine .andThen (punct_blames _ s) fun _ rest _ => ?_
  refine .andThen (structFields_blames rest) fun fields rest _ => ?_
  refine .andThen (punct_blames _ rest) fun _ rest _ => ?_
  exact .map (punct_blames ";" rest) _

theorem typedItem_blames (line : Nat) (s : List Token) : (typedItem line s).Blames := by
  refine .andThen (typeName_blames s) fun type rest _ => ?_
  split
  · exact .map (functionDefinition_blames line type rest) _
  · exact .andThen (variableDecls_blames rest) fun vars rest _ => .map (punct_blames ";" rest) _

theorem item_blames (t : Token) (s : List Token) : (item (t :: s)).Blames := by
  unfold item
  dsimp only
  split
  · exact .map (directive_blames (t :: s)) _
  · next hkind =>
    split
    · split
      · split
        · exact .after (.after (.map (structDefinition_blames t.line _ _) _) _) t
        · exact typedItem_blames t.line _
      · exact typedItem_blames t.line _
    · next hstarts => exact .fail ⟨hkind, Bool.eq_false_iff.2 hstarts⟩

/-- **Whatever problem a program has is reported where there is one.** -/
theorem items_blames (s : List Token) : (items s).Blames := by
  match s with
  | [] =>
    rw [items]
    exact .done _
  | t :: s =>
    rw [items]
    exact .relax (.andThen (item_blames t s) fun first rest hlength => .map (items_blames rest) _)
termination_by s.length
decreasing_by simp at hlength ⊢; omega

end Blames

end Grammar

end Stepwise
