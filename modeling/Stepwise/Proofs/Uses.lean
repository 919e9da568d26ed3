/-
What a program uses its tokens for.

The grammar of programs is given here as a relation between a tree and the tokens it was
read from, each of them with what it is used for: whether it stands between two operands,
and where. Most tokens are code. The tokens on the line of a directive are not, and the
brackets behind a declared name hold a size, which the tree keeps apart from its other
expressions. What stands in the brackets of a parameter is passed over, and the tree has
nothing of it.

Here an operator is a token of that kind, which the readers ask for, and what binds
tighter than what makes no difference. Every reader follows this grammar (`parse_uses`):
a program that was read uses exactly the tokens it was read from.
-/
import Stepwise.Proofs.Toplevel

set_option autoImplicit false

namespace Stepwise

/-- The token is the operator with a text. -/
def Token.Signs (t : Token) (text : String) : Prop :=
  t.kind = .operator ∧ t.text = text

/-! ## Uses of tokens -/

/-- Where a token stands. -/
inductive Spot where
  /-- Among what the program does. -/
  | code
  /-- On the line of a directive. -/
  | directive
  /-- In the brackets behind a declared name. -/
  | size
  /-- In the brackets of a parameter. -/
  | parameter
deriving DecidableEq

/-- A token and what it is used for. -/
structure Use where
  /-- The token. -/
  token : Token
  /-- Where it stands. -/
  spot : Spot := .code
  /-- Does it stand between two operands? -/
  between : Bool := false

namespace Use

/-- A token of the code that stands between no operands. -/
def plain (t : Token) : Use := { token := t }

/-- A token of the code between two operands. -/
def operator (t : Token) : Use := { token := t, between := true }

/-- A token at a spot. -/
def standing (spot : Spot) (t : Token) : Use := { token := t, spot := spot }

/-- The same token used for the same, but at a spot. -/
def moved (spot : Spot) (u : Use) : Use := { u with spot := spot }

@[simp] theorem token_plain (t : Token) : (plain t).token = t := rfl

@[simp] theorem token_operator (t : Token) : (operator t).token = t := rfl

@[simp] theorem token_comp_plain : token ∘ plain = id := rfl

@[simp] theorem token_comp_standing (spot : Spot) : token ∘ standing spot = id := rfl

@[simp] theorem token_comp_moved (spot : Spot) : token ∘ moved spot = token := rfl

end Use

open Grammar

/-! ## Expressions -/

mutual

/-- The tokens that an expression uses. -/
inductive Expr.Uses : Expr → List Use → Prop where
  | literal {t : Token} : t.kind = .literal → Uses (.literal t.line t.text) [.plain t]
  | name {t : Token} : isName t → Uses (.name t.line t.text) [.plain t]
  | bareCall {t opener closer : Token} : isName t → isAt "(" opener → isAt ")" closer →
      Uses (.call t.line t.text []) [.plain t, .plain opener, .plain closer]
  | call {us : List Use} {t opener closer : Token} {arguments : List Expr} :
      isName t → isAt "(" opener → UsesAll arguments us → isAt ")" closer →
      Uses (.call t.line t.text arguments) (.plain t :: .plain opener :: (us ++ [.plain closer]))
  | index {us : List Use} {t opener closer : Token} {position : Expr} :
      isName t → isAt "[" opener → Uses position us → isAt "]" closer →
      Uses (.index t.line t.text position) (.plain t :: .plain opener :: (us ++ [.plain closer]))
  | parens {us : List Use} {opener closer : Token} {e : Expr} :
      isAt "(" opener → Uses e us → isAt ")" closer →
      Uses e (.plain opener :: (us ++ [.plain closer]))
  | member {us : List Use} {t m : Token} {arrow : Bool} {object : Expr} :
      Uses object us → isAt (if arrow then "->" else ".") t → m.kind = .identifier →
      Uses (.member t.line arrow object m.text) (us ++ [.plain t, .plain m])
  | stepAfter {us : List Use} {t : Token} {op : StepOp} {operand : Expr} :
      Uses operand us → t.Signs op.text → Uses (.stepAfter t.line op operand) (us ++ [.plain t])
  | unary {us : List Use} {t : Token} {op : UnaryOp} {operand : Expr} :
      t.Signs op.text → Uses operand us → Uses (.unary t.line op operand) (.plain t :: us)
  | sizeOfType {s : List Token} {t opener closer : Token} {type : CType} :
      isSizeOf t → isAt "(" opener → IsType s type → isAt ")" closer →
      Uses (.sizeOfType t.line type)
        (.plain t :: .plain opener :: (s.map .plain ++ [.plain closer]))
  | sizeOf {us : List Use} {t : Token} {operand : Expr} :
      isSizeOf t → Uses operand us → Uses (.sizeOf t.line operand) (.plain t :: us)
  | cast {us : List Use} {s : List Token} {opener closer : Token} {type : CType} {operand : Expr} :
      isAt "(" opener → IsType s type → isAt ")" closer → Uses operand us →
      Uses (.cast opener.line type operand)
        (.plain opener :: (s.map .plain ++ .plain closer :: us))
  | binary {us vs : List Use} {t : Token} {op : BinaryOp} {left right : Expr} :
      Uses left us → t.Signs op.text → Uses right vs →
      Uses (.binary t.line op left right) (us ++ .operator t :: vs)
  | logic {us vs : List Use} {t : Token} {op : LogicOp} {left right : Expr} :
      Uses left us → t.Signs op.text → Uses right vs →
      Uses (.logic t.line op left right) (us ++ .operator t :: vs)
  | conditional {us vs ws : List Use} {t colon : Token} {e₁ e₂ e₃ : Expr} :
      Uses e₁ us → isAt "?" t → Uses e₂ vs → isAt ":" colon → Uses e₃ ws →
      Uses (.conditional t.line e₁ e₂ e₃) (us ++ .plain t :: (vs ++ .plain colon :: ws))
  | assign {us vs : List Use} {t : Token} {op : Option ArithOp} {target value : Expr} :
      Uses target us → t.Signs (assignText op) → Uses value vs →
      Uses (.assign t.line op target value) (us ++ .operator t :: vs)

/-- The tokens that expressions use, joined by commas. -/
inductive Expr.UsesAll : List Expr → List Use → Prop where
  | one {us : List Use} {e : Expr} : Uses e us → UsesAll [e] us
  | more {us vs : List Use} {comma : Token} {e : Expr} {rest : List Expr} :
      Uses e us → isAt "," comma → UsesAll rest vs →
      UsesAll (e :: rest) (us ++ .plain comma :: vs)

end

/-! ## Declarations -/

/-- The tokens that the words of a type use. -/
def CType.Uses (type : CType) (us : List Use) : Prop :=
  ∃ (s : List Token) (words : List String), TypeWords s words ∧ us = s.map .plain ∧
    type = ⟨" ".intercalate words⟩

/-- The tokens that a number of stars uses. -/
def StarUses (depth : Nat) (us : List Use) : Prop :=
  ∃ s : List Token, (∀ star ∈ s, isAt "*" star) ∧ us = s.map .plain ∧ depth = s.length

mutual

/-- The tokens that an initializer uses. -/
inductive Init.Uses : Init → List Use → Prop where
  | expr {us : List Use} {e : Expr} : e.Uses us → Uses (.expr e) us
  | list {us : List Use} {opener closer : Token} {items : List Init} :
      isAt "\x7b" opener → UsesAll items us → isAt "\x7d" closer →
      Uses (.list opener.line items) (.plain opener :: (us ++ [.plain closer]))

/-- The tokens that the items of a braced initializer use; a comma may stand behind the last. -/
inductive Init.UsesAll : List Init → List Use → Prop where
  | nil : UsesAll [] []
  | one {us : List Use} {item : Init} : Uses item us → UsesAll [item] us
  | more {us vs : List Use} {comma : Token} {item : Init} {items : List Init} :
      Uses item us → isAt "," comma → UsesAll items vs →
      UsesAll (item :: items) (us ++ .plain comma :: vs)

end

/-- The tokens that the brackets behind a declared name use. Those of a size are set apart. -/
inductive Brackets.Uses : Brackets → List Use → Prop where
  | none : Uses .none []
  | unsized {opener closer : Token} : isAt "[" opener → isAt "]" closer →
      Uses .unsized [.plain opener, .plain closer]
  | sized {us : List Use} {opener closer : Token} {size : Expr} :
      isAt "[" opener → size.Uses us → isAt "]" closer →
      Uses (.sized size) (.plain opener :: (us.map (.moved .size) ++ [.plain closer]))

/-- The tokens that an initializer uses together with its equals sign, if there is one. -/
inductive Init.UsesOption : Option Init → List Use → Prop where
  | none : UsesOption none []
  | some {us : List Use} {equals : Token} {init : Init} :
      isAt "=" equals → init.Uses us → UsesOption (some init) (.plain equals :: us)

/-- The tokens that a declared name uses. -/
inductive Variable.Uses : Variable → List Use → Prop where
  | mk {sus bus ius : List Use} {depth : Nat} {name : Token} {brackets : Brackets}
      {init : Option Init} :
      StarUses depth sus → name.kind = .identifier → brackets.Uses bus → Init.UsesOption init ius →
      Uses ⟨name.line, name.text, depth, brackets, init⟩ (sus ++ .plain name :: (bus ++ ius))

/-- The tokens that declared names use, joined by commas. -/
inductive Variable.UsesAll : List Variable → List Use → Prop where
  | one {us : List Use} {v : Variable} : v.Uses us → UsesAll [v] us
  | more {us vs : List Use} {comma : Token} {v : Variable} {vars : List Variable} :
      v.Uses us → isAt "," comma → UsesAll vars vs →
      UsesAll (v :: vars) (us ++ .plain comma :: vs)

/-- The tokens that a declaration uses. -/
inductive Decl.Uses : Decl → List Use → Prop where
  | mk {us vs : List Use} {type : CType} {vars : List Variable} (line : Nat) :
      type.Uses us → Variable.UsesAll vars vs → Uses ⟨line, type, vars⟩ (us ++ vs)

/-! ## Statements -/

/-- The tokens that a directive uses: those of its line. -/
inductive Directive.Uses : Directive → List Use → Prop where
  | mk {t : Token} {s : List Token} : t.kind = .preprocessor → (∀ u ∈ s, u.line = t.line) →
      Uses ⟨t.line, t.text, s.map Token.text⟩ ((t :: s).map (.standing .directive))

/-- The tokens that an expression uses, if there is one. -/
inductive Expr.UsesOption : Option Expr → List Use → Prop where
  | none : UsesOption none []
  | some {us : List Use} {e : Expr} : e.Uses us → UsesOption (some e) us

/-- The tokens that an expression in parentheses uses. -/
inductive Expr.UsesInParens : Expr → List Use → Prop where
  | mk {us : List Use} {opener closer : Token} {e : Expr} :
      isAt "(" opener → e.Uses us → isAt ")" closer →
      UsesInParens e (.plain opener :: (us ++ [.plain closer]))

/-- The tokens that the first clause of a for loop uses. -/
inductive ForInit.Uses : ForInit → List Use → Prop where
  | none : Uses .none []
  | decl {us : List Use} {d : Decl} : d.Uses us → Uses (.decl d) us
  | expr {us : List Use} {e : Expr} : e.Uses us → Uses (.expr e) us

mutual

/-- The tokens that a statement uses. -/
inductive Stmt.Uses : Stmt → List Use → Prop where
  | directive {us : List Use} {d : Directive} : d.Uses us → Uses (.directive d) us
  | block {us : List Use} {opener closer : Token} {body : List Stmt} :
      isAt "\x7b" opener → UsesAll body us → isAt "\x7d" closer →
      Uses (.block opener.line body) (.plain opener :: (us ++ [.plain closer]))
  | empty {semicolon : Token} : isAt ";" semicolon → Uses (.empty semicolon.line) [.plain semicolon]
  | decl {us : List Use} {semicolon : Token} {d : Decl} : d.Uses us → isAt ";" semicolon →
      Uses (.decl d) (us ++ [.plain semicolon])
  | expr {us : List Use} {semicolon : Token} {e : Expr} (line : Nat) : e.Uses us →
      isAt ";" semicolon → Uses (.expr line e) (us ++ [.plain semicolon])
  | cond {us vs : List Use} {t : Token} {condition : Expr} {whenTrue : Stmt} :
      leading? t = some .cond → condition.UsesInParens us → Uses whenTrue vs →
      Uses (.cond t.line condition whenTrue none) (.plain t :: (us ++ vs))
  | condElse {us vs ws : List Use} {t other : Token} {condition : Expr} {whenTrue whenFalse : Stmt} :
      leading? t = some .cond → condition.UsesInParens us → Uses whenTrue vs → isAt "else" other →
      Uses whenFalse ws →
      Uses (.cond t.line condition whenTrue (some whenFalse))
        (.plain t :: (us ++ (vs ++ .plain other :: ws)))
  | forLoop {us vs ws xs : List Use} {t opener first second closer : Token} {init : ForInit}
      {condition update : Option Expr} {body : Stmt} :
      leading? t = some .forLoop → isAt "(" opener → init.Uses us → isAt ";" first →
      Expr.UsesOption condition vs → isAt ";" second → Expr.UsesOption update ws →
      isAt ")" closer → Uses body xs →
      Uses (.forLoop t.line init condition update body)
        (.plain t :: .plain opener :: (us ++ .plain first ::
          (vs ++ .plain second :: (ws ++ .plain closer :: xs))))
  | whileLoop {us vs : List Use} {t : Token} {condition : Expr} {body : Stmt} :
      leading? t = some .whileLoop → condition.UsesInParens us → Uses body vs →
      Uses (.whileLoop t.line condition body) (.plain t :: (us ++ vs))
  | doLoop {us vs : List Use} {t while_ semicolon : Token} {body : Stmt} {condition : Expr} :
      leading? t = some .doLoop → Uses body us → while_.text = "while" →
      condition.UsesInParens vs → isAt ";" semicolon →
      Uses (.doLoop t.line body condition)
        (.plain t :: (us ++ .plain while_ :: (vs ++ [.plain semicolon])))
  | switch {us vs : List Use} {t : Token} {subject : Expr} {body : Stmt} :
      leading? t = some .switch → subject.UsesInParens us → Uses body vs →
      Uses (.switch t.line subject body) (.plain t :: (us ++ vs))
  | caseLabel {us : List Use} {t colon : Token} {label : Expr} :
      leading? t = some .caseLabel → label.Uses us → isAt ":" colon →
      Uses (.caseLabel t.line label) (.plain t :: (us ++ [.plain colon]))
  | defaultLabel {t colon : Token} : leading? t = some .defaultLabel → isAt ":" colon →
      Uses (.defaultLabel t.line) [.plain t, .plain colon]
  | breakOut {t semicolon : Token} : leading? t = some .breakOut → isAt ";" semicolon →
      Uses (.breakOut t.line) [.plain t, .plain semicolon]
  | continueOn {t semicolon : Token} : leading? t = some .continueOn → isAt ";" semicolon →
      Uses (.continueOn t.line) [.plain t, .plain semicolon]
  | ret {us : List Use} {t semicolon : Token} {value : Option Expr} :
      leading? t = some .ret → Expr.UsesOption value us → isAt ";" semicolon →
      Uses (.ret t.line value) (.plain t :: (us ++ [.plain semicolon]))

/-- The tokens that statements use one after the other. -/
inductive Stmt.UsesAll : List Stmt → List Use → Prop where
  | nil : UsesAll [] []
  | cons {us vs : List Use} {s : Stmt} {rest : List Stmt} : Uses s us → UsesAll rest vs →
      UsesAll (s :: rest) (us ++ vs)

end

/-! ## Programs -/

/-- The tokens that the name of a parameter uses. -/
inductive Parameter.UsesName : String → List Use → Prop where
  | none : UsesName "" []
  | some {name : Token} : name.kind = .identifier → UsesName name.text [.plain name]

/-- The tokens that the brackets of a parameter use. Those between them are passed over. -/
inductive Parameter.UsesBrackets : Bool → List Use → Prop where
  | none : UsesBrackets false []
  | some {s : List Token} {opener closer : Token} : isAt "[" opener → isAt "]" closer →
      UsesBrackets true (.plain opener :: (s.map (.standing .parameter) ++ [.plain closer]))

/-- The tokens that a parameter uses. -/
inductive Parameter.Uses : Parameter → List Use → Prop where
  | dots {t : Token} : isAt "..." t → Uses ⟨⟨"..."⟩, "", false, false⟩ [.plain t]
  | declared {tus sus nus bus : List Use} {type : CType} {depth : Nat} {name : String}
      {isArray : Bool} :
      type.Uses tus → StarUses depth sus → UsesName name nus → UsesBrackets isArray bus →
      Uses ⟨starred type (depth - 1), name, 0 < depth, isArray⟩ (tus ++ (sus ++ (nus ++ bus)))

/-- The tokens that parameters use, joined by commas. -/
inductive Parameter.UsesAll : List Parameter → List Use → Prop where
  | one {us : List Use} {p : Parameter} : p.Uses us → UsesAll [p] us
  | more {us vs : List Use} {comma : Token} {p : Parameter} {rest : List Parameter} :
      p.Uses us → isAt "," comma → UsesAll rest vs → UsesAll (p :: rest) (us ++ .plain comma :: vs)

/-- The tokens that the parameters of a function use between its parentheses. -/
inductive Parameter.UsesList : List Parameter → List Use → Prop where
  | none : UsesList [] []
  | void {t : Token} : isAt "void" t → UsesList [] [.plain t]
  | some {us : List Use} {parameters : List Parameter} : UsesAll parameters us →
      UsesList parameters us

/-- The tokens that a function definition uses. -/
inductive Function.Uses : Function → List Use → Prop where
  | mk {tus sus pus bus : List Use} {type : CType} {depth : Nat}
      {name opener closer brace closing : Token} {parameters : List Parameter} {body : List Stmt}
      (line : Nat) :
      type.Uses tus → StarUses depth sus → isName name → isAt "(" opener →
      Parameter.UsesList parameters pus → isAt ")" closer → isAt "\x7b" brace →
      Stmt.UsesAll body bus → isAt "\x7d" closing →
      Uses ⟨line, name.text, starred type depth, parameters, brace.line, body⟩
        (tus ++ (sus ++ .plain name :: .plain opener ::
          (pus ++ .plain closer :: .plain brace :: (bus ++ [.plain closing]))))

/-- The tokens that the members of a struct use. -/
inductive Decl.UsesFields : List Decl → List Use → Prop where
  | nil : UsesFields [] []
  | cons {us vs : List Use} {semicolon : Token} {d : Decl} {rest : List Decl} :
      d.Uses us → isAt ";" semicolon → UsesFields rest vs →
      UsesFields (d :: rest) (us ++ .plain semicolon :: vs)

/-- The tokens that a struct definition uses. -/
inductive Struct.Uses : Struct → List Use → Prop where
  | mk {us : List Use} {t tag opener closer semicolon : Token} {fields : List Decl} :
      isAt "struct" t → tag.kind = .identifier → isAt "\x7b" opener → Decl.UsesFields fields us →
      isAt "\x7d" closer → isAt ";" semicolon →
      Uses ⟨t.line, tag.text, fields⟩
        (.plain t :: .plain tag :: .plain opener :: (us ++ [.plain closer, .plain semicolon]))

/-- The tokens that an item uses. -/
inductive Item.Uses : Item → List Use → Prop where
  | directive {us : List Use} {d : Directive} : d.Uses us → Uses (.directive d) us
  | struct {us : List Use} {s : Struct} : s.Uses us → Uses (.struct s) us
  | function {us : List Use} {f : Function} : f.Uses us → Uses (.function f) us
  | decl {us : List Use} {semicolon : Token} {d : Decl} : d.Uses us → isAt ";" semicolon →
      Uses (.decl d) (us ++ [.plain semicolon])

/-- The tokens that items use one after the other. -/
inductive Item.UsesAll : List Item → List Use → Prop where
  | nil : UsesAll [] []
  | cons {us vs : List Use} {i : Item} {rest : List Item} : i.Uses us → UsesAll rest vs →
      UsesAll (i :: rest) (us ++ vs)

/-- The tokens that a program uses. -/
def Program.Uses (p : Program) (us : List Use) : Prop :=
  Item.UsesAll p.items us

/-! ## The readers use what they take -/

namespace Grammar

/-- From the first tokens on up to the second ones, they are used as the relation says. -/
def UsesUpTo {α : Type} (R : α → List Use → Prop) (s rest : List Token) (a : α) : Prop :=
  ∃ us, s = us.map Use.token ++ rest ∧ R a us

/-- A reader uses the tokens it takes. -/
def Parse.Uses {α : Type} {strict : Bool} {s : List Token} (p : Parse strict s α)
    (R : α → List Use → Prop) : Prop :=
  p.Meets fun a rest => UsesUpTo R s rest a

variable {s : List Token}

/-- Punctuation is the first token, and the reader gives it. -/
theorem punct_takes (text : String) (s : List Token) :
    (punct text s).Meets fun t rest => s = t :: rest ∧ isAt text t = true := by
  refine (expectOr_spans _ _ _ s).imp ?_
  rintro t rest ⟨hs, hkind, htext⟩
  refine ⟨hs, isAt_iff.2 ⟨?_, by rw [hkind]; decide⟩⟩
  rcases htext with htext | htext
  · cases htext
  · exact (Option.some.inj htext).symm

/-! ### Expressions -/

theorem signs_of_find? {α : Type} {t : Token} {text : α → String} {all : List α} {a : α}
    (h : (if t.kind = .operator then all.find? (fun b => text b == t.text) else none) = some a) :
    t.Signs (text a) := by
  have htext := (isAt_iff.1 (isAt_of_find? h)).1
  by_cases hkind : t.kind = .operator
  · exact ⟨hkind, htext⟩
  · rw [if_neg hkind] at h
    cases h

theorem kind_of_operatorAt? {l : Level} {t : Token} {make : Expr → Expr → Expr}
    (h : operatorAt? l t = some make) : t.kind = .operator := by
  by_contra hkind
  rw [operatorAt?, if_neg hkind] at h
  cases h

/-- A binary operator of any level uses its token and those of its operands. -/
theorem UsesUpTo.operation {s mid rest : List Token} {l : Level} {t : Token} {left right : Expr}
    {make : Expr → Expr → Expr} (hmake : operatorAt? l t = some make)
    (hleft : UsesUpTo Expr.Uses s (t :: mid) left) (hright : UsesUpTo Expr.Uses mid rest right) :
    UsesUpTo Expr.Uses s rest (make left right) := by
  obtain ⟨us, rfl, hus⟩ := hleft
  obtain ⟨vs, rfl, hvs⟩ := hright
  have hkind := kind_of_operatorAt? hmake
  rcases operatorAt?_eq_some hmake with ⟨op, _, hop, rfl⟩ | ⟨op, _, hop, rfl⟩
  · exact ⟨_, by simp, .logic hus ⟨hkind, (isAt_iff.1 hop).1⟩ hvs⟩
  · exact ⟨_, by simp, .binary hus ⟨hkind, (isAt_iff.1 hop).1⟩ hvs⟩

theorem selections_uses {s₀ s : List Token} {e : Expr} (h : UsesUpTo Expr.Uses s₀ s e) :
    (selections e s).Meets fun e rest => UsesUpTo Expr.Uses s₀ rest e := by
  fun_induction selections e s with
  | case1 => exact .done h
  | case2 e t hat => exact .relax (.after (.fail _))
  | case3 e t hat m rest hkind ih =>
    refine .relax (.after (.after (ih ?_)))
    obtain ⟨us, rfl, hus⟩ := h
    refine ⟨us ++ [.plain t, .plain m], by simp, .member hus ?_ hkind⟩
    -- which of the two signs it is decides what the tree says, and it is not both
    rw [Bool.or_eq_true] at hat
    by_cases harrow : t.text = "->"
    · have hdot : ¬isAt "." t = true := by simp [isAt_iff, harrow]
      simpa [harrow] using hat.resolve_left hdot
    · have hno : ¬isAt "->" t = true := fun h => harrow (isAt_iff.1 h).1
      simpa [harrow] using hat.resolve_right hno
  | case4 e t hat m rest hkind => exact .relax (.after (.fail _))
  | case5 e t rest hat op hop ih =>
    refine .relax (.after (ih ?_))
    obtain ⟨us, rfl, hus⟩ := h
    exact ⟨us ++ [.plain t], by simp, .stepAfter hus (signs_of_find? hop)⟩
  | case6 e t rest hat hop => exact .done h

mutual

/-- The induction is that of the readers: on the tokens, and for the same tokens on how tightly they
bind. -/
theorem assignment_uses (s : List Token) : (assignment s).Uses Expr.Uses := by
  rw [assignment]
  refine .andThen (conditional_uses s) fun left rest hlength hleft => ?_
  obtain ⟨us, hs, hus⟩ := hleft
  cases rest with
  | nil => exact .done ⟨us, hs, hus⟩
  | cons t rest =>
    dsimp only
    split
    · next op hop =>
      refine .relax (.after (.map ((assignment_uses rest).imp ?_)))
      rintro right rest' ⟨vs, rfl, hvs⟩
      exact ⟨us ++ .operator t :: vs, by simp [hs], .assign hus (signs_of_find? hop) hvs⟩
    · exact .done ⟨us, hs, hus⟩
termination_by 20 * s.length + 11
decreasing_by
  · omega
  · simp at hlength; omega

theorem conditional_uses (s : List Token) : (conditional s).Uses Expr.Uses := by
  rw [conditional]
  refine .andThen (binary_uses Level.all s) fun condition rest hlength hcondition => ?_
  obtain ⟨us, hs, hus⟩ := hcondition
  cases rest with
  | nil => exact .done ⟨us, hs, hus⟩
  | cons t rest =>
    dsimp only
    split
    · next hat =>
      refine .relax (.after (.andThen (assignment_uses rest) ?_))
      rintro whenTrue rest₁ hlength₁ ⟨vs, hrest, hvs⟩
      refine .andThen (punct_takes ":" rest₁) ?_
      rintro colon rest₂ hlength₂ ⟨hrest₁, hcolon⟩
      refine .map ((conditional_uses rest₂).imp ?_)
      rintro whenFalse rest₃ ⟨ws, rfl, hws⟩
      exact ⟨us ++ .plain t :: (vs ++ .plain colon :: ws), by simp [hs, hrest, hrest₁],
        .conditional hus hat hvs hcolon hws⟩
    · exact .done ⟨us, hs, hus⟩
termination_by 20 * s.length + 10
decreasing_by
  · simp [Level.all]
  · simp at hlength; omega
  · simp at hlength hlength₁ hlength₂; omega

theorem binary_uses (levels : List Level) (s : List Token) : (binary levels s).Uses Expr.Uses := by
  match levels with
  | [] =>
    rw [binary]
    exact unary_uses s
  | level :: tighter =>
    rw [binary]
    refine .andThen (binary_uses tighter s) fun left rest hlength hleft => ?_
    exact operations_uses level tighter hleft
termination_by 20 * s.length + levels.length + 3
decreasing_by
  · simp
  · simp
  · simp at hlength ⊢; omega

theorem operations_uses (level : Level) (tighter : List Level) {s₀ s : List Token} {left : Expr}
    (hleft : UsesUpTo Expr.Uses s₀ s left) :
    (operations level tighter left s).Meets fun e rest => UsesUpTo Expr.Uses s₀ rest e := by
  match s with
  | [] =>
    rw [operations]
    exact .done hleft
  | t :: s =>
    rw [operations]
    split
    · next make hmake =>
      refine .relax (.after (.andThen (binary_uses tighter s) ?_))
      intro right rest hlength hright
      exact operations_uses level tighter (.operation hmake hleft hright)
    · exact .done hleft
termination_by 20 * s.length + tighter.length
decreasing_by
  · simp; omega
  · simp at hlength ⊢; omega

theorem unary_uses (s : List Token) : (unary s).Uses Expr.Uses := by
  match s with
  | [] =>
    rw [unary]
    exact .fail _
  | t :: s =>
    rw [unary]
    split
    · next op hop =>
      refine .after (.map ((unary_uses s).imp ?_))
      rintro operand rest ⟨us, rfl, hus⟩
      exact ⟨.plain t :: us, rfl, .unary (signs_of_find? hop) hus⟩
    · split
      · next hsize =>
        split
        · next hopens =>
          -- the words of the type are code like any other token
          refine .after (.map ((typeInParens_spans hopens).imp ?_))
          rintro type rest ⟨opener, closer, mid, rfl, hopener, ⟨used, rfl, htype⟩, hcloser⟩
          exact ⟨_, by simp, .sizeOfType hsize hopener htype hcloser⟩
        · refine .after (.map ((unary_uses s).imp ?_))
          rintro operand rest ⟨us, rfl, hus⟩
          exact ⟨.plain t :: us, rfl, .sizeOf hsize hus⟩
      · split
        · next hopens =>
          refine .andThen (typeInParens_spans hopens) fun type rest hlength htype => ?_
          refine .map ((unary_uses rest).imp ?_)
          rintro operand rest' ⟨us, rfl, hus⟩
          obtain ⟨opener, closer, mid, hs, hopener, ⟨used, rfl, htype⟩, hcloser⟩ := htype
          obtain ⟨rfl, rfl⟩ := List.cons.inj hs
          exact ⟨_, by simp, .cast hopener htype hcloser hus⟩
        · exact .andThen (primary_uses (t :: s)) fun e rest _ he => selections_uses he
termination_by 20 * s.length + 2
decreasing_by
  · simp
  · simp
  · simp at hlength ⊢; omega
  · simp

theorem primary_uses (s : List Token) : (primary s).Uses Expr.Uses := by
  match s with
  | [] =>
    rw [primary]
    exact .fail _
  | t :: s =>
    unfold primary
    split
    · next hliteral => exact .after (.done ⟨[.plain t], rfl, .literal hliteral⟩)
    · split
      · next hname =>
        match s with
        | [] => exact .after (.done ⟨[.plain t], rfl, .name hname⟩)
        | u :: s =>
          dsimp only
          split
          · next hat =>
            refine .after (.after (.andThen (arguments_uses s) fun args rest _ hargs => .map ?_))
            refine (punct_takes ")" rest).imp ?_
            rintro closer rest' ⟨rfl, hcloser⟩
            -- a call without arguments has a rule of its own: nothing joined by commas is nothing
            rcases hargs with ⟨rfl, rfl⟩ | ⟨us, rfl, hus⟩
            · exact ⟨_, by simp, .bareCall hname hat hcloser⟩
            · exact ⟨_, by simp, .call hname hat hus hcloser⟩
          · split
            · next hat =>
              refine .after (.after (.andThen (assignment_uses s) fun e rest _ he => .map ?_))
              refine (punct_takes "]" rest).imp ?_
              rintro closer rest' ⟨rfl, hcloser⟩
              obtain ⟨us, rfl, hus⟩ := he
              exact ⟨_, by simp, .index hname hat hus hcloser⟩
            · exact .after (.done ⟨[.plain t], rfl, .name hname⟩)
      · split
        · next hat =>
          refine .after (.andThen (assignment_uses s) fun e rest _ he => .map ?_)
          refine (punct_takes ")" rest).imp ?_
          rintro closer rest' ⟨rfl, hcloser⟩
          obtain ⟨us, rfl, hus⟩ := he
          exact ⟨_, by simp, .parens hat hus hcloser⟩
        · exact .fail _
termination_by 20 * s.length + 1
decreasing_by
  · simp; omega
  · simp; omega
  · simp; omega

/-- There are no arguments, or they use their tokens. -/
theorem arguments_uses (s : List Token) : (arguments s).Meets fun es rest =>
    (es = [] ∧ s = rest) ∨ UsesUpTo Expr.UsesAll s rest es := by
  rw [arguments]
  split
  · exact .done (.inl ⟨rfl, rfl⟩)
  · refine .relax (.andThen (assignment_uses s) fun first rest hlength hfirst => .map ?_)
    exact (moreArguments_uses hfirst).imp fun _ _ => .inr
termination_by 20 * s.length + 12
decreasing_by
  · omega
  · simp at hlength; omega

theorem moreArguments_uses {s₀ s : List Token} {first : Expr}
    (hfirst : UsesUpTo Expr.Uses s₀ s first) :
    (moreArguments s).Meets fun es rest => UsesUpTo Expr.UsesAll s₀ rest (first :: es) := by
  match s, hfirst with
  | [], ⟨us, hs, hus⟩ =>
    rw [moreArguments]
    exact .done ⟨us, hs, .one hus⟩
  | t :: s, ⟨us, hs, hus⟩ =>
    rw [moreArguments]
    split
    · next hat =>
      refine .relax (.after (.andThen (assignment_uses s) ?_))
      intro next rest hlength hnext
      refine .map ((moreArguments_uses hnext).imp ?_)
      rintro more rest' ⟨vs, rfl, hvs⟩
      exact ⟨us ++ .plain t :: vs, by simp [hs], .more hus hat hvs⟩
    · exact .done ⟨us, hs, .one hus⟩
termination_by 20 * s.length
decreasing_by
  · simp; omega
  · simp at hlength ⊢; omega

end

/-! ### Types -/

theorem typeName_uses (s : List Token) : (typeName s).Uses CType.Uses := by
  unfold typeName
  split
  · refine .map ((typeWords_spans s).imp ?_)
    rintro words rest ⟨used, rfl, hused⟩
    exact ⟨used.map .plain, by simp, used, words, hused, rfl, rfl⟩
  · exact .fail _

theorem stars_uses (s : List Token) : (stars s).Uses StarUses := by
  refine (stars_spans s).imp ?_
  rintro depth rest ⟨used, rfl, hdepth, hused⟩
  exact ⟨used.map .plain, by simp, used, hused, rfl, hdepth⟩

/-! ### Declarations -/

theorem exprInit_uses (s : List Token) : (Parse.map Init.expr (assignment s)).Uses Init.Uses := by
  refine .map ((assignment_uses s).imp ?_)
  rintro e rest ⟨us, rfl, hus⟩
  exact ⟨us, rfl, .expr hus⟩

mutual

theorem initializer_uses (s : List Token) : (initializer s).Uses Init.Uses := by
  match s with
  | [] =>
    rw [initializer]
    exact exprInit_uses []
  | t :: s =>
    rw [initializer]
    split
    · refine .andThen (punct_takes _ _) ?_
      rintro opener rest hlength ⟨hs, hopener⟩
      obtain ⟨rfl, rfl⟩ := List.cons.inj hs
      refine .andThen (initializers_uses s) ?_
      rintro items rest _ ⟨us, rfl, hus⟩
      refine .map ((punct_takes _ rest).imp ?_)
      rintro closer rest ⟨rfl, hcloser⟩
      exact ⟨_, by simp, .list hopener hus hcloser⟩
    · exact exprInit_uses (t :: s)
termination_by 2 * s.length
decreasing_by simp; omega

theorem initializers_uses (s : List Token) : (initializers s).Uses Init.UsesAll := by
  rw [initializers]
  split
  · exact .done ⟨[], rfl, .nil⟩
  · refine .relax (.andThen (initializer_uses s) fun first rest hlength hfirst => ?_)
    obtain ⟨us, hs, hus⟩ := hfirst
    cases rest with
    | nil => exact .done ⟨us, hs, .one hus⟩
    | cons t rest =>
      dsimp only
      split
      · next hcomma =>
        refine .relax (.after (.map ((initializers_uses rest).imp ?_)))
        rintro items rest' ⟨vs, rfl, hvs⟩
        exact ⟨us ++ .plain t :: vs, by simp [hs], .more hus hcomma hvs⟩
      · exact .done ⟨us, hs, .one hus⟩
termination_by 2 * s.length + 1
decreasing_by
  · omega
  · simp at hlength; omega

end

theorem brackets_uses (s : List Token) : (brackets s).Uses Brackets.Uses := by
  cases s with
  | nil => exact .done ⟨[], rfl, .none⟩
  | cons opener s =>
    rw [brackets]
    split
    · next hopener =>
      refine .relax ?_
      split
      · refine .after (.map ((punct_takes _ s).imp ?_))
        rintro closer rest ⟨rfl, hcloser⟩
        exact ⟨_, by simp, .unsized hopener hcloser⟩
      · refine .after (.andThen (assignment_uses s) ?_)
        rintro size rest _ ⟨us, rfl, hus⟩
        refine .map ((punct_takes _ rest).imp ?_)
        rintro closer rest ⟨rfl, hcloser⟩
        exact ⟨_, by simp, .sized hopener hus hcloser⟩
    · exact .done ⟨[], rfl, .none⟩

theorem initialization_uses (s : List Token) : (initialization s).Uses Init.UsesOption := by
  cases s with
  | nil => exact .done ⟨[], rfl, .none⟩
  | cons equals s =>
    rw [initialization]
    split
    · next hequals =>
      refine .relax (.after (.map ((initializer_uses s).imp ?_)))
      rintro init rest ⟨us, rfl, hus⟩
      exact ⟨_, by simp, .some hequals hus⟩
    · exact .done ⟨[], rfl, .none⟩

theorem variableDecl_uses (s : List Token) : (variableDecl s).Uses Variable.Uses := by
  refine .andThen (stars_uses s) ?_
  rintro depth rest _ ⟨sus, rfl, hstars⟩
  refine .andThen (expectOr_spans _ _ _ rest) ?_
  rintro name rest _ ⟨rfl, hname, _⟩
  refine .andThen (brackets_uses rest) ?_
  rintro brackets rest _ ⟨bus, rfl, hbrackets⟩
  refine .map ((initialization_uses rest).imp ?_)
  rintro init rest ⟨ius, rfl, hinit⟩
  exact ⟨_, by simp, .mk hstars hname hbrackets hinit⟩

theorem variableDecls_uses (s : List Token) : (variableDecls s).Uses Variable.UsesAll := by
  rw [variableDecls]
  refine .andThen (variableDecl_uses s) fun first rest hlength hfirst => ?_
  obtain ⟨us, hs, hus⟩ := hfirst
  cases rest with
  | nil => exact .done ⟨us, hs, .one hus⟩
  | cons t rest =>
    dsimp only
    split
    · next hcomma =>
      refine .relax (.after (.map ((variableDecls_uses rest).imp ?_)))
      rintro vars rest' ⟨vs, rfl, hvs⟩
      exact ⟨us ++ .plain t :: vs, by simp [hs], .more hus hcomma hvs⟩
    · exact .done ⟨us, hs, .one hus⟩
termination_by s.length
decreasing_by simp at hlength; omega

theorem declaration_uses (line : Nat) (s : List Token) : (declaration line s).Uses Decl.Uses := by
  refine .andThen (typeName_uses s) ?_
  rintro type rest _ ⟨us, rfl, htype⟩
  refine .map ((variableDecls_uses rest).imp ?_)
  rintro vars rest ⟨vs, rfl, hvars⟩
  exact ⟨us ++ vs, by simp, .mk line htype hvars⟩

/-! ### Statements -/

theorem tokensOnLine_spans (line : Nat) (s : List Token) :
    (tokensOnLine line s).Meets fun texts rest =>
      ∃ used, s = used ++ rest ∧ (∀ t ∈ used, t.line = line) ∧ texts = used.map Token.text := by
  fun_induction tokensOnLine line s with
  | case1 => exact .done ⟨[], rfl, by simp, rfl⟩
  | case2 t s hline ih =>
    refine .relax (.after (.map (ih.imp ?_)))
    rintro texts rest ⟨used, rfl, hused, rfl⟩
    exact ⟨t :: used, rfl, List.forall_mem_cons.2 ⟨hline, hused⟩, rfl⟩
  | case3 t s hline => exact .done ⟨[], rfl, by simp, rfl⟩

theorem directive_uses (s : List Token) : (directive s).Uses Directive.Uses := by
  refine .andThen (expectOr_spans _ _ _ s) ?_
  rintro t rest _ ⟨rfl, hkind, _⟩
  refine .map ((tokensOnLine_spans t.line rest).imp ?_)
  rintro texts rest ⟨used, rfl, hused, rfl⟩
  exact ⟨(t :: used).map (.standing .directive), by simp [Use.standing], .mk hkind hused⟩

theorem optionalExpr_uses (closing : String) (s : List Token) :
    (optionalExpr closing s).Uses Expr.UsesOption := by
  unfold optionalExpr
  split
  · exact .done ⟨[], rfl, .none⟩
  · refine .relax (.map ((assignment_uses s).imp ?_))
    rintro e rest ⟨us, rfl, hus⟩
    exact ⟨us, rfl, .some hus⟩

theorem exprInParens_uses (s : List Token) : (exprInParens s).Uses Expr.UsesInParens := by
  refine .andThen (punct_takes _ s) ?_
  rintro opener rest _ ⟨rfl, hopener⟩
  refine .andThen (assignment_uses rest) ?_
  rintro e rest _ ⟨us, rfl, hus⟩
  refine .map ((punct_takes _ rest).imp ?_)
  rintro closer rest ⟨rfl, hcloser⟩
  exact ⟨_, by simp, .mk hopener hus hcloser⟩

theorem forInit_uses (line : Nat) (s : List Token) : (forInit line s).Uses ForInit.Uses := by
  unfold forInit
  split
  · exact .done ⟨[], rfl, .none⟩
  · split
    · refine .relax (.map ((declaration_uses line s).imp ?_))
      rintro d rest ⟨us, rfl, hus⟩
      exact ⟨us, rfl, .decl hus⟩
    · refine .relax (.map ((assignment_uses s).imp ?_))
      rintro e rest ⟨us, rfl, hus⟩
      exact ⟨us, rfl, .expr hus⟩

theorem declStmt_uses (line : Nat) (s : List Token) : (declStmt line s).Uses Stmt.Uses := by
  refine .andThen (declaration_uses line s) ?_
  rintro d rest _ ⟨us, rfl, hus⟩
  refine .map ((punct_takes _ rest).imp ?_)
  rintro semicolon rest ⟨rfl, hsemicolon⟩
  exact ⟨us ++ [.plain semicolon], by simp, .decl hus hsemicolon⟩

theorem exprStmt_uses (line : Nat) (s : List Token) : (exprStmt line s).Uses Stmt.Uses := by
  refine .andThen (assignment_uses s) ?_
  rintro e rest _ ⟨us, rfl, hus⟩
  refine .map ((punct_takes _ rest).imp ?_)
  rintro semicolon rest ⟨rfl, hsemicolon⟩
  exact ⟨us ++ [.plain semicolon], by simp, .expr line hus hsemicolon⟩

/-- The tokens of the clauses of a for loop, and what the loop uses them for. -/
def ForClauses.Uses (clauses : ForClauses) (us : List Use) : Prop :=
  ∃ opener first second closer ius cus uus, us = .plain opener :: (ius ++ .plain first ::
      (cus ++ .plain second :: (uus ++ [.plain closer]))) ∧
    isAt "(" opener ∧ clauses.init.Uses ius ∧ isAt ";" first ∧
    Expr.UsesOption clauses.condition cus ∧ isAt ";" second ∧
    Expr.UsesOption clauses.update uus ∧ isAt ")" closer

theorem forClauses_uses (line : Nat) (s : List Token) :
    (forClauses line s).Uses ForClauses.Uses := by
  refine .andThen (punct_takes _ s) ?_
  rintro opener rest _ ⟨rfl, hopener⟩
  refine .andThen (forInit_uses line rest) ?_
  rintro init rest _ ⟨ius, rfl, hinit⟩
  refine .andThen (punct_takes _ rest) ?_
  rintro first rest _ ⟨rfl, hfirst⟩
  refine .andThen (optionalExpr_uses _ rest) ?_
  rintro condition rest _ ⟨cus, rfl, hcondition⟩
  refine .andThen (punct_takes _ rest) ?_
  rintro second rest _ ⟨rfl, hsecond⟩
  refine .andThen (optionalExpr_uses _ rest) ?_
  rintro update rest _ ⟨uus, rfl, hupdate⟩
  refine .map ((punct_takes _ rest).imp ?_)
  rintro closer rest ⟨rfl, hcloser⟩
  exact ⟨_, by simp, opener, first, second, closer, ius, cus, uus, rfl, hopener, hinit, hfirst,
    hcondition, hsecond, hupdate, hcloser⟩

theorem doCondition_uses (s : List Token) :
    (doCondition s).Meets fun condition rest => ∃ while_ semicolon us,
      s = while_ :: (us.map Use.token ++ semicolon :: rest) ∧ while_.text = "while" ∧
        condition.UsesInParens us ∧ isAt ";" semicolon = true := by
  refine .andThen (expectOr_spans _ _ _ s) ?_
  rintro while_ rest _ ⟨rfl, _, hwhile⟩
  refine .andThen (exprInParens_uses rest) ?_
  rintro condition rest _ ⟨us, rfl, hus⟩
  refine .map ((punct_takes _ rest).imp ?_)
  rintro semicolon rest ⟨rfl, hsemicolon⟩
  exact ⟨while_, semicolon, us, rfl, (Option.some.inj (hwhile.resolve_left (by simp))).symm, hus,
    hsemicolon⟩

mutual

/-- The induction is that of the readers: on the tokens, and a block before its statements. -/
theorem statement_uses (s : List Token) : (statement s).Uses Stmt.Uses := by
  match s with
  | [] =>
    rw [statement]
    exact .fail _
  | t :: s =>
    rw [statement]
    split
    · refine .map ((directive_uses (t :: s)).imp ?_)
      rintro d rest ⟨us, hs, hus⟩
      exact ⟨us, hs, .directive hus⟩
    · split
      · refine .map ((block_uses (t :: s)).imp ?_)
        rintro ⟨line, body⟩ rest ⟨opener, closer, us, hs, hline, hopener, hus, hcloser⟩
        obtain rfl : line = opener.line := hline
        exact ⟨_, by simp [hs], .block hopener hus hcloser⟩
      · split
        · next hsemicolon => exact .after (.done ⟨[.plain t], rfl, .empty hsemicolon⟩)
        · split
          · next hlead =>
            refine .after (.andThen (exprInParens_uses s) ?_)
            rintro condition rest hlength ⟨us, hs, hus⟩
            refine .andThen (statement_uses rest) ?_
            rintro whenTrue rest' hlength' ⟨vs, hs', hvs⟩
            -- whether or not an `else` follows, this much is used
            have hcond : UsesUpTo Stmt.Uses (t :: s) rest'
                (.cond t.line condition whenTrue none) :=
              ⟨.plain t :: (us ++ vs), by simp [hs, hs'], .cond hlead hus hvs⟩
            cases rest' with
            | nil => exact .done hcond
            | cons other rest' =>
              dsimp only
              split
              · next helse =>
                refine .relax (.after (.map ((statement_uses rest').imp ?_)))
                rintro whenFalse rest'' ⟨ws, rfl, hws⟩
                exact ⟨.plain t :: (us ++ (vs ++ .plain other :: ws)), by simp [hs, hs'],
                  .condElse hlead hus hvs helse hws⟩
              · exact .done hcond
          · next hlead =>
            refine .after (.andThen (forClauses_uses t.line s) ?_)
            rintro clauses rest hlength ⟨us, hs, hus⟩
            refine .map ((statement_uses rest).imp ?_)
            rintro body rest' ⟨xs, rfl, hxs⟩
            -- the clauses are taken apart again, because the tree has them side by side
            obtain ⟨opener, first, second, closer, ius, cus, uus, rfl, hopener, hinit, hfirst,
              hcondition, hsecond, hupdate, hcloser⟩ := hus
            exact ⟨_, by simp [hs], .forLoop hlead hopener hinit hfirst hcondition hsecond hupdate
              hcloser hxs⟩
          · next hlead =>
            refine .after (.andThen (exprInParens_uses s) ?_)
            rintro condition rest hlength ⟨us, hs, hus⟩
            refine .map ((statement_uses rest).imp ?_)
            rintro body rest' ⟨vs, rfl, hvs⟩
            exact ⟨.plain t :: (us ++ vs), by simp [hs], .whileLoop hlead hus hvs⟩
          · next hlead =>
            refine .after (.andThen (statement_uses s) ?_)
            rintro body rest _ ⟨us, hs, hus⟩
            refine .map ((doCondition_uses rest).imp ?_)
            rintro condition rest' ⟨while_, semicolon, vs, rfl, hwhile, hvs, hsemicolon⟩
            exact ⟨_, by simp [hs], .doLoop hlead hus hwhile hvs hsemicolon⟩
          · next hlead =>
            refine .after (.andThen (exprInParens_uses s) ?_)
            rintro subject rest hlength ⟨us, hs, hus⟩
            refine .map ((statement_uses rest).imp ?_)
            rintro body rest' ⟨vs, rfl, hvs⟩
            exact ⟨.plain t :: (us ++ vs), by simp [hs], .switch hlead hus hvs⟩
          · next hlead =>
            refine .after (.andThen (optionalExpr_uses _ s) ?_)
            rintro value rest _ ⟨us, rfl, hus⟩
            refine .map ((punct_takes _ rest).imp ?_)
            rintro semicolon rest' ⟨rfl, hsemicolon⟩
            exact ⟨_, by simp, .ret hlead hus hsemicolon⟩
          · next hlead =>
            refine .after (.andThen (conditional_uses s) ?_)
            rintro label rest _ ⟨us, rfl, hus⟩
            refine .map ((punct_takes _ rest).imp ?_)
            rintro colon rest' ⟨rfl, hcolon⟩
            exact ⟨_, by simp, .caseLabel hlead hus hcolon⟩
          · next hlead =>
            refine .after (.map ((punct_takes _ s).imp ?_))
            rintro colon rest ⟨rfl, hcolon⟩
            exact ⟨_, by simp, .defaultLabel hlead hcolon⟩
          · next hlead =>
            refine .after (.map ((punct_takes _ s).imp ?_))
            rintro semicolon rest ⟨rfl, hsemicolon⟩
            exact ⟨_, by simp, .breakOut hlead hsemicolon⟩
          · next hlead =>
            refine .after (.map ((punct_takes _ s).imp ?_))
            rintro semicolon rest ⟨rfl, hsemicolon⟩
            exact ⟨_, by simp, .continueOn hlead hsemicolon⟩
          · split
            · exact declStmt_uses t.line (t :: s)
            · exact exprStmt_uses t.line (t :: s)
termination_by 3 * s.length + 1
decreasing_by
  · simp at hlength ⊢; omega
  · simp at hlength hlength' ⊢; omega
  · simp at hlength ⊢; omega
  · simp at hlength ⊢; omega
  · simp
  · simp at hlength ⊢; omega
  · omega

theorem block_uses (s : List Token) :
    (block s).Meets fun body rest => ∃ opener closer us,
      s = opener :: (us.map Use.token ++ closer :: rest) ∧ body.1 = opener.line ∧
        isAt "\x7b" opener = true ∧ Stmt.UsesAll body.2 us ∧ isAt "\x7d" closer = true := by
  rw [block]
  refine .andThen (punct_takes _ s) ?_
  rintro opener rest hlength ⟨hs, hopener⟩
  refine .andThen (statements_uses rest) ?_
  rintro body rest' _ ⟨us, rfl, hus⟩
  refine .map ((punct_takes _ rest').imp ?_)
  rintro closer rest'' ⟨rfl, hcloser⟩
  exact ⟨opener, closer, us, hs, rfl, hopener, hus, hcloser⟩
termination_by 3 * s.length
decreasing_by simp at hlength; omega

theorem statements_uses (s : List Token) : (statements s).Uses Stmt.UsesAll := by
  match s with
  | [] =>
    rw [statements]
    exact .fail _
  | t :: s =>
    rw [statements]
    split
    · exact .done ⟨[], rfl, .nil⟩
    · refine .relax (.andThen (statement_uses (t :: s)) ?_)
      rintro first rest hlength ⟨us, hs, hus⟩
      refine .map ((statements_uses rest).imp ?_)
      rintro body rest' ⟨vs, rfl, hvs⟩
      exact ⟨us ++ vs, by simp [hs], .cons hus hvs⟩
termination_by 3 * s.length + 2
decreasing_by
  · omega
  · simp at hlength ⊢; omega

end

/-! ### Programs -/

theorem parameterName_uses (s : List Token) : (parameterName s).Uses Parameter.UsesName := by
  cases s with
  | nil => exact .done ⟨[], rfl, .none⟩
  | cons t s =>
    rw [parameterName]
    split
    · next hname => exact .relax (.after (.done ⟨[.plain t], rfl, .some hname⟩))
    · exact .done ⟨[], rfl, .none⟩

theorem skipToBracket_spans (s : List Token) :
    (skipToBracket s).Meets fun _ rest => ∃ used, s = used ++ rest := by
  fun_induction skipToBracket s with
  | case1 => exact .fail _
  | case2 t s hcloser => exact .done ⟨[], rfl⟩
  | case3 t s hcloser ih =>
    refine .relax (.after (ih.imp ?_))
    rintro _ rest ⟨used, rfl⟩
    exact ⟨t :: used, rfl⟩

theorem parameterBrackets_uses (s : List Token) :
    (parameterBrackets s).Uses Parameter.UsesBrackets := by
  cases s with
  | nil => exact .done ⟨[], rfl, .none⟩
  | cons opener s =>
    rw [parameterBrackets]
    split
    · next hopener =>
      refine .relax (.after (.andThen (skipToBracket_spans s) ?_))
      rintro _ rest _ ⟨used, rfl⟩
      refine .map ((punct_takes _ rest).imp ?_)
      rintro closer rest' ⟨rfl, hcloser⟩
      exact ⟨_, by simp, .some (s := used) hopener hcloser⟩
    · exact .done ⟨[], rfl, .none⟩

theorem parameter_uses (s : List Token) : (parameter s).Uses Parameter.Uses := by
  cases s with
  | nil => exact .fail _
  | cons t s =>
    rw [parameter]
    split
    · next hdots => exact .relax (.after (.done ⟨[.plain t], rfl, .dots hdots⟩))
    · refine .andThen (typeName_uses (t :: s)) ?_
      rintro type rest _ ⟨tus, hs, htype⟩
      refine .andThen (stars_uses rest) ?_
      rintro depth rest _ ⟨sus, rfl, hstars⟩
      refine .andThen (parameterName_uses rest) ?_
      rintro name rest _ ⟨nus, rfl, hname⟩
      refine .map ((parameterBrackets_uses rest).imp ?_)
      rintro isArray rest ⟨bus, rfl, hbrackets⟩
      exact ⟨_, by simp [hs], .declared htype hstars hname hbrackets⟩

theorem parameters_uses (s : List Token) : (parameters s).Uses Parameter.UsesAll := by
  rw [parameters]
  refine .andThen (parameter_uses s) fun first rest hlength hfirst => ?_
  obtain ⟨us, hs, hus⟩ := hfirst
  cases rest with
  | nil => exact .done ⟨us, hs, .one hus⟩
  | cons t rest =>
    dsimp only
    split
    · next hcomma =>
      refine .relax (.after (.map ((parameters_uses rest).imp ?_)))
      rintro more rest' ⟨vs, rfl, hvs⟩
      exact ⟨us ++ .plain t :: vs, by simp [hs], .more hus hcomma hvs⟩
    · exact .done ⟨us, hs, .one hus⟩
termination_by s.length
decreasing_by simp at hlength; omega

theorem parameterList_uses (s : List Token) : (parameterList s).Uses Parameter.UsesList := by
  unfold parameterList
  split
  · exact .done ⟨[], rfl, .none⟩
  · split
    · next hvoid =>
      cases s with
      | nil => exact .done ⟨[], rfl, .none⟩
      | cons t s =>
        rw [isVoidList, Bool.and_eq_true] at hvoid
        exact .relax (.after (.done ⟨[.plain t], rfl, .void hvoid.1⟩))
    · refine (parameters_uses s).imp ?_
      rintro parameters rest ⟨us, rfl, hus⟩
      exact ⟨us, rfl, .some hus⟩

theorem functionName_spans (s : List Token) :
    (functionName s).Meets fun text rest =>
      ∃ t, s = t :: rest ∧ isName t = true ∧ text = t.text := by
  cases s with
  | nil => exact .fail _
  | cons t s =>
    rw [functionName]
    split
    · next hname => exact .after (.done ⟨t, rfl, hname, rfl⟩)
    · exact .fail _

theorem functionDefinition_uses (line : Nat) {type : CType} {tus : List Use}
    (htype : type.Uses tus) (s : List Token) :
    (functionDefinition line type s).Meets fun f rest =>
      UsesUpTo Function.Uses (tus.map Use.token ++ s) rest f := by
  refine .andThen (stars_uses s) ?_
  rintro depth rest _ ⟨sus, rfl, hstars⟩
  refine .andThen (functionName_spans rest) ?_
  rintro _ rest _ ⟨name, rfl, hname, rfl⟩
  refine .andThen (punct_takes _ rest) ?_
  rintro opener rest _ ⟨rfl, hopener⟩
  refine .andThen (parameterList_uses rest) ?_
  rintro parameters rest _ ⟨pus, rfl, hparameters⟩
  refine .andThen (punct_takes _ rest) ?_
  rintro closer rest _ ⟨rfl, hcloser⟩
  refine .map ((block_uses rest).imp ?_)
  rintro ⟨bodyLine, body⟩ rest ⟨brace, closing, bus, rfl, hline, hbrace, hbody, hclosing⟩
  obtain rfl : bodyLine = brace.line := hline
  exact ⟨_, by simp, .mk line htype hstars hname hopener hparameters hcloser hbrace hbody hclosing⟩

theorem structFields_uses (s : List Token) : (structFields s).Uses Decl.UsesFields := by
  match s with
  | [] =>
    rw [structFields]
    exact .fail _
  | t :: s =>
    rw [structFields]
    split
    · exact .done ⟨[], rfl, .nil⟩
    · refine .relax (.andThen (declaration_uses t.line (t :: s)) ?_)
      rintro first rest hlength₁ ⟨us, hs, hus⟩
      refine .andThen (punct_takes _ rest) ?_
      rintro semicolon rest' hlength₂ ⟨hrest, hsemicolon⟩
      refine .map ((structFields_uses rest').imp ?_)
      rintro more rest'' ⟨vs, rfl, hvs⟩
      exact ⟨us ++ .plain semicolon :: vs, by simp [hs, hrest], .cons hus hsemicolon hvs⟩
termination_by s.length
decreasing_by simp at hlength₁ hlength₂ ⊢; omega

theorem structDefinition_uses {t tag : Token} (ht : isAt "struct" t = true)
    (htag : tag.kind = .identifier) (s : List Token) :
    (structDefinition t.line tag.text s).Meets fun d rest =>
      UsesUpTo Struct.Uses (t :: tag :: s) rest d := by
  refine .andThen (punct_takes _ s) ?_
  rintro opener rest _ ⟨rfl, hopener⟩
  refine .andThen (structFields_uses rest) ?_
  rintro fields rest _ ⟨us, rfl, hus⟩
  refine .andThen (punct_takes _ rest) ?_
  rintro closer rest _ ⟨rfl, hcloser⟩
  refine .map ((punct_takes _ rest).imp ?_)
  rintro semicolon rest ⟨rfl, hsemicolon⟩
  exact ⟨_, by simp, .mk ht htag hopener hus hcloser hsemicolon⟩

theorem typedItem_uses (line : Nat) (s : List Token) : (typedItem line s).Uses Item.Uses := by
  refine .andThen (typeName_uses s) ?_
  rintro type rest _ ⟨tus, rfl, htype⟩
  split
  · refine .map ((functionDefinition_uses line htype rest).imp ?_)
    rintro f rest' ⟨us, hs, hus⟩
    exact ⟨us, hs, .function hus⟩
  · refine .andThen (variableDecls_uses rest) ?_
    rintro vars rest' _ ⟨vs, rfl, hvars⟩
    refine .map ((punct_takes _ rest').imp ?_)
    rintro semicolon rest'' ⟨rfl, hsemicolon⟩
    exact ⟨tus ++ vs ++ [.plain semicolon], by simp, .decl (.mk line htype hvars) hsemicolon⟩

theorem item_uses (s : List Token) : (item s).Uses Item.Uses := by
  match s with
  | [] => exact .fail _
  | t :: s =>
    show Parse.Uses (if t.kind = .preprocessor then _ else _) _
    split
    · refine .map ((directive_uses (t :: s)).imp ?_)
      rintro d rest ⟨us, hs, hus⟩
      exact ⟨us, hs, .directive hus⟩
    · split
      · split
        · next tag brace more =>
          split
          · next hstruct =>
            -- the brace is looked at before it is read, so the definition starts with it
            refine .after (.after (.map ?_))
            refine (structDefinition_uses hstruct.1 hstruct.2.1 (brace :: more)).imp ?_
            rintro d rest ⟨us, hs, hus⟩
            exact ⟨us, hs, .struct hus⟩
          · exact typedItem_uses t.line _
        · exact typedItem_uses t.line _
      · exact .fail _

theorem items_uses (s : List Token) : (items s).Meets fun is rest =>
    rest = [] ∧ UsesUpTo Item.UsesAll s rest is := by
  match s with
  | [] =>
    rw [items]
    exact .done ⟨rfl, [], rfl, .nil⟩
  | t :: s =>
    rw [items]
    refine .relax (.andThen (item_uses (t :: s)) ?_)
    rintro first rest hlength ⟨us, hs, hus⟩
    refine .map ((items_uses rest).imp ?_)
    rintro more rest' ⟨hnil, vs, rfl, hvs⟩
    exact ⟨hnil, us ++ vs, by simp [hs], .cons hus hvs⟩
termination_by s.length
decreasing_by simp at hlength ⊢; omega

end Grammar

/-- A program that was read uses the tokens it was read from, all of them and in their order. -/
theorem parse_uses {tokens : List Token} {p : Program} (h : parse tokens = .ok p) :
    ∃ us, us.map Use.token = tokens ∧ p.Uses us := by
  unfold parse at h
  split at h
  · next r hr =>
    obtain rfl := Except.ok.inj h
    obtain ⟨hnil, us, hs, hus⟩ := items_uses tokens r hr
    rw [hnil, List.append_nil] at hs
    exact ⟨us, hs.symm, hus⟩
  · cases h

end Stepwise
