/-
Equality of programs.

Whether two syntax trees are the same is decided node by node: the same constructor, the same
words and lines, and the same parts. Nothing is left out of the comparison, so what a text is read
as can be decided by running the reader and comparing.
-/
import Stepwise.Syntax.Program

set_option autoImplicit false

namespace Stepwise

mutual

/-- Are the expressions the same? -/
def Expr.same : Expr → Expr → Bool
  | .literal line text => fun
    | .literal line' text' => line = line' ∧ text = text'
    | _ => false
  | .name line word => fun
    | .name line' word' => line = line' ∧ word = word'
    | _ => false
  | .call line callee arguments => fun
    | .call line' callee' arguments' =>
      line = line' ∧ callee = callee' ∧ Expr.sameAll arguments arguments'
    | _ => false
  | .index line array position => fun
    | .index line' array' position' => line = line' ∧ array = array' ∧ position.same position'
    | _ => false
  | .member line arrow object field => fun
    | .member line' arrow' object' field' =>
      line = line' ∧ arrow = arrow' ∧ object.same object' ∧ field = field'
    | _ => false
  | .unary line op operand => fun
    | .unary line' op' operand' => line = line' ∧ op = op' ∧ operand.same operand'
    | _ => false
  | .stepAfter line op operand => fun
    | .stepAfter line' op' operand' => line = line' ∧ op = op' ∧ operand.same operand'
    | _ => false
  | .cast line type operand => fun
    | .cast line' type' operand' => line = line' ∧ type = type' ∧ operand.same operand'
    | _ => false
  | .sizeOfType line type => fun
    | .sizeOfType line' type' => line = line' ∧ type = type'
    | _ => false
  | .sizeOf line operand => fun
    | .sizeOf line' operand' => line = line' ∧ operand.same operand'
    | _ => false
  | .binary line op left right => fun
    | .binary line' op' left' right' =>
      line = line' ∧ op = op' ∧ left.same left' ∧ right.same right'
    | _ => false
  | .logic line op left right => fun
    | .logic line' op' left' right' =>
      line = line' ∧ op = op' ∧ left.same left' ∧ right.same right'
    | _ => false
  | .conditional line condition whenTrue whenFalse => fun
    | .conditional line' condition' whenTrue' whenFalse' =>
      line = line' ∧ condition.same condition' ∧ whenTrue.same whenTrue' ∧
        whenFalse.same whenFalse'
    | _ => false
  | .assign line op target value => fun
    | .assign line' op' target' value' =>
      line = line' ∧ op = op' ∧ target.same target' ∧ value.same value'
    | _ => false

/-- Are the lists of expressions the same? -/
def Expr.sameAll : List Expr → List Expr → Bool
  | [] => fun
    | [] => true
    | _ => false
  | e :: rest => fun
    | e' :: rest' => e.same e' ∧ Expr.sameAll rest rest'
    | _ => false

end

mutual

theorem Expr.same_iff (a b : Expr) : a.same b = true ↔ a = b := by
  match a with
  | .literal .. | .name .. | .sizeOfType .. => cases b <;> simp [Expr.same]
  | .call _ _ arguments => cases b <;> simp [Expr.same, Expr.sameAll_iff arguments]
  | .index _ _ e | .member _ _ e _ | .unary _ _ e | .stepAfter _ _ e | .cast _ _ e
  | .sizeOf _ e => cases b <;> simp [Expr.same, Expr.same_iff e]
  | .binary _ _ left right | .logic _ _ left right | .assign _ _ left right =>
    cases b <;> simp [Expr.same, Expr.same_iff left, Expr.same_iff right]
  | .conditional _ condition whenTrue whenFalse =>
    cases b <;> simp [Expr.same, Expr.same_iff condition, Expr.same_iff whenTrue,
      Expr.same_iff whenFalse]

theorem Expr.sameAll_iff (a b : List Expr) : Expr.sameAll a b = true ↔ a = b := by
  match a with
  | [] => cases b <;> simp [Expr.sameAll]
  | e :: rest => cases b <;> simp [Expr.sameAll, Expr.same_iff e, Expr.sameAll_iff rest]

end

instance : DecidableEq Expr := fun a b => decidable_of_iff _ (Expr.same_iff a b)


/-! ## Initializers -/

mutual

/-- Are the initializers the same? -/
def Init.same : Init → Init → Bool
  | .expr e => fun
    | .expr e' => e = e'
    | .list .. => false
  | .list line items => fun
    | .list line' items' => line = line' ∧ Init.sameAll items items'
    | .expr _ => false

/-- Are the lists of initializers the same? -/
def Init.sameAll : List Init → List Init → Bool
  | [] => fun
    | [] => true
    | _ :: _ => false
  | init :: rest => fun
    | init' :: rest' => init.same init' ∧ Init.sameAll rest rest'
    | [] => false

end

mutual

theorem Init.same_iff (a b : Init) : a.same b = true ↔ a = b := by
  match a with
  | .expr _ => cases b <;> simp [Init.same]
  | .list _ items => cases b <;> simp [Init.same, Init.sameAll_iff items]

theorem Init.sameAll_iff (a b : List Init) : Init.sameAll a b = true ↔ a = b := by
  match a with
  | [] => cases b <;> simp [Init.sameAll]
  | init :: rest => cases b <;> simp [Init.sameAll, Init.same_iff init, Init.sameAll_iff rest]

end

instance : DecidableEq Init := fun a b => decidable_of_iff _ (Init.same_iff a b)

deriving instance DecidableEq for Directive, Brackets, Variable, Decl, ForInit

/-! ## Statements -/

mutual

/-- Are the statements the same? -/
def Stmt.same : Stmt → Stmt → Bool
  | .directive d => fun
    | .directive d' => d = d'
    | _ => false
  | .block line body => fun
    | .block line' body' => line = line' ∧ Stmt.sameAll body body'
    | _ => false
  | .empty line => fun
    | .empty line' => line = line'
    | _ => false
  | .decl d => fun
    | .decl d' => d = d'
    | _ => false
  | .expr line e => fun
    | .expr line' e' => line = line' ∧ e = e'
    | _ => false
  | .cond line condition whenTrue whenFalse => fun
    | .cond line' condition' whenTrue' whenFalse' =>
      line = line' ∧ condition = condition' ∧ whenTrue.same whenTrue' ∧
        Stmt.sameOption whenFalse whenFalse'
    | _ => false
  | .forLoop line init condition update body => fun
    | .forLoop line' init' condition' update' body' =>
      line = line' ∧ init = init' ∧ condition = condition' ∧ update = update' ∧ body.same body'
    | _ => false
  | .whileLoop line condition body => fun
    | .whileLoop line' condition' body' =>
      line = line' ∧ condition = condition' ∧ body.same body'
    | _ => false
  | .doLoop line body condition => fun
    | .doLoop line' body' condition' => line = line' ∧ body.same body' ∧ condition = condition'
    | _ => false
  | .switch line subject body => fun
    | .switch line' subject' body' => line = line' ∧ subject = subject' ∧ body.same body'
    | _ => false
  | .caseLabel line label => fun
    | .caseLabel line' label' => line = line' ∧ label = label'
    | _ => false
  | .defaultLabel line => fun
    | .defaultLabel line' => line = line'
    | _ => false
  | .breakOut line => fun
    | .breakOut line' => line = line'
    | _ => false
  | .continueOn line => fun
    | .continueOn line' => line = line'
    | _ => false
  | .ret line value => fun
    | .ret line' value' => line = line' ∧ value = value'
    | _ => false

/-- Are the lists of statements the same? -/
def Stmt.sameAll : List Stmt → List Stmt → Bool
  | [] => fun
    | [] => true
    | _ :: _ => false
  | s :: rest => fun
    | s' :: rest' => s.same s' ∧ Stmt.sameAll rest rest'
    | [] => false

/-- Are the statements the same, where there are any? -/
def Stmt.sameOption : Option Stmt → Option Stmt → Bool
  | none => fun
    | none => true
    | some _ => false
  | some s => fun
    | some s' => s.same s'
    | none => false

end

mutual

theorem Stmt.same_iff (a b : Stmt) : a.same b = true ↔ a = b := by
  match a with
  | .directive _ | .empty _ | .decl _ | .expr .. | .caseLabel .. | .defaultLabel _ | .breakOut _
  | .continueOn _ | .ret .. => cases b <;> simp [Stmt.same]
  | .block _ body => cases b <;> simp [Stmt.same, Stmt.sameAll_iff body]
  | .cond _ _ whenTrue whenFalse =>
    cases b <;> simp [Stmt.same, Stmt.same_iff whenTrue, Stmt.sameOption_iff whenFalse]
  | .forLoop _ _ _ _ body | .whileLoop _ _ body | .doLoop _ body _ | .switch _ _ body =>
    cases b <;> simp [Stmt.same, Stmt.same_iff body]

theorem Stmt.sameAll_iff (a b : List Stmt) : Stmt.sameAll a b = true ↔ a = b := by
  match a with
  | [] => cases b <;> simp [Stmt.sameAll]
  | s :: rest => cases b <;> simp [Stmt.sameAll, Stmt.same_iff s, Stmt.sameAll_iff rest]

theorem Stmt.sameOption_iff (a b : Option Stmt) : Stmt.sameOption a b = true ↔ a = b := by
  match a with
  | none => cases b <;> simp [Stmt.sameOption]
  | some s => cases b <;> simp [Stmt.sameOption, Stmt.same_iff s]

end

instance : DecidableEq Stmt := fun a b => decidable_of_iff _ (Stmt.same_iff a b)

deriving instance DecidableEq for Function, Struct, Item, Program

end Stepwise
