/-
Declarations, statements and programs.

A declaration gives one type to a list of variables, each with its own stars,
its own brackets and its own initializer. The size in a variable's brackets is
an expression, but it is not counted among the expressions of the program when
calls, operators or names are searched for.

`Stmt.within` lists a statement and all statements inside it, outermost first;
`Stmt.exprs` lists the expressions in it in the order in which they stand,
with a loop's clauses before its body and a do-loop's condition after it.
-/
import Stepwise.Syntax.Expr

set_option autoImplicit false

namespace Stepwise

/-- A preprocessor directive. -/
structure Directive where
  /-- The line it stands on. -/
  line : Nat
  /-- Its command, with the `#`. -/
  command : String
  /-- The texts of its other tokens. -/
  arguments : List String
deriving Repr, Inhabited

/-- An initializer: an expression or a braced list. -/
inductive Init where
  /-- A single value. -/
  | expr (e : Expr)
  /-- A braced list. -/
  | list (line : Nat) (items : List Init)
deriving Repr, Inhabited

/-- The brackets after a declared name. -/
inductive Brackets where
  /-- No brackets: the variable is no array. -/
  | none
  /-- Empty brackets: the initializer tells the size. -/
  | unsized
  /-- Brackets with a size. -/
  | sized (size : Expr)
deriving Repr, Inhabited

/-- Do the brackets make an array? -/
def Brackets.isArray : Brackets → Bool
  | none => false
  | unsized | sized _ => true

/-- One declared name. -/
structure Variable where
  /-- The line of the name. -/
  line : Nat
  /-- The name. -/
  name : String
  /-- The number of stars in front of it. -/
  stars : Nat
  /-- The brackets after it. -/
  brackets : Brackets
  /-- Its initializer. -/
  init : Option Init
deriving Repr, Inhabited

/-- A declaration of variables. -/
structure Decl where
  /-- The line it begins on. -/
  line : Nat
  /-- The type before the names. -/
  type : CType
  /-- The declared names. -/
  vars : List Variable
deriving Repr, Inhabited

/-- The first clause of a for loop. -/
inductive ForInit where
  /-- Nothing. -/
  | none
  /-- A declaration. -/
  | decl (d : Decl)
  /-- An expression. -/
  | expr (e : Expr)
deriving Repr, Inhabited

/-- A statement. -/
inductive Stmt where
  /-- A directive between statements. -/
  | directive (d : Directive)
  /-- A block. -/
  | block (line : Nat) (body : List Stmt)
  /-- A lone semicolon. -/
  | empty (line : Nat)
  /-- A declaration. -/
  | decl (d : Decl)
  /-- An expression. -/
  | expr (line : Nat) (e : Expr)
  /-- A choice, with or without an alternative. -/
  | cond (line : Nat) (condition : Expr) (whenTrue : Stmt) (whenFalse : Option Stmt)
  /-- A loop with three clauses. -/
  | forLoop (line : Nat) (init : ForInit) (condition update : Option Expr) (body : Stmt)
  /-- A loop that checks first. -/
  | whileLoop (line : Nat) (condition : Expr) (body : Stmt)
  /-- A loop that checks last. -/
  | doLoop (line : Nat) (body : Stmt) (condition : Expr)
  /-- A jump to a matching label. -/
  | switch (line : Nat) (subject : Expr) (body : Stmt)
  /-- A label with a value. -/
  | caseLabel (line : Nat) (label : Expr)
  /-- The label for every other value. -/
  | defaultLabel (line : Nat)
  /-- Leave the loop or switch. -/
  | breakOut (line : Nat)
  /-- Go on with the next iteration. -/
  | continueOn (line : Nat)
  /-- Leave the function. -/
  | ret (line : Nat) (value : Option Expr)
deriving Repr, Inhabited

/-- A parameter of a function. -/
structure Parameter where
  /-- Its type without the last star; three dots for further arguments. -/
  type : CType
  /-- Its name, empty if it has none. -/
  name : String := ""
  /-- Was it declared with a star? -/
  isPointer : Bool := false
  /-- Was it declared with brackets? -/
  isArray : Bool := false
deriving Repr, Inhabited, DecidableEq

/-- The type of a parameter: an array is passed as a pointer. -/
def Parameter.fullType (p : Parameter) : CType :=
  if p.isPointer || p.isArray then p.type.pointer else p.type

/-- Does the parameter stand for further arguments? -/
def Parameter.isRest (p : Parameter) : Bool :=
  p.type.text == "..."

/-- A function definition. -/
structure Function where
  /-- The line it begins on. -/
  line : Nat
  /-- Its name. -/
  name : String
  /-- The type of its result. -/
  returnType : CType
  /-- Its parameters. -/
  parameters : List Parameter
  /-- The line of the opening brace. -/
  bodyLine : Nat
  /-- The statements of its body. -/
  body : List Stmt
deriving Repr, Inhabited

/-- The parameters that take one argument each. -/
def Function.named (f : Function) : List Parameter :=
  f.parameters.filter (!·.isRest)

/-- A struct definition. -/
structure Struct where
  /-- The line it begins on. -/
  line : Nat
  /-- Its tag. -/
  tag : String
  /-- The declarations of its members. -/
  fields : List Decl
deriving Repr, Inhabited

/-- The full name of the struct type. -/
def Struct.typeName (s : Struct) : String :=
  "struct " ++ s.tag

/-- What stands at the top level. -/
inductive Item where
  /-- A directive. -/
  | directive (d : Directive)
  /-- A struct definition. -/
  | struct (s : Struct)
  /-- A function definition. -/
  | function (f : Function)
  /-- A declaration of variables. -/
  | decl (d : Decl)
deriving Repr, Inhabited

/-- A program. -/
structure Program where
  /-- Its items in order. -/
  items : List Item
deriving Repr, Inhabited

/-! ## What is inside -/

mutual

/-- The expressions of an initializer. -/
def Init.exprs : Init → List Expr
  | expr e => [e]
  | list _ items => Init.exprsOfAll items

/-- The expressions of several initializers. -/
def Init.exprsOfAll : List Init → List Expr
  | [] => []
  | i :: rest => i.exprs ++ Init.exprsOfAll rest

end

/-- The expressions of a variable's initializer. -/
def Variable.exprs (v : Variable) : List Expr :=
  match v.init with
  | some i => i.exprs
  | none => []

/-- The expressions of a declaration's initializers. -/
def Decl.exprs (d : Decl) : List Expr :=
  d.vars.flatMap Variable.exprs

/-- The expressions of a loop's first clause. -/
def ForInit.exprs : ForInit → List Expr
  | none => []
  | decl d => d.exprs
  | expr e => [e]

namespace Stmt

/-- The line of a statement. -/
def line : Stmt → Nat
  | directive d => d.line
  | decl d => d.line
  | block line _ | empty line | expr line _ | cond line _ _ _ | forLoop line _ _ _ _
  | whileLoop line _ _ | doLoop line _ _ | switch line _ _ | caseLabel line _ | defaultLabel line
  | breakOut line | continueOn line | ret line _ => line

mutual

/-- The expressions in a statement. -/
def exprs : Stmt → List Expr
  | directive _ | empty _ | defaultLabel _ | breakOut _ | continueOn _ => []
  | block _ body => exprsOfAll body
  | decl d => d.exprs
  | expr _ e => [e]
  | cond _ condition whenTrue whenFalse =>
    condition :: (exprs whenTrue ++ exprsOfOption whenFalse)
  | forLoop _ init condition update body =>
    init.exprs ++ condition.toList ++ update.toList ++ exprs body
  | whileLoop _ condition body => condition :: exprs body
  | doLoop _ body condition => exprs body ++ [condition]
  | switch _ subject body => subject :: exprs body
  | caseLabel _ label => [label]
  | ret _ value => value.toList

/-- The expressions in several statements. -/
def exprsOfAll : List Stmt → List Expr
  | [] => []
  | s :: rest => exprs s ++ exprsOfAll rest

/-- The expressions in a statement, if there is one. -/
def exprsOfOption : Option Stmt → List Expr
  | none => []
  | some s => exprs s

end

mutual

/-- The statement and all statements in it, outermost first. -/
def within : Stmt → List Stmt
  | directive d => [directive d]
  | block line body => block line body :: withinAll body
  | empty line => [empty line]
  | decl d => [decl d]
  | expr line e => [expr line e]
  | cond line condition whenTrue whenFalse =>
    cond line condition whenTrue whenFalse :: (within whenTrue ++ withinOption whenFalse)
  | forLoop line init condition update body =>
    forLoop line init condition update body :: within body
  | whileLoop line condition body => whileLoop line condition body :: within body
  | doLoop line body condition => doLoop line body condition :: within body
  | switch line subject body => switch line subject body :: within body
  | caseLabel line label => [caseLabel line label]
  | defaultLabel line => [defaultLabel line]
  | breakOut line => [breakOut line]
  | continueOn line => [continueOn line]
  | ret line value => [ret line value]

/-- The statements in several statements. -/
def withinAll : List Stmt → List Stmt
  | [] => []
  | s :: rest => within s ++ withinAll rest

/-- The statements in a statement, if there is one. -/
def withinOption : Option Stmt → List Stmt
  | none => []
  | some s => within s

end

end Stmt

/-- The calls in a statement, in order. -/
def Stmt.calls (s : Stmt) : List Call :=
  s.exprs.flatMap Expr.calls

/-- The expressions in a function. -/
def Function.exprs (f : Function) : List Expr :=
  Stmt.exprsOfAll f.body

/-- The statements in a function, outermost first. -/
def Function.stmts (f : Function) : List Stmt :=
  Stmt.withinAll f.body

/-- The calls in a function, in order. -/
def Function.calls (f : Function) : List Call :=
  f.exprs.flatMap Expr.calls

/-- The expressions of an item. -/
def Item.exprs : Item → List Expr
  | directive _ => []
  | struct s => s.fields.flatMap Decl.exprs
  | function f => f.exprs
  | decl d => d.exprs

/-- The directives of an item, those between the statements of a function included. -/
def Item.directives : Item → List Directive
  | directive d => [d]
  | function f => f.stmts.filterMap fun | .directive d => some d | _ => none
  | struct _ | decl _ => []

namespace Program

/-- The functions of a program in order. -/
def functions (p : Program) : List Function :=
  p.items.filterMap fun | .function f => some f | _ => none

/-- The first function with a name. -/
def function? (p : Program) (name : String) : Option Function :=
  p.functions.find? fun f => f.name == name

/-- The structs of a program in order. -/
def structs (p : Program) : List Struct :=
  p.items.filterMap fun | .struct s => some s | _ => none

/-- The directives of a program in order. -/
def directives (p : Program) : List Directive :=
  p.items.flatMap Item.directives

/-- The expressions of a program in order. -/
def exprs (p : Program) : List Expr :=
  p.items.flatMap Item.exprs

/-- The calls of a program in order. -/
def calls (p : Program) : List Call :=
  p.exprs.flatMap Expr.calls

end Program

end Stepwise
