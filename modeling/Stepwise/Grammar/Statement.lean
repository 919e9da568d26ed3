/-
Statements.

A directive may stand wherever a statement may; it owns every token that
follows it on its line. Labels are statements of their own, so the statements
of a switch are the flat list of its block.
-/
import Stepwise.Grammar.Declaration

set_option autoImplicit false

namespace Stepwise.Grammar

/-- Reads the texts of the tokens on a line. -/
def tokensOnLine (line : Nat) (s : List Token) : Parse false s (List String) :=
  match s with
  | [] => Parse.done []
  | t :: rest =>
    if t.line = line then
      (((tokensOnLine line rest).map fun more => t.text :: more).after t).relax
    else Parse.done []

/-- Reads a directive. -/
def directive (s : List Token) : Parse true s Directive :=
  (expectOr (.expected .preprocessor none) .preprocessor none s).andThen fun t rest _ =>
    (tokensOnLine t.line rest).map fun arguments =>
      { line := t.line, command := t.text, arguments := arguments }

/-- Reads an expression unless the closing token stands there. -/
def optionalExpr (closing : String) (s : List Token) : Parse false s (Option Expr) :=
  if headIs closing s then Parse.done none else ((assignment s).map some).relax

/-- Reads an expression in parentheses. -/
def exprInParens (s : List Token) : Parse true s Expr :=
  (punct "(" s).andThen fun _ rest _ =>
    (assignment rest).andThen fun e rest _ =>
      (punct ")" rest).map fun _ => e

/-- Reads the first clause of a for loop. -/
def forInit (line : Nat) (s : List Token) : Parse false s ForInit :=
  if headIs ";" s then Parse.done .none
  else if headStartsType s then ((declaration line s).map ForInit.decl).relax
  else ((assignment s).map ForInit.expr).relax

/-- The clauses of a for loop. -/
structure ForClauses where
  /-- What is done first. -/
  init : ForInit
  /-- What is checked before each iteration. -/
  condition : Option Expr
  /-- What is done after each iteration. -/
  update : Option Expr

/-- Reads the clauses of a for loop in parentheses. -/
def forClauses (line : Nat) (s : List Token) : Parse true s ForClauses :=
  (punct "(" s).andThen fun _ rest _ =>
    (forInit line rest).andThen fun init rest _ =>
      (punct ";" rest).andThen fun _ rest _ =>
        (optionalExpr ";" rest).andThen fun condition rest _ =>
          (punct ";" rest).andThen fun _ rest _ =>
            (optionalExpr ")" rest).andThen fun update rest _ =>
              (punct ")" rest).map fun _ => ⟨init, condition, update⟩

/-- Reads the condition of a do-loop. -/
def doCondition (s : List Token) : Parse true s Expr :=
  (expectOr .whileAfterDo .keyword (some "while") s).andThen fun _ rest _ =>
    (exprInParens rest).andThen fun condition rest _ =>
      (punct ";" rest).map fun _ => condition

/-- Reads a statement that is a declaration. -/
def declStmt (line : Nat) (s : List Token) : Parse true s Stmt :=
  (declaration line s).andThen fun d rest _ => (punct ";" rest).map fun _ => .decl d

/-- Reads a statement that is an expression. -/
def exprStmt (line : Nat) (s : List Token) : Parse true s Stmt :=
  (assignment s).andThen fun e rest _ => (punct ";" rest).map fun _ => .expr line e

/-- The keywords that decide what a statement is. -/
inductive Leading where
  /-- `if` -/
  | cond
  /-- `for` -/
  | forLoop
  /-- `while` -/
  | whileLoop
  /-- `do` -/
  | doLoop
  /-- `switch` -/
  | switch
  /-- `return` -/
  | ret
  /-- `case` -/
  | caseLabel
  /-- `default` -/
  | defaultLabel
  /-- `break` -/
  | breakOut
  /-- `continue` -/
  | continueOn
deriving Repr, DecidableEq

/-- The leading keyword a token is. -/
def leading? (t : Token) : Option Leading :=
  if t.kind = .keyword then
    match t.text with
    | "if" => some .cond
    | "for" => some .forLoop
    | "while" => some .whileLoop
    | "do" => some .doLoop
    | "switch" => some .switch
    | "return" => some .ret
    | "case" => some .caseLabel
    | "default" => some .defaultLabel
    | "break" => some .breakOut
    | "continue" => some .continueOn
    | _ => none
  else none

mutual

/-- Reads a statement. A token of a directive begins a directive even if it is an opening brace. Where
a statement is the body of another one the brace might as well be tested first; the lexer makes no such
token. -/
def statement (s : List Token) : Parse true s Stmt :=
  match s with
  | [] => Parse.fail .statement
  | t :: rest =>
    if t.kind = .preprocessor then (directive (t :: rest)).map Stmt.directive
    else if isAt "\x7b" t then
      (block (t :: rest)).map fun body => .block body.1 body.2
    else if isAt ";" t then (Parse.done (.empty t.line) : Parse _ rest _).after t
    else
      match leading? t with
      | some .cond =>
        ((exprInParens rest).andThen fun condition rest _h₁ =>
          (statement rest).andThen fun whenTrue rest h₂ =>
            match rest, h₂ with
            | [], _ => Parse.done (.cond t.line condition whenTrue none)
            | u :: rest, _h₂ =>
              if isAt "else" u then
                (((statement rest).map fun whenFalse =>
                  Stmt.cond t.line condition whenTrue (some whenFalse)).after u).relax
              else Parse.done (.cond t.line condition whenTrue none)).after t
      | some .forLoop =>
        ((forClauses t.line rest).andThen fun clauses rest _h₁ =>
          (statement rest).map fun body =>
            .forLoop t.line clauses.init clauses.condition clauses.update body).after t
      | some .whileLoop =>
        ((exprInParens rest).andThen fun condition rest _h₁ =>
          (statement rest).map fun body => .whileLoop t.line condition body).after t
      | some .doLoop =>
        ((statement rest).andThen fun body rest _ =>
          (doCondition rest).map fun condition => .doLoop t.line body condition).after t
      | some .switch =>
        ((exprInParens rest).andThen fun subject rest _h₁ =>
          (statement rest).map fun body => .switch t.line subject body).after t
      | some .ret =>
        ((optionalExpr ";" rest).andThen fun value rest _ =>
          (punct ";" rest).map fun _ => Stmt.ret t.line value).after t
      | some .caseLabel =>
        ((conditional rest).andThen fun label rest _ =>
          (punct ":" rest).map fun _ => Stmt.caseLabel t.line label).after t
      | some .defaultLabel =>
        ((punct ":" rest).map fun _ => Stmt.defaultLabel t.line).after t
      | some .breakOut => ((punct ";" rest).map fun _ => Stmt.breakOut t.line).after t
      | some .continueOn => ((punct ";" rest).map fun _ => Stmt.continueOn t.line).after t
      | none =>
        if startsType t then declStmt t.line (t :: rest) else exprStmt t.line (t :: rest)
termination_by 3 * s.length + 1
decreasing_by
  · omega
  · simp at _h₁ ⊢; omega
  · simp at _h₁ _h₂ ⊢; omega
  · simp at _h₁ ⊢; omega
  · simp at _h₁ ⊢; omega
  · simp
  · simp at _h₁ ⊢; omega

/-- Reads a block: the line of its opening brace and its statements. -/
def block (s : List Token) : Parse true s (Nat × List Stmt) :=
  (punct "\x7b" s).andThen fun brace rest _h =>
    (statements rest).andThen fun body rest _ =>
      (punct "\x7d" rest).map fun _ => (brace.line, body)
termination_by 3 * s.length
decreasing_by simp at _h; omega

/-- Reads statements up to a closing brace. -/
def statements (s : List Token) : Parse false s (List Stmt) :=
  match s with
  | [] => Parse.fail .closingBrace
  | t :: rest =>
    if isAt "\x7d" t then Parse.done []
    else
      ((statement (t :: rest)).andThen fun first rest _h =>
        (statements rest).map fun more => first :: more).relax
termination_by 3 * s.length + 2
decreasing_by
  · omega
  · simp at _h ⊢; omega

end

end Stepwise.Grammar
