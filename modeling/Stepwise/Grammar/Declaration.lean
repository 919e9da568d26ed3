/-
Declarations of variables.

After a type come one or more names, each with stars in front of it and
perhaps brackets and an initializer behind it. A braced initializer may hold
further braces, and a comma may stand before the closing one.
-/
import Stepwise.Grammar.Expression
import Stepwise.Syntax.Program

set_option autoImplicit false

namespace Stepwise.Grammar

mutual

/-- Reads an initializer. -/
def initializer (s : List Token) : Parse true s Init :=
  match s with
  | [] => Parse.map .expr (assignment [])
  | t :: rest =>
    if isAt "\x7b" t then
      (punct "\x7b" (t :: rest)).andThen fun brace rest _h =>
        (initializers rest).andThen fun items rest _ =>
          (punct "\x7d" rest).map fun _ => .list brace.line items
    else Parse.map .expr (assignment (t :: rest))
termination_by 2 * s.length
decreasing_by simp at _h ⊢; omega

/-- Reads the items of a braced initializer. -/
def initializers (s : List Token) : Parse false s (List Init) :=
  if headIs "\x7d" s then Parse.done []
  else
    ((initializer s).andThen fun first rest h =>
      match rest, h with
      | [], _ => Parse.done [first]
      | t :: rest, _h =>
        if isAt "," t then
          (((initializers rest).map fun more => first :: more).after t).relax
        else Parse.done [first]).relax
termination_by 2 * s.length + 1
decreasing_by
  · omega
  · simp at _h; omega

end

/-- Reads the brackets that may follow a declared name. -/
def brackets (s : List Token) : Parse false s Brackets :=
  match s with
  | [] => Parse.done .none
  | t :: rest =>
    if isAt "[" t then
      (if headIs "]" rest then
          ((punct "]" rest).map fun _ => Brackets.unsized).after t
        else
          ((assignment rest).andThen fun size rest _ =>
            (punct "]" rest).map fun _ => Brackets.sized size).after t).relax
    else Parse.done .none

/-- Reads the initializer that may follow a declared name. -/
def initialization (s : List Token) : Parse false s (Option Init) :=
  match s with
  | [] => Parse.done none
  | t :: rest =>
    if isAt "=" t then (((initializer rest).map some).after t).relax else Parse.done none

/-- Reads one declared name with what belongs to it. -/
def variableDecl (s : List Token) : Parse true s Variable :=
  (stars s).andThen fun depth rest _ =>
    (expectOr .variableName .identifier none rest).andThen fun name rest _ =>
      (brackets rest).andThen fun brackets rest _ =>
        (initialization rest).map fun init =>
          { line := name.line, name := name.text, stars := depth, brackets := brackets
            init := init }

/-- Reads declared names, parted by commas. -/
def variableDecls (s : List Token) : Parse true s (List Variable) :=
  (variableDecl s).andThen fun first rest h =>
    match rest, h with
    | [], _ => Parse.done [first]
    | t :: rest, _h =>
      if isAt "," t then
        (((variableDecls rest).map fun more => first :: more).after t).relax
      else Parse.done [first]
termination_by s.length
decreasing_by simp at _h; omega

/-- Reads a type and the names declared with it. -/
def declaration (line : Nat) (s : List Token) : Parse true s Decl :=
  (typeName s).andThen fun type rest _ =>
    (variableDecls rest).map fun vars => { line := line, type := type, vars := vars }

end Stepwise.Grammar
