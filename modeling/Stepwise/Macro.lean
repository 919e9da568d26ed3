/-
Macros.

A definition line gives a name, perhaps parameters in parentheses right behind
it, and a body. Comments are no part of the body. A macro with parameters is
used like a function: its body is read as an expression in which the
parameters stand for the values of the arguments. `substitute` is the textual
view of the same expansion, for a reader.
-/
import Stepwise.Grammar.Program
import Stepwise.Token.Scan

set_option autoImplicit false

namespace Stepwise

/-- A macro. -/
structure Macro where
  /-- Its name. -/
  name : String
  /-- Its parameters, if it takes any arguments at all. -/
  parameters : Option (List String)
  /-- Its body, without comments. -/
  body : String
  /-- The line of its definition. -/
  line : Nat
deriving Repr, DecidableEq, Inhabited

/-- The macros of a program by name. -/
abbrev Macros := Table String Macro

namespace Macro

/-- The name with the parameters. -/
def signature (m : Macro) : String :=
  match m.parameters with
  | none => m.name
  | some parameters => m.name ++ "(" ++ ", ".intercalate parameters ++ ")"

/-- The body read as an expression. -/
def expression (m : Macro) : Except Fault Expr :=
  if m.body.isEmpty then .error (.emptyMacro m.name)
  else
    match parseExpr (tokenize m.body) with
    | .ok e => .ok e
    | .error e => .error (.unreadableMacro m.name e.message)

/-- Replaces the words of a text; `word` is the word being read, written backwards. -/
def replaceWords (replace : List Char → List Char) (word : List Char) : List Char → List Char
  | [] => if word.isEmpty then [] else replace word.reverse
  | c :: rest =>
    if Text.isWordChar c then replaceWords replace (c :: word) rest
    else
      (if word.isEmpty then [] else replace word.reverse) ++ c :: replaceWords replace [] rest

/-- The body with parameter names replaced by texts. -/
def substitute (m : Macro) (arguments : List (String × String)) : String :=
  String.ofList
    (replaceWords
      (fun word =>
        match arguments.lookup (String.ofList word) with
        | some text => text.toList
        | none => word)
      [] m.body.toList)

/-! ## Definition lines -/

/-- The text without comments; a block comment that is not closed stays. -/
def dropComments (s : List Char) : List Char :=
  match s with
  | [] => []
  | c :: rest =>
    match _found : Token.comment? (c :: rest) with
    | some cut => dropComments cut.2
    | none => c :: dropComments rest
termination_by s.length
decreasing_by
  · exact Token.length_cut_lt (Token.comment?_cut _found)
  · simp

/-- Splits a text after the expected beginning, if it has it. -/
def strip? (expected s : List Char) : Option (List Char) :=
  if expected.isPrefixOf s then some (s.drop expected.length) else none

/-- The parameter text right behind a name and what follows the parentheses. -/
def parameterText? : List Char → Option (List Char × List Char)
  | '(' :: rest =>
    match rest.dropWhile (· != ')') with
    | _ :: after => some (rest.takeWhile (· != ')'), after)
    | [] => none
  | _ => none

/-- The parameters named in a parameter text. -/
def parameterNames (s : List Char) : List String :=
  ((Text.pieces ',' s).map Text.trim).filterMap fun p =>
    if p.isEmpty then none else some (String.ofList p)

/-- The macro that a line defines. -/
def ofLine? (number : Nat) (line : List Char) : Option Macro := do
  let afterHash ← strip? ['#'] (Text.trimLeft line)
  let afterWord ← strip? "define".toList (Text.trimLeft afterHash)
  let named := Text.trimLeft afterWord
  let name := named.takeWhile Text.isWordChar
  if named.length = afterWord.length || name.isEmpty then none
  else
    let rest := named.dropWhile Text.isWordChar
    let (parameters, body) :=
      match parameterText? rest with
      | some (text, after) => (some (parameterNames text), after)
      | none => (none, rest)
    some
      { name := String.ofList name
        parameters := parameters
        body := String.ofList (Text.trim (dropComments body))
        line := number }

end Macro

/-- The macros that the definitions of a program give; the last definition of a name counts. -/
def Program.macros (p : Program) (lines : List String) : Macros :=
  Table.ofEntries
    ((p.directives.filterMap fun d =>
      if d.command = "#define" then
        match lines[d.line - 1]? with
        | some line => Macro.ofLine? d.line line.toList
        | none => none
      else none).map fun m => (m.name, m))

end Stepwise
