/-
Programs.

At the top level stand directives, struct definitions, declarations of
variables and function definitions. After a type, a function definition is
told from a declaration by looking ahead: it has an opening brace outside
parentheses before the first semicolon outside parentheses.
-/
import Stepwise.Grammar.Statement

set_option autoImplicit false

namespace Stepwise

namespace Grammar

/-- Skips the tokens up to the closing bracket of a parameter. -/
def skipToBracket (s : List Token) : Parse false s Unit :=
  match s with
  | [] => Parse.fail .closingBracket
  | t :: rest => if isAt "]" t then Parse.done () else ((skipToBracket rest).after t).relax

/-- Reads the brackets that may follow a parameter's name. -/
def parameterBrackets (s : List Token) : Parse false s Bool :=
  match s with
  | [] => Parse.done false
  | t :: rest =>
    if isAt "[" t then
      (((skipToBracket rest).andThen fun _ rest _ =>
        (punct "]" rest).map fun _ => true).after t).relax
    else Parse.done false

/-- Reads the name that a parameter may have. -/
def parameterName (s : List Token) : Parse false s String :=
  match s with
  | [] => Parse.done ""
  | t :: rest =>
    if t.kind = .identifier then ((Parse.done t.text : Parse _ rest _).after t).relax
    else Parse.done ""

/-- Reads one parameter. -/
def parameter (s : List Token) : Parse false s Parameter :=
  match s with
  | [] => Parse.fail .typeSpecifier
  | t :: rest =>
    if isAt "..." t then ((Parse.done ⟨⟨"..."⟩, "", false, false⟩ : Parse _ rest _).after t).relax
    else
      (typeName (t :: rest)).andThen fun type rest _ =>
        (stars rest).andThen fun depth rest _ =>
          (parameterName rest).andThen fun name rest _ =>
            (parameterBrackets rest).map fun isArray =>
              { type := starred type (depth - 1), name := name, isPointer := 0 < depth
                isArray := isArray }

/-- Reads parameters, parted by commas. -/
def parameters (s : List Token) : Parse false s (List Parameter) :=
  (parameter s).andThen fun first rest h =>
    match rest, h with
    | [], _ => Parse.done [first]
    | t :: rest, _h =>
      if isAt "," t then
        (((parameters rest).map fun more => first :: more).after t).relax
      else Parse.done [first]
termination_by s.length
decreasing_by simp only [List.length_cons, Bool.toNat_false] at _h; omega

/-- Do the tokens begin with `void` alone in its parentheses? -/
def isVoidList : List Token → Bool
  | t :: rest => isAt "void" t && headIs ")" rest
  | [] => false

/-- Reads the parameters of a function, none before a closing parenthesis. -/
def parameterList (s : List Token) : Parse false s (List Parameter) :=
  if headIs ")" s then Parse.done []
  else if isVoidList s then
    match s with
    | [] => Parse.done []
    | t :: rest => ((Parse.done [] : Parse _ rest _).after t).relax
  else parameters s

/-- Is there an opening brace outside parentheses before the first semicolon outside them? -/
def hasBody (depth : Int) : List Token → Bool
  | [] => false
  | t :: rest =>
    if t.text = "(" then hasBody (depth + 1) rest
    else if t.text = ")" then hasBody (depth - 1) rest
    else if depth = 0 ∧ t.text = "\x7b" then true
    else if depth = 0 ∧ t.text = ";" then false
    else hasBody depth rest

/-- Reads the name of a function. -/
def functionName (s : List Token) : Parse true s String :=
  match s with
  | [] => Parse.fail .functionName
  | t :: rest =>
    if isName t then (Parse.done t.text : Parse _ rest _).after t else Parse.fail .functionName

/-- Reads a function definition after its type. -/
def functionDefinition (line : Nat) (type : CType) (s : List Token) : Parse true s Function :=
  (stars s).andThen fun depth rest _ =>
    (functionName rest).andThen fun name rest _ =>
      (punct "(" rest).andThen fun _ rest _ =>
        (parameterList rest).andThen fun parameters rest _ =>
          (punct ")" rest).andThen fun _ rest _ =>
            (block rest).map fun body =>
              { line := line, name := name, returnType := starred type depth
                parameters := parameters, bodyLine := body.1, body := body.2 }

/-- Reads the members of a struct up to the closing brace. -/
def structFields (s : List Token) : Parse false s (List Decl) :=
  match s with
  | [] => Parse.fail .closingBrace
  | t :: rest =>
    if isAt "\x7d" t then Parse.done []
    else
      ((declaration t.line (t :: rest)).andThen fun first rest _h₁ =>
        (punct ";" rest).andThen fun _ rest _h₂ =>
          (structFields rest).map fun more => first :: more).relax
termination_by s.length
decreasing_by simp at _h₁ _h₂ ⊢; omega

/-- Reads a struct definition from the tag on. -/
def structDefinition (line : Nat) (tag : String) (s : List Token) : Parse true s Struct :=
  (punct "\x7b" s).andThen fun _ rest _ =>
    (structFields rest).andThen fun fields rest _ =>
      (punct "\x7d" rest).andThen fun _ rest _ =>
        (punct ";" rest).map fun _ => { line := line, tag := tag, fields := fields }

/-- Reads a function definition or a declaration. -/
def typedItem (line : Nat) (s : List Token) : Parse true s Item :=
  (typeName s).andThen fun type rest _ =>
    if hasBody 0 rest then (functionDefinition line type rest).map Item.function
    else
      (variableDecls rest).andThen fun vars rest _ =>
        (punct ";" rest).map fun _ =>
          Item.decl { line := line, type := type, vars := vars }

/-- Reads an item of the top level. -/
def item (s : List Token) : Parse true s Item :=
  match s with
  | [] => Parse.fail .noItem
  | t :: rest =>
    if t.kind = .preprocessor then (directive (t :: rest)).map Item.directive
    else if startsType t then
      match rest with
      | tag :: brace :: more =>
        if isAt "struct" t ∧ tag.kind = .identifier ∧ isAt "\x7b" brace then
          (((structDefinition t.line tag.text (brace :: more)).map Item.struct).after tag).after t
        else typedItem t.line (t :: tag :: brace :: more)
      | rest => typedItem t.line (t :: rest)
    else Parse.fail .noItem

/-- Reads items until no token is left. -/
def items (s : List Token) : Parse false s (List Item) :=
  match s with
  | [] => Parse.done []
  | t :: rest =>
    ((item (t :: rest)).andThen fun first rest _h =>
      (items rest).map fun more => first :: more).relax
termination_by s.length
decreasing_by simp at _h ⊢; omega

end Grammar

/-- The program that a list of tokens spells. -/
def parse (tokens : List Token) : Except ParseError Program :=
  match Grammar.items tokens with
  | .ok r => .ok ⟨r.value⟩
  | .error f => .error f.error

/-- The expression that a list of tokens spells, every token being used. -/
def parseExpr (tokens : List Token) : Except ParseError Expr :=
  match Grammar.assignment tokens with
  | .ok r =>
    match r.rest with
    | [] => .ok r.value
    | _ :: _ => .error (Grammar.Failure.error (s := tokens) ⟨.trailing, r.rest, r.suffix⟩)
  | .error f => .error f.error

end Stepwise
