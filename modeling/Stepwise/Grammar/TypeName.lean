/-
Type names.

A type is a run of type words. The words `struct`, `enum` and `union` take the
name after them along, and a name from the standard headers ends the run.
-/
import Stepwise.Grammar.Parse
import Stepwise.CType

set_option autoImplicit false

namespace Stepwise.Grammar

/-- Keywords that a type is made of. -/
def typeKeywords : List String :=
  ["void", "char", "short", "int", "long", "float", "double", "signed", "unsigned", "_Bool",
    "const", "static", "volatile", "extern", "register", "auto", "inline", "restrict"]

/-- Keywords that take a tag. -/
def tagKeywords : List String :=
  ["struct", "enum", "union"]

/-- Names from the standard headers that stand for types. -/
def typedefNames : List String :=
  ["FILE", "size_t", "bool", "ptrdiff_t", "time_t"]

/-- Can a type begin with the token? -/
def startsType (t : Token) : Bool :=
  match t.kind with
  | .keyword => typeKeywords.contains t.text || tagKeywords.contains t.text
  | .identifier => typedefNames.contains t.text
  | _ => false

/-- Do the tokens begin with a type? -/
def headStartsType : List Token → Bool
  | [] => false
  | t :: _ => startsType t

/-- The type words the tokens begin with. -/
def typeWords (s : List Token) : Parse false s (List String) :=
  match s with
  | [] => Parse.done []
  | t :: rest =>
    if startsType t then
      if tagKeywords.contains t.text then
        match rest with
        | [] => ((Parse.fail (.tag t.text) : Parse false [] _).after t).relax
        | tag :: rest =>
          if tag.kind = .identifier then
            ((((typeWords rest).map fun words =>
              t.text :: tag.text :: words).after tag).after t).relax
          else ((Parse.fail (.tag t.text) : Parse false (tag :: rest) _).after t).relax
      else if t.kind = .identifier then
        ((Parse.done [t.text] : Parse _ rest _).after t).relax
      else (((typeWords rest).map fun words => t.text :: words).after t).relax
    else Parse.done []

/-- Reads a type. -/
def typeName (s : List Token) : Parse false s CType :=
  if headStartsType s then (typeWords s).map fun words => ⟨" ".intercalate words⟩
  else Parse.fail .typeSpecifier

/-- Reads stars and counts them. -/
def stars (s : List Token) : Parse false s Nat :=
  match s with
  | [] => Parse.done 0
  | t :: rest =>
    if isAt "*" t then (((stars rest).map (· + 1)).after t).relax else Parse.done 0

/-- The type with a number of stars. -/
def starred (type : CType) (n : Nat) : CType :=
  ⟨type.text ++ String.ofList (List.replicate n '*')⟩

/-- Reads a type with stars after it. -/
def starredTypeName (s : List Token) : Parse false s CType :=
  (typeName s).andThen fun type rest _ => (stars rest).map (starred type)

end Stepwise.Grammar
