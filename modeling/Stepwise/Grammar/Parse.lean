/-
Reading tokens.

A reader takes a list of tokens and either gives a value together with the
tokens it left, or a problem together with the tokens at which it met it. In
both cases what is left is the end of what was given, and the type says so;
so the token a problem is reported at is always the first one not yet
consumed. A reader of type `Parse true` has consumed a token whenever it
succeeds, one of type `Parse false` may have consumed none. That is what ends
every recursion of the grammar: it goes on with fewer tokens, or with the same
tokens one level further down.
-/
import Stepwise.Token.Basic

set_option autoImplicit false

namespace Stepwise

/-- What a reader expected where it stopped. -/
inductive Problem where
  /-- A token of a kind, perhaps with a given text. -/
  | expected (kind : Token.Kind) (text : Option String)
  /-- The tag of a struct, enum or union. -/
  | tag (keyword : String)
  /-- A type. -/
  | typeSpecifier
  /-- The name of a function. -/
  | functionName
  /-- The name of a variable. -/
  | variableName
  /-- The name of a member. -/
  | memberName
  /-- The end of a block. -/
  | closingBrace
  /-- The end of a parameter's brackets. -/
  | closingBracket
  /-- The condition of a do-loop. -/
  | whileAfterDo
  /-- A statement. -/
  | statement
  /-- An expression. -/
  | expression
  /-- A token that begins no expression. -/
  | noExpression
  /-- A token that begins nothing at the top level. -/
  | noItem
  /-- Tokens after the end of an expression. -/
  | trailing
deriving Repr, DecidableEq

namespace Problem

/-- The problem in words. -/
def message : Problem → String
  | expected kind text =>
    "Expected " ++ kind.name
      ++ (match text with
          | some t => " " ++ Text.quoted t
          | none => "")
  | tag keyword => s!"Expected {keyword} tag"
  | typeSpecifier => "Expected type specifier"
  | functionName => "Expected function name"
  | variableName => "Expected variable name"
  | memberName => "Expected member name"
  | closingBrace => "Expected '\x7d'"
  | closingBracket => "Expected ']'"
  | whileAfterDo => "Expected 'while' after do body"
  | statement => "Expected statement"
  | expression => "Expected expression"
  | noExpression => "Unexpected token while parsing expression"
  | noItem => "Unexpected token in global scope"
  | trailing => "Unexpected tokens after expression"

/-- The kind of token that was expected, if one was. -/
def kind? : Problem → Option Token.Kind
  | expected kind _ => some kind
  | tag _ | functionName | variableName | memberName => some .identifier
  | typeSpecifier | whileAfterDo => some .keyword
  | closingBrace | closingBracket => some .punctuation
  | statement | expression | noExpression | noItem | trailing => none

/-- The text that was expected, if one was. -/
def text? : Problem → Option String
  | expected _ text => text
  | closingBrace => some "\x7d"
  | closingBracket => some "]"
  | whileAfterDo => some "while"
  | _ => none

end Problem

/-- Why a list of tokens is no program, and where. -/
structure ParseError where
  /-- What was expected. -/
  problem : Problem
  /-- The first token that was not consumed, if any was left. -/
  token : Option Token
  /-- The line of that token, or of the last one. -/
  line : Nat
deriving Repr, DecidableEq

/-- The message of a parse error. -/
def ParseError.message (e : ParseError) : String :=
  match e.token with
  | some t =>
    s!"Parse error at L{t.line}:{t.column}: " ++ e.problem.message
      ++ " (got " ++ t.kind.name ++ " " ++ Text.quoted t.text ++ ")"
  | none => s!"Parse error at L{e.line}: " ++ e.problem.message ++ " (reached end of input)"

namespace Grammar

/-- A problem met in the tokens `s`, with the tokens that were left. -/
structure Failure (s : List Token) where
  /-- What was expected. -/
  problem : Problem
  /-- The tokens that were left. -/
  rest : List Token
  /-- They are the end of the tokens given. -/
  suffix : rest <:+ s

/-- A value read from the tokens `s`, with the tokens that were left. -/
structure Reading (strict : Bool) (s : List Token) (α : Type) where
  /-- What was read. -/
  value : α
  /-- The tokens that were left. -/
  rest : List Token
  /-- They are the end of the tokens given. -/
  suffix : rest <:+ s
  /-- A strict reader has consumed a token. -/
  bound : rest.length + strict.toNat ≤ s.length

/-- The result of a reader on the tokens `s`. -/
abbrev Parse (strict : Bool) (s : List Token) (α : Type) :=
  Except (Failure s) (Reading strict s α)

namespace Parse

variable {α β : Type} {s : List Token}

/-- Reads nothing and gives a value. -/
def done (value : α) : Parse false s α :=
  .ok ⟨value, s, List.suffix_rfl, by simp⟩

/-- Reads nothing and reports a problem. -/
def fail {strict : Bool} (problem : Problem) : Parse strict s α :=
  .error ⟨problem, s, List.suffix_rfl⟩

/-- Goes on with the tokens a reader left. -/
def andThen {a b : Bool} (p : Parse a s α)
    (next : (value : α) → (rest : List Token) → rest.length + a.toNat ≤ s.length →
      Parse b rest β) : Parse (a || b) s β :=
  match p with
  | .error e => .error e
  | .ok r =>
    match next r.value r.rest r.bound with
    | .error e => .error ⟨e.problem, e.rest, e.suffix.trans r.suffix⟩
    | .ok q =>
      .ok ⟨q.value, q.rest, q.suffix.trans r.suffix, by
        have h₁ := r.bound
        have h₂ := q.bound
        cases a <;> cases b <;> simp at h₁ h₂ ⊢ <;> omega⟩

/-- Changes the value that was read. -/
def map {strict : Bool} (f : α → β) (p : Parse strict s α) : Parse strict s β :=
  match p with
  | .error e => .error e
  | .ok r => .ok ⟨f r.value, r.rest, r.suffix, r.bound⟩

/-- Forgets that a token was consumed. -/
def relax {strict : Bool} (p : Parse strict s α) : Parse false s α :=
  match p with
  | .error e => .error e
  | .ok r => .ok ⟨r.value, r.rest, r.suffix, by have := r.suffix.length_le; simpa using this⟩

/-- Reads on after one token. -/
def after {strict : Bool} (t : Token) (p : Parse strict s α) : Parse true (t :: s) α :=
  match p with
  | .error e => .error ⟨e.problem, e.rest, e.suffix.trans (List.suffix_cons t s)⟩
  | .ok r =>
    .ok ⟨r.value, r.rest, r.suffix.trans (List.suffix_cons t s), by
      have := r.suffix.length_le
      simp
      omega⟩

end Parse

/-- Is the token this one? A literal never is, whatever its text. -/
def isAt (text : String) (t : Token) : Bool :=
  t.text == text && t.kind != .literal

/-- Do the tokens begin with this one? -/
def headIs (text : String) : List Token → Bool
  | [] => false
  | t :: _ => isAt text t

/-- Reads a token of a kind and text; reports `problem` otherwise. -/
def expectOr (problem : Problem) (kind : Token.Kind) (text : Option String) (s : List Token) :
    Parse true s Token :=
  match s with
  | [] => Parse.fail problem
  | t :: rest =>
    if t.kind = kind ∧ (text = none ∨ text = some t.text) then
      (Parse.done t : Parse _ rest _).after t
    else Parse.fail problem

/-- Reads punctuation. -/
def punct (text : String) (s : List Token) : Parse true s Token :=
  expectOr (.expected .punctuation (some text)) .punctuation (some text) s

/-- The error that a problem is reported as, for a program of these tokens. -/
def Failure.error {s : List Token} (f : Failure s) : ParseError :=
  { problem := f.problem
    token := f.rest.head?
    line :=
      match f.rest.head?, s.getLast? with
      | some t, _ => t.line
      | none, some t => t.line
      | none, none => 1 }

end Grammar

end Stepwise
