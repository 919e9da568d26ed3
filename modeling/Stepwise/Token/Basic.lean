/-
Tokens: the words of a source text with the place where each begins.

Lines and columns count from one, and columns count characters. A word is a
keyword, the name of a library function, or an identifier; an operator text is
an operator or punctuation; numbers and quoted texts are literals. A directive
line gives a preprocessor token for its command and further tokens for its
arguments.
-/
import Stepwise.Text.Quoted

set_option autoImplicit false

namespace Stepwise

/-- What a token is. -/
inductive Token.Kind where
  /-- A reserved word. -/
  | keyword
  /-- A name. -/
  | identifier
  /-- The name of a library function. -/
  | function
  /-- An operator. -/
  | operator
  /-- Brackets, separators and selectors. -/
  | punctuation
  /-- A number, a quoted text, or the body of a directive. -/
  | literal
  /-- The command of a directive. -/
  | preprocessor
deriving Repr, DecidableEq, Inhabited

/-- A token and where it begins. -/
structure Token where
  /-- What it is. -/
  kind : Token.Kind
  /-- The token as written. -/
  text : String
  /-- The line it begins on, from one. -/
  line : Nat
  /-- The column it begins in, from one. -/
  column : Nat
deriving Repr, DecidableEq, Inhabited

namespace Token

/-- The kind in messages. -/
def Kind.name : Kind → String
  | keyword => "keyword"
  | identifier => "identifier"
  | function => "function"
  | operator => "operator"
  | punctuation => "punctuation"
  | literal => "literal"
  | preprocessor => "preprocessor"

/-- The kind in token listings. -/
def Kind.label : Kind → String
  | keyword => "KEYWORD"
  | identifier => "IDENTIFIER"
  | function => "FUNCTION"
  | operator => "OPERATOR"
  | punctuation => "PUNCTUATION"
  | literal => "LITERAL"
  | preprocessor => "PREPROCESSOR"

/-- A token as a listing shows it. -/
def listing (t : Token) : String :=
  "Token(" ++ t.kind.label ++ ", " ++ Text.quoted t.text ++ s!", L{t.line}:{t.column})"

/-- Reserved words. -/
def keywords : List String :=
  ["auto", "break", "case", "char", "const", "continue", "default", "do", "double", "else", "enum",
    "extern", "float", "for", "goto", "if", "inline", "int", "long", "register", "restrict",
    "return", "short", "signed", "sizeof", "static", "struct", "switch", "typedef", "union",
    "unsigned", "void", "volatile", "while", "_Bool", "_Complex", "_Imaginary"]

/-- Names of library functions. -/
def libraryNames : List String :=
  ["printf", "scanf", "malloc", "free", "calloc", "realloc", "strlen", "strcpy", "strcat", "strcmp",
    "fopen", "fclose", "fread", "fwrite", "fprintf", "fscanf", "fgets", "fputs", "fseek", "ftell",
    "rewind", "puts", "putchar"]

/-- Operators, longer ones first. -/
def operators : List String :=
  ["<<=", ">>=", "++", "--", "==", "!=", ">=", "<=", "&&", "||", "<<", ">>", "+=", "-=", "*=", "/=",
    "%=", "&=", "|=", "^=", "+", "-", "*", "/", "%", ">", "<", "!", "&", "|", "^", "~", "="]

/-- Punctuation, longer ones first. -/
def punctuation : List String :=
  ["...", "->", "\x7b", "\x7d", "(", ")", "[", "]", ";", ",", ".", ":", "?"]

/-- The kind of a word. -/
def wordKind (word : String) : Kind :=
  if keywords.contains word then .keyword
  else if libraryNames.contains word then .function
  else .identifier

/-- The kind of an operator text. -/
def operatorKind (text : String) : Kind :=
  if operators.contains text then .operator else .punctuation

/-- Does one token begin no later than another? -/
def noLater (a b : Token) : Bool :=
  a.line < b.line || (a.line == b.line && a.column ≤ b.column)

end Token

end Stepwise
