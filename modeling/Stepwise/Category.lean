/-
What a program is about.

Each category has a fingerprint: a text that occurs in the source, letter case
aside, or a property of the program. The first category whose fingerprint
matches decides which script plays the program out, so the order matters: a
program that allocates memory for structs is about allocation.
-/
import Stepwise.Analysis
import Stepwise.CallGraph
import Stepwise.Text.Lower

set_option autoImplicit false

namespace Stepwise

/-- What a program is about. -/
inductive Category where
  /-- Memory that is reserved and freed. -/
  | dynamicAllocation
  /-- Structs. -/
  | structures
  /-- Files. -/
  | fileIo
  /-- Jumps to labels. -/
  | switchCase
  /-- Macros. -/
  | preprocessor
  /-- Operations on bits. -/
  | bitwise
  /-- Functions that call themselves. -/
  | recursion
  /-- Arrays. -/
  | arrays
  /-- Variables and pointers without loops. -/
  | basic
  /-- Anything else. -/
  | generic
deriving Repr, DecidableEq, Inhabited

/-! ## Properties -/

/-- Does the expression itself work on bits? Taking an address does not. -/
def Expr.worksOnBits : Expr → Bool
  | .binary _ (.arith op) _ _ | .assign _ (some op) _ _ =>
    match op with
    | .bitAnd | .bitOr | .bitXor | .shiftLeft | .shiftRight => true
    | .add | .sub | .mul | .div | .mod => false
  | .unary _ .complement _ => true
  | _ => false

/-- Does the program work on bits? -/
def Program.usesBits (p : Program) : Bool :=
  p.exprs.any fun e => e.parts.any Expr.worksOnBits

/-- Is the statement a loop or a switch? -/
def Stmt.repeatsOrJumps : Stmt → Bool
  | .forLoop .. | .whileLoop .. | .doLoop .. | .switch .. => true
  | _ => false

/-- Is there a function to start with, without loops and switches? -/
def Program.isStraightLine (p : Program) : Bool :=
  match p.function? "main" with
  | some main => !main.stmts.any Stmt.repeatsOrJumps
  | none => false

/-- Does a text begin like the head of a switch? -/
def beginsSwitch (s : List Char) : Bool :=
  match Text.trimLeft (s.drop "switch".length) with
  | '(' :: _ => "switch".toList.isPrefixOf s
  | _ => false

/-- Is there the head of a switch somewhere in the text? -/
def hasSwitch : List Char → Bool
  | [] => false
  | c :: rest => beginsSwitch (c :: rest) || hasSwitch rest

namespace Category

/-- The name of a category. -/
def text : Category → String
  | dynamicAllocation => "dynamic_allocation"
  | structures => "structures"
  | fileIo => "file_io"
  | switchCase => "switch_case"
  | preprocessor => "preprocessor"
  | bitwise => "bitwise"
  | recursion => "recursion"
  | arrays => "arrays"
  | basic => "basic"
  | generic => "generic"

/-- The categories that have a fingerprint, in the order in which they are tried. -/
def table : List Category :=
  [dynamicAllocation, structures, fileIo, switchCase, preprocessor, bitwise, recursion, arrays,
    basic]

/-- Does the fingerprint of a category match a program, given its source in lower case? -/
def holds (p : Program) (lowered : List Char) (c : Category) : Bool :=
  let has (needle : String) := Text.occursIn needle.toList lowered
  match c with
  | dynamicAllocation => has "malloc(" || has "free("
  | structures => has "struct "
  | fileIo => has "fopen(" || has "fclose("
  | switchCase => hasSwitch lowered || has "case "
  | preprocessor => has "#define "
  | bitwise => p.usesBits
  | recursion => !p.callGraph.selfCalling.isEmpty
  | arrays => has "[" && has "]"
  | basic => p.isStraightLine
  | generic => false

end Category

namespace Analysis

/-- The source text in lower case. -/
def lowered (a : Analysis) : List Char :=
  (Text.lower a.source).toList

/-- Every category whose fingerprint matches. -/
def matchingCategories (a : Analysis) : List Category :=
  Category.table.filter (Category.holds a.program a.lowered)

/-- The category of a program: the first that matches. -/
def category (a : Analysis) : Category :=
  (Category.table.find? (Category.holds a.program a.lowered)).getD .generic

end Analysis

end Stepwise
