/-
What an expression is evaluated against.

Evaluation reads and changes its surroundings only through a host: the
variables in scope, the memory, the functions that can be called, the layouts
of structs and the macros. The running machine is one host; another knows
nothing but macros and sizes, and evaluates constant expressions.

Names bound by macro parameters are kept apart from variables in a scope. A
scope is handed on to called functions, so a parameter stays visible while the
body of a macro is being evaluated, whatever that body calls.
-/
import Stepwise.Macro
import Stepwise.Value.Coerce

set_option autoImplicit false

namespace Stepwise

/-- Members of a struct: offset and type by name, in order. -/
abbrev Members := Table String (Int × CType)

/-- An object: where it is and what type it has. -/
structure Place where
  /-- Its address. -/
  address : Value
  /-- Its type. -/
  type : CType
deriving Repr, Inhabited

/-- Bound names, innermost first. -/
abbrev Scope := List (String × Typed)

/-- A computation that changes a state or fails. -/
abbrev Eval (σ : Type) := StateT σ (Except Fault)

/-- The surroundings of an evaluation. -/
structure Host (σ : Type) where
  /-- The variable with a name. -/
  lookup : String → σ → Option Place
  /-- The value at an address. -/
  read : Value → Eval σ Value
  /-- Stores a value at an address. -/
  write : Value → Value → Eval σ Unit
  /-- Calls a function. -/
  call : Scope → String → List Typed → Nat → Eval σ Typed
  /-- The members of a struct type. -/
  members : CType → Except Fault Members
  /-- The sizes of struct types. -/
  sizes : StructSizes
  /-- The macros. -/
  macros : Macros
  /-- Takes note of the use of a macro, with its expansion and line. -/
  noteMacro : String → String → Nat → Eval σ Unit

end Stepwise
