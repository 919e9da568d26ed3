/-
How statements finish, and what blocks and loops make of it.

A block executes its statements until one does not go on to the next. A loop
ends when its condition fails, at a break or return, or when it has used up the
iterations that the settings allow; the last is shown as a warning. Every
outcome carries the line that was executed last, zero if there was none.
-/
import Stepwise.Machine.Condition

set_option autoImplicit false

namespace Stepwise

/-- How a statement finished. -/
inductive Flow where
  /-- Execution goes on with the next statement. -/
  | next (line : Nat)
  /-- The loop or switch is left. -/
  | breakOut (line : Nat)
  /-- The loop goes on with its next iteration. -/
  | continueOn (line : Nat)
  /-- The function is left, perhaps with a value. -/
  | ret (value : Option Typed) (line : Nat)
deriving Repr, Inhabited

namespace Flow

/-- The line that was executed last. -/
def line : Flow → Nat
  | next line | breakOut line | continueOn line | ret _ line => line

/-- The value that leaves the function. -/
def value? : Flow → Option Typed
  | ret value _ => value
  | _ => none

/-- What a switch makes of the outcome of its body. -/
def afterSwitch : Flow → Flow
  | breakOut line => next line
  | flow => flow

end Flow

/-- The first line unless it is zero, which stands for none. -/
def lineOr (line other : Nat) : Nat :=
  if line = 0 then other else line

/-! ## Blocks -/

/-- What a block consists of: directives, and statements with the line they begin on. -/
inductive BlockItem where
  /-- A directive. -/
  | directive (d : Directive)
  /-- A statement. -/
  | stmt (line : Nat) (run : Run Flow)

/-- Executes the items of a block while conditions are open; `last` is the line executed last. -/
def runItems (setup : Setup) (branches : Branches) (last : Nat) : List BlockItem → Run Flow
  | [] => return .next last
  | .directive d :: rest => do
    let branches ← d.run setup branches
    runItems setup branches last rest
  | .stmt line run :: rest =>
    if branches.active then do
      match ← run with
      | .next reached => runItems setup branches (lineOr reached line) rest
      | flow => return flow
    else runItems setup branches last rest

/-- Executes a block. -/
def runBlock (setup : Setup) (items : List BlockItem) : Run Flow :=
  runItems setup [] 0 items

/-! ## Loops -/

/-- A loop: what is checked before an iteration, what an iteration does, and what follows it. -/
structure Loop where
  /-- The line of the loop. -/
  line : Nat
  /-- Does it go on? -/
  check : Run Bool
  /-- An iteration. -/
  body : Run Flow
  /-- What follows an iteration. -/
  update : Run Unit

/-- How many iterations a loop may have. -/
def Settings.iterations (s : Settings) : Nat :=
  s.maxLoopIterations.toNat

/-- The warning that a loop was cut short. -/
def loopWarning (settings : Settings) : String :=
  "Loop stopped after " ++ Numeral.decimal settings.maxLoopIterations ++ " iterations"

namespace Loop

/-- Executes iterations, the first one unchecked, as long as some are left. -/
def iterate (setup : Setup) (loop : Loop) : Nat → Run Flow
  | 0 => do
    Run.emit setup .warning loop.line (loopWarning setup.settings)
    return .next loop.line
  | left + 1 => do
    match ← loop.body with
    | .breakOut _ => return .next loop.line
    | .ret value line => return .ret value line
    | .next _ | .continueOn _ =>
      loop.update
      -- the check is made, and shown, even when no iteration is left
      if ← loop.check then loop.iterate setup left else return .next loop.line

/-- Executes a loop that checks last. -/
def runUnchecked (setup : Setup) (loop : Loop) : Run Flow :=
  loop.iterate setup setup.settings.iterations

/-- Executes a loop that checks first. -/
def run (setup : Setup) (loop : Loop) : Run Flow := do
  if ← loop.check then loop.runUnchecked setup else return .next loop.line

end Loop

end Stepwise
