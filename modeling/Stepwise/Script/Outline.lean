/-
A trace that executes nothing: it only lists the output calls of the main
function, for programs that no other script understands.
-/
import Stepwise.Machine.Basic

set_option autoImplicit false

namespace Stepwise

/-- Functions that write to the console. -/
def outputFunctions : List String :=
  ["printf", "puts", "putchar"]

/-- Is the statement a return? -/
def Stmt.isReturn : Stmt → Bool
  | .ret .. => true
  | _ => false

/-- The line of the last return among statements, or else that of the last token. -/
def Analysis.returnLine (a : Analysis) (statements : List Stmt) : Nat :=
  match (statements.filter Stmt.isReturn).getLast? with
  | some s => s.line
  | none => a.lastLine

namespace Outline

/-- Shows an output call. -/
def outputCall (setup : Setup) (c : Call) : Run Unit :=
  Run.emitDelta setup .call c.line s!"{c.callee} function call"
    { output := s!"Simulated output from {c.callee} call\n" }

/-- Lists the output calls of a function. -/
def ofFunction (setup : Setup) (main : Function) : Run Unit := do
  Run.emitDelta setup .information main.line "Found main() function - starting execution"
    { stack := [("main", { action := .add })] }
  (main.calls.filter fun c => outputFunctions.contains c.callee).forM (outputCall setup)
  Run.emitDelta setup .ret (setup.analysis.returnLine main.stmts) "Return from main function"
    { stack := [("main", { action := .remove })] }

/-- Lists the output calls of the main function. -/
def run (setup : Setup) : Run Unit :=
  match setup.analysis.main? with
  | some main => ofFunction setup main
  | none => Run.emit setup .error 1 "Could not find main function for execution"

end Outline

end Stepwise
