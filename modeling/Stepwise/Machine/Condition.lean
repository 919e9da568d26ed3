/-
Directives between the statements of a block.

A condition opens a branch and the matching end closes it; in between, an
alternative is compiled only if no earlier branch of the same condition was.
Statements run only while every open branch is active. A condition inside a
branch that is skipped is still kept track of, but no step shows it. Any other
directive has had its effect before the program started, so its step only says
so.
-/
import Stepwise.Machine.Basic

set_option autoImplicit false

namespace Stepwise

/-- An open condition. -/
structure Branch where
  /-- Has one of its branches been compiled? -/
  taken : Bool
  /-- Is the current branch compiled? -/
  active : Bool
deriving Repr, DecidableEq

/-- The open conditions of a block, innermost first. -/
abbrev Branches := List Branch

/-- Are statements compiled here? -/
def Branches.active (branches : Branches) : Bool :=
  branches.all Branch.active

namespace Directive

/-- The first argument, empty if there is none. -/
def argument (d : Directive) : String :=
  d.arguments.headD ""

/-- The directive as one line. -/
def inFull (d : Directive) : String :=
  " ".intercalate (d.command :: d.arguments)

/-- The value of a condition: a whole number as it stands or as the body of a macro, and zero for
anything else. -/
def conditionValue (macros : Macros) (argument : String) : Except Fault Int :=
  let body :=
    match macros.find? (String.ofList (Text.trim argument.toList)) with
    | some m => m.body.toList
    | none => argument.toList
  if Text.allDigitSigns ((Text.trim body).dropWhile (· == '-')) then
    match Numeral.readInt? 10 body with
    | some n => .ok n
    | none => .error .badValue
  else .ok 0

/-- Is a block compiled? In words. -/
def verdict (compiled : Bool) : String :=
  if compiled then "compiling" else "skipping"

/-- What an opening directive decides, and why, in words; none for other directives. -/
def opening? (macros : Macros) (d : Directive) : Option (Except Fault (Bool × String)) :=
  let name := d.argument
  let defined := macros.has name
  let state := if defined then "defined" else "not defined"
  match d.command with
  | "#if" => some do
    let result := (← conditionValue macros name) ≠ 0
    return (result, s!"#if {name} is " ++ if result then "true" else "false")
  | "#ifdef" => some (.ok (defined, s!"#ifdef {name}: {name} is {state}"))
  | "#ifndef" => some (.ok (!defined, s!"#ifndef {name}: {name} is {state}"))
  | _ => none

/-- Opens a condition. -/
def runOpening (setup : Setup) (d : Directive) (branches : Branches) (compiled : Bool)
    (reason : String) : Run Branches := do
  if branches.active then
    Run.emit setup .preprocessing d.line (reason ++ ", " ++ verdict compiled ++ " the block")
  return ⟨compiled, compiled⟩ :: branches

/-- Goes on to another branch of the innermost condition. -/
def runAlternative (setup : Setup) (d : Directive) : Branches → Run Branches
  | [] => Eval.fail (.unmatchedDirective d.command d.line)
  | branch :: outer => do
    -- a condition is evaluated only if no earlier branch was compiled
    let compiled ←
      if branch.taken then pure false
      else if d.command = "#elif" then do
        let value ← Eval.lift (conditionValue setup.analysis.macros d.argument)
        pure (value ≠ 0)
      else pure true
    if Branches.active outer then
      Run.emit setup .preprocessing d.line
        (d.command ++ ": " ++ verdict compiled ++ " the alternative block")
    return ⟨branch.taken || compiled, compiled⟩ :: outer

/-- Executes a directive: the branches that are open after it. -/
def run (setup : Setup) (d : Directive) (branches : Branches) : Run Branches :=
  match d.opening? setup.analysis.macros with
  | some decision => do
    let (compiled, reason) ← Eval.lift decision
    d.runOpening setup branches compiled reason
  | none =>
    match d.command with
    | "#else" | "#elif" => d.runAlternative setup branches
    | "#endif" =>
      match branches with
      | [] => Eval.fail (.unmatchedDirective d.command d.line)
      | _ :: outer => return outer
    | _ => do
      if branches.active then
        Run.emit setup .preprocessing d.line (d.inFull ++ " is handled before compilation")
      return branches

end Directive

end Stepwise
