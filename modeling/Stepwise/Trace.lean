/-
Traces.

A trace begins with the start of the program and ends with its end. In between
are the steps of the script for the program's category, or, if the program
cannot be analyzed or its script stops, a single step with the reason. Making
a trace never fails.

The state of a trace is the one the machine is left with. It is also what the
steps make of an empty state; `replayedTrace` takes it from there.
-/
import Stepwise.Script.Remark

set_option autoImplicit false

namespace Stepwise

/-- A trace of a program. -/
structure Trace where
  /-- The steps in order. -/
  steps : List Step
  /-- The state after the last step. -/
  state : State
  /-- What the program is about, if that could be told. -/
  category : Option Category
  /-- Why there are no steps of a script, if there are none. -/
  fault : Option Fault

namespace Trace

/-- Did the script come to its end? -/
def ok (t : Trace) : Bool :=
  t.fault.isNone

/-- What the program wrote to the console. -/
def output (t : Trace) : String :=
  t.state.console

/-- The first step of every trace. -/
def startStep : Step :=
  { kind := .initialization, line := 1, description := "Program start" }

/-- The last step of the trace of a program with these tokens. -/
def endStep (tokens : List Token) : Step :=
  { kind := .finalization, line := lastLine tokens, description := "Program end" }

/-- The text of a trace that has no steps of a script. -/
def faultText (fault : Fault) : String :=
  "Error generating steps: " ++ fault.text

/-- The step that gives the reason for a trace without steps of a script. -/
def faultStep (fault : Fault) : Step :=
  { kind := .error, line := 1, description := faultText fault }

/-- The trace without steps of a script. -/
def failed (settings : Settings) (tokens : List Token) (category : Option Category)
    (fault : Fault) : Trace :=
  { steps := [startStep, faultStep fault, endStep tokens]
    state := { heapBase := settings.heapBase }
    category := category
    fault := some fault }

/-- The trace of a script that came to its end. -/
def completed (tokens : List Token) (category : Category) (m : Machine) : Trace :=
  { steps := startStep :: (m.steps.toList ++ [endStep tokens])
    state := m.state
    category := some category
    fault := none }

end Trace

/-- The trace of a program. -/
def Program.trace (p : Program) (source : String) (tokens : List Token) (settings : Settings)
    (spare : Nat := spareDepth) : Trace :=
  match analyze p source tokens spare with
  | .error fault => Trace.failed settings tokens none fault
  | .ok analysis =>
    let category := analysis.category
    match category.play { analysis, settings } (Machine.start settings) with
    | .error fault => Trace.failed settings tokens (some category) fault
    | .ok (_, m) => Trace.completed tokens category m

/-- The trace with given steps, whose state is made from them. The steps might contradict each
other; then there is no trace. -/
def Trace.ofSteps (settings : Settings) (steps : List Step) (category : Option Category)
    (fault : Option Fault) : Except Fault Trace := do
  return { steps, state := ← replay steps none settings.heapBase, category, fault }

/-- The trace of a program as its steps make it, without the state of the machine that made them. -/
def Program.replayedTrace (p : Program) (source : String) (tokens : List Token)
    (settings : Settings) : Except Fault Trace :=
  let around (body : List Step) := Trace.startStep :: (body ++ [Trace.endStep tokens])
  match analyze p source tokens with
  | .error fault => Trace.ofSteps settings (around [Trace.faultStep fault]) none (some fault)
  | .ok analysis =>
    let category := analysis.category
    match category.play { analysis, settings } (Machine.start settings) with
    | .error fault =>
      Trace.ofSteps settings (around [Trace.faultStep fault]) (some category) (some fault)
    | .ok (_, m) => Trace.ofSteps settings (around m.steps.toList) (some category) none

/-- The trace of the program that a source text spells. -/
def trace (source : String) (settings : Settings) : Except ParseError Trace :=
  let tokens := tokenize source
  match parse tokens with
  | .error e => .error e
  | .ok p => .ok (p.trace source tokens settings)

end Stepwise
