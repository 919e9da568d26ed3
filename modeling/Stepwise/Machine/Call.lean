/-
Calls of the program's functions.

A call puts a frame with the arguments on the stack, executes the body and
takes the frame off again; the two steps around the body say so. Calls inside
calls are bounded by the settings, and the bound is what makes execution end:
each call hands on a budget that is one lower. Names bound while the call was
being evaluated stay bound in the body.
-/
import Stepwise.Machine.Library
import Stepwise.Machine.Statement

set_option autoImplicit false

namespace Stepwise

/-- What a script adds to declarations, given how expressions are evaluated. -/
abbrev Commentary := Setup → (Expr → Run Typed) → Variable → CType → Int → Run Unit

/-- Adds nothing to declarations. -/
def noCommentary : Commentary :=
  fun _ _ _ _ _ => pure ()

/-- How a function is called: with bound names, by name, with arguments, from a line. -/
abbrev Caller := Scope → String → List Typed → Nat → Run Typed

/-- The machine as the surroundings of an evaluation. -/
def machineHost (setup : Setup) (call : Caller) : Host Machine where
  lookup name m := m.lookup name
  read := Run.read
  write := Run.write
  call := call
  members := setup.analysis.layouts.membersOf
  sizes := setup.analysis.sizes
  macros := setup.analysis.macros
  noteMacro name text line :=
    Run.emit setup .preprocessing line s!"Macro {name} expands to {text}"

/-- Evaluates an expression on the machine. -/
def evaluateWith (setup : Setup) (call : Caller) (scope : Scope) (e : Expr) : Run Typed :=
  evaluate (machineHost setup call) setup.analysis.spare scope e

namespace Invocation

/-- Places the arguments of a call: the cells and the variables of the new frame. -/
def place (setup : Setup) (frame : String) :
    List (Parameter × Typed) → Table Number CellPatch → List FrameVariable →
      Run (Table Number CellPatch × List FrameVariable)
  | [], cells, vars => return (cells, vars)
  | (parameter, argument) :: rest, cells, vars => do
    let type := parameter.fullType
    let layouts := setup.analysis.layouts
    let value ← copyValue layouts type argument.value
    let address ← Run.allocateStack (← Eval.lift (type.size setup.analysis.sizes))
    let more ← Eval.lift
      (objectCells setup.analysis.spare layouts parameter.name type address value)
    own type address frame parameter.name
    place setup frame rest (cells.putAll more)
      (vars ++ [frameVariable parameter.name type address value])

/-- Enters a function: the frame appears. -/
def enter (setup : Setup) (f : Function) (frame : String) (arguments : List Typed) (line : Nat) :
    Run Unit := do
  let (cells, vars) ← place setup frame (f.named.zip arguments) [] []
  Run.emitDelta setup .call line
    (s!"Call to {f.name}(" ++ ", ".intercalate (arguments.map Typed.shown) ++ ")")
    { memory := cells
      stack := [(frame, { action := .add, vars := vars, returnAddress := .int line })] }
  Run.change fun m => { m with active := f.name :: m.active }

/-- The result of a function, from the value that left it. -/
def result (f : Function) : Option Typed → Except Fault Value
  | some v => v.value.coerce f.returnType
  | none => .ok .uninit

/-- A return in words. -/
def describeReturn (f : Function) (frame : String) (value : Value) : String :=
  s!"Return from {frame}"
    ++ if value.isInit then " with value " ++ value.shown f.returnType else ""

/-- Leaves a function: the frame goes, and its variables with it. -/
def leave (setup : Setup) (f : Function) (frame : String) (flow : Flow) : Run Typed := do
  Run.change fun m => { m with active := m.active.tail }
  let value ← Eval.lift (result f flow.value?)
  Run.emitDelta setup .ret (lineOr flow.line f.line) (describeReturn f frame value)
    { stack := [(frame, { action := .remove })] }
  Run.change fun m =>
    { m with owners := m.owners.filter fun (_, owner) => owner.frame != frame }
  return ⟨value, f.returnType⟩

/-- Calls a function whose body is executed by a given computation. -/
def run (setup : Setup) (f : Function) (arguments : List Typed) (line : Nat) (body : Run Flow) :
    Run Typed :=
  if arguments.length ≠ f.named.length then
    Eval.fail (.callArity f.name f.named.length arguments.length)
  else do
    -- the label is fixed before the call counts as active
    let frame ← Run.ask fun m => m.nextLabel f.name
    enter setup f frame arguments line
    let flow ← body
    leave setup f frame flow

end Invocation

/-- What the statements of a called function are executed with. -/
def walker (setup : Setup) (commentary : Commentary) (call : Caller) (scope : Scope) : Walker :=
  let evaluate := evaluateWith setup call scope
  { setup := setup
    evaluate := evaluate
    afterDeclaration := commentary setup evaluate }

/-- How one of the program's functions is called: with bound names and arguments, from a line. -/
abbrev Invoker := Function → Scope → List Typed → Nat → Run Typed

/-- Calls a function by name: one of the library, otherwise one of the program. -/
def callBy (setup : Setup) (invoke : Invoker) : Caller :=
  fun scope name arguments line =>
    -- the library comes first: a function of the program cannot take the place of one of its own
    match LibraryFunction.ofName? name with
    | some f => f.run setup.settings arguments
    | none =>
      match setup.analysis.program.function? name with
      | some f => invoke f scope arguments line
      | none => Eval.fail (.unknownFunction name)

/-- Calls one of the program's functions with a budget for calls inside calls. -/
def invoke (setup : Setup) (commentary : Commentary) : Nat → Invoker
  | 0 => fun f _ _ _ => Eval.fail (.callDepth setup.settings.maxCallDepth f.name)
  | budget + 1 => fun f scope arguments line =>
    let call := callBy setup (invoke setup commentary budget)
    Invocation.run setup f arguments line
      ((walker setup commentary call scope).runBody f.body)

/-- How many calls may be active. -/
def Settings.calls (s : Settings) : Nat :=
  s.maxCallDepth.toNat

/-- Calls a function by name when so many calls are active. -/
def callAt (setup : Setup) (commentary : Commentary) (active : Nat) : Caller :=
  callBy setup (invoke setup commentary (setup.settings.calls - active))

/-- Executes the program: its variables outside functions, then its main function. -/
def runMain (setup : Setup) (commentary : Commentary) : Run Unit :=
  match setup.analysis.main? with
  | none => Eval.fail .noMain
  | some main => do
    declareGlobals setup (evaluateWith setup (callAt setup commentary 0) [])
    let _ ← invoke setup commentary setup.settings.calls main [] [] main.line

end Stepwise
