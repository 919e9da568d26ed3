/-
What a run of the command line prints, and how it ends.

Without an option that asks for something else, the steps are listed and then
what the program wrote. A run ends with zero if the trace has the steps of a
script, with two if it has none, and with one if there is nothing to trace:
the source or the settings cannot be used, or there is no such step.

Some problems are not reported at all but end the program where they stand: a
log that cannot be opened, a path that no file can have, and a limit that was
given without a number.
-/
import Stepwise.CommandLine.Listing
import Stepwise.CommandLine.Options
import Stepwise.CommandLine.Usage
import Stepwise.CommandLine.Workplace
import Stepwise.Session
import Stepwise.Text.Split

set_option autoImplicit false

namespace Stepwise.CommandLine

/-- What a run leaves. -/
structure Report where
  /-- What it prints. -/
  stdout : String := ""
  /-- What it complains about. -/
  stderr : String := ""
  /-- How it ends. -/
  exit : Nat := 0
deriving Repr, DecidableEq

/-- Lines as they are printed. -/
def printed (lines : List String) : String :=
  String.join (lines.map (· ++ "\n"))

/-- A run that only complains. -/
def complaint (message : String) : Report :=
  { stderr := message ++ "\n", exit := 1 }

/-- A run that meets something it has no complaint for. -/
def internalError (message : String) : Report :=
  { stderr := "Internal tracer error: " ++ message ++ "\n", exit := 2 }

/-- What becomes of a run. -/
inductive Outcome where
  /-- The arguments ask for no trace. -/
  | ended (ending : Ending)
  /-- It comes to its end and leaves a report. -/
  | finished (report : Report)
  /-- It stops where it stands; the label names the reason. -/
  | crashed (label : String)
deriving Repr, DecidableEq

/-! ## Source and settings -/

/-- What becomes of a run whose source cannot be opened. -/
def unreadable (input : String) : OpenProblem → Outcome
  | .missing => .finished (complaint s!"Error: File not found: {input}")
  | .badPath => .crashed OpenProblem.badPath.label
  | problem => .finished (complaint (s!"Error reading {input}: " ++ problem.message input))

/-- How much of a text a complaint shows. -/
def shownLength : Nat := 200

/-- An address, or the complaint that it is none. -/
def readAddress (text : String) : Except String Int :=
  match readAddress? text with
  | some n => .ok n
  | none =>
    let (base, digits) := addressDigits text
    let shown := (Text.quoted (String.ofList digits)).toList.take shownLength
    .error ("invalid literal for int() with base " ++ Numeral.decimal base ++ ": "
      ++ String.ofList shown)

/-- An address that an option gives, if it gives one. -/
def addressOr (default : Int) : Option String → Except String Int
  | none => .ok default
  | some text => if text.isEmpty then .ok default else readAddress text

/-- Was the option given without a number? -/
def isBlank (amount : Option Amount) : Bool :=
  amount == some .blank

/-- The number that an option gives, if it gives one. -/
def numberOr (default : Int) (amount : Option Amount) : Int :=
  (amount.bind Amount.number?).getD default

/-- The settings that the options ask for, with the usual limits in place of blank ones. -/
def Options.requested (o : Options) : Except String Settings := do
  let usual : Settings := {}
  let stackBase ← addressOr usual.stackBase o.stackBase
  let heapBase ← addressOr usual.heapBase o.heapBase
  return {
    stackBase := stackBase
    heapBase := heapBase
    keyboard := o.keyboard.getD usual.keyboard
    maxCallDepth := numberOr usual.maxCallDepth o.maxDepth
    maxLoopIterations := numberOr usual.maxLoopIterations o.maxLoops }

/-- Does a blank limit stop the run? Limits are checked in order, so one that comes after a
problem is not looked at. -/
def Options.blankLimit (o : Options) : Option Settings.Invalid → Bool
  | none => isBlank o.maxDepth || isBlank o.maxLoops
  | some .loopIterations => isBlank o.maxDepth
  | some _ => false

/-- The settings of a run, or what becomes of it without. -/
def Options.settings (o : Options) : Except Outcome Settings :=
  let rejected (message : String) : Outcome := .finished (complaint s!"Error: {message}")
  match o.requested with
  | .error message => .error (rejected message)
  | .ok settings =>
    if o.blankLimit settings.invalid? then .error (.crashed Fault.wrongShape.label)
    else
      match settings.checked with
      | .ok settings => .ok settings
      | .error problem => .error (rejected problem.message)

/-! ## Output -/

/-- How a run with this trace ends. -/
def traceExit (s : Session) : Nat :=
  match s.trace with
  | some t => if t.ok then 0 else 2
  | none => 2

/-- A step and the state after it. -/
def stepReport (index : Nat) (step : Step) (state : State) : Report :=
  let (lines, problem) := Listing.printable (Listing.stateLines state)
  let listed := printed (Listing.stepLine index step :: lines)
  match problem with
  | none => { stdout := listed ++ Listing.closed state.console }
  | some e => { internalError e.message with stdout := listed }

/-- The step that was asked for. -/
def oneStep (s : Session) (index : Int) : Report :=
  let moved := s.goTo index
  if index < 0 ∨ s.steps.length ≤ index then
    complaint ("Error: step must be between 0 and " ++ Numeral.decimal (s.steps.length - 1 : Int))
  else
    match moved.step?, moved.stateAt none with
    | some step, .ok state => stepReport moved.position step state
    | _, .error fault => internalError fault.text
    | none, .ok _ => {}

/-- The step that was asked for, if a number was given. -/
def stepAsked (s : Session) : Amount → Report
  | .number index => oneStep s index
  | .blank => internalError "'<=' not supported between instances of 'int' and 'list'"

/-- All steps, and what the program wrote. -/
def allSteps (s : Session) : Report :=
  let category := ((s.trace.bind Trace.category).map Category.text).getD "unknown"
  let output := (s.trace.map Trace.output).getD ""
  { stdout :=
      printed
        (s!"Category: {category}" ::
          s.steps.zipIdx.map (fun (step, index) => Listing.stepLine index step)
          ++ ["", "Console output:"])
        ++ Listing.closed output
    exit := traceExit s }

/-- What the options ask to see of a traced session. -/
def sessionReport (o : Options) (s : Session) : Report :=
  if o.ast then
    match s.program with
    | some p => { stdout := printed (Listing.treeLines 0 p.tree) }
    | none => {}
  else if o.json then
    { stdout := s.document.render (some 2) ++ "\n", exit := traceExit s }
  else
    match o.step with
    | some amount => stepAsked s amount
    | none => allSteps s

/-- What a run on a source text prints. -/
def sourceReport (o : Options) (settings : Settings) (time source : String) : Report :=
  if o.tokens then { stdout := printed ((tokenize source).map Token.listing) }
  else
    let start : Session := { settings := settings }
    match start.run time source with
    | (_, some e) => complaint e.message
    | (session, none) => sessionReport o session

/-- What becomes of a run, given the contents of its source file and the time. -/
def outcome (o : Options) (contents : Except OpenProblem String) (time : String) : Outcome :=
  match contents with
  | .error problem => unreadable o.input problem
  | .ok text =>
    match o.settings with
    | .error outcome => outcome
    | .ok settings =>
      .finished (sourceReport o settings time (String.ofList (Text.unifyBreaks text.toList)))

/-- The source text: standard input for a dash, otherwise the contents of a file. -/
def Workplace.source (w : Workplace) (input : String) : Except OpenProblem String :=
  if input = "-" then .ok w.stdin else w.read input

/-- The workplace with the log that the options ask for. -/
def Workplace.withLog (w : Workplace) (o : Options) : Except OpenProblem Workplace :=
  match o.logFile with
  | none | some "" => .ok w
  | some path => w.appending path

/-- What becomes of a run at a workplace. -/
def runAt (w : Workplace) (time : String) (arguments : List String) : Outcome :=
  match read arguments with
  | .error ending => .ended ending
  | .ok o =>
    match w.withLog o with
    | .error problem => .crashed problem.label
    | .ok w => outcome o (w.source o.input) time

/-! ## Runs without a trace -/

/-- The version, with the name of the program. -/
def versionLine : String := "ctracer 0.2.0"

/-- What a run prints that traces nothing. -/
def endingReport : Ending → Report
  | .help => { stdout := help }
  | .version => { stdout := versionLine ++ "\n" }
  | .mistake m => { stderr := usage ++ "ctracer: error: " ++ m.message ++ "\n", exit := 2 }

end Stepwise.CommandLine
