/-
The running machine.

A machine holds the state that its steps have made so far, the cursor for the
next objects, the active calls, and the files on its disk. What an expression
does while it is evaluated (writes, heap changes, output, notes) is held back
and goes out with the next step; reading sees held-back writes. Every step is
applied to the state as it is emitted, so the state is always what the emitted
steps make of an empty one.

A step says what all that was held back comes to, not in which order it came. The
order is kept in a journal, which nothing reads while the machine runs: it is
what the machine is held against.
-/
import Stepwise.Analysis
import Stepwise.Machine.Cursor
import Stepwise.Machine.State
import Stepwise.Settings
import Stepwise.Value.Show

set_option autoImplicit false

namespace Stepwise

/-- The frame that holds the variables outside functions. -/
def globalFrame : String := "globals"

/-- A file that is open. -/
structure OpenFile where
  /-- Its name. -/
  name : String
  /-- How it was opened. -/
  mode : String
  /-- How far it has been read. -/
  position : Nat := 0
deriving Repr

/-- The variable that a cell holds, and the frame it is in. -/
structure Owner where
  /-- The label of the frame. -/
  frame : String
  /-- The name of the variable. -/
  name : String
deriving Repr

/-- Something that happened while a machine ran. -/
inductive Event where
  /-- A text was written to the console. -/
  | printed (text : String)
  /-- A value was written to an address. -/
  | wrote (address : Number) (value : Value)
  /-- A step was emitted: the change of its own that it showed, and the state after it. -/
  | emitted (change : Delta) (state : State)

/-- A machine. -/
structure Machine where
  /-- The state that the emitted steps have made. -/
  state : State
  /-- Where the next objects go. -/
  cursor : Cursor
  /-- The emitted steps in order. -/
  steps : Array Step := #[]
  /-- The functions that are being executed, innermost first. -/
  active : List String := []
  /-- Open files by handle. -/
  files : Table Number OpenFile := []
  /-- Contents of files by name. -/
  disk : Table String String := []
  /-- The variables that cells hold, by address. -/
  owners : Table Number Owner := []
  /-- Writes that no step has shown yet, by address. -/
  writes : Table Number Value := []
  /-- Heap changes that no step has shown yet, by address. -/
  blocks : Table Number BlockPatch := []
  /-- Output that no step has shown yet. -/
  output : String := ""
  /-- Notes that no step has shown yet. -/
  notes : List String := []
  /-- Everything that happened, newest first. A step merges what was held back for it; the journal
  keeps it apart and in order. -/
  journal : List Event := []

/-- A computation of the machine. -/
abbrev Run := Eval Machine

/-- What a machine runs under. -/
structure Setup where
  /-- The program. -/
  analysis : Analysis
  /-- The settings. -/
  settings : Settings

namespace Machine

/-- The machine before its first step. -/
def start (settings : Settings) : Machine :=
  { state := { heapBase := settings.heapBase }
    cursor := Cursor.startingAt settings.stackBase settings.heapBase }

/-! ## Frames -/

/-- The label of a call: the function's name, with a number from the second active call on. -/
def label (name : String) (earlier : Nat) : String :=
  if earlier = 0 then name else name ++ "#" ++ Numeral.decimal (earlier + 1)

/-- The label that the next call of a function gets. -/
def nextLabel (m : Machine) (name : String) : String :=
  label name (m.active.count name)

/-- The label of the innermost call. -/
def currentFrame (m : Machine) : String :=
  match m.active with
  | [] => globalFrame
  | name :: outer => label name (outer.count name)

/-- The variable with a name: in the innermost call, otherwise outside functions. -/
def lookup (m : Machine) (name : String) : Option Place :=
  let find (frame : String) : Option Place := do
    let cell ← (← m.state.frame? frame).vars.find? name
    return ⟨.num cell.address, cell.type⟩
  (find m.currentFrame).or (find globalFrame)

/-! ## Memory -/

/-- The number of an address; a text is one that cannot be shown, anything else is none. -/
def addressOf : Value → Except Fault Number
  | .num n => .ok n
  | .text _ => .error .badValue
  | _ => .error .wrongShape

/-- The value at an address, with held-back writes. -/
def read (m : Machine) (address : Value) : Except Fault Value := do
  let a ← addressOf address
  match m.writes.find? a with
  | some v => return v
  | none =>
    match m.state.memory.find? a with
    | some cell => return cell.value
    | none => .error (State.addressFault .unmappedRead a)

/-- The machine with a value written to an address. -/
def write (m : Machine) (address value : Value) : Except Fault Machine := do
  let a ← addressOf address
  if m.state.memory.has a then
    return { m with writes := m.writes.put a value, journal := .wrote a value :: m.journal }
  else .error (State.addressFault .unmappedWrite a)

/-- The name of the object at an address. -/
def cellName? (m : Machine) : Value → Option String
  | .num (.int n) => (m.state.memory.find? (.int n)).map Cell.name
  | _ => none

/-- The name of what a pointer designates: the struct, not its first member. -/
def pointeeName? (m : Machine) (address : Value) (pointer : CType) : Except Fault (Option String) :=
  match m.cellName? address with
  | none => .ok none
  | some name => do
    let element ← pointer.element
    return some
      (if element.isStruct then String.ofList (name.toList.takeWhile (· != '.')) else name)

/-- Is there anything that no step has shown yet? -/
def hasPending (m : Machine) : Bool :=
  !m.writes.isEmpty || !m.blocks.isEmpty || !m.output.isEmpty || !m.notes.isEmpty

/-! ## Steps -/

/-- Held-back writes as new contents of their cells. -/
def pendingCells (m : Machine) : Table Number CellPatch :=
  m.writes.filterMap fun (address, value) =>
    (m.state.memory.find? address).map fun cell => (address, ⟨value, cell.name, cell.type⟩)

/-- The frame and the variable that a held-back write changes, if the frame is there. -/
def pendingVariable? (m : Machine) (address : Number) (value : Value) :
    Option (String × FrameVariable) := do
  let cell ← m.state.memory.find? address
  let owner ← m.owners.find? address
  let _ ← m.state.frame? owner.frame
  return (owner.frame, ⟨owner.name, value, address, cell.type⟩)

/-- Held-back writes as changes of frames. -/
def pendingFrames (m : Machine) : Table String FramePatch :=
  m.writes.foldl
    (fun (frames : Table String FramePatch) (address, value) =>
      match m.pendingVariable? address value with
      | some (frame, v) =>
        let known := ((frames.find? frame).map FramePatch.vars).getD []
        frames.put frame { action := .update, vars := known ++ [v] }
      | none => frames)
    []

/-- The notes and a description, in one text. -/
def fullDescription (m : Machine) (description : String) : String :=
  if m.notes.isEmpty then description
  else "; ".intercalate (m.notes ++ if description.isEmpty then [] else [description])

/-- The step that shows a change together with everything held back. -/
def nextStep (m : Machine) (kind : StepKind) (line : Int) (description : String) (delta : Delta) :
    Step :=
  { kind := kind
    line := line
    description := m.fullDescription description
    delta :=
      -- what the change itself says of a cell or a frame replaces what was held back for it
      { memory := m.pendingCells.putAll delta.memory
        stack := m.pendingFrames.putAll delta.stack
        heap := m.blocks.putAll delta.heap
        output := m.output ++ delta.output } }

/-- The machine with nothing held back. -/
def flushed (m : Machine) : Machine :=
  { m with writes := [], blocks := [], output := "", notes := [] }

/-- The machine with a text written to the console. -/
def print (m : Machine) (text : String) : Machine :=
  { m with output := m.output ++ text, journal := .printed text :: m.journal }

/-- The machine after the step that shows a change. -/
def emit (m : Machine) (kind : StepKind) (line : Int) (description : String) (delta : Delta) :
    Except Fault Machine :=
  let step := m.nextStep kind line description delta
  match m.state.apply step with
  | .ok state =>
    .ok { m.flushed with
      state := state
      steps := m.steps.push step
      journal := .emitted delta state :: m.journal }
  | .error e => .error e.fault

end Machine

/-! ## As computations -/

namespace Run

/-- What the machine knows. -/
def ask {α : Type} (f : Machine → α) : Run α :=
  fun m => .ok (f m, m)

/-- What the machine knows, if it does. -/
def query {α : Type} (f : Machine → Except Fault α) : Run α :=
  fun m =>
    match f m with
    | .ok a => .ok (a, m)
    | .error fault => .error fault

/-- A change of the machine. -/
def change (f : Machine → Machine) : Run Unit :=
  fun m => .ok ((), f m)

/-- A change of the machine that may fail. -/
def attempt (f : Machine → Except Fault Machine) : Run Unit :=
  fun m =>
    match f m with
    | .ok m => .ok ((), m)
    | .error fault => .error fault

/-- Emits a step that shows a change. -/
def emitDelta (setup : Setup) (kind : StepKind) (line : Int) (description : String)
    (delta : Delta) : Run Unit :=
  attempt fun m => m.emit kind (setup.analysis.clamp line) description delta

/-- Emits a step that shows only what was held back. -/
def emit (setup : Setup) (kind : StepKind) (line : Int) (description : String) : Run Unit :=
  emitDelta setup kind line description {}

/-- Takes a note. -/
def note (text : String) : Run Unit :=
  change fun m => { m with notes := m.notes ++ [text] }

/-- Writes to the console. -/
def print (text : String) : Run Unit :=
  change fun m => m.print text

/-- Reserves stack space. -/
def allocateStack (size : Int) : Run Int :=
  fun m =>
    match m.cursor.stack size with
    | .ok (address, cursor) => .ok (address, { m with cursor := cursor })
    | .error fault => .error fault

/-- Reserves heap space. -/
def allocateHeap (size : Int) : Run Int :=
  fun m =>
    let (address, cursor) := m.cursor.heap size
    .ok (address, { m with cursor := cursor })

/-- The value at an address. -/
def read (address : Value) : Run Value :=
  query fun m => m.read address

/-- Writes a value to an address. -/
def write (address value : Value) : Run Unit :=
  attempt fun m => m.write address value

end Run

end Stepwise
