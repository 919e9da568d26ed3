/-
The state of the machine, as steps make it.

A state is built by applying steps one after the other to the empty one. A
step may contradict the state it meets: it may pop a frame that is not there,
change a variable that was never declared, or bring back a freed block. Then
it stops at that point, and what it had done before stays. The parts of a step
are applied in a fixed order: memory, stack, heap, console.
-/
import Stepwise.Machine.Step

set_option autoImplicit false

namespace Stepwise

/-- A memory cell, or a frame's view of a variable. -/
structure Cell where
  /-- Where it is. -/
  address : Number
  /-- The name of the object it is part of. -/
  name : String
  /-- Its type. -/
  type : CType
  /-- What it holds. -/
  value : Value
deriving Repr

/-- A frame of the stack. -/
structure Frame where
  /-- The label of the call. -/
  name : String
  /-- Where execution goes on after it. -/
  returnAddress : Number
  /-- Its variables by name. -/
  vars : Table String Cell := []
deriving Repr

/-- A heap block. -/
structure Block where
  /-- Where it is. -/
  address : Number
  /-- Bytes it takes. -/
  size : Number
  /-- Is it free? -/
  freed : Bool
deriving Repr

/-- The state of the machine. -/
structure State where
  /-- Memory cells by address. -/
  memory : Table Number Cell := []
  /-- Frames, oldest first. -/
  stack : List Frame := []
  /-- Heap blocks by address. -/
  heap : Table Number Block := []
  /-- Everything written to the console. -/
  console : String := ""
  /-- Where the heap begins. -/
  heapBase : Int := 0x8000
deriving Repr

/-- A step that contradicted the state, and the state it left. -/
structure Stopped where
  /-- What went wrong. -/
  fault : Fault
  /-- The state with what had been applied. -/
  state : State

/-- The result of applying a step or a part of it. -/
abbrev Applied := Except Stopped State

namespace State

/-- The frame with a name. -/
def frame? (s : State) (name : String) : Option Frame :=
  s.stack.reverse.find? fun f => f.name == name

/-- The stack without the innermost frame of a name. A frame that is removed is told from the others by
its name here, and not by being equal to it; as long as no name occurs twice that makes no difference
(`State.Ordered.applyFrame_remove`). -/
def dropFrame (name : String) (stack : List Frame) : List Frame :=
  (stack.reverse.eraseP fun f => f.name == name).reverse

/-- The stack with the innermost frame of a name changed. -/
def changeFrame (name : String) (change : Frame → Frame) : List Frame → List Frame
  | [] => []
  | f :: rest =>
    if f.name == name && !(rest.any fun g => g.name == name) then change f :: rest
    else f :: changeFrame name change rest

/-! ## Memory -/

/-- A cell with new contents; it keeps its address. -/
def patchCell (address : Number) (patch : CellPatch) : Option Cell → Cell
  | some cell => { cell with name := patch.name, type := patch.type, value := patch.value }
  | none => ⟨address, patch.name, patch.type, patch.value⟩

/-- Applies the memory part of a step. -/
def applyMemory (s : State) (patches : Table Number CellPatch) : State :=
  patches.foldl
    (fun s (address, patch) =>
      { s with memory := s.memory.put address (patchCell address patch (s.memory.find? address)) })
    s

/-! ## Stack -/

/-- The cell that a frame keeps for a variable. -/
def variableCell (v : FrameVariable) : Cell :=
  ⟨v.address, v.name, v.type, v.value⟩

/-- The state with a variable set in a frame. -/
def setVariable (s : State) (frame : String) (v : FrameVariable) : State :=
  let set (f : Frame) : Frame := { f with vars := f.vars.put v.name (variableCell v) }
  { s with stack := changeFrame frame set s.stack }

/-- Applies the variables of a frame's change; an update needs each of them declared. -/
def applyVariables (s : State) (frame : String) (action : FrameAction) :
    List FrameVariable → Applied
  | [] => .ok s
  | v :: rest =>
    let declared :=
      match s.frame? frame with
      | some f => f.vars.has v.name
      | none => false
    if action = .update ∧ !declared then
      .error ⟨.undeclaredVariable v.name frame, s⟩
    else (s.setVariable frame v).applyVariables frame action rest

/-- Applies a frame's change. -/
def applyFrame (s : State) (name : String) (patch : FramePatch) : Applied :=
  match patch.action, s.frame? name with
  | .remove, none => .error ⟨.missingFramePopped name, s⟩
  | .remove, some _ => .ok { s with stack := dropFrame name s.stack }
  | .update, none => .error ⟨.missingFrameUpdated name, s⟩
  | .add, none =>
    let fresh : Frame := { name := name, returnAddress := patch.returnAddress }
    State.applyVariables { s with stack := s.stack ++ [fresh] } name patch.action patch.vars
  | _, some _ => s.applyVariables name patch.action patch.vars

/-- Applies the stack part of a step. -/
def applyStack (s : State) : Table String FramePatch → Applied
  | [] => .ok s
  | (name, patch) :: rest =>
    match s.applyFrame name patch with
    | .ok s => s.applyStack rest
    | .error e => .error e

/-! ## Heap -/

/-- A fault about an address, which has to be a whole number to be shown. -/
def addressFault (fault : Int → Fault) : Number → Fault
  | .int n => fault n
  | .float .. => .badValue

/-- Applies a heap block's change. -/
def applyBlock (s : State) (address : Number) (patch : BlockPatch) : Applied :=
  if address.less (.int s.heapBase) then .error ⟨addressFault .belowHeap address, s⟩
  else
    match s.heap.find? address with
    | none => .ok { s with heap := s.heap.put address ⟨address, patch.size, patch.freed⟩ }
    | some block =>
      if block.freed && !patch.freed then .error ⟨addressFault .alreadyFreed address, s⟩
      else
        .ok { s with
          heap := s.heap.put address { block with size := patch.size, freed := patch.freed } }

/-- Applies the heap part of a step. -/
def applyHeap (s : State) : Table Number BlockPatch → Applied
  | [] => .ok s
  | (address, patch) :: rest =>
    match s.applyBlock address patch with
    | .ok s => s.applyHeap rest
    | .error e => .error e

/-! ## Steps -/

/-- Applies a change of the machine. -/
def applyDelta (s : State) (d : Delta) : Applied :=
  match (s.applyMemory d.memory).applyStack d.stack with
  | .error e => .error e
  | .ok s =>
    match s.applyHeap d.heap with
    | .error e => .error e
    | .ok s => .ok { s with console := s.console ++ d.output }

/-- Applies a step. -/
def apply (s : State) (step : Step) : Applied :=
  s.applyDelta step.delta

/-- Cells in order of their addresses. -/
def sortedCells (s : State) : List (Number × Cell) :=
  s.memory.byAddress

/-- Heap blocks in order of their addresses. -/
def sortedBlocks (s : State) : List (Number × Block) :=
  s.heap.byAddress

/-- The cells whose addresses lie in a range, in order. -/
def cellsIn (s : State) (start size : Number) : Except Fault (List Cell) := do
  let stop ← start.add size
  return (s.sortedCells.filter fun c => !c.1.less start && c.1.less stop).map (·.2)

end State

/-- The state after steps, from the first one on. -/
def replayFrom (s : State) : List Step → Except Fault State
  | [] => .ok s
  | step :: rest =>
    match s.apply step with
    | .ok s => replayFrom s rest
    | .error e => .error e.fault

/-- The steps up to an index, which may lie outside the list; all of them without an index. -/
def stepsUpTo (steps : List Step) : Option Int → List Step
  | none => steps
  | some index => steps.take (index + 1).toNat

/-- The state after the steps up to an index. -/
def replay (steps : List Step) (upto : Option Int) (heapBase : Int) : Except Fault State :=
  replayFrom { heapBase := heapBase } (stepsUpTo steps upto)

end Stepwise
