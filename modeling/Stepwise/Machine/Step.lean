/-
Steps: what a viewer plays back.

A trace is a list of steps. Each says what happened and on which line, and
carries the change it makes to the machine: new contents of memory cells,
frames that appear, change or go, heap blocks that are reserved or freed, and
text written to the console. Every part may be empty.
-/
import Stepwise.Sorting
import Stepwise.Value.Coerce

set_option autoImplicit false

namespace Stepwise

/-- The entries of a table in order of their addresses. -/
def Table.byAddress {ν : Type} (table : Table Number ν) : Table Number ν :=
  Sorting.sort (fun a b => a.1.less b.1) table

/-- What kind of thing a step shows. -/
inductive StepKind where
  /-- The start of the program. -/
  | initialization
  /-- The end of the program. -/
  | finalization
  /-- A remark. -/
  | information
  /-- A directive or the expansion of a macro. -/
  | preprocessing
  /-- A declaration. -/
  | declaration
  /-- An assignment. -/
  | assignment
  /-- A call. -/
  | call
  /-- A return. -/
  | ret
  /-- A decision. -/
  | conditional
  /-- The evaluation of an expression. -/
  | execution
  /-- Something questionable. -/
  | warning
  /-- A failure. -/
  | error
deriving Repr, DecidableEq, Inhabited

/-- The name of a kind. -/
def StepKind.text : StepKind → String
  | initialization => "initialization"
  | finalization => "finalization"
  | information => "information"
  | preprocessing => "preprocessing"
  | declaration => "declaration"
  | assignment => "assignment"
  | call => "call"
  | ret => "return"
  | conditional => "conditional"
  | execution => "execution"
  | warning => "warning"
  | error => "error"

/-- Every kind of step. -/
def StepKind.all : List StepKind :=
  [initialization, finalization, information, preprocessing, declaration, assignment, call, ret,
    conditional, execution, warning, error]

/-- The kind with a name. -/
def StepKind.ofText? (text : String) : Option StepKind :=
  all.find? fun kind => kind.text == text

/-- New contents of a memory cell. -/
structure CellPatch where
  /-- What it holds. -/
  value : Value
  /-- The name of the object it is part of. -/
  name : String
  /-- Its type. -/
  type : CType
deriving Repr

/-- A variable of a frame. -/
structure FrameVariable where
  /-- Its name. -/
  name : String
  /-- What it holds; an object with parts holds its address. -/
  value : Value
  /-- Where it is. -/
  address : Number
  /-- Its type. -/
  type : CType
deriving Repr

/-- What happens to a frame. -/
inductive FrameAction where
  /-- It gets variables, and appears if it is not there. -/
  | add
  /-- Its variables change. -/
  | update
  /-- It goes. -/
  | remove
deriving Repr, DecidableEq, Inhabited

/-- The name of an action. -/
def FrameAction.text : FrameAction → String
  | add => "add"
  | update => "update"
  | remove => "remove"

/-- A change of a frame. -/
structure FramePatch where
  /-- What happens. -/
  action : FrameAction
  /-- The variables it happens to. -/
  vars : List FrameVariable := []
  /-- Where execution goes on after the frame. -/
  returnAddress : Number := .int 0
deriving Repr

/-- A change of a heap block. -/
structure BlockPatch where
  /-- Where it is. -/
  address : Number
  /-- Bytes it takes. -/
  size : Number
  /-- Is it free? -/
  freed : Bool := false
deriving Repr

/-- A change of the machine. -/
structure Delta where
  /-- Cells by address. -/
  memory : Table Number CellPatch := []
  /-- Frames by name. -/
  stack : Table String FramePatch := []
  /-- Heap blocks by address. -/
  heap : Table Number BlockPatch := []
  /-- Text written to the console. -/
  output : String := ""
deriving Repr

/-- Does nothing change? -/
def Delta.isEmpty (d : Delta) : Bool :=
  d.memory.isEmpty && d.stack.isEmpty && d.heap.isEmpty && d.output.isEmpty

/-- A step. -/
structure Step where
  /-- What kind of thing it shows. -/
  kind : StepKind
  /-- The line it shows. -/
  line : Int
  /-- The step in words. -/
  description : String
  /-- The change it makes. -/
  delta : Delta := {}
deriving Repr

end Stepwise
