/-
Objects and their declarations.

An object takes one cell for each scalar in it, except that an array of
characters is a single cell with its text. A declaration reserves stack space,
fills the cells and puts the variable into a frame; a frame shows a variable
with parts by its address.

Cells of a struct that contains itself would never end, so nesting is bounded.
An object that repeats no struct inside itself is nested no deeper than the text
of its type and those of all members are long, so the bound is above that.
-/
import Stepwise.Machine.Basic
import Stepwise.Text.Lower

set_option autoImplicit false

namespace Stepwise

/-- The members of a struct type. -/
def Layouts.membersOf (layouts : Layouts) (type : CType) : Except Fault Members :=
  match layouts.find? (String.ofList (Text.trim type.text.toList)) with
  | some layout => .ok layout.members
  | none => .error (.unknownStruct type.text)

/-! ## Cells -/

/-- The member of a record. -/
def Value.memberOf (value : Value) (name : String) : Value :=
  match value with
  | .record members => (members.lookup name).getD .uninit
  | _ => .uninit

/-- The items of a list. -/
def Value.items : Value → List Value
  | .list items => items
  | _ => []

/-- Is it an array of characters, given its element type? -/
def isCharElement (element : CType) : Except Fault Bool :=
  match (Text.words element.text.toList).getLast? with
  | some word => .ok (word = "char".toList)
  | none => .error .missingItem

/-- The value that an array's initializer gives to one element: the items in order, and zeros for
the rest if there are any items at all. -/
def itemValue (items : List Value) (element : CType) (index : Nat) : Except Fault Value :=
  match items[index]? with
  | some v => .ok v
  | none => if items.isEmpty then .ok .uninit else (Value.int 0).coerce element

/-- The cells of an object, nested at most so deep. -/
def cellsWithin (layouts : Layouts) (depth : Nat) (name : String) (type : CType) (address : Int)
    (value : Value) : Except Fault (Table Number CellPatch) :=
  match depth with
  | 0 => .error .endless
  | depth + 1 =>
    if type.isStruct then do
      let members ← layouts.membersOf type
      members.foldlM
        (fun (cells : Table Number CellPatch) (member, offset, memberType) => do
          return cells.putAll
            (← cellsWithin layouts depth (name ++ "." ++ member) memberType (address + offset)
              (value.memberOf member)))
        []
    else if type.isArray then do
      let element ← type.element
      if ← isCharElement element then
        return [(.int address, ⟨value.withOrigins address [], name, type⟩)]
      else
        let size ← element.size layouts.sizes
        let length ← type.length
        (List.range length.toNat).foldlM
          (fun (cells : Table Number CellPatch) i => do
            let item ← itemValue value.items element i
            return cells.putAll
              (← cellsWithin layouts depth (name ++ "[" ++ Numeral.decimal i ++ "]") element
                (address + i * size) item))
          []
    else .ok [(.int address, ⟨value, name, type⟩)]

/-- How deep the arrays and structs in a type can be nested, those in the members of structs
excepted: every array is a part of the text. -/
def CType.depth (t : CType) : Nat :=
  t.text.length + 1

/-- How deep the arrays and structs in the members of a struct can be nested, those in the members
of other structs excepted. -/
def Layout.depth (l : Layout) : Nat :=
  (l.members.map fun member => member.2.2.depth).foldr max 0

/-- How deep an object can be nested that repeats no struct inside itself. -/
def Layouts.depth (layouts : Layouts) (type : CType) : Nat :=
  type.depth + (layouts.map fun entry => entry.2.depth).foldr (· + ·) 0

/-- The cells of an object, with as many levels as it may need and some to spare. -/
def objectCells (spare : Nat) (layouts : Layouts) (name : String) (type : CType) (address : Int)
    (value : Value) : Except Fault (Table Number CellPatch) :=
  cellsWithin layouts (layouts.depth type + spare) name type address value

/-! ## Values of structs and initializers -/

/-- The members of the struct at an address. -/
def readStruct (layouts : Layouts) (type : CType) (address : Value) : Run Value := do
  let members ← Eval.lift (layouts.membersOf type)
  let values ← members.mapM fun (name, offset, _) => do
    let v ← Run.read (← Eval.lift (address.add (.int offset)))
    return (name, v)
  return .record values

/-- A value as an object of the type holds it; a struct is copied from its address. -/
def copyValue (layouts : Layouts) (type : CType) (value : Value) : Run Value :=
  if type.isStruct then readStruct layouts type value else Eval.lift (value.coerce type)

mutual

/-- The value that an initializer gives to an object of a type. -/
def initialValue (layouts : Layouts) (evaluate : Expr → Run Typed) (type : CType) :
    Init → Run Value
  | .expr e => do copyValue layouts type (← evaluate e).value
  | .list _ items =>
    if type.isStruct then do
      let members ← Eval.lift (layouts.membersOf type)
      return .record (← initialMembers layouts evaluate members items)
    else if type.isArray then do
      let element ← Eval.lift type.element
      return .list (← initialItems layouts evaluate element items)
    else Eval.fail (.listForScalar type.text)

/-- The values that initializers give to the items of an array. -/
def initialItems (layouts : Layouts) (evaluate : Expr → Run Typed) (element : CType) :
    List Init → Run (List Value)
  | [] => return []
  | i :: rest => do
    let v ← initialValue layouts evaluate element i
    let more ← initialItems layouts evaluate element rest
    return v :: more

/-- The values that initializers give to the first members of a struct. -/
def initialMembers (layouts : Layouts) (evaluate : Expr → Run Typed) (members : Members) :
    List Init → Run (List (String × Value))
  | [] => return []
  | i :: rest =>
    match members with
    | [] => return []
    | (name, _, type) :: members => do
      let v ← initialValue layouts evaluate type i
      let more ← initialMembers layouts evaluate members rest
      return (name, v) :: more

end

/-! ## Declarations -/

/-- A declaration in words. -/
def describeDeclaration (m : Machine) (name : String) (type : CType) (value : Value) :
    Except Fault String :=
  if type.isStruct then .ok s!"Declaration of {type.text} variable {name}"
  else if type.isArray then do
    let text := s!"Declaration of array {name} with " ++ Numeral.decimal (← type.length)
      ++ " elements"
    return if value.isInit then text ++ " initialized to " ++ value.shown .int else text
  else if type.isPointer then
    if !value.isInit then .ok s!"Declaration of pointer {name} (uninitialized)"
    else do
      match ← m.pointeeName? value type with
      | some target => return s!"Declaration of pointer {name} pointing to {target}"
      | none => return s!"Declaration of pointer {name} with value " ++ value.shown type
  else if !value.isInit then .ok s!"Declaration of variable {name} (uninitialized)"
  else .ok (s!"Declaration of variable {name} with value " ++ value.shown type)

/-- The variable of an object in a frame; one with parts shows its address. -/
def frameVariable (name : String) (type : CType) (address : Int) (value : Value) : FrameVariable :=
  ⟨name, if type.isAggregate then .int address else value, .int address, type⟩

/-- The machine that remembers which variable a scalar's cell holds. -/
def Machine.own (m : Machine) (type : CType) (address : Int) (frame name : String) : Machine :=
  if type.isAggregate then m
  else { m with owners := m.owners.put (.int address) ⟨frame, name⟩ }

/-- Remembers which variable a scalar's cell holds. -/
def own (type : CType) (address : Int) (frame name : String) : Run Unit :=
  Run.change fun m => m.own type address frame name

/-- Emits the declaration of a variable at an address. -/
def declareAt (setup : Setup) (frame name : String) (type : CType) (line : Int) (value : Value)
    (description : String) (address : Int) : Run Unit := do
  let cells ← Eval.lift
    (objectCells setup.analysis.spare setup.analysis.layouts name type address value)
  -- from here on a write to the cell is a change of the variable
  own type address frame name
  Run.emitDelta setup .declaration line description
    { memory := cells
      stack := [(frame, { action := .add, vars := [frameVariable name type address value] })] }

/-- Reserves stack space for a variable and emits its declaration. -/
def declare (setup : Setup) (frame name : String) (type : CType) (line : Int) (value : Value)
    (description : String) : Run Int := do
  let address ← Run.allocateStack (← Eval.lift (type.size setup.analysis.sizes))
  declareAt setup frame name type line value description address
  return address

/-- The type and the initial value of a declared name. -/
def typeAndValue (setup : Setup) (evaluate : Expr → Run Typed) (declared : CType) (v : Variable) :
    Run (CType × Value) := do
  let type ← v.fullType declared fun e => do return (← evaluate e).value
  let value ←
    match v.init with
    | some i => initialValue setup.analysis.layouts evaluate type i
    | none => pure .uninit
  return (type, value)

/-- Declares a variable of the innermost call. -/
def declareVariable (setup : Setup) (evaluate : Expr → Run Typed) (declared : CType)
    (v : Variable) : Run (CType × Int) := do
  let (type, value) ← typeAndValue setup evaluate declared v
  let description ← Run.query fun m => describeDeclaration m v.name type value
  let frame ← Run.ask Machine.currentFrame
  let address ← declare setup frame v.name type v.line value description
  return (type, address)

/-- Declares a variable outside functions. -/
def declareGlobal (setup : Setup) (evaluate : Expr → Run Typed) (declared : CType)
    (v : Variable) : Run Unit := do
  let (type, value) ← typeAndValue setup evaluate declared v
  let description ← Run.query fun m => describeDeclaration m v.name type value
  let _ ← declare setup globalFrame v.name type v.line value
    ("Global " ++ Text.lower description)

/-- Declares the variables outside functions, in order. -/
def declareGlobals (setup : Setup) (evaluate : Expr → Run Typed) : Run Unit :=
  setup.analysis.program.items.forM fun
    | .decl d => d.vars.forM (declareGlobal setup evaluate d.type)
    | _ => pure ()

end Stepwise
