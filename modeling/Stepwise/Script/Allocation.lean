/-
A program about dynamic allocation, played out as a fixed sequence.

The pointer, the number of elements and the lines are read off the program:
the pointer is the first one that the main function declares, the count comes
from the size that is asked for, and the element values from the first loop
that stores through the pointer. The sequence is: declare, reserve, check,
fill, print, free, warn of the dangling pointer, and return. The pointer and
the counter are placed by a cursor of the sequence's own.
-/
import Stepwise.Machine.Call
import Stepwise.Script.Outline

set_option autoImplicit false

namespace Stepwise

namespace Allocation

/-! ## What is read off the program -/

/-- A for loop as it stands in a program. -/
structure ForLoop where
  /-- Its line. -/
  line : Nat
  /-- Its first clause. -/
  init : ForInit
  /-- The whole statement. -/
  whole : Stmt
  /-- Its body. -/
  body : Stmt

/-- The for loops among statements. -/
def forLoops (statements : List Stmt) : List ForLoop :=
  statements.filterMap fun
    | .forLoop line init condition update body =>
      some ⟨line, init, .forLoop line init condition update body, body⟩
    | _ => none

/-- The name that a loop counts with. -/
def ForLoop.index (loop : ForLoop) : String :=
  match loop.init with
  | .decl ⟨_, _, v :: _⟩ => v.name
  | .expr (.assign _ _ (.name _ n) _) => n
  | _ => "i"

/-- Does the statement use the name? -/
def mentionedIn (name : String) (s : Stmt) : Bool :=
  s.exprs.any (Expr.mentions name)

/-- An assignment as it stands in a program. -/
structure Assignment where
  /-- Its line. -/
  line : Nat
  /-- What is assigned to. -/
  target : Expr
  /-- What is assigned. -/
  value : Expr

/-- The assignments in expressions, in order. -/
def assignments (exprs : List Expr) : List Assignment :=
  (exprs.flatMap Expr.parts).filterMap fun
    | .assign line _ target value => some ⟨line, target, value⟩
    | _ => none

/-- Does the assignment store through the pointer: to an element of it, or to the result of an
operator on it? -/
def Assignment.storesThrough (pointer : String) (a : Assignment) : Bool :=
  match a.target with
  | .index .. | .unary .. => a.target.mentions pointer
  | _ => false

/-- A variable with the declaration it is part of. -/
structure Declared where
  /-- The type before the names. -/
  type : CType
  /-- The variable. -/
  var : Variable

/-- The variables that statements declare, those of loop heads excepted. -/
def declaredIn (statements : List Stmt) : List Declared :=
  statements.flatMap fun
    | .decl d => d.vars.map fun v => ⟨d.type, v⟩
    | _ => []

/-- The literal that a counter starts with; a counter is neither a pointer nor an array. -/
def counterLiteral? (v : Variable) : Option String :=
  match v.stars, v.brackets, v.init with
  | 0, .none, some (.expr (.literal _ text)) => some text
  | _, _, _ => none

/-- A counter: a variable with the value it starts with. -/
structure Counter where
  /-- The type before the names. -/
  type : CType
  /-- The variable. -/
  var : Variable
  /-- The value it starts with. -/
  value : Value

/-- The first counter among declared variables. -/
def counter? (declared : List Declared) : Except Fault (Option Counter) :=
  match declared.find? fun d => (counterLiteral? d.var).isSome with
  | none => .ok none
  | some d => do
    let start ← literalValue ((counterLiteral? d.var).getD "")
    return some ⟨d.type, d.var, start.value⟩

/-- The number of elements without a counter. -/
def defaultCount : Value := .int 5

/-- The first call that reserves memory. -/
def allocation? (main : Function) : Option Call :=
  (main.calls.find? fun c => c.callee == "malloc").or
    (main.calls.find? fun c => c.callee == "calloc")

/-- The bytes that a call reserves, from the values of its arguments. -/
def requested (callee : String) : List Value → Except Fault Value
  | [] => .error .missingItem
  | first :: rest =>
    if callee = "calloc" then
      match rest with
      | [] => .error .missingItem
      | second :: _ => first.mul second
    else .ok first

/-- The number of elements that a call reserves memory for. -/
def countOf (a : Analysis) (bound : Scope) (element : CType) (c : Call) : Except Fault Value := do
  let values ← c.arguments.mapM fun e => do
    return (← evalConstant a.macros a.sizes bound e a.spare).value
  let total ← requested c.callee values
  total.floorDiv (← element.size a.sizes)

/-- Is the fault one that means the count cannot be told? -/
def countUnknown : Fault → Bool
  | .missingItem | .wrongShape => true
  | fault => fault.message?.isSome

/-- What is read off a program for the sequence. -/
structure Plan where
  /-- The main function. -/
  main : Function
  /-- The pointer's name. -/
  pointer : String
  /-- The line of its declaration. -/
  pointerLine : Nat
  /-- The type of the elements. -/
  element : CType
  /-- The counter, if there is one. -/
  counter : Option Counter
  /-- The number of elements. -/
  count : Value
  /-- The call that reserves memory, if there is one. -/
  allocation : Option Call

/-- Reads the plan off a program. -/
def plan (a : Analysis) (main : Function) : Except Fault Plan := do
  let declared := declaredIn main.stmts
  let pointer := declared.find? fun d => 0 < d.var.stars
  let counter ← counter? declared
  let element : CType :=
    match pointer with
    | some d => d.type.withStars (d.var.stars - 1)
    | none => .int
  let start := (counter.map Counter.value).getD defaultCount
  let bound : Scope := (counter.map fun c => (c.var.name, ⟨c.value, .int⟩)).toList
  let allocation := allocation? main
  let count ←
    match allocation with
    | none => .ok start
    | some c =>
      match countOf a bound element c with
      | .ok count => .ok count
      | .error fault => if countUnknown fault then .ok start else .error fault
  return {
    main := main
    pointer := (pointer.map fun d => d.var.name).getD "ptr"
    pointerLine := (pointer.map fun d => d.var.line).getD main.line
    element := element
    counter := counter
    count := count
    allocation := allocation }

namespace Plan

/-- The type of the pointer. -/
def pointerType (p : Plan) : CType :=
  p.element.pointer

/-- The name of an element. -/
def elementName (p : Plan) (i : Nat) : String :=
  p.pointer ++ "[" ++ Numeral.decimal i ++ "]"

/-- The loops whose bodies use the pointer. -/
def loops (p : Plan) : List ForLoop :=
  (forLoops p.main.stmts).filter fun loop => mentionedIn p.pointer loop.body

/-- Does the loop fill the elements? -/
def fills (p : Plan) (loop : ForLoop) : Bool :=
  (assignments loop.body.exprs).any (Assignment.storesThrough p.pointer)

/-- The loop that fills the elements. -/
def fillLoop? (p : Plan) : Option ForLoop :=
  p.loops.find? p.fills

/-- The assignment that fills an element. -/
def fill? (p : Plan) : Option Assignment := do
  let loop ← p.fillLoop?
  (assignments loop.body.exprs).find? fun a => a.target.mentions p.pointer

/-- The loop that prints the elements: the first with an output call that does not fill them. -/
def printLoop? (p : Plan) : Option ForLoop :=
  -- only the first loop that fills is out of the question
  (p.loops.eraseP p.fills).find? fun loop =>
    loop.whole.calls.any fun c => outputFunctions.contains c.callee

/-- The call that prints an element, with the name that its loop counts with. -/
def printer? (p : Plan) : Option (Call × String) := do
  let loop ← p.printLoop?
  let c ← loop.whole.calls.find? fun c => c.callee == "printf"
  return (c, loop.index)

/-- How many elements are shown, at most as many as a loop has iterations. Only a whole number of
elements can be counted out. -/
def shownCount (p : Plan) (limit : Int) : Except Fault Nat :=
  match p.count with
  | .num n =>
    if Number.less (.int limit) n then .ok limit.toNat
    else
      match n with
      | .int n => .ok n.toNat
      | .float .. => .error .wrongShape
  | _ => .error .wrongShape

/-- Are there more elements than a loop has iterations? -/
def exceeds (p : Plan) (limit : Int) : Bool :=
  match p.count with
  | .num n => Number.less (.int limit) n
  | _ => false

/-- The value of an element: what the filling assignment stores, or else ten times the index. -/
def elementValue (a : Analysis) (p : Plan) (i : Nat) : Except Fault Value :=
  let other : Value := .int (10 * i)
  match p.fill?, p.fillLoop? with
  | some fill, some loop =>
    -- the counter hides a loop variable of the same name
    let counter : Scope := (p.counter.map fun c => (c.var.name, ⟨p.count, .int⟩)).toList
    let bound := counter ++ [(loop.index, ⟨.int i, .int⟩)]
    match evalConstant a.macros a.sizes bound fill.value a.spare with
    | .ok v => .ok v.value
    | .error fault => if fault.message?.isSome then .ok other else .error fault
  | _, _ => .ok other

end Plan

/-! ## Lines -/

/-- The lines of the sequence's steps. -/
structure Lines where
  /-- Where memory is reserved. -/
  reserve : Int
  /-- Where the pointer is checked. -/
  check : Int
  /-- Where elements are filled. -/
  fill : Int
  /-- Where elements are printed. -/
  print : Int
  /-- Where memory is freed. -/
  free : Int

/-- The first line after another that holds a text, `default` if there is none. -/
def lineAfter (a : Analysis) (needle : String) (after default : Int) : Int :=
  a.findLine [needle] after.toNat (some default)

/-- The line of the first choice that depends on the pointer. -/
def checkLine? (p : Plan) : Option Nat :=
  p.main.stmts.findSome? fun
    | .cond line condition _ _ => if condition.mentions p.pointer then some line else none
    | _ => none

/-- The lines of the sequence's steps. -/
def lines (a : Analysis) (p : Plan) : Lines :=
  let reserve : Int :=
    match p.allocation with
    | some c => c.line
    | none => a.findLine ["alloc("] 0 none
  let check : Int :=
    match checkLine? p with
    | some line => line
    | none => lineAfter a "NULL" reserve reserve
  let fill : Int :=
    match p.fill? with
    | some fill => fill.line
    | none => lineAfter a (p.pointer ++ "[") reserve reserve
  let print : Int :=
    match p.printer? with
    | some (c, _) => c.line
    | none => lineAfter a "printf" fill fill
  let free : Int :=
    match p.main.calls.find? fun c => c.callee == "free" with
    | some c => c.line
    | none => lineAfter a "free(" print a.lastLine
  { reserve, check, fill, print, free }

/-! ## The sequence -/

/-- What the sequence is played with. -/
structure Stage where
  /-- The program and the settings. -/
  setup : Setup
  /-- The plan. -/
  plan : Plan
  /-- The lines. -/
  lines : Lines
  /-- Bytes taken by an element. -/
  elementSize : Int
  /-- Bytes that are reserved. -/
  size : Number
  /-- Where the pointer is. -/
  pointerAddress : Int
  /-- Where the block is. -/
  block : Int

namespace Stage

/-- The change that gives the pointer a value. -/
def pointerDelta (s : Stage) (value : Int) : Delta :=
  let v : FrameVariable :=
    ⟨s.plan.pointer, .int value, .int s.pointerAddress, s.plan.pointerType⟩
  { memory := [(v.address, ⟨v.value, v.name, v.type⟩)]
    stack := [("main", { action := .update, vars := [v] })] }

/-- The change that reserves or frees the block. -/
def blockDelta (s : Stage) (freed : Bool) : Delta :=
  { heap := [(.int s.block, { address := .int s.block, size := s.size, freed := freed })] }

/-- Reserves the block. -/
def reserve (s : Stage) : Run Unit :=
  let callee := (s.plan.allocation.map Call.callee).getD "malloc"
  Run.emitDelta s.setup .call s.lines.reserve
    (s!"{callee} reserves " ++ s.size.text ++ " bytes (" ++ s.plan.count.print ++ " x "
      ++ s.plan.element.text ++ ") on the heap at " ++ Numeral.address s.block
      ++ s!"; {s.plan.pointer} now points to it")
    { s.pointerDelta s.block with heap := (s.blockDelta false).heap }

/-- Checks the pointer. -/
def check (s : Stage) : Run Unit :=
  Run.emit s.setup .conditional s.lines.check
    (s!"Checking if allocation was successful: {s.plan.pointer} is "
      ++ Numeral.address s.block ++ ", not NULL")

/-- Fills an element. -/
def fillElement (s : Stage) (i : Nat) : Run Value := do
  let value ← Eval.lift (s.plan.elementValue s.setup.analysis i)
  let name := s.plan.elementName i
  Run.emitDelta s.setup .assignment s.lines.fill
    (s!"Initializing {name} with value " ++ value.print)
    { memory := [(.int (s.block + i * s.elementSize), ⟨value, name, s.plan.element⟩)] }
  return value

/-- Prints an element. -/
def printElement (s : Stage) (i : Nat) (value : Value) : Run Unit := do
  let name := s.plan.elementName i
  match s.plan.printer? with
  | none =>
    Run.emitDelta s.setup .call s.lines.print s!"Printing {name}"
      { output := s!"{name} = " ++ value.print ++ "\n" }
  | some (c, index) =>
    -- the main function counts as one active call
    let _ ← evaluateWith s.setup (callAt s.setup noCommentary 1) [(index, ⟨.int i, .int⟩)] c.expr
    Run.emit s.setup .call s.lines.print s!"Printing {name}"

/-- Warns if there are more elements than a loop has iterations. -/
def warnOfLimit (s : Stage) (loop : Option ForLoop) (other : Int) : Run Unit :=
  if s.plan.exceeds s.setup.settings.maxLoopIterations then
    Run.emit s.setup .warning ((loop.map fun l => (l.line : Int)).getD other)
      (loopWarning s.setup.settings)
  else pure ()

/-- Fills and prints the elements. -/
def fillAndPrint (s : Stage) : Run Unit := do
  let count ← Eval.lift (s.plan.shownCount s.setup.settings.maxLoopIterations)
  let values ← (List.range count).mapM s.fillElement
  s.warnOfLimit s.plan.fillLoop? s.lines.fill
  values.zipIdx.forM fun (value, i) => s.printElement i value
  s.warnOfLimit s.plan.printLoop? s.lines.print

/-- Frees the block and warns of the dangling pointer. -/
def free (s : Stage) : Run Unit := do
  Run.emitDelta s.setup .call s.lines.free
    ("free releases the " ++ s.size.text ++ " bytes at " ++ Numeral.address s.block)
    (s.blockDelta true)
  Run.emit s.setup .warning s.lines.free
    s!"{s.plan.pointer} is now a dangling pointer pointing to freed memory"

/-- Does the assignment clear the pointer after the block was freed? -/
def clears (s : Stage) (a : Assignment) : Bool :=
  s.lines.free < a.line && a.target.name? == some s.plan.pointer
    && ["NULL", "0"].contains a.value.source

/-- Clears the pointer, if the program does. -/
def clear (s : Stage) : Run Unit :=
  match (assignments s.plan.main.exprs).find? s.clears with
  | none => pure ()
  | some a =>
    Run.emitDelta s.setup .assignment a.line
      s!"Assignment of NULL to {s.plan.pointer}: it no longer dangles" (s.pointerDelta 0)

/-- Returns. -/
def leave (s : Stage) : Run Unit := do
  Run.emitDelta s.setup .ret (s.setup.analysis.returnLine s.plan.main.body)
    "Return from main with value 0" { stack := [("main", { action := .remove })] }
  Run.change fun m => { m with active := m.active.tail }

end Stage

/-- Declares the pointer; the result is its address and where the next object goes. -/
def declarePointer (setup : Setup) (p : Plan) : Run (Int × Cursor) := do
  let start := Cursor.startingAt setup.settings.stackBase setup.settings.heapBase
  let (address, cursor) ← Eval.lift do start.stack (← p.pointerType.size [])
  declareAt setup "main" p.pointer p.pointerType p.pointerLine .uninit
    s!"Declaration of pointer {p.pointer} (uninitialized)" address
  return (address, cursor)

/-- Declares the counter. -/
def declareCounter (setup : Setup) (cursor : Cursor) (c : Counter) : Run Unit := do
  let (address, _) ← Eval.lift do cursor.stack (← c.type.size [])
  declareAt setup "main" c.var.name c.type c.var.line c.value
    (s!"Declaration of variable {c.var.name} with value " ++ c.value.print) address

/-- The size of the block: the number of elements times their size. -/
def blockSize (p : Plan) (elementSize : Int) : Except Fault Number := do
  match ← p.count.mul (.int elementSize) with
  | .num n => return n
  | _ => .error .wrongShape

/-- Plays the sequence. -/
def play (setup : Setup) (main : Function) : Run Unit := do
  let p ← Eval.lift (plan setup.analysis main)
  let elementSize ← Eval.lift (p.element.size setup.analysis.sizes)
  Run.change fun m => { m with active := "main" :: m.active }
  let (pointerAddress, cursor) ← declarePointer setup p
  p.counter.forM (declareCounter setup cursor)
  let stage : Stage :=
    { setup := setup
      plan := p
      lines := lines setup.analysis p
      elementSize := elementSize
      size := ← Eval.lift (blockSize p elementSize)
      pointerAddress := pointerAddress
      block := setup.settings.heapBase }
  stage.reserve
  stage.check
  stage.fillAndPrint
  stage.free
  stage.clear
  stage.leave

/-- Plays the sequence of a program. -/
def run (setup : Setup) : Run Unit :=
  match setup.analysis.main? with
  | none => Eval.fail .noMain
  | some main => play setup main

end Allocation

end Stepwise
