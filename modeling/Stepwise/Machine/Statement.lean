/-
Execution of statements.

Each statement becomes a computation of the machine. An expression that stands
alone is shown as one step, which says what it did; a call of one of the
program's own functions has shown itself, so it gets a step only if something
was held back. Scripts differ in what they add to a declaration, so that is a
parameter.
-/
import Stepwise.Machine.Flow
import Stepwise.Machine.Objects

set_option autoImplicit false

namespace Stepwise

/-- What statements are executed with. -/
structure Walker where
  /-- The program and the settings. -/
  setup : Setup
  /-- How expressions are evaluated. -/
  evaluate : Expr → Run Typed
  /-- What a script adds to a declaration, given the type and the address of the variable. -/
  afterDeclaration : Variable → CType → Int → Run Unit

namespace Walker

/-- The value of an expression. -/
def value (w : Walker) (e : Expr) : Run Value := do
  return (← w.evaluate e).value

/-! ## Expressions that stand alone -/

/-- The last address among the writes that no step has shown; an address that is written again
keeps its place. -/
def lastWrite? (m : Machine) : Option Number :=
  m.writes.keys.getLast?

/-- The name of the object that was written, or the text of the expression that designates it. -/
def writtenName (m : Machine) (target : Expr) : String :=
  match lastWrite? m with
  | none => target.source
  | some address =>
    match m.cellName? (.num address) with
    | some name => if name.isEmpty then target.source else name
    | none => target.source

/-- A plain assignment in words. -/
def describeStore (m : Machine) (target : Expr) (name : String) (result : Typed) :
    Except Fault String :=
  match target with
  | .unary _ .deref pointer =>
    .ok ("Assignment of " ++ result.shown ++ " to the value pointed by " ++ pointer.source
      ++ s!" ({name})")
  | _ => do
    let pointee ←
      if result.type.isPointer then m.pointeeName? result.value result.type else .ok none
    match pointee with
    | some pointee => return s!"Assignment of the address of {pointee} to {name}"
    | none => return "Assignment of " ++ result.shown ++ s!" to {name}"

/-- An increment or decrement in words. -/
def describeChange (m : Machine) (e operand : Expr) (result : Typed) : Except Fault String := do
  let value ←
    match lastWrite? m with
    | some address => m.read (.num address)
    | none => .ok result.value
  return e.source ++ " makes " ++ writtenName m operand ++ " = " ++ value.shown .int

/-- An expression that stands alone: the kind of its step and what it did in words. -/
def describe (m : Machine) (e : Expr) (result : Typed) : Except Fault (StepKind × String) :=
  match e with
  | .assign _ (some _) target _ =>
    .ok (.assignment, e.source ++ " leaves " ++ writtenName m target ++ " = " ++ result.shown)
  | .assign _ none target _ => do
    return (.assignment, ← describeStore m target (writtenName m target) result)
  | .unary _ (.step _) operand | .stepAfter _ _ operand => do
    return (.assignment, ← describeChange m e operand result)
  | .call _ callee _ =>
    .ok (.call, if m.notes.isEmpty then s!"Call to {callee}()" else "")
  | _ => .ok (.execution, "Evaluation of " ++ e.source)

/-- Is the expression a call of one of the program's functions? -/
def callsProgram (w : Walker) : Expr → Bool
  | .call _ callee _ => (w.setup.analysis.program.function? callee).isSome
  | _ => false

/-- Executes an expression that stands alone. -/
def runExpr (w : Walker) (line : Nat) (e : Expr) : Run Unit := do
  let result ← w.evaluate e
  let pending ← Run.ask Machine.hasPending
  -- the call and its return are steps already
  if w.callsProgram e && !pending then return
  else
    let (kind, description) ← Run.query fun m => describe m e result
    Run.emit w.setup kind line description

/-! ## Declarations and decisions -/

/-- Declares variables. -/
def runDecl (w : Walker) (d : Decl) : Run Unit :=
  d.vars.forM fun v => do
    let (type, address) ← declareVariable w.setup w.evaluate d.type v
    w.afterDeclaration v type address

/-- The first clause of a loop. -/
def runInit (w : Walker) (line : Nat) : ForInit → Run Unit
  | .none => pure ()
  | .decl d => w.runDecl d
  | .expr e => w.runExpr line e

/-- Decides a condition, with a step that says how it turned out. -/
def decide (w : Walker) (line : Nat) (what : String) (condition : Expr) : Run Bool := do
  let v ← w.value condition
  let holds ← Eval.lift v.truth
  Run.emit w.setup .conditional line
    (what ++ " " ++ condition.source ++ " is " ++ if holds then "true" else "false")
  return holds

/-- Decides whether a loop goes on; without a condition it does, and no step says so. -/
def loopCheck (w : Walker) (line : Nat) : Option Expr → Run Bool
  | none => return true
  | some condition => w.decide line "Loop condition" condition

/-! ## Labels -/

/-- The position of the first case label with a value, counted from `index`. -/
def matchingCase (w : Walker) (subject : Value) (index : Nat) : List Stmt → Run (Option Nat)
  | [] => return none
  | .caseLabel _ label :: rest => do
    if (← w.value label) == subject then return some index
    else w.matchingCase subject (index + 1) rest
  | _ :: rest => w.matchingCase subject (index + 1) rest

/-- Is the statement the label for every other value? -/
def isDefault : Stmt → Bool
  | .defaultLabel _ => true
  | _ => false

/-- The position of the label that a switch jumps to. -/
def target? (w : Walker) (subject : Value) (statements : List Stmt) : Run (Option Nat) := do
  match ← w.matchingCase subject 0 statements with
  | some index => return some index
  | none => return statements.findIdx? isDefault

/-- A label in words. -/
def labelText : Stmt → String
  | .caseLabel _ label => "case " ++ label.source
  | _ => "default"

/-- The statements of a switch's body. -/
def switchBody : Stmt → List Stmt
  | .block _ body => body
  | s => [s]

/-- Jumps to a label, with a step that says so: how many statements are passed over, if there is a
label to jump to. -/
def jump (w : Walker) (line : Nat) (subject : Expr) (body : Stmt) : Run (Option Nat) := do
  let v ← w.value subject
  let target ← w.target? v (switchBody body)
  let text := "switch (" ++ subject.source ++ ") with " ++ subject.source ++ " = " ++ v.shown .int
  match target.bind fun index => (switchBody body)[index]? with
  | some label =>
    Run.emit w.setup .conditional label.line (text ++ " jumps to " ++ labelText label)
  | none => Run.emit w.setup .conditional line (text ++ ": no case matches")
  return target

/-! ## Statements -/

mutual

/-- Executes a statement. -/
def run (w : Walker) : Stmt → Run Flow
  -- directives stand between the statements of a block, and `items` has taken those out
  | .directive d => Eval.fail (.directiveAsBody d.line)
  | .block _ body => runBlock w.setup (items w body)
  | .empty line | .caseLabel line _ | .defaultLabel line => return .next line
  | .decl d => do
    w.runDecl d
    return .next d.line
  | .expr line e => do
    w.runExpr line e
    return .next line
  | .cond line condition whenTrue whenFalse => do
    if ← w.decide line "Condition" condition then run w whenTrue
    else runOption w line whenFalse
  | .forLoop line init condition update body => do
    w.runInit line init
    let loop : Loop :=
      { line := line
        check := w.loopCheck line condition
        body := run w body
        update := update.forM (w.runExpr line) }
    loop.run w.setup
  | .whileLoop line condition body =>
    let loop : Loop :=
      { line := line
        check := w.loopCheck line (some condition)
        body := run w body
        update := pure () }
    loop.run w.setup
  | .doLoop line body condition =>
    let loop : Loop :=
      { line := line
        check := w.loopCheck line (some condition)
        body := run w body
        update := pure () }
    loop.runUnchecked w.setup
  | .switch line subject body => do
    match ← w.jump line subject body with
    | none => return .next line
    | some skipped =>
      -- conditions that were opened before the label are not open after the jump
      let all :=
        match body with
        | .block _ statements => items w statements
        | s => [.stmt s.line (run w s)]
      let flow ← runBlock w.setup (all.drop skipped)
      return flow.afterSwitch
  | .breakOut line => return .breakOut line
  | .continueOn line => return .continueOn line
  | .ret line none => return .ret none line
  | .ret line (some e) => do
    let v ← w.evaluate e
    return .ret (some v) line

/-- Executes the alternative of a condition, if there is one. -/
def runOption (w : Walker) (line : Nat) : Option Stmt → Run Flow
  | none => return .next line
  | some s => run w s

/-- The items of a block. -/
def items (w : Walker) : List Stmt → List BlockItem
  | [] => []
  | .directive d :: rest => .directive d :: items w rest
  | s :: rest => .stmt s.line (run w s) :: items w rest

end

/-- The items of a switch's body. -/
def itemsOfBody (w : Walker) : Stmt → List BlockItem
  | .block _ statements => w.items statements
  | s => [.stmt s.line (w.run s)]

theorem run_switch (w : Walker) (line : Nat) (subject : Expr) (body : Stmt) :
    w.run (.switch line subject body) = (do
      match ← w.jump line subject body with
      | none => return .next line
      | some skipped =>
        let flow ← runBlock w.setup ((w.itemsOfBody body).drop skipped)
        return flow.afterSwitch) := by
  cases body <;> simp only [run, itemsOfBody]

/-- Executes the statements of a function. -/
def runBody (w : Walker) (body : List Stmt) : Run Flow :=
  runBlock w.setup (w.items body)

end Walker

end Stepwise
