/-
The script of each category.

Most scripts execute the main function and add remarks that suit the category.
A script about bits shows the patterns behind a declaration that is
initialized with one operation on names or literals; a script about arrays
shows how much room an array takes. Other scripts say something before the
program starts or after it has ended.
-/
import Stepwise.Category
import Stepwise.Script.Allocation

set_option autoImplicit false

namespace Stepwise

namespace Remark

/-! ## Declarations -/

/-- Is it a name or a literal? -/
def isPlain : Expr → Bool
  | .name .. | .literal .. => true
  | _ => false

/-- An operation on bits with its operator and its operands, if they are names or literals. -/
inductive BitOperation where
  /-- Every bit flipped. -/
  | flip (operand : Expr)
  /-- A shift. -/
  | shift (op : ArithOp) (operand count : Expr)
  /-- Bits of two operands combined. -/
  | combine (op : ArithOp) (left right : Expr)

/-- The operation on bits that an expression is. -/
def bitOperation? (e : Expr) : Option BitOperation :=
  match e with
  | .unary _ .complement operand => if isPlain operand then some (.flip operand) else none
  | .binary _ (.arith op) left right =>
    if !(isPlain left && isPlain right) then none
    else if e.isShift then some (.shift op left right)
    else if e.isBitwise then some (.combine op left right)
    else none
  | _ => none

/-- The bit patterns of an operation with a result. -/
def patterns (evaluate : Expr → Run Typed) (operation : BitOperation) (result : Value) :
    Run String :=
  match operation with
  | .flip operand => do
    let v ← evaluate operand
    let before ← Eval.lift (v.value.bits true)
    let after ← Eval.lift (result.bits true)
    return s!"~{before} = {after}"
  | .shift op operand count => do
    let v ← evaluate operand
    let n ← evaluate count
    let before ← Eval.lift (v.value.bits false)
    let after ← Eval.lift (result.bits false)
    return s!"{before} " ++ op.text ++ " " ++ n.value.print ++ s!" = {after}"
  | .combine op left right => do
    let l ← evaluate left
    let r ← evaluate right
    let first ← Eval.lift (l.value.bits false)
    let second ← Eval.lift (r.value.bits false)
    let after ← Eval.lift (result.bits false)
    return s!"{first} " ++ op.text ++ s!" {second} = {after}"

/-- Shows the bit patterns behind a declaration. -/
def bits : Commentary := fun setup evaluate v _ address =>
  match v.init with
  | some (.expr e) =>
    match bitOperation? e with
    | none => pure ()
    | some operation => do
      let result ← Run.read (.int address)
      let text ← patterns evaluate operation result
      Run.emit setup .execution v.line ("In binary, " ++ e.source ++ ": " ++ text)
  | _ => pure ()

/-- Shows how much room an array takes. -/
def room : Commentary := fun setup _ v type address =>
  if v.brackets.isArray then do
    let size ← Eval.lift (type.size setup.analysis.sizes)
    Run.emit setup .information v.line
      (s!"{v.name} occupies " ++ Numeral.decimal size ++ " contiguous bytes from "
        ++ Numeral.address address
        ++ s!"; in expressions {v.name} decays to &{v.name}[0]")
  else pure ()

/-! ## Before the program starts -/

/-- The name of a header without its quotes or angle brackets. -/
def headerName (header : String) : String :=
  let bare (s : List Char) := s.dropWhile (Text.oneOf "<>\"")
  String.ofList (bare (bare header.toList).reverse).reverse

/-- A directive in words. -/
def describeDirective (macros : Macros) (d : Directive) : String :=
  let other := d.inFull ++ " is handled before compilation"
  match d.command, d.arguments with
  | "#include", arguments =>
    let header := String.join arguments
    s!"#include {header} pastes in the declarations of " ++ headerName header
  | "#define", name :: _ =>
    match macros.find? name with
    | none => other
    | some m =>
      match m.parameters with
      | some _ =>
        "#define " ++ m.signature ++ s!" is a function-like macro expanding to {m.body}"
      | none =>
        s!"#define {m.name} replaces {m.name} with "
          ++ if m.body.isEmpty then "nothing" else m.body
  | _, _ => other

/-- Shows the directives outside functions. -/
def directives (setup : Setup) : Run Unit :=
  setup.analysis.program.items.forM fun
    | .directive d =>
      Run.emit setup .preprocessing d.line (describeDirective setup.analysis.macros d)
    | _ => pure ()

/-- Points out the recursive functions. -/
def recursiveFunctions (setup : Setup) : Run Unit :=
  let program := setup.analysis.program
  let recursive := program.callGraph.recursive
  (program.functions.filter fun f => recursive.contains f.name).forM fun f =>
    Run.emit setup .information f.line
      (s!"{f.name}() is recursive: each call gets its own stack frame "
        ++ s!"({f.name}, {f.name}#2, {f.name}#3, ...)")

/-- Shows the layouts of structs. -/
def layouts (setup : Setup) : Run Unit :=
  setup.analysis.program.structs.forM fun s =>
    match setup.analysis.layouts.find? s.typeName with
    | some layout => Run.emit setup .information s.line layout.describe
    | none => pure ()

/-- Says what the keyboard gives, if the program asks. -/
def keyboard (setup : Setup) : Run Unit :=
  match setup.analysis.program.calls.find? fun c => c.callee == "scanf" with
  | some c =>
    Run.emit setup .information c.line
      ("Keyboard input is simulated: scanf() reads " ++ setup.settings.keyboard.text)
  | none => pure ()

/-! ## After it has ended -/

/-- Warns of a file that was not closed. -/
def openFile (setup : Setup) (handle : Number) (file : OpenFile) : Run Unit := do
  let address ← Eval.lift (Value.hexAddress (.num handle))
  Run.emit setup .warning setup.analysis.lastLine
    (s!"{file.name} was never closed (FILE at " ++ Numeral.address address ++ ")")

/-- Warns of files that were not closed, in order of their handles. -/
def openFiles (setup : Setup) : Run Unit := do
  let files ← Run.ask fun m => m.files.byAddress
  files.forM fun (handle, file) => openFile setup handle file

/-- Shows what files contain, in order of their names. -/
def contents (setup : Setup) : Run Unit := do
  let files ← Run.ask fun m => List.mergeSort m.disk fun a b => decide (a.1 ≤ b.1)
  files.forM fun (name, content) =>
    Run.emit setup .information setup.analysis.lastLine
      (s!"{name} now contains " ++ Value.showText content)

end Remark

/-! ## The script of each category -/

/-- Plays a program of the category out. -/
def Category.play (setup : Setup) : Category → Run Unit
  | dynamicAllocation => Allocation.run setup
  | structures => do
    Remark.layouts setup
    runMain setup noCommentary
  | fileIo => do
    runMain setup noCommentary
    Remark.openFiles setup
    Remark.contents setup
  | switchCase => do
    Remark.keyboard setup
    runMain setup noCommentary
  | preprocessor => do
    Remark.directives setup
    runMain setup noCommentary
  | bitwise => runMain setup Remark.bits
  | recursion => do
    Remark.recursiveFunctions setup
    runMain setup noCommentary
  | arrays => runMain setup Remark.room
  | basic => runMain setup noCommentary
  | generic => Outline.run setup

end Stepwise
