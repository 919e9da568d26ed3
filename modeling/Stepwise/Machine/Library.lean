/-
Library functions.

Output calls write to the console, keyboard input is a setting, and files live
on a disk that starts empty. A file handle is the address of a heap block that
is freed when the file is closed. Each call leaves a note for the step that
will show it.
-/
import Stepwise.Machine.Objects
import Stepwise.Printf.Format

set_option autoImplicit false

namespace Stepwise

/-- Library functions that are simulated. -/
inductive LibraryFunction where
  /-- Formatted output. -/
  | printf
  /-- A line of output. -/
  | puts
  /-- A character of output. -/
  | putchar
  /-- Keyboard input. -/
  | scanf
  /-- Copies a text. -/
  | strcpy
  /-- Appends a text. -/
  | strcat
  /-- The length of a text. -/
  | strlen
  /-- Compares two texts. -/
  | strcmp
  /-- Opens a file. -/
  | fopen
  /-- Closes a file. -/
  | fclose
  /-- Formatted output to a file. -/
  | fprintf
  /-- Output of a text to a file. -/
  | fputs
  /-- Input of a line from a file. -/
  | fgets
deriving Repr, DecidableEq

namespace LibraryFunction

/-- The function with a name. -/
def ofName? : String → Option LibraryFunction
  | "printf" => some printf
  | "puts" => some puts
  | "putchar" => some putchar
  | "scanf" => some scanf
  | "strcpy" => some strcpy
  | "strcat" => some strcat
  | "strlen" => some strlen
  | "strcmp" => some strcmp
  | "fopen" => some fopen
  | "fclose" => some fclose
  | "fprintf" => some fprintf
  | "fputs" => some fputs
  | "fgets" => some fgets
  | _ => none

end LibraryFunction

namespace Machine

/-- The text that a value is or points to. -/
def readText (m : Machine) (pointer : Value) : Except Fault String :=
  match pointer with
  | .text s => .ok s
  | pointer => do
    match ← m.read pointer with
    | .text s => return s
    | .uninit => .error .uninitializedText
    | _ => do .error (.notText (← pointer.hexAddress))

/-- The text at an address, for formats. -/
def textReader (m : Machine) : Printf.Reader :=
  some fun address => do return .text (← m.readText (.int address))

/-- The handle of a file as the key of a table. -/
def handleKey : Value → Except Fault (Option Number)
  | .num n => .ok (some n)
  | .uninit | .text _ => .ok none
  | .list _ | .record _ => .error .wrongShape

/-- The open file with a handle. -/
def openFile (m : Machine) (handle : Value) : Except Fault (Number × OpenFile) := do
  match ← handleKey handle with
  | none => .error (.notOpen (handle.shown ⟨"FILE*"⟩))
  | some key =>
    match m.files.find? key with
    | some file => return (key, file)
    | none => .error (.notOpen (handle.shown ⟨"FILE*"⟩))

end Machine

namespace Library

/-- The argument at an index, which has to be there. -/
def argument (arguments : List Typed) (index : Nat) : Run Typed :=
  match arguments[index]? with
  | some a => return a
  | none => Eval.fail .missingItem

/-- The text that the argument at an index is or points to. -/
def textArgument (arguments : List Typed) (index : Nat) : Run String :=
  match arguments[index]? with
  | some a => Run.query fun m => m.readText a.value
  | none => Eval.fail .missingText

/-- A whole number as a result. -/
def intResult (n : Int) : Typed := ⟨.int n, .int⟩

/-- The text that a format and its arguments make. -/
def formatted : List Typed → Run String
  | ⟨.text format, _⟩ :: arguments =>
    Run.query fun m => Stepwise.printf format arguments m.textReader
  | _ => Eval.fail .formatNotLiteral

/-- Writes a text to the console and takes note of it. -/
def output (via text : String) : Run Unit := do
  Run.print text
  Run.note (via ++ " writes " ++ Value.showText text)

/-- The name of the object at an address, as a note shows it. -/
def noteName (address : Value) : Run String :=
  Run.ask fun m => (m.cellName? address).getD "None"

/-! ## Console and keyboard -/

/-- Formatted output; the result is its length. -/
def printf (arguments : List Typed) : Run Typed := do
  let text ← formatted arguments
  output "printf" text
  return intResult text.length

/-- A line of output; the result is its length. -/
def puts (arguments : List Typed) : Run Typed := do
  let a ← argument arguments 0
  let text := (← Run.query fun m => m.readText a.value) ++ "\n"
  output "puts" text
  return intResult text.length

/-- A character of output. -/
def putchar (arguments : List Typed) : Run Typed := do
  let a ← argument arguments 0
  match a.value with
  | .num (.int n) =>
    output "putchar" (String.singleton (← Eval.lift (Literal.charOfCode n)))
    return a
  | _ => Eval.fail .wrongShape

/-- Reads a length at the start of an input format's conversion. -/
def dropInputLength : List Char → List Char
  | 'h' :: 'h' :: rest | 'l' :: 'l' :: rest => rest
  | c :: rest => if Text.oneOf "hlL" c then rest else c :: rest
  | [] => []

/-- The letter of an input conversion after its percent sign. -/
def inputConversion? (s : List Char) : Option Char :=
  let s :=
    match s with
    | '*' :: rest => rest
    | s => s
  match dropInputLength (s.dropWhile Text.isDecimal) with
  | c :: _ => if Text.oneOf "diouxXfFeEgGcs" c then some c else none
  | [] => none

/-- The letters of the conversions of an input format. What stands between a percent sign and its
letter holds no percent sign, so every percent sign can be looked at by itself. -/
def inputConversions : List Char → List Char
  | [] => []
  | c :: rest =>
    if c = '%' then (inputConversion? rest).toList ++ inputConversions rest
    else inputConversions rest

/-- What the keyboard gives for a conversion into an object of a type. A text is whatever is shown
of the input; anything else has to be a number. -/
def keyboardValue (settings : Settings) (conversion : Char) (type : CType) :
    Except Fault Value :=
  if conversion = 's' then .ok (.text settings.keyboard.text)
  else
    match settings.keyboard with
    | .blank => .error .wrongShape
    | .number n =>
      if Text.oneOf "fFeEgG" conversion || type.isFloating then do
        return .float (← Number.floatOfInt n)
      else .ok (.int n)

/-- Stores keyboard input in one object. -/
def scanInto (settings : Settings) (conversion : Char) (target : Typed) : Run Unit := do
  let type ← Eval.lift target.type.element
  let value ← Eval.lift (keyboardValue settings conversion type)
  Run.write target.value value
  let name ← Run.ask fun m => (m.cellName? target.value).getD ""
  Run.note ("scanf reads " ++ value.shown .int ++ " into "
    ++ (if name.isEmpty then "memory" else name))

/-- Keyboard input; the result is the number of objects that were stored to. -/
def scanf (settings : Settings) (arguments : List Typed) : Run Typed := do
  let format ← textArgument arguments 0
  let conversions := inputConversions format.toList
  (conversions.zip (arguments.drop 1)).forM fun (conversion, target) =>
    scanInto settings conversion target
  return intResult (min conversions.length (arguments.length - 1))

/-! ## Texts -/

/-- Copies a text. -/
def strcpy (arguments : List Typed) : Run Typed := do
  let text ← textArgument arguments 1
  let target ← argument arguments 0
  Run.write target.value (.text text)
  Run.note ("strcpy copies " ++ Value.showText text ++ " into " ++ (← noteName target.value))
  return target

/-- Appends a text. -/
def strcat (arguments : List Typed) : Run Typed := do
  let first ← textArgument arguments 0
  let second ← textArgument arguments 1
  let target ← argument arguments 0
  Run.write target.value (.text (first ++ second))
  Run.note ("strcat leaves " ++ (← noteName target.value) ++ " = "
    ++ Value.showText (first ++ second))
  return target

/-- The length of a text. -/
def strlen (arguments : List Typed) : Run Typed := do
  return ⟨.int (← textArgument arguments 0).length, ⟨"size_t"⟩⟩

/-- Compares two texts by their characters. -/
def strcmp (arguments : List Typed) : Run Typed := do
  let a ← textArgument arguments 0
  let b ← textArgument arguments 1
  return intResult (if a < b then -1 else if b < a then 1 else 0)

/-! ## Files -/

/-- Bytes taken by the structure behind a file handle. -/
def fileSize : Int := 216

/-- What a mode opens a file for. -/
def purpose (mode : String) : Except Fault String :=
  match mode.toList with
  | [] => .error .missingItem
  | 'r' :: _ => .ok "reading"
  | 'w' :: _ => .ok "writing"
  | 'a' :: _ => .ok "appending"
  | _ => .ok mode

/-- Does the mode begin with the letter? -/
def modeIs (letter : Char) (mode : String) : Bool :=
  mode.toList.head? == some letter

/-- Opens a file; the result is its handle, null if it should be read and does not exist. -/
def fopen (arguments : List Typed) : Run Typed := do
  let name ← textArgument arguments 0
  let mode ← textArgument arguments 1
  let known ← Run.ask fun m => m.disk.has name
  if modeIs 'r' mode && !known then
    Run.note ("fopen cannot open " ++ Value.showText name ++ ": returns NULL")
    return ⟨.int 0, ⟨"FILE*"⟩⟩
  else
    if modeIs 'w' mode || !known then
      Run.change fun m => { m with disk := m.disk.put name "" }
    let address ← Run.allocateHeap fileSize
    Run.change fun m =>
      { m with
        blocks := m.blocks.put (.int address) { address := .int address, size := .int fileSize }
        files := m.files.put (.int address) { name := name, mode := mode } }
    -- an empty mode gets this far, and only the note needs its first letter
    let purpose ← Eval.lift (purpose mode)
    Run.note ("fopen opens " ++ Value.showText name ++ " for " ++ purpose
      ++ "; FILE structure at " ++ Numeral.address address)
    return ⟨.int address, ⟨"FILE*"⟩⟩

/-- Closes a file. -/
def fclose (arguments : List Typed) : Run Typed := do
  let handle ← argument arguments 0
  let (key, file) ← Run.query fun m => m.openFile handle.value
  Run.change fun m =>
    { m with
      files := m.files.drop key
      blocks := m.blocks.put key { address := key, size := .int fileSize, freed := true } }
  Run.note ("fclose closes " ++ Value.showText file.name ++ " and frees its FILE structure")
  return intResult 0

/-- Appends a text to a file. -/
def writeFile (handle : Typed) (text via : String) : Run Unit := do
  let (_, file) ← Run.query fun m => m.openFile handle.value
  if modeIs 'r' file.mode && !file.mode.toList.contains '+' then
    Eval.fail (.readOnly file.name)
  else
    Run.change fun m =>
      { m with disk := m.disk.put file.name ((m.disk.find? file.name).getD "" ++ text) }
    Run.note (via ++ " writes " ++ Value.showText text ++ " to " ++ file.name)

/-- Formatted output to a file; the result is its length. -/
def fprintf (arguments : List Typed) : Run Typed := do
  let text ← formatted (arguments.drop 1)
  writeFile (← argument arguments 0) text "fprintf"
  return intResult text.length

/-- Output of a text to a file. -/
def fputs (arguments : List Typed) : Run Typed := do
  -- a missing handle is noticed before a missing text
  let handle ← argument arguments 1
  let text ← textArgument arguments 0
  writeFile handle text "fputs"
  return intResult 0

/-- Where the line that begins at a position ends, its line feed included. -/
def lineEnd (content : List Char) (position : Nat) : Nat :=
  match (content.drop position).findIdx? (· == '\n') with
  | some i => position + i + 1
  | none => content.length

/-- The end of what is read from a position, at most `limit - 1` characters on. A limit that is a
double works as long as it does not decide the end. -/
def readEnd (stop position : Nat) (limit : Value) : Except Fault Nat :=
  match limit with
  | .num (.int n) => .ok (min stop (position + (n - 1).toNat))
  | .num (.float x _) =>
    let y := x - 1.0
    if y < 0.0 then .ok (min stop position)
    else if Decimal.ofInt position + y < Decimal.ofInt stop then .error .wrongShape
    else .ok stop
  | _ => .error .wrongShape

/-- Reads a line of a file into a buffer; the result is null at the end of the file. -/
def fgets (arguments : List Typed) : Run Typed :=
  match arguments with
  | [buffer, limit, handle] => do
    let (key, file) ← Run.query fun m => m.openFile handle.value
    let content ← Run.ask fun m => ((m.disk.find? file.name).getD "").toList
    if content.length ≤ file.position then
      Run.note s!"fgets reached the end of {file.name}"
      return ⟨.int 0, ⟨"char*"⟩⟩
    else
      let stop ← Eval.lift (readEnd (lineEnd content file.position) file.position limit.value)
      let chunk := String.ofList ((content.drop file.position).take (stop - file.position))
      Run.change fun m =>
        { m with files := m.files.put key { file with position := stop } }
      Run.write buffer.value (.text chunk)
      Run.note ("fgets reads " ++ Value.showText chunk ++ s!" from {file.name}")
      return buffer
  | _ => Eval.fail .badValue

end Library

/-- Calls a library function. -/
def LibraryFunction.run (settings : Settings) (f : LibraryFunction) (arguments : List Typed) :
    Run Typed :=
  match f with
  | printf => Library.printf arguments
  | puts => Library.puts arguments
  | putchar => Library.putchar arguments
  | scanf => Library.scanf settings arguments
  | strcpy => Library.strcpy arguments
  | strcat => Library.strcat arguments
  | strlen => Library.strlen arguments
  | strcmp => Library.strcmp arguments
  | fopen => Library.fopen arguments
  | fclose => Library.fclose arguments
  | fprintf => Library.fprintf arguments
  | fputs => Library.fputs arguments
  | fgets => Library.fgets arguments

end Stepwise
