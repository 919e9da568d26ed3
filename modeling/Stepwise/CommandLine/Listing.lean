/-
What the command line lists: steps, states and trees, in columns.

A listing is a list of lines. A line about the machine may have no text,
because an address or a size came out of floating arithmetic and cannot be
written in its column; what comes before it is listed all the same.
-/
import Stepwise.Machine.State
import Stepwise.Syntax.Tree

set_option autoImplicit false

namespace Stepwise.Listing

/-- Text filled with spaces to a width. -/
def column (width : Nat) (text : String) : String :=
  Text.padRight width ' ' text

/-- A whole number filled with spaces on its left. -/
def rightColumn (width : Nat) (n : Int) : String :=
  Text.padLeft width ' ' (Numeral.decimal n)

/-- A text that ends in a line feed. -/
def closed (text : String) : String :=
  if text.toList.getLast? == some '\n' then text else text ++ "\n"

/-! ## Steps -/

/-- A step with its index. -/
def stepLine (index : Nat) (s : Step) : String :=
  rightColumn 4 index ++ "  L" ++ column 4 (Numeral.decimal s.line) ++ " "
    ++ column 14 s.kind.text ++ " " ++ s.description

/-! ## States -/

/-- Why a line has no text. -/
inductive Unprintable where
  /-- The address is no whole number. -/
  | address
  /-- The size is no whole number. -/
  | size
deriving Repr, DecidableEq

/-- A line without a text in words. -/
def Unprintable.message : Unprintable → String
  | address => "Unknown format code 'x' for object of type 'float'"
  | size => "Unknown format code 'd' for object of type 'float'"

/-- A line that may have no text. -/
abbrev Line := Except Unprintable String

/-- An address in at least four digits. -/
def addressText : Number → Line
  | .int n => .ok ("0x" ++ Numeral.filled 16 4 n)
  | .float .. => .error .address

/-- The line of a frame's variable. -/
def variableLine (c : Cell) : Line := do
  return "    " ++ column 16 c.name ++ " " ++ column 14 c.type.text ++ " "
    ++ (← addressText c.address) ++ "  " ++ c.value.dump

/-- The lines of a frame. -/
def frameLines (f : Frame) : List Line :=
  .ok s!"  {f.name}:" :: f.vars.values.map variableLine

/-- The line of a memory cell. -/
def cellLine (heapBase : Int) (address : Number) (c : Cell) : Line := do
  let region := if address.less (.int heapBase) then "stack" else "heap "
  return s!"  {region} " ++ (← addressText address) ++ "  " ++ column 20 c.name ++ " "
    ++ column 12 c.type.text ++ " " ++ c.value.dump

/-- The line of a heap block. -/
def blockLine (address : Number) (b : Block) : Line := do
  let start ← addressText address
  match b.size with
  | .int n =>
    return s!"  {start}  " ++ rightColumn 5 n ++ " bytes  " ++ if b.freed then "freed" else "in use"
  | .float .. => .error .size

/-- The lines of a state, the innermost frame first, without its console. -/
def stateLines (s : State) : List Line :=
  .ok "Stack:" :: s.stack.reverse.flatMap frameLines
    ++ .ok "Memory:" :: s.sortedCells.map (fun (address, c) => cellLine s.heapBase address c)
    ++ .ok "Heap:" :: s.sortedBlocks.map (fun (address, b) => blockLine address b)
    ++ [.ok "Console:"]

/-- The lines before the first that has no text, and why that one has none. -/
def printable : List Line → List String × Option Unprintable
  | [] => ([], none)
  | .error e :: _ => ([], some e)
  | .ok line :: rest =>
    let (lines, problem) := printable rest
    (line :: lines, problem)

/-! ## Trees -/

/-- A truth value as the listing writes it. -/
def truthText (b : Bool) : String :=
  if b then "True" else "False"

/-- Texts in brackets, parted by commas. -/
def bracketed (texts : List String) : String :=
  "[" ++ ", ".intercalate texts ++ "]"

/-- A parameter of a function. -/
def parameterText (p : Parameter) : String :=
  "Parameter(type=" ++ Text.quoted p.type.text ++ ", name=" ++ Text.quoted p.name
    ++ ", is_pointer=" ++ truthText p.isPointer ++ ", is_array=" ++ truthText p.isArray ++ ")"

/-- The kind and value of a node in one text. -/
def summary (label : Tree.Label) : String :=
  label.kind.text ++ " " ++ label.value.getD "None"

/-- A part of a node, left out if it is not there. -/
def extra (name : String) (present : Bool) (text : String) : List String :=
  if present then [name ++ "=" ++ text] else []

/-- What a node carries besides its kind, value and line; the size is that in its brackets. -/
def details (size : Option Tree) : Tree.Detail → List String
  | .none => []
  | .arguments texts => extra "arguments" (!texts.isEmpty) (bracketed (texts.map Text.quoted))
  | .signature type parameters =>
    extra "return_type" (!type.text.isEmpty) (Text.quoted type.text)
      ++ extra "parameters" (!parameters.isEmpty) (bracketed (parameters.map parameterText))
  | .type type => extra "declared_type" (!type.text.isEmpty) (Text.quoted type.text)
  | .shape stars isArray =>
    extra "is_pointer" (0 < stars) "True"
      ++ extra "pointer_depth" (0 < stars) (Numeral.decimal stars)
      ++ (match size with
        | some t => extra "array_size" true (Text.quoted (summary t.label))
        | none => [])
      ++ extra "is_array" isArray "True"
  | .arrow arrow => extra "is_arrow" arrow "True"

/-- The line of a node. -/
def nodeLine (depth : Nat) (label : Tree.Label) (size : Option Tree) : String :=
  let value :=
    match label.value with
    | some v => " " ++ Text.quoted v
    | none => ""
  String.ofList (List.replicate (2 * depth) ' ') ++ label.kind.text ++ value ++ s!" L{label.line}"
    ++ "  " ++ bracketed (("kind=" ++ Text.quoted label.kind.text) :: details size label.detail)

mutual

/-- The lines of a tree, each level two spaces further in. -/
def treeLines (depth : Nat) : Tree → List String
  | .node label size children => nodeLine depth label size :: forestLines (depth + 1) children

/-- The lines of several trees. -/
def forestLines (depth : Nat) : List Tree → List String
  | [] => []
  | t :: rest => treeLines depth t ++ forestLines depth rest

end

end Stepwise.Listing
