/-
Why a simulation stops.

Most faults are the simulator's own: they name what the program did and have a
message for its reader. The rest arise where a value has the wrong shape for
an operation (arithmetic on a text, a number too large for a double, text that
spells no number); those carry a label and no message.
-/
import Stepwise.Numeral.Writing
import Stepwise.Text.Quoted

set_option autoImplicit false

namespace Stepwise

/-- The causes for which a simulation, or one of its parts, stops. -/
inductive Fault where
  /-- The type is neither a pointer nor an array. -/
  | notDereferenceable (type : String)
  /-- A stack object would reach the heap. -/
  | stackOverflow (size : String) (address heapBase : Int)
  /-- A condition has no value yet. -/
  | uninitializedCondition
  /-- A format asks for more arguments than there are. -/
  | missingFormatArgument (format : String)
  /-- A formatted argument has no value yet. -/
  | uninitializedFormatArgument
  /-- A numeric conversion was given a text. -/
  | textForConversion (conversion : Char)
  /-- A name that stands for nothing. -/
  | unknownIdentifier (name : String)
  /-- A name that is no variable. -/
  | unknownVariable (name : String)
  /-- An operand has no value yet. -/
  | uninitializedOperand (source : String)
  /-- An operator met an operand without a value. -/
  | uninitializedOperator (operator : String)
  /-- Division or remainder by zero. -/
  | divisionByZero
  /-- An integer operator met a floating operand. -/
  | needsIntegers (operator : String)
  /-- A text that names no operator. -/
  | unsupportedOperator (operator : String)
  /-- A pointer has no value yet. -/
  | uninitializedPointer
  /-- A pointer is null. -/
  | nullPointer
  /-- The struct has no such member. -/
  | unknownMember (type member : String)
  /-- The expression designates no object. -/
  | notAssignable (source : String)
  /-- A macro was used with the wrong number of arguments. -/
  | macroArity (name : String) (expected given : Nat)
  /-- A macro without a body was used as a value. -/
  | emptyMacro (name : String)
  /-- A macro whose body is no expression was used as a value. -/
  | unreadableMacro (name reason : String)
  /-- A constant expression read memory. -/
  | constantRead
  /-- A constant expression assigned. -/
  | constantWrite
  /-- A constant expression called a function. -/
  | constantCall (name : String)
  /-- No definition of the struct type. -/
  | unknownStruct (type : String)
  /-- A read of an address where nothing is stored. -/
  | unmappedRead (address : Int)
  /-- A write to an address where nothing is stored. -/
  | unmappedWrite (address : Int)
  /-- A braced initializer for a type without parts. -/
  | listForScalar (type : String)
  /-- A call of a function that is neither defined nor known. -/
  | unknownFunction (name : String)
  /-- Too many calls are active. -/
  | callDepth (limit : Int) (name : String)
  /-- A function was called with the wrong number of arguments. -/
  | callArity (name : String) (expected given : Nat)
  /-- There is no function to start with. -/
  | noMain
  /-- A directive that needs an open condition. -/
  | unmatchedDirective (command : String) (line : Nat)
  /-- A directive where a statement is needed. -/
  | directiveAsBody (line : Nat)
  /-- A text argument has no value yet. -/
  | uninitializedText
  /-- The object at the address holds no text. -/
  | notText (address : Int)
  /-- The format of an output call is no literal text. -/
  | formatNotLiteral
  /-- A library call lacks a text argument. -/
  | missingText
  /-- The value is no handle of an open file. -/
  | notOpen (handle : String)
  /-- The file was opened for reading only. -/
  | readOnly (file : String)
  /-- A frame that is not on the stack was popped. -/
  | missingFramePopped (frame : String)
  /-- A frame that is not on the stack was updated. -/
  | missingFrameUpdated (frame : String)
  /-- A frame was told a new value of a variable it does not have. -/
  | undeclaredVariable (name frame : String)
  /-- A heap block would lie outside the heap. -/
  | belowHeap (address : Int)
  /-- A freed heap block was brought back. -/
  | alreadyFreed (address : Int)
  /-- A look-up of an address in a given list of cells found nothing. -/
  | noSuchCell
  /-- A value of the wrong shape for the operation. -/
  | wrongShape
  /-- A text or number outside what the operation accepts. -/
  | badValue
  /-- A number too large for its destination. -/
  | outOfRange
  /-- A value too large to be built. -/
  | outOfMemory
  /-- An argument that is not there. -/
  | missingItem
  /-- A size of zero where sizes divide. -/
  | zeroSize
  /-- An expansion that never ends. -/
  | endless
deriving Repr, DecidableEq

namespace Fault

/-- The message of a simulation's own fault; the other faults have none. -/
def message? : Fault → Option String
  | notDereferenceable type => some s!"Type '{type}' cannot be dereferenced"
  | stackOverflow size address heapBase =>
    some (s!"Stack overflow: {size} bytes at " ++ Numeral.address address
      ++ " would reach the heap at " ++ Numeral.address heapBase)
  | uninitializedCondition => some "Condition uses an uninitialized value"
  | missingFormatArgument format =>
    some ("Not enough arguments for format " ++ Text.quoted format)
  | uninitializedFormatArgument => some "printf argument is uninitialized"
  | textForConversion conversion => some s!"printf %{conversion} given a string"
  | unknownIdentifier name => some s!"Unknown identifier '{name}'"
  | unknownVariable name => some s!"Unknown variable '{name}'"
  | uninitializedOperand source => some s!"'{source}' is used before it is initialized"
  | uninitializedOperator operator =>
    some s!"Operator {operator} applied to an uninitialized value"
  | divisionByZero => some "Division by zero"
  | needsIntegers operator => some s!"Operator {operator} needs integer operands"
  | unsupportedOperator operator => some s!"Unsupported operator {operator}"
  | uninitializedPointer => some "Dereferencing an uninitialized pointer"
  | nullPointer => some "Dereferencing a NULL pointer"
  | unknownMember type member => some s!"{type} has no member '{member}'"
  | notAssignable source => some s!"'{source}' is not assignable"
  | macroArity name expected given =>
    some s!"Macro {name} expects {expected} arguments, got {given}"
  | emptyMacro name => some s!"Macro {name} has no value"
  | unreadableMacro name reason => some s!"Macro {name} is not an expression: {reason}"
  | constantRead => some "Constant expressions cannot read memory"
  | constantWrite => some "Constant expressions cannot assign"
  | constantCall name => some s!"Constant expressions cannot call {name}()"
  | unknownStruct type => some s!"Unknown struct type '{type}'"
  | unmappedRead address => some ("Read from unmapped address " ++ Numeral.address address)
  | unmappedWrite address => some ("Write to unmapped address " ++ Numeral.address address)
  | listForScalar type => some s!"Initializer list used for scalar type {type}"
  | unknownFunction name => some s!"No simulation available for call to {name}()"
  | callDepth limit name =>
    some ("Call depth limit of " ++ Numeral.decimal limit ++ s!" reached calling {name}()")
  | callArity name expected given =>
    some s!"{name}() expects {expected} arguments, got {given}"
  | noMain => some "The program has no main() function"
  | unmatchedDirective command line => some s!"{command} without #if at line {line}"
  | directiveAsBody line => some s!"Cannot simulate preprocessor_directive at line {line}"
  | uninitializedText => some "String argument is uninitialized"
  | notText address => some ("Expected a string at " ++ Numeral.address address)
  | formatNotLiteral => some "Format argument must be a string literal"
  | missingText => some "Missing string argument"
  | notOpen handle => some s!"{handle} is not an open FILE"
  | readOnly file => some s!"{file} is open for reading only"
  | missingFramePopped frame => some s!"Cannot pop missing frame '{frame}'"
  | missingFrameUpdated frame => some s!"Cannot update variables of missing frame '{frame}'"
  | undeclaredVariable name frame =>
    some s!"Variable '{name}' is not declared in '{frame}'"
  | belowHeap address =>
    some ("Heap block at " ++ Numeral.address address ++ " is below the heap base")
  | alreadyFreed address =>
    some ("Heap block at " ++ Numeral.address address ++ " was already freed")
  | noSuchCell => some "no such cell"
  | wrongShape | badValue | outOfRange | outOfMemory | missingItem | zeroSize | endless => none

/-- The label under which a fault is reported. -/
def label : Fault → String
  | wrongShape => "TypeError"
  | badValue => "ValueError"
  | outOfRange => "OverflowError"
  | outOfMemory => "MemoryError"
  | missingItem => "IndexError"
  | zeroSize => "ZeroDivisionError"
  | endless => "RecursionError"
  | _ => "SimulationError"

/-- The text of a fault in a report: its message, or its label in angle brackets. -/
def text (fault : Fault) : String :=
  match fault.message? with
  | some message => message
  | none => "<" ++ fault.label ++ ">"

end Fault

end Stepwise
