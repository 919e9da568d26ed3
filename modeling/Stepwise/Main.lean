/-
The command line program: it reads the arguments and the source, prints the
report and ends as the report says.
-/
import Std.Time
import Stepwise.CommandLine.Report

set_option autoImplicit false

namespace Stepwise.CommandLine

/-- All bytes of a stream that are still to come. -/
partial def readBytes (stream : IO.FS.Stream) (bytes : ByteArray) : IO ByteArray := do
  let more ← stream.read 65536
  if more.isEmpty then return bytes else readBytes stream (bytes ++ more)

/-- The text on standard input. -/
def readStandardInput : IO String := do
  let bytes ← readBytes (← IO.getStdin) ByteArray.empty
  match String.fromUTF8? bytes with
  | some text => return text
  | none => throw (IO.userError "standard input is not UTF-8")

/-- What went wrong with a file. -/
def problemOf (path : String) (e : IO.Error) : OpenProblem :=
  let numbered (code : UInt32) (details : String) :=
    OpenProblem.refused (OpenProblem.numbered code.toNat details path)
  match e with
  | .noFileOrDirectory .. => .missing
  | .permissionDenied _ code details => numbered code details
  | .inappropriateType _ code details => numbered code details
  | .invalidArgument _ code details => numbered code details
  | .resourceExhausted _ code details => numbered code details
  | e => .refused (toString e)

/-- The contents of the source file. -/
def readSource (input : String) : IO (Except OpenProblem String) := do
  if input = "-" then return .ok (← readStandardInput)
  else
    try
      return .ok (← IO.FS.readFile input)
    catch e => return .error (problemOf input e)

/-- Makes the log file, if one is asked for. -/
def openLog (o : Options) : IO (Except OpenProblem Unit) :=
  match o.logFile with
  | none | some "" => return .ok ()
  | some path => do
    try
      let _ ← IO.FS.Handle.mk path .append
      return .ok ()
    catch e => return .error (problemOf path e)

/-- The local time, to the microsecond. -/
def timeText : IO String := do
  let now ← Std.Time.PlainDateTime.now
  return String.ofList ((toString now).toList.take 26)

/-- Prints a report. -/
def Report.print (r : Report) : IO UInt32 := do
  IO.print r.stdout
  IO.eprint r.stderr
  return r.exit.toUInt32

/-- Prints what becomes of a run. -/
def Outcome.print : Outcome → IO UInt32
  | ended ending => (endingReport ending).print
  | finished report => report.print
  | crashed label => ({ stderr := label ++ "\n", exit := 1 } : Report).print

/-- Runs the program on its arguments. -/
def run (arguments : List String) : IO UInt32 :=
  match read arguments with
  | .error ending => (Outcome.ended ending).print
  | .ok options => do
    match ← openLog options with
    | .error problem => (Outcome.crashed problem.label).print
    | .ok () =>
      let contents ← readSource options.input
      (outcome options contents (← timeText)).print

end Stepwise.CommandLine

/-- Traces a program. -/
def main (arguments : List String) : IO UInt32 :=
  Stepwise.CommandLine.run arguments
