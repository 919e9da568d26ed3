/-
How the program is used, in words.

The options stand in the order in which they are declared. What an option does
is set off to the right, on a line of its own where the option leaves no room.
-/

set_option autoImplicit false

namespace Stepwise.CommandLine

/-- The first lines of the help: the arguments at a glance. -/
def usage : String :=
  "usage: ctracer [-h] [--step STEP] [--json] [--tokens] [--ast]\n" ++
  "               [--stack-base STACK_BASE] [--heap-base HEAP_BASE]\n" ++
  "               [--input SCANF_VALUE] [--max-depth MAX_DEPTH]\n" ++
  "               [--max-loops MAX_LOOPS] [--verbose] [--quiet]\n" ++
  "               [--log-file LOG_FILE] [--version]\n" ++
  "               input\n"

/-- An option with its values and what it does. -/
structure OptionHelp where
  /-- The option as it is written. -/
  form : String
  /-- What it does. -/
  effect : String

/-- The column in which the effects begin. -/
def effectColumn : Nat := 24

/-- The help on an option: one line, or two if the option reaches the column of the effects. -/
def OptionHelp.text (h : OptionHelp) : String :=
  let start := "  " ++ h.form
  let margin (used : Nat) : String := String.ofList (List.replicate (effectColumn - used) ' ')
  if start.length + 2 ≤ effectColumn then start ++ margin start.length ++ h.effect ++ "\n"
  else start ++ "\n" ++ margin 0 ++ h.effect ++ "\n"

/-- The help on every option. -/
def optionHelps : List OptionHelp :=
  [⟨"-h, --help", "show this help message and exit"⟩,
    ⟨"--step STEP", "Show step N and the machine state after it"⟩,
    ⟨"--json", "Print the steps and error log as JSON"⟩,
    ⟨"--tokens", "Dump token stream and exit (debug)"⟩,
    ⟨"--ast", "Dump syntax tree and exit (debug)"⟩,
    ⟨"--stack-base STACK_BASE", "First stack address (hex, e.g. 0x1000)"⟩,
    ⟨"--heap-base HEAP_BASE", "First heap address (hex, e.g. 0x8000)"⟩,
    ⟨"--input SCANF_VALUE", "Value every scanf() call reads (default 3)"⟩,
    ⟨"--max-depth MAX_DEPTH", "Maximum nested user function calls"⟩,
    ⟨"--max-loops MAX_LOOPS", "Iterations per loop before it is cut short"⟩,
    ⟨"--verbose, -v", "Log trace generation details to stderr"⟩,
    ⟨"--quiet, -q", "Only log errors"⟩,
    ⟨"--log-file LOG_FILE", "Also write a DEBUG log to this file"⟩,
    ⟨"--version", "show program's version number and exit"⟩]

/-- The whole help. -/
def help : String :=
  usage ++ "\nStep-by-step memory traces of small C teaching programs\n" ++
    "\npositional arguments:\n" ++
    OptionHelp.text ⟨"input", "C source file ('-' reads stdin)"⟩ ++
    "\noptions:\n" ++ String.join (optionHelps.map OptionHelp.text)

end Stepwise.CommandLine
