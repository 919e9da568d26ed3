/-
The options of the command line.

Each argument is an option, a plain word or the divider `--`, behind which
everything is a plain word. An option may be shortened as long as only one
begins that way, may have its value behind an equals sign, and one-letter
options may be written together, with or without an equals sign behind the
first. A value is the next plain word; a negative number is a plain word. A
divider behind an equals sign gives the option without a value. The first
plain word that is no value is the input, and there has to be exactly one.

All arguments are told apart first, then they are worked off from left to
right. Asking for help or for the version ends that at once, and so does the
first mistake.
-/
import Stepwise.Settings

set_option autoImplicit false

namespace Stepwise.CommandLine

/-! ## Options and their values -/

/-- What an option is about. -/
inductive Flag where
  /-- How the program is used. -/
  | help
  /-- One step with the state after it. -/
  | step
  /-- The trace as a document. -/
  | json
  /-- The tokens. -/
  | tokens
  /-- The tree. -/
  | ast
  /-- The first stack address. -/
  | stackBase
  /-- The first heap address. -/
  | heapBase
  /-- What is read from the keyboard. -/
  | keyboard
  /-- How many calls may be active. -/
  | maxDepth
  /-- How many iterations a loop may have. -/
  | maxLoops
  /-- Log more. -/
  | verbose
  /-- Log less. -/
  | quiet
  /-- Where to log. -/
  | logFile
  /-- The version. -/
  | version
deriving Repr, DecidableEq

/-- The spellings of options. -/
def spellings : List (String × Flag) :=
  [("-h", .help), ("--help", .help), ("--step", .step), ("--json", .json), ("--tokens", .tokens),
    ("--ast", .ast), ("--stack-base", .stackBase), ("--heap-base", .heapBase),
    ("--input", .keyboard), ("--max-depth", .maxDepth), ("--max-loops", .maxLoops),
    ("--verbose", .verbose), ("-v", .verbose), ("--quiet", .quiet), ("-q", .quiet),
    ("--log-file", .logFile), ("--version", .version)]

/-- Does the option have a value? -/
def Flag.takesValue : Flag → Bool
  | step | stackBase | heapBase | keyboard | maxDepth | maxLoops | logFile => true
  | help | json | tokens | ast | verbose | quiet | version => false

/-- What the command line asks for. -/
structure Options where
  /-- The source file, a dash for standard input. -/
  input : String
  /-- The step to show. -/
  step : Option Amount := none
  /-- Show the trace as a document. -/
  json : Bool := false
  /-- Show the tokens. -/
  tokens : Bool := false
  /-- Show the tree. -/
  ast : Bool := false
  /-- The first stack address, as written. -/
  stackBase : Option String := none
  /-- The first heap address, as written. -/
  heapBase : Option String := none
  /-- What is read from the keyboard. -/
  keyboard : Option Amount := none
  /-- How many calls may be active. -/
  maxDepth : Option Amount := none
  /-- How many iterations a loop may have. -/
  maxLoops : Option Amount := none
  /-- Log more. -/
  verbose : Bool := false
  /-- Log less. -/
  quiet : Bool := false
  /-- Where to log. -/
  logFile : Option String := none
deriving Repr, DecidableEq

/-- A mistake in the arguments. -/
inductive Mistake where
  /-- More than one option begins that way. -/
  | ambiguous (argument : String)
  /-- An option lacks its value. -/
  | missingValue (flag : Flag)
  /-- An option has a value and takes none. -/
  | surplusValue (flag : Flag) (value : String)
  /-- The value is no whole number. -/
  | badNumber (flag : Flag) (value : String)
  /-- There is no input. -/
  | missingInput
  /-- Arguments that nothing can be made of. -/
  | unrecognized (arguments : List String)
deriving Repr, DecidableEq

/-- The long spelling of an option. -/
def Flag.text (flag : Flag) : String :=
  match spellings.find? fun (name, f) => f == flag && "--".isPrefixOf name with
  | some (name, _) => name
  | none => ""

/-- A mistake in words. -/
def Mistake.message : Mistake → String
  | ambiguous argument => s!"ambiguous option: {argument}"
  | missingValue flag => "argument " ++ flag.text ++ ": expected one argument"
  | surplusValue flag value => "argument " ++ flag.text ++ s!": ignored explicit argument '{value}'"
  | badNumber flag value => "argument " ++ flag.text ++ s!": invalid int value: '{value}'"
  | missingInput => "the following arguments are required: input"
  | unrecognized arguments => "unrecognized arguments: " ++ " ".intercalate arguments

/-- Why the arguments ask for no trace. -/
inductive Ending where
  /-- They ask for help. -/
  | help
  /-- They ask for the version. -/
  | version
  /-- They have a mistake. -/
  | mistake (m : Mistake)
deriving Repr, DecidableEq

/-! ## Telling arguments apart -/

/-- An option as it was written. -/
structure Reading where
  /-- What it is about. -/
  flag : Flag
  /-- The value behind its equals sign. -/
  value : Option String := none
  /-- What is written behind its letter. -/
  more : List Char := []
deriving Repr, DecidableEq

/-- An argument. -/
inductive Argument where
  /-- A plain word. -/
  | plain (text : String)
  /-- The divider. -/
  | divider
  /-- An option. -/
  | option (reading : Reading)
  /-- Something that looks like an option and is none. -/
  | unknown (text : String)
deriving Repr, DecidableEq

/-- The text before and after the first equals sign. -/
def splitValue (argument : String) : Option (String × String) :=
  let s := argument.toList
  match s.dropWhile (· != '=') with
  | _ :: value => some (String.ofList (s.takeWhile (· != '=')), String.ofList value)
  | [] => none

/-- The option that an argument spells in full, perhaps with a value. What stands behind the
equals sign of a one-letter option is more letters. -/
def spelledOut? (argument : String) : Option Reading :=
  match spellings.lookup argument with
  | some flag => some { flag := flag }
  | none => do
    let (name, value) ← splitValue argument
    let flag ← spellings.lookup name
    if "--".isPrefixOf name || value.isEmpty then return { flag := flag, value := some value }
    else return { flag := flag, more := value.toList }

/-- The options that an argument with two dashes may be short for. -/
def shortened (argument : String) : List Reading :=
  let (start, value) :=
    match splitValue argument with
    | some (start, value) => (start, some value)
    | none => (argument, none)
  (spellings.filter fun (name, _) => start.isPrefixOf name).map fun (_, flag) =>
    { flag := flag, value := value }

/-- The one-letter option that an argument with a single dash begins with. -/
def letters (argument : String) : List Reading :=
  match argument.toList with
  | dash :: letter :: rest =>
    match spellings.lookup (String.ofList [dash, letter]) with
    | some flag => [{ flag := flag, more := rest }]
    | none => []
  | _ => []

/-- The options that an argument may stand for. -/
def candidates (argument : String) : List Reading :=
  if "--".isPrefixOf argument then shortened argument else letters argument

/-- Is the text a negative number, whole or with a point? A line feed at the end does not matter. -/
def isNegativeNumber (s : List Char) : Bool :=
  match s with
  | '-' :: body =>
    let body := if body.getLast? == some '\n' then body.dropLast else body
    let fraction := body.dropWhile Text.isDecimal
    match fraction with
    | [] => !body.isEmpty
    | '.' :: digits => !digits.isEmpty && digits.all Text.isDecimal
    | _ => false
  | _ => false

/-- What an argument is, the divider apart. -/
def classify (argument : String) : Except Mistake Argument :=
  let s := argument.toList
  if s.head? != some '-' || s.length == 1 then .ok (.plain argument)
  else
    match spelledOut? argument with
    | some reading => .ok (.option reading)
    | none =>
      match candidates argument with
      | [reading] => .ok (.option reading)
      | _ :: _ :: _ => .error (.ambiguous argument)
      | [] =>
        if isNegativeNumber s || s.contains ' ' then .ok (.plain argument)
        else .ok (.unknown argument)

/-- What the arguments are. -/
def classifyAll : List String → Except Mistake (List Argument)
  | [] => .ok []
  | "--" :: rest => .ok (.divider :: rest.map .plain)
  | argument :: rest => do
    let first ← classify argument
    return first :: (← classifyAll rest)

/-! ## Working arguments off -/

/-- The options that are written behind a one-letter option; every letter has to be one. -/
def behind (flag : Flag) : List Char → Except Mistake (List Flag)
  | [] => .ok []
  | c :: rest =>
    match spellings.lookup (String.ofList ['-', c]) with
    | some next => do return next :: (← behind next rest)
    | none => .error (.surplusValue flag (String.ofList (c :: rest)))

/-- The options that a reading without a value stands for. -/
def Reading.flags (r : Reading) : Except Mistake (List Flag) :=
  match r.value with
  | some value => .error (.surplusValue r.flag value)
  | none => do return r.flag :: (← behind r.flag r.more)

/-- What has been worked off. -/
structure Progress where
  /-- The options so far, without an input. -/
  options : Options := { input := "" }
  /-- The input, once it is known. -/
  input : Option String := none
  /-- Arguments that nothing could be made of. -/
  extras : List String := []

namespace Progress

/-- Applies an option without a value. -/
def apply (p : Progress) : Flag → Except Ending Progress
  | .help => .error .help
  | .version => .error .version
  | .json => .ok { p with options := { p.options with json := true } }
  | .tokens => .ok { p with options := { p.options with tokens := true } }
  | .ast => .ok { p with options := { p.options with ast := true } }
  | .verbose => .ok { p with options := { p.options with verbose := true } }
  | .quiet => .ok { p with options := { p.options with quiet := true } }
  | .step | .stackBase | .heapBase | .keyboard | .maxDepth | .maxLoops | .logFile => .ok p

/-- A value that is a whole number; no value is a blank amount. -/
def amount (flag : Flag) : Option String → Except Ending Amount
  | none => .ok .blank
  | some value =>
    match Numeral.readInt? 10 value.toList with
    | some n => .ok (.number n)
    | none => .error (.mistake (.badNumber flag value))

/-- Applies an option that takes a value. Without one, a text is empty. -/
def set (p : Progress) (flag : Flag) (value : Option String) : Except Ending Progress :=
  match flag with
  | .step => do return { p with options := { p.options with step := ← amount flag value } }
  | .keyboard => do
    return { p with options := { p.options with keyboard := ← amount flag value } }
  | .maxDepth => do
    return { p with options := { p.options with maxDepth := ← amount flag value } }
  | .maxLoops => do
    return { p with options := { p.options with maxLoops := ← amount flag value } }
  | .stackBase => .ok { p with options := { p.options with stackBase := value.getD "" } }
  | .heapBase => .ok { p with options := { p.options with heapBase := value.getD "" } }
  | .logFile => .ok { p with options := { p.options with logFile := value.getD "" } }
  | .help | .json | .tokens | .ast | .verbose | .quiet | .version => p.apply flag

/-- Takes a plain word as the input, if there is none yet. -/
def take (p : Progress) (text : String) : Progress :=
  match p.input with
  | none => { p with input := text }
  | some _ => { p with extras := p.extras ++ [text] }

/-- The options, if nothing is missing and nothing is left. -/
def finish (p : Progress) : Except Ending Options :=
  match p.input, p.extras with
  | none, _ => .error (.mistake .missingInput)
  | some input, [] => .ok { p.options with input := input }
  | some _, extras => .error (.mistake (.unrecognized extras))

end Progress

/-- Passes a mistake on as an ending. -/
def orMistake {α : Type} : Except Mistake α → Except Ending α
  | .ok a => .ok a
  | .error m => .error (.mistake m)

/-- The value that is written behind an equals sign; a divider is none. -/
def writtenValue (value : String) : Option String :=
  if value = "--" then none else some value

/-- Works arguments off from left to right. -/
def workOff (p : Progress) : List Argument → Except Ending Progress
  | [] => .ok p
  | .option reading :: rest =>
    if reading.flag.takesValue then
      match reading.value, rest with
      | some value, rest => do workOff (← p.set reading.flag (writtenValue value)) rest
      | none, .plain value :: rest => do workOff (← p.set reading.flag (some value)) rest
      | none, _ => .error (.mistake (.missingValue reading.flag))
    else do
      -- all letters are looked at before the first option takes effect
      let flags ← orMistake reading.flags
      workOff (← flags.foldlM Progress.apply p) rest
  | .unknown text :: rest => workOff { p with extras := p.extras ++ [text] } rest
  | .plain text :: .divider :: rest =>
    if p.input.isNone then workOff (p.take text) rest
    else workOff { p with extras := p.extras ++ [text, "--"] } rest
  | .plain text :: rest => workOff (p.take text) rest
  | .divider :: rest =>
    if p.input.isNone then workOff p rest
    else workOff { p with extras := p.extras ++ ["--"] } rest

/-- What the arguments ask for. -/
def read (arguments : List String) : Except Ending Options := do
  let classified ← orMistake (classifyAll arguments)
  (← workOff {} classified).finish

end Stepwise.CommandLine
