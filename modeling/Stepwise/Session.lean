/-
Viewing sessions.

A session traces one source text at a time and keeps a position among its
steps. Moving outside the steps leaves the position where it is. Everything
that goes wrong is logged: characters that were passed over as warnings, a
source that cannot be read and a trace without steps of a script as errors. A
new run forgets all that was before it.
-/
import Stepwise.Machine.Export
import Stepwise.Trace

set_option autoImplicit false

namespace Stepwise

/-- How bad something is. -/
inductive Severity where
  /-- Good to know. -/
  | info
  /-- Questionable. -/
  | warning
  /-- Wrong. -/
  | error
deriving Repr, DecidableEq

/-- The name of a severity. -/
def Severity.text : Severity → String
  | info => "info"
  | warning => "warning"
  | error => "error"

/-- Something that was logged. -/
structure LogEntry where
  /-- How bad it is. -/
  severity : Severity
  /-- What it is. -/
  message : String
  /-- When it was logged. -/
  time : String
deriving Repr, DecidableEq

/-- The entry without its time. -/
def LogEntry.text (e : LogEntry) : String :=
  e.severity.text ++ ": " ++ e.message

/-- The entry as a document. -/
def LogEntry.document (e : LogEntry) : Document :=
  .object
    [("message", .text e.message), ("severity", .text e.severity.text),
      ("timestamp", .text e.time)]

/-- A viewing session. -/
structure Session where
  /-- The settings of its traces. -/
  settings : Settings
  /-- The source text. -/
  source : String := ""
  /-- Its tokens. -/
  tokens : List Token := []
  /-- The program, if the source could be read. -/
  program : Option Program := none
  /-- The trace of the program. -/
  trace : Option Trace := none
  /-- What was logged, in order. -/
  log : List LogEntry := []
  /-- The position among the steps. -/
  position : Nat := 0

namespace Session

/-- The steps that can be viewed. -/
def steps (s : Session) : List Step :=
  match s.trace with
  | some t => t.steps
  | none => []

/-! ## Running -/

/-- The session without a source. -/
def reset (s : Session) : Session :=
  { settings := s.settings }

/-- Logs a message. -/
def note (s : Session) (time : String) (severity : Severity) (message : String) : Session :=
  { s with log := s.log ++ [⟨severity, message, time⟩] }

/-- The warning about a character that was passed over. -/
def skippedEntry (time : String) (skipped : Token.Skipped) : LogEntry :=
  ⟨.warning,
    "Ignored unrecognized character " ++ Text.quoted (String.singleton skipped.char)
      ++ s!" at L{skipped.line}:{skipped.column}",
    time⟩

/-- The session with the trace of a program. -/
def withTrace (s : Session) (time : String) (p : Program) (t : Trace) : Session :=
  let traced : Session := { s with program := some p, trace := some t }
  match t.fault with
  | some fault => traced.note time .error (Trace.faultText fault)
  | none => traced

/-- Traces a source text; a source that cannot be read leaves no steps. -/
def run (s : Session) (time source : String) : Session × Option ParseError :=
  let scan := Token.scan source
  let fresh : Session :=
    { settings := s.settings
      source := source
      tokens := scan.tokens
      log := scan.skipped.map (skippedEntry time) }
  match parse scan.tokens with
  | .error e => (fresh.note time .error e.message, some e)
  | .ok p => (fresh.withTrace time p (p.trace source scan.tokens s.settings), none)

/-! ## Moving -/

/-- The step at the position. -/
def step? (s : Session) : Option Step :=
  s.steps[s.position]?

/-- Moves to a step; an index outside the steps is ignored. -/
def goTo (s : Session) (index : Int) : Session :=
  if 0 ≤ index ∧ index < s.steps.length then { s with position := index.toNat } else s

/-- Moves to the first step. -/
def first (s : Session) : Session :=
  s.goTo 0

/-- Moves one step back. -/
def previous (s : Session) : Session :=
  s.goTo (s.position - 1)

/-- Moves one step on. -/
def next (s : Session) : Session :=
  s.goTo (s.position + 1)

/-- Moves to the last step. -/
def last (s : Session) : Session :=
  s.goTo (s.steps.length - 1)

/-- Is there no later step? -/
def atEnd (s : Session) : Bool :=
  s.steps.isEmpty || s.position + 1 == s.steps.length

/-- The state after the step with an index, by default the one at the position. -/
def stateAt (s : Session) (index : Option Int) : Except Fault State :=
  replay s.steps (some (index.getD s.position)) s.settings.heapBase

/-! ## Export -/

/-- The session as a document. -/
def document (s : Session) : Document :=
  .object
    [("category",
        match s.trace.bind Trace.category with
        | some c => .text c.text
        | none => .null),
      ("steps", .list (s.steps.map Step.document)),
      ("errors", .list (s.log.map LogEntry.document))]

/-- Is there room for the spaces of one level? -/
def roomForIndent : Option Int → Except Fault Unit
  | none => .ok ()
  | some spaces => Capacity.roomForCopies .outOfRange 1 spaces

/-- The session as text, on one line or with so many spaces for each level. -/
def exported (s : Session) (indent : Option Int) : Except Fault String := do
  roomForIndent indent
  return s.document.render indent

end Session

end Stepwise
