/-
Sessions and their histories.

A session is used in any order: sources are traced, read or not, the position is
moved, something is logged, states are asked for. Two things hold whatever was
done before.

The position is that of a step. A session without steps stands at 0, every other
one below the number of its steps; a run starts over at 0, whether or not it
comes to a trace, and a move either goes to an index of a step or stays. Each
operation keeps this (`perform_placed`), so every history does.

A run forgets. It builds its session from the settings alone, which no operation
changes (`perform_settings`), so what a run leaves depends on the source and the
settings only, the times in the log apart. What it logs is said by `problem?`:
the characters that were passed over, and then the problem, if there is one.
-/
import Stepwise.Proofs.Replay

set_option autoImplicit false

namespace Stepwise

/-! ## Histories -/

/-- What is done with a session. -/
inductive Session.Operation where
  /-- A source text is traced at some time. -/
  | run (time source : String)
  /-- To the first step. -/
  | first
  /-- One step back. -/
  | previous
  /-- One step on. -/
  | next
  /-- To the last step. -/
  | last
  /-- To the step with an index. -/
  | goTo (index : Int)
  /-- Everything is forgotten. -/
  | reset
  /-- Something is logged at some time. -/
  | note (time : String) (severity : Severity) (message : String)
  /-- The state after a step is asked for. -/
  | stateAt (index : Option Int)

/-- An entry of the log without its time. -/
def LogEntry.content (e : LogEntry) : Severity × String :=
  (e.severity, e.message)

namespace Session

/-- The session after an operation. A run that cannot read its source leaves a session too, and
asking for a state leaves the session as it is. -/
def perform (s : Session) : Operation → Session
  | .run time source => (s.run time source).1
  | .first => s.first
  | .previous => s.previous
  | .next => s.next
  | .last => s.last
  | .goTo index => s.goTo index
  | .reset => s.reset
  | .note time severity message => s.note time severity message
  | .stateAt _ => s

/-- The session that a history leads to. -/
def after (settings : Settings) (history : List Operation) : Session :=
  history.foldl perform { settings := settings }

/-- A condition on sessions that every operation keeps holds after every history. -/
theorem after_induction {P : Session → Prop} {settings : Settings}
    (hfresh : P { settings := settings }) (hstep : ∀ s op, P s → P (s.perform op))
    (history : List Operation) : P (after settings history) := by
  have key : ∀ (ops : List Operation) (s : Session), P s → P (ops.foldl perform s) := by
    intro ops
    induction ops with
    | nil => exact fun s hs => hs
    | cons op ops ih => exact fun s hs => ih _ (hstep s op hs)
  exact key history _ hfresh

/-! ## The position -/

/-- The position is 0 where there are no steps, and that of a step otherwise. -/
structure Placed (s : Session) : Prop where
  without : s.steps = [] → s.position = 0
  among : s.steps ≠ [] → s.position < s.steps.length

namespace Placed

variable {s s' : Session}

/-- Every session that stands at 0 is placed. -/
theorem of_zero (h : s.position = 0) : s.Placed where
  without _ := h
  among hne := by
    rw [h]
    exact List.length_pos_iff.2 hne

/-- Only the steps and the position matter. -/
theorem congr (h : s.Placed) (hsteps : s'.steps = s.steps) (hposition : s'.position = s.position) :
    s'.Placed where
  without hnil := by
    rw [hposition]
    exact h.without (hsteps ▸ hnil)
  among hne := by
    rw [hposition, hsteps]
    exact h.among (hsteps ▸ hne)

/-- A move keeps the position among the steps, wherever it wants to go. -/
theorem goTo (h : s.Placed) (index : Int) : (s.goTo index).Placed := by
  unfold Session.goTo
  split
  · next hindex =>
    -- the index is that of a step, so there are steps
    have hlt : index.toNat < s.steps.length := by omega
    refine ⟨fun hnil => ?_, fun _ => hlt⟩
    have hnil' : s.steps = [] := hnil
    rw [hnil', List.length_nil] at hlt
    omega
  · exact h

/-- There is a step at the position exactly if there are steps. -/
theorem step?_isSome (h : s.Placed) : s.step?.isSome ↔ s.steps ≠ [] := by
  unfold Session.step?
  constructor
  · intro hsome hnil
    rw [hnil, List.getElem?_nil] at hsome
    cases hsome
  · intro hne
    rw [List.getElem?_eq_getElem (h.among hne)]
    rfl

end Placed

/-! ## What a run leaves -/

/-- What is wrong with a source, if it cannot be read or its trace has no steps of a script. -/
def problem? (settings : Settings) (source : String) : Option String :=
  match parse (tokenize source) with
  | .error e => some e.message
  | .ok p => (p.trace source (tokenize source) settings).fault.map Trace.faultText

theorem problem?_isSome_iff (settings : Settings) (source : String) :
    (problem? settings source).isSome ↔
      (∃ e, parse (tokenize source) = .error e) ∨
      ∃ p, parse (tokenize source) = .ok p ∧
        (p.trace source (tokenize source) settings).ok = false := by
  unfold problem? Trace.ok
  cases parse (tokenize source) with
  | error e => simp
  | ok p => cases hfault : (p.trace source (tokenize source) settings).fault <;> simp [hfault]

/-- What two sessions have in common that differ at most in the times of their logs. -/
structure Alike (s s' : Session) : Prop where
  settings : s.settings = s'.settings
  source : s.source = s'.source
  tokens : s.tokens = s'.tokens
  program : s.program = s'.program
  trace : s.trace = s'.trace
  position : s.position = s'.position
  log : s.log.map LogEntry.content = s'.log.map LogEntry.content

theorem Alike.steps {s s' : Session} (h : Alike s s') : s.steps = s'.steps := by
  unfold Session.steps
  rw [h.trace]

variable (s s' : Session) (time time' source : String)

theorem withTrace_log (p : Program) (t : Trace) :
    (s.withTrace time p t).log
      = s.log ++ (t.fault.map Trace.faultText).toList.map (⟨.error, ·, time⟩) := by
  unfold withTrace
  dsimp only
  split
  · next hfault => rw [hfault]; rfl
  · next hfault => rw [hfault]; exact (List.append_nil _).symm

theorem withTrace_position (p : Program) (t : Trace) :
    (s.withTrace time p t).position = s.position := by
  unfold withTrace
  dsimp only
  split <;> rfl

/-- The log of a run: a warning for each character that was passed over, and the problem. -/
theorem run_log :
    (s.run time source).1.log
      = (Token.scan source).skipped.map (skippedEntry time)
        ++ (problem? s.settings source).toList.map (⟨.error, ·, time⟩) := by
  unfold run problem? tokenize
  dsimp only
  cases parse (Token.scan source).tokens with
  | error e => rfl
  | ok p => exact withTrace_log _ _ _ _

variable {s s'} in
/-- Logging the same at different times makes no difference. -/
theorem Alike.note (h : Alike s s') (severity : Severity) (message : String) :
    Alike (s.note time severity message) (s'.note time' severity message) where
  settings := h.settings
  source := h.source
  tokens := h.tokens
  program := h.program
  trace := h.trace
  position := h.position
  log := by
    unfold Session.note
    rw [List.map_append, List.map_append, h.log]
    rfl

variable {s s'} in
theorem Alike.withTrace (h : Alike s s') (p : Program) (t : Trace) :
    Alike (s.withTrace time p t) (s'.withTrace time' p t) := by
  have htraced : Alike { s with program := some p, trace := some t }
      { s' with program := some p, trace := some t } :=
    ⟨h.settings, h.source, h.tokens, rfl, rfl, h.position, h.log⟩
  unfold Session.withTrace
  dsimp only
  split
  · exact htraced.note time time' _ _
  · exact htraced

/-- **A run of one session is that of another with the same settings.** -/
theorem run_alike (h : s.settings = s'.settings) :
    (s.run time source).2 = (s'.run time' source).2 ∧
      Alike (s.run time source).1 (s'.run time' source).1 := by
  have hwarned : ((Token.scan source).skipped.map (skippedEntry time)).map LogEntry.content
      = ((Token.scan source).skipped.map (skippedEntry time')).map LogEntry.content := by
    rw [List.map_map, List.map_map]
    rfl
  -- the two sessions before the source is read
  have hfresh : Alike
      { settings := s'.settings, source, tokens := (Token.scan source).tokens,
        log := (Token.scan source).skipped.map (skippedEntry time) }
      { settings := s'.settings, source, tokens := (Token.scan source).tokens,
        log := (Token.scan source).skipped.map (skippedEntry time') } :=
    ⟨rfl, rfl, rfl, rfl, rfl, rfl, hwarned⟩
  unfold run
  dsimp only
  rw [h]
  split
  · exact ⟨rfl, hfresh.note time time' _ _⟩
  · exact ⟨rfl, hfresh.withTrace time time' _ _⟩

/-- A source that cannot be read leaves neither a program nor a trace. -/
theorem run_of_error {e : ParseError} (h : (s.run time source).2 = some e) :
    (s.run time source).1.program = none ∧ (s.run time source).1.trace = none := by
  revert h
  unfold run
  dsimp only
  cases parse (Token.scan source).tokens with
  | error e' => exact fun _ => ⟨rfl, rfl⟩
  | ok p => exact fun h => nomatch h

theorem run_settings : (s.run time source).1.settings = s.settings := by
  unfold run
  dsimp only
  split
  · rfl
  · exact (withTrace_trace _ time _ _).2

theorem run_position : (s.run time source).1.position = 0 := by
  unfold run
  dsimp only
  split
  · rfl
  · exact withTrace_position _ time _ _

/-! ## One operation -/

theorem goTo_settings (index : Int) : (s.goTo index).settings = s.settings := by
  unfold goTo
  split <;> rfl

variable {s}

/-- Every operation keeps the position among the steps. -/
theorem perform_placed (op : Operation) (h : s.Placed) : (s.perform op).Placed := by
  cases op with
  | run time source => exact .of_zero (run_position s time source)
  | first => exact h.goTo _
  | previous => exact h.goTo _
  | next => exact h.goTo _
  | last => exact h.goTo _
  | goTo index => exact h.goTo index
  | reset => exact .of_zero rfl
  | note time severity message => exact h.congr rfl rfl
  | stateAt index => exact h

/-- No operation changes the settings. -/
theorem perform_settings (op : Operation) : (s.perform op).settings = s.settings := by
  cases op with
  | run time source => exact run_settings s time source
  | first => exact goTo_settings s _
  | previous => exact goTo_settings s _
  | next => exact goTo_settings s _
  | last => exact goTo_settings s _
  | goTo index => exact goTo_settings s index
  | reset => rfl
  | note time severity message => rfl
  | stateAt index => rfl

/-! ## Whole histories -/

variable (settings : Settings) (history : List Operation)

theorem after_placed : (after settings history).Placed :=
  after_induction (.of_zero rfl) (fun _ op h => perform_placed op h) history

theorem after_settings : (after settings history).settings = settings :=
  after_induction (P := fun s => s.settings = settings) rfl
    (fun _ op h => (perform_settings op).trans h) history

/-- The histories lead to the sessions that can be reached. -/
theorem after_reached : (after settings history).Reached := by
  refine after_induction (.fresh settings) ?_ history
  intro s op h
  cases op with
  | run time source => exact h.run time source
  | first => exact h.goTo _
  | previous => exact h.goTo _
  | next => exact h.goTo _
  | last => exact h.goTo _
  | goTo index => exact h.goTo index
  | reset => exact h.reset
  | note time severity message => exact h.note time severity message
  | stateAt index => exact h

/-- **A session forgets its history, except for its position among the steps.** After every history
the position is 0 if there are no steps and that of a step otherwise, so that there is a step to
show exactly if there are steps; and the state after every index can be shown. And a run is that of a
new session with the same settings: the same tokens, program, trace, steps and position, the same
refusal of the source, and the same log, the times apart. The log has a warning for each character
that was passed over, in order, and then an error, if the source cannot be read or its trace has no
steps of a script. A source that cannot be read leaves no program, no trace and no steps. -/
theorem runs_forget_their_history :
    ((after settings history).steps = [] → (after settings history).position = 0) ∧
    ((after settings history).steps ≠ [] →
      (after settings history).position < (after settings history).steps.length) ∧
    ((after settings history).step?.isSome ↔ (after settings history).steps ≠ []) ∧
    (∀ index, ∃ state, (after settings history).stateAt index = .ok state) ∧
    ∀ time time' source : String,
      let used := (after settings history).run time source
      let fresh := Session.run { settings := settings } time' source
      used.2 = fresh.2 ∧
      Alike used.1 fresh.1 ∧
      used.1.steps = fresh.1.steps ∧
      used.1.position = 0 ∧
      used.1.log = (Token.scan source).skipped.map (skippedEntry time)
        ++ (problem? settings source).toList.map (⟨.error, ·, time⟩) ∧
      ((problem? settings source).isSome ↔
        (∃ e, parse (tokenize source) = .error e) ∨
        ∃ p, parse (tokenize source) = .ok p ∧
          (p.trace source (tokenize source) settings).ok = false) ∧
      ∀ e, used.2 = some e →
        used.1.steps = [] ∧ used.1.program = none ∧ used.1.trace = none := by
  have hplaced := after_placed settings history
  have hsettings := after_settings settings history
  refine ⟨hplaced.without, hplaced.among, hplaced.step?_isSome,
    (after_reached settings history).traced.stateAt, ?_⟩
  intro time time' source
  obtain ⟨hrefused, halike⟩ := run_alike (after settings history) { settings := settings }
    time time' source hsettings
  refine ⟨hrefused, halike, halike.steps, run_position _ time source, ?_,
    problem?_isSome_iff settings source, ?_⟩
  · rw [run_log, hsettings]
  · intro e he
    obtain ⟨hprogram, htrace⟩ := run_of_error _ time source he
    refine ⟨?_, hprogram, htrace⟩
    unfold steps
    rw [htrace]

end Session

end Stepwise
