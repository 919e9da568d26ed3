/-
A trace can be replayed, and the replay is what the machine did.

The machine applies every step to its state as it emits it, and a step that
contradicts the state stops the run, so no step is ever emitted after one that
was applied in part. The invariant of a run is that the emitted steps make the
machine's state out of an empty one, and that the states noted in the journal are
those that the prefixes of the steps make; every tick keeps it.

A trace puts a step without a change before and after these, and a run that
fails is replaced by steps without changes. So every prefix of every trace can be
replayed, and a session can show the state after any step.
-/
import Stepwise.Proofs.Record
import Stepwise.Session

set_option autoImplicit false

namespace Stepwise

/-! ## Replaying -/

theorem replayFrom_append (s : State) (xs ys : List Step) :
    replayFrom s (xs ++ ys) = (replayFrom s xs >>= fun t => replayFrom t ys) := by
  induction xs generalizing s with
  | nil => rfl
  | cons step xs ih =>
    rw [List.cons_append, replayFrom, replayFrom]
    cases s.apply step with
    | error e => rfl
    | ok s' => exact ih s'

theorem replayFrom_append_singleton {s t : State} {steps : List Step} {step : Step}
    (h : replayFrom s steps = .ok t) {u : State} (happly : t.apply step = .ok u) :
    replayFrom s (steps ++ [step]) = .ok u := by
  rw [replayFrom_append, h]
  show replayFrom t [step] = .ok u
  rw [replayFrom, happly]
  rfl

/-- What can be replayed as a whole can be replayed up to any point. -/
theorem replayFrom_take {s t : State} {steps : List Step} (h : replayFrom s steps = .ok t)
    (n : Nat) : ∃ u, replayFrom s (steps.take n) = .ok u := by
  rw [← List.take_append_drop n steps, replayFrom_append] at h
  obtain ⟨u, hu, _⟩ := bind_eq_ok.1 h
  exact ⟨u, hu⟩

/-- A step without a change leaves the state as it is. -/
theorem State.apply_of_no_change (s : State) {step : Step} (h : step.delta = {}) :
    s.apply step = .ok s := by
  rw [State.apply, h]
  show Except.ok { s with console := s.console ++ "" } = .ok s
  rw [String.append_empty]

theorem replayFrom_of_no_change (s : State) {steps : List Step}
    (h : ∀ step ∈ steps, step.delta = {}) : replayFrom s steps = .ok s := by
  induction steps with
  | nil => rfl
  | cons step steps ih =>
    rw [replayFrom, s.apply_of_no_change (h step List.mem_cons_self)]
    exact ih fun other hother => h other (List.mem_cons_of_mem _ hother)

/-! ## Step by step -/

/-- Steps applied one after the other, with a condition on each of them, the state it meets and the
state it makes. -/
inductive Along (P : State → Step → State → Prop) (s : State) : List Step → State → Prop
  /-- No step. -/
  | nil : Along P s [] s
  /-- One step more. -/
  | snoc {steps : List Step} {step : Step} {t u : State} (h : Along P s steps t)
      (happly : t.apply step = .ok u) (hP : P t step u) : Along P s (steps ++ [step]) u

namespace Along

variable {P : State → Step → State → Prop} {s t : State} {steps : List Step}

theorem replay (h : Along P s steps t) : replayFrom s steps = .ok t := by
  induction h with
  | nil => rfl
  | snoc _ happly _ ih => exact replayFrom_append_singleton ih happly

theorem mono {Q : State → Step → State → Prop} (h : Along P s steps t)
    (hPQ : ∀ u step v, P u step v → Q u step v) : Along Q s steps t := by
  induction h with
  | nil => exact .nil
  | snoc _ happly hP ih => exact .snoc ih happly (hPQ _ _ _ hP)

/-- The condition holds of every step, where the steps before it lead. -/
theorem getElem (h : Along P s steps t) {k : Nat} {step : Step} (hk : steps[k]? = some step) :
    ∃ u v, replayFrom s (steps.take k) = .ok u ∧ replayFrom s (steps.take (k + 1)) = .ok v ∧
      P u step v := by
  induction h with
  | nil => cases hk
  | @snoc steps last u v h happly hP ih =>
    by_cases hlast : k < steps.length
    · rw [List.getElem?_append_left hlast] at hk
      rw [List.take_append_of_le_length (by omega), List.take_append_of_le_length (by omega)]
      exact ih hk
    · have hlt : k < (steps ++ [last]).length := (List.getElem?_eq_some_iff.1 hk).1
      rw [List.length_append, List.length_singleton] at hlt
      obtain rfl : k = steps.length := by omega
      rw [List.getElem?_concat_length, Option.some.injEq] at hk
      obtain rfl := hk
      rw [List.take_left, List.take_of_length_le (by simp)]
      exact ⟨u, v, h.replay, replayFrom_append_singleton h.replay happly, hP⟩

/-- A step without a change may go in front. -/
theorem cons_no_change (h : Along P s steps t) {step : Step} (hstep : step.delta = {})
    (hP : P s step s) : Along P s (step :: steps) t := by
  induction h with
  | nil => exact .snoc .nil (s.apply_of_no_change hstep) hP
  | snoc _ happly hP' ih => exact .snoc ih happly hP'

/-- The steps of a trace around those of its script. -/
theorem around (h : Along P s steps t) (hP : ∀ u step, step.delta = {} → P u step u)
    (tokens : List Token) :
    Along P s (Trace.startStep :: (steps ++ [Trace.endStep tokens])) t :=
  (Along.snoc h (t.apply_of_no_change rfl) (hP t _ rfl)).cons_no_change rfl (hP s _ rfl)

/-- What every step keeps holds along all of them. -/
theorem take {I : State → Prop} (h : Along P s steps t) (hs : I s)
    (hstep : ∀ u step v, P u step v → I u → I v) {n : Nat} {u : State}
    (hu : replayFrom s (steps.take n) = .ok u) : I u := by
  induction n generalizing u with
  | zero =>
    obtain rfl := Except.ok.inj hu
    exact hs
  | succ n ih =>
    cases hn : steps[n]? with
    | none =>
      have hle : steps.length ≤ n := List.getElem?_eq_none_iff.1 hn
      rw [List.take_of_length_le (by omega)] at hu
      rw [List.take_of_length_le hle] at ih
      exact ih hu
    | some step =>
      obtain ⟨v, w, hv, hw, hP⟩ := h.getElem hn
      obtain rfl : w = u := Except.ok.inj (hw.symm.trans hu)
      exact hstep v step w hP (ih hv)

/-- Where every step keeps a condition of states and then meets one of its own, both hold all
along. -/
theorem keeps {I : State → Prop} {Q : State → Step → Prop}
    (h : Along (fun u step v => I u → Q u step ∧ I v) s steps t) (hs : I s) :
    (∀ n, ∃ u, replayFrom s (steps.take n) = .ok u ∧ I u) ∧
      ∀ n step, steps[n]? = some step → ∃ u, replayFrom s (steps.take n) = .ok u ∧ Q u step := by
  have hkept : ∀ n u, replayFrom s (steps.take n) = .ok u → I u :=
    fun n u hu => h.take hs (fun u step v hstep hu => (hstep hu).2) hu
  constructor
  · intro n
    obtain ⟨u, hu⟩ := replayFrom_take h.replay n
    exact ⟨u, hu, hkept n u hu⟩
  · intro n step hn
    obtain ⟨u, v, hu, _, hstep⟩ := h.getElem hn
    exact ⟨u, hu, (hstep (hkept n u hu)).1⟩

end Along

/-! ## The invariant of a run -/

/-- The state after an emitted step. -/
def Event.state? : Event → Option State
  | emitted _ state => some state
  | printed .. | wrote .. => none

/-- The states after the emitted steps, as the journal notes them, in order. -/
def Machine.emittedStates (m : Machine) : List State :=
  m.journal.reverse.filterMap Event.state?

/-- The emitted steps make the machine's state, and their prefixes make the states in the journal. -/
structure Machine.Replayable (settings : Settings) (m : Machine) : Prop where
  replay : replayFrom { heapBase := settings.heapBase } m.steps.toList = .ok m.state
  length : m.emittedStates.length = m.steps.size
  emitted : ∀ k state, m.emittedStates[k]? = some state →
    replayFrom { heapBase := settings.heapBase } (m.steps.toList.take (k + 1)) = .ok state

theorem Machine.replayable_start (settings : Settings) :
    (Machine.start settings).Replayable settings where
  replay := rfl
  length := rfl
  emitted k state h := by cases h

namespace Machine.Replayable

variable {settings : Settings} {m m' : Machine}

theorem congr (hm : m.Replayable settings) (hstate : m'.state = m.state)
    (hsteps : m'.steps = m.steps) (hemitted : m'.emittedStates = m.emittedStates) :
    m'.Replayable settings := by
  refine ⟨?_, ?_, ?_⟩
  · rw [hstate, hsteps]
    exact hm.replay
  · rw [hemitted, hsteps]
    exact hm.length
  · rw [hemitted, hsteps]
    exact hm.emitted

/-- A step that is emitted is applied as a whole: the state after it is what the steps so far and
this one make. -/
theorem emit {kind : StepKind} {line : Int} {description : String} {delta : Delta}
    (hm : m.Replayable settings) (h : m.emit kind line description delta = .ok m') :
    m'.Replayable settings := by
  obtain ⟨state, happly, rfl⟩ := Machine.emit_eq_ok.1 h
  have hreplay : replayFrom { heapBase := settings.heapBase }
      (m.steps.toList ++ [m.nextStep kind line description delta]) = .ok state :=
    replayFrom_append_singleton hm.replay happly
  have hstates : emittedStates { m.flushed with
      state := state
      steps := m.steps.push (m.nextStep kind line description delta)
      journal := .emitted delta state :: m.journal } = m.emittedStates ++ [state] := by
    simp [emittedStates, Event.state?]
  refine ⟨?_, ?_, ?_⟩
  · rw [Array.toList_push]
    exact hreplay
  · rw [hstates, List.length_append, hm.length, Array.size_push]
    rfl
  · intro k s hk
    rw [hstates] at hk
    rw [Array.toList_push]
    -- the states emitted before are those of shorter prefixes
    by_cases hlast : k < m.emittedStates.length
    · rw [List.getElem?_append_left hlast] at hk
      rw [List.take_append_of_le_length]
      · exact hm.emitted k s hk
      · rw [Array.length_toList, ← hm.length]
        omega
    · -- the new step is the last one
      have hle : m.emittedStates.length ≤ k := by omega
      rw [List.getElem?_append_right hle] at hk
      obtain rfl : k = m.steps.size := by
        have hk' : k - m.emittedStates.length < [state].length := by
          obtain ⟨hlt, _⟩ := List.getElem?_eq_some_iff.1 hk
          exact hlt
        rw [List.length_singleton] at hk'
        have hlength := hm.length
        omega
      rw [hm.length, Nat.sub_self, List.getElem?_cons_zero, Option.some.injEq] at hk
      rw [List.take_of_length_le (by simp), ← hk]
      exact hreplay

end Machine.Replayable

/-- A tick keeps the invariant. -/
theorem Tick.replayable {P : Delta → Prop} {settings : Settings} {m m' : Machine}
    (h : Tick P m m') (hm : m.Replayable settings) : m'.Replayable settings := by
  cases h with
  | emit kind line description _ h => exact hm.emit h
  | write address value h =>
    obtain ⟨a, _, _, rfl⟩ := Machine.write_eq_ok.1 h
    exact hm.congr rfl rfl (by simp [Machine.emittedStates, Event.state?])
  | print text => exact hm.congr rfl rfl (by simp [Machine.emittedStates, Machine.print, Event.state?])
  | quiet h =>
    obtain ⟨hstate, hsteps, _, _, hjournal⟩ := h
    exact hm.congr hstate hsteps (by rw [Machine.emittedStates, hjournal]; rfl)

/-- So does every sequence of ticks. -/
theorem Ticks.replayable {P : Delta → Prop} {settings : Settings} {m m' : Machine}
    (h : Ticks P m m') (hm : m.Replayable settings) : m'.Replayable settings := by
  induction h with
  | refl => exact hm
  | tail _ htick ih => exact htick.replayable ih

/-! ## Traces -/

/-- **A script's steps make the state it ends with, and their prefixes the states in between.** -/
theorem play_replayable {setup : Setup} {category : Category} {u : Unit} {m : Machine}
    (h : category.play setup (Machine.start setup.settings) = .ok (u, m)) :
    m.Replayable setup.settings :=
  (play_ticks h).replayable (Machine.replayable_start setup.settings)

/-- The steps of a trace around those of its script. -/
theorem replayFrom_around {s t : State} {tokens : List Token} {body : List Step}
    (h : replayFrom s body = .ok t) :
    replayFrom s (Trace.startStep :: (body ++ [Trace.endStep tokens])) = .ok t := by
  rw [replayFrom, s.apply_of_no_change rfl]
  exact replayFrom_append_singleton h (t.apply_of_no_change rfl)

theorem replay_failed (settings : Settings) (tokens : List Token) (category : Option Category)
    (fault : Fault) :
    replay (Trace.failed settings tokens category fault).steps none settings.heapBase
      = .ok (Trace.failed settings tokens category fault).state := by
  refine replayFrom_of_no_change _ ?_
  intro step hstep
  simp only [Trace.failed, stepsUpTo, List.mem_cons, List.not_mem_nil, or_false] at hstep
  rcases hstep with rfl | rfl | rfl <;> rfl

/-- **The steps of a trace make its state.** -/
theorem replay_trace (p : Program) (source : String) (tokens : List Token) (settings : Settings) :
    replay (p.trace source tokens settings).steps none settings.heapBase
      = .ok (p.trace source tokens settings).state := by
  unfold Program.trace
  split
  · exact replay_failed _ _ _ _
  · dsimp only
    split
    · exact replay_failed _ _ _ _
    · next hplay => exact replayFrom_around (play_replayable hplay).replay

theorem Trace.ofSteps_eq {settings : Settings} {t : Trace}
    (h : replay t.steps none settings.heapBase = .ok t.state) :
    Trace.ofSteps settings t.steps t.category t.fault = .ok t := by
  rw [Trace.ofSteps, h]
  rfl

/-- Making the state from the steps never fails, and makes no difference. -/
theorem replayedTrace_eq (p : Program) (source : String) (tokens : List Token)
    (settings : Settings) :
    p.replayedTrace source tokens settings = .ok (p.trace source tokens settings) := by
  have hreplay := replay_trace p source tokens settings
  unfold Program.trace at hreplay
  unfold Program.replayedTrace Program.trace
  cases ha : analyze p source tokens with
  | error fault =>
    rw [ha] at hreplay
    exact Trace.ofSteps_eq hreplay
  | ok analysis =>
    rw [ha] at hreplay
    dsimp only at hreplay ⊢
    cases hplay : analysis.category.play { analysis, settings } (Machine.start settings) with
    | error fault =>
      rw [hplay] at hreplay
      exact Trace.ofSteps_eq hreplay
    | ok result =>
      rw [hplay] at hreplay
      exact Trace.ofSteps_eq hreplay

/-- The characters of the source in lower case, without a text in between. -/
theorem Analysis.lowered_eq {a : Analysis} {chars : List Char}
    (h : a.source = String.ofList chars) : a.lowered = Text.lowerFrom [] chars := by
  rw [lowered, Text.lower, String.toList_ofList, h, String.toList_ofList]

/-- The trace of a program that has been analyzed, by what it is about. -/
theorem Program.trace_of_category {p : Program} {source : String} {tokens : List Token}
    {settings : Settings} {analysis : Analysis} {category : Category}
    (ha : analyze p source tokens = .ok analysis) (hcategory : analysis.category = category) :
    p.trace source tokens settings =
      match category.play { analysis, settings } (Machine.start settings) with
      | .error fault => Trace.failed settings tokens (some category) fault
      | .ok (_, m) => Trace.completed tokens category m := by
  unfold Program.trace
  rw [ha]
  subst hcategory
  rfl

/-- The trace of a program whose script came to its end. -/
theorem trace_of_play {p : Program} {source : String} {tokens : List Token} {settings : Settings}
    {analysis : Analysis} (ha : analyze p source tokens = .ok analysis) {u : Unit} {m : Machine}
    (h : analysis.category.play { analysis, settings } (Machine.start settings) = .ok (u, m)) :
    p.trace source tokens settings = Trace.completed tokens analysis.category m := by
  rw [Program.trace_of_category ha rfl, h]

theorem Program.analyze_of_trace_ok {p : Program} {source : String} {tokens : List Token}
    {settings : Settings} (hok : (p.trace source tokens settings).ok = true) :
    ∃ analysis, analyze p source tokens = .ok analysis := by
  cases ha : analyze p source tokens with
  | ok analysis => exact ⟨analysis, rfl⟩
  | error fault =>
    unfold Program.trace at hok
    rw [ha] at hok
    cases hok

/-- A trace without a fault is that of a script that came to its end. -/
theorem Program.play_of_trace_ok {p : Program} {source : String} {tokens : List Token}
    {settings : Settings} {analysis : Analysis} (ha : analyze p source tokens = .ok analysis)
    (hok : (p.trace source tokens settings).ok = true) :
    ∃ m, analysis.category.play { analysis, settings } (Machine.start settings) = .ok ((), m) := by
  cases hplay : analysis.category.play { analysis, settings } (Machine.start settings) with
  | ok result =>
    obtain ⟨⟨⟩, m⟩ := result
    exact ⟨m, rfl⟩
  | error fault =>
    unfold Program.trace at hok
    rw [ha] at hok
    dsimp only at hok
    rw [hplay] at hok
    cases hok

/-- A condition that steps without a change satisfy holds along a whole trace, if it does along the
steps of its script. -/
theorem Program.trace_along {P : State → Step → State → Prop} {p : Program} {source : String}
    {tokens : List Token} {settings : Settings} (hP : ∀ u step, step.delta = {} → P u step u)
    (hplay : ∀ analysis u m, analyze p source tokens = .ok analysis →
      analysis.category.play { analysis, settings } (Machine.start settings) = .ok (u, m) →
      Along P { heapBase := settings.heapBase } m.steps.toList m.state) :
    ∃ t, Along P { heapBase := settings.heapBase } (p.trace source tokens settings).steps t := by
  have hfailed : ∀ fault, Along P { heapBase := settings.heapBase } [Trace.faultStep fault]
      { heapBase := settings.heapBase } :=
    fun fault => .snoc .nil (State.apply_of_no_change _ rfl) (hP _ _ rfl)
  unfold Program.trace
  cases ha : analyze p source tokens with
  | error fault => exact ⟨_, (hfailed fault).around hP tokens⟩
  | ok analysis =>
    dsimp only
    cases hrun : analysis.category.play { analysis, settings } (Machine.start settings) with
    | error fault => exact ⟨_, (hfailed fault).around hP tokens⟩
    | ok result => exact ⟨_, (hplay analysis result.1 result.2 ha hrun).around hP tokens⟩

/-- The prefix of a trace that ends at a step of its script makes the state that the machine had
right after emitting it. -/
theorem replay_completed {settings : Settings} {tokens : List Token} {category : Category}
    {m : Machine} (hm : m.Replayable settings) {k : Nat} {state : State}
    (hk : m.emittedStates[k]? = some state) :
    replay (Trace.completed tokens category m).steps (some (k + 1)) settings.heapBase
      = .ok state := by
  obtain ⟨hlt, _⟩ := List.getElem?_eq_some_iff.1 hk
  rw [hm.length] at hlt
  have hindex : ((k + 1 : Int) + 1).toNat = k + 1 + 1 := by omega
  show replayFrom _ ((Trace.startStep :: (m.steps.toList ++ [Trace.endStep tokens])).take
    ((k + 1 : Int) + 1).toNat) = _
  rw [hindex, List.take_succ_cons, replayFrom, State.apply_of_no_change _ rfl,
    List.take_append_of_le_length (by rw [Array.length_toList]; omega)]
  exact hm.emitted k state hk

/-! ## Sessions -/

/-- The sessions that their operations lead to. -/
inductive Session.Reached : Session → Prop
  /-- A new session. -/
  | fresh (settings : Settings) : Reached { settings := settings }
  /-- A source is traced, or cannot be read. -/
  | run {s : Session} (time source : String) (h : Reached s) : Reached (s.run time source).1
  /-- The position moves; the other moves are moves to an index. -/
  | goTo {s : Session} (index : Int) (h : Reached s) : Reached (s.goTo index)
  /-- Something is logged. -/
  | note {s : Session} (time : String) (severity : Severity) (message : String) (h : Reached s) :
      Reached (s.note time severity message)
  /-- Everything is forgotten. -/
  | reset {s : Session} (h : Reached s) : Reached s.reset

/-- The trace of a session is that of a program under the session's settings. -/
def Session.Traced (s : Session) : Prop :=
  ∀ t, s.trace = some t → ∃ p source tokens, t = Program.trace p source tokens s.settings

theorem Session.withTrace_trace (s : Session) (time : String) (p : Program) (t : Trace) :
    (s.withTrace time p t).trace = some t ∧ (s.withTrace time p t).settings = s.settings := by
  unfold Session.withTrace
  dsimp only
  split <;> exact ⟨rfl, rfl⟩

theorem Session.traced_run (s : Session) (time source : String) : (s.run time source).1.Traced := by
  unfold Session.run
  dsimp only
  split
  · intro t ht
    cases ht
  · next p _ =>
    intro t ht
    dsimp only at ht ⊢
    rw [(Session.withTrace_trace _ _ _ _).1, Option.some.injEq] at ht
    rw [(Session.withTrace_trace _ _ _ _).2]
    exact ⟨p, source, _, ht.symm⟩

theorem Session.Reached.traced {s : Session} (h : s.Reached) : s.Traced := by
  induction h with
  | fresh settings =>
    intro t ht
    cases ht
  | run time source _ _ => exact Session.traced_run _ time source
  | goTo index _ ih =>
    unfold Session.goTo
    split
    · exact ih
    · exact ih
  | note time severity message _ ih => exact ih
  | reset _ _ =>
    intro t ht
    cases ht

/-- A session can show the state after every step, and after any other index. -/
theorem Session.Traced.stateAt {s : Session} (h : s.Traced) (index : Option Int) :
    ∃ state, s.stateAt index = .ok state := by
  unfold Session.stateAt Session.steps
  cases ht : s.trace with
  | none => exact ⟨_, by rw [replay, stepsUpTo, List.take_nil]; rfl⟩
  | some t =>
    obtain ⟨p, source, tokens, rfl⟩ := h t ht
    exact replayFrom_take (replay_trace p source tokens s.settings) _

/-! ## The main result -/

/-- **Every trace can be replayed, and the replay is what the machine did.** Making a trace never
fails, although its state is made from its steps; every prefix of the steps can be replayed; if the
script came to its end, the state of the trace is the one the machine ended with, and the prefix
that ends at the `k`-th step that the script emitted makes the state the machine had right after
emitting it; and a session can show the state after any index at any time. -/
theorem trace_replays_the_run (p : Program) (source : String) (tokens : List Token)
    (settings : Settings) :
    p.replayedTrace source tokens settings = .ok (p.trace source tokens settings) ∧
    (∀ n, ∃ state, replayFrom { heapBase := settings.heapBase }
      ((p.trace source tokens settings).steps.take n) = .ok state) ∧
    (∀ analysis m, analyze p source tokens = .ok analysis →
      analysis.category.play { analysis, settings } (Machine.start settings) = .ok ((), m) →
      (p.trace source tokens settings).state = m.state ∧
      (p.trace source tokens settings).steps.length = m.emittedStates.length + 2 ∧
      ∀ (k : Nat) state, m.emittedStates[k]? = some state →
        replay (p.trace source tokens settings).steps (some (k + 1)) settings.heapBase
          = .ok state) ∧
    (∀ s : Session, s.Reached → ∀ index, ∃ state, s.stateAt index = .ok state) := by
  refine ⟨replayedTrace_eq p source tokens settings,
    replayFrom_take (replay_trace p source tokens settings), ?_, fun s hs => hs.traced.stateAt⟩
  intro analysis m ha hplay
  have hm : m.Replayable settings := play_replayable hplay
  rw [trace_of_play ha hplay]
  refine ⟨rfl, ?_, fun k state hk => replay_completed hm hk⟩
  rw [hm.length]
  simp [Trace.completed]

end Stepwise
