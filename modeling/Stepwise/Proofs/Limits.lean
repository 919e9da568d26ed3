/-
Limits that cut nothing short.

The settings bound how many calls may be active and how many iterations a loop may
have. A call over the first limit is a fault. A loop that reaches the second one is
left with a warning, and the execution goes on as if it had ended; the sequence of
an allocation shows no more elements than that limit, and warns as well.

So the limits are observed only where a fault or a warning says so. The likeness
that is used here relates two computations if the second one does what the first
does, whenever the first comes to an end and its record has no such warning. Steps
are only added to the record, so it had none before, and the likeness goes through
from the end of an execution to its beginning.
-/
import Stepwise.Proofs.Replay
import Stepwise.Proofs.Tags
import Stepwise.Syntax.Equality
import Mathlib.Data.List.Permutation

set_option autoImplicit false

namespace Stepwise

/-- The step says that a loop reached the limit of the settings, perhaps after other notes. -/
def Step.CutsLoop (settings : Settings) (step : Step) : Prop :=
  step.kind = .warning ∧ (loopWarning settings).toList <:+ step.description.toList

/-- The second settings differ only in limits that are not lower. -/
structure Settings.Within (s t : Settings) : Prop where
  stackBase : t.stackBase = s.stackBase
  heapBase : t.heapBase = s.heapBase
  keyboard : t.keyboard = s.keyboard
  calls : s.maxCallDepth ≤ t.maxCallDepth
  iterations : s.maxLoopIterations ≤ t.maxLoopIterations

/-! ## Tracking -/

/-- No step so far says that a loop reached the limit. -/
def Machine.Uncut (settings : Settings) (m : Machine) : Prop :=
  ∀ step ∈ m.steps.toList, ¬step.CutsLoop settings

theorem Machine.Uncut.before {settings : Settings} {P : Delta → Prop} {m m' : Machine}
    (h : m'.Uncut settings) (hticks : Ticks P m m') : m.Uncut settings :=
  fun step hstep => h step (hticks.steps_extend.subset hstep)

/-- The second computation does what the first does, whenever the first comes to an end without a
warning that a loop reached the limit. -/
def Likeness.tracking (settings : Settings) : Likeness Machine where
  rel c d := ∀ m a m', c m = .ok (a, m') → m'.Uncut settings →
    d m = .ok (a, m') ∧ m.Uncut settings
  pure a m b m' h hm' := by
    obtain ⟨rfl, rfl⟩ := Eval.pure_eq_ok.1 h
    exact ⟨h, hm'⟩
  fail _ _ _ _ _ h := absurd h Eval.fail_ne_ok
  bind hc hk m b m' h hm' := by
    obtain ⟨a, m₁, h₁, h₂⟩ := Eval.bind_eq_ok.1 h
    obtain ⟨hl, hm₁⟩ := hk a m₁ b m' h₂ hm'
    obtain ⟨hd, hm⟩ := hc m a m₁ h₁ hm₁
    exact ⟨Eval.bind_eq_ok.2 ⟨a, m₁, hd, hl⟩, hm⟩

variable {settings : Settings}

/-- A computation that only adds to the record tracks itself. -/
theorem tracks_self {α : Type} {c : Run α} (h : Follows (Ticks anyChange) c) :
    (Likeness.tracking settings).rel c c :=
  fun m a m' hm hm' => ⟨hm, hm'.before (h m a m' hm)⟩

/-! ## Warnings -/

/-- A text stays at the end of what is put in front of it. -/
theorem suffix_intercalate (separator : List Char) (texts : List (List Char)) (last : List Char) :
    last <:+ separator.intercalate (texts ++ [last]) := by
  induction texts with
  | nil =>
    simp only [List.nil_append, List.intercalate_singleton, List.suffix_rfl]
  | cons text texts ih =>
    cases texts with
    | nil =>
      show last <:+ separator.intercalate [text, last]
      rw [List.intercalate_cons_cons, List.intercalate_singleton]
      exact List.suffix_append _ _
    | cons next texts =>
      rw [List.cons_append, List.cons_append, List.intercalate_cons_cons]
      exact ih.trans (List.suffix_append _ _)

theorem Machine.suffix_fullDescription (m : Machine) {description : String}
    (h : description ≠ "") : description.toList <:+ (m.fullDescription description).toList := by
  unfold Machine.fullDescription
  split
  · exact List.suffix_rfl
  · rw [if_neg (by simpa using h), String.toList_intercalate, List.map_append]
    exact suffix_intercalate _ _ _

theorem loopWarning_ne_empty (settings : Settings) : loopWarning settings ≠ "" := by
  intro h
  have hlength := congrArg String.toList h
  unfold loopWarning at hlength
  rw [String.toList_append, String.toList_append] at hlength
  cases hlength

/-- After the warning, the record has it. -/
theorem not_uncut_of_warning {setup : Setup} {line : Int} {m m' : Machine} {u : Unit}
    (h : Run.emit setup .warning line (loopWarning setup.settings) m = .ok (u, m')) :
    ¬m'.Uncut setup.settings := by
  intro huncut
  unfold Run.emit Run.emitDelta at h
  obtain ⟨state, _, rfl⟩ := Machine.emit_eq_ok.1 (Run.attempt_eq_ok.1 h)
  refine huncut
    (m.nextStep .warning (setup.analysis.clamp line) (loopWarning setup.settings) {}) ?_
    ⟨rfl, m.suffix_fullDescription (loopWarning_ne_empty _)⟩
  show _ ∈ (m.steps.push _).toList
  rw [Array.toList_push]
  exact List.mem_append_right _ (List.mem_singleton_self _)

/-! ## Execution -/

/-- The library reads nothing of the settings but the keyboard. -/
theorem LibraryFunction.run_congr {s t : Settings} (h : t.keyboard = s.keyboard) :
    LibraryFunction.run t = LibraryFunction.run s := by
  have hvalue : Library.keyboardValue t = Library.keyboardValue s := by
    funext conversion type
    unfold Library.keyboardValue
    rw [h]
  funext f arguments
  cases f with
  | scanf =>
    show Library.scanf t arguments = Library.scanf s arguments
    unfold Library.scanf Library.scanInto
    rw [hvalue]
  | _ => rfl

/-- Placing arguments reads nothing of the settings. -/
theorem Invocation.place_congr {S T : Setup} (h : T.analysis = S.analysis) (frame : String)
    (arguments : List (Parameter × Typed)) (cells : Table Number CellPatch)
    (vars : List FrameVariable) :
    place T frame arguments cells vars = place S frame arguments cells vars := by
  induction arguments generalizing cells vars with
  | nil => rfl
  | cons head rest ih => simp only [place, h, ih]

section Execution

variable {S : Setup}

theorem tracking_acts (h : S.settings.Within settings) :
    (Likeness.tracking S.settings).Acts S (S.revised S.analysis.spare settings) where
  kindred := S.kindred_revised _ settings
  ask f _ := tracks_self (Run.ask_follows f)
  query f _ _ := tracks_self (Run.query_follows f)
  emit kind line description _ := tracks_self (emitDelta_ticks kind line description {})
  write address value := tracks_self (write_follows (R := Walks S) address value).ticks
  library f arguments := by
    show (Likeness.tracking S.settings).rel _ (LibraryFunction.run settings f arguments)
    rw [LibraryFunction.run_congr h.keyboard]
    exact tracks_self (library_follows (R := Walks S) S.settings f arguments).ticks

theorem tracking_executes (h : S.settings.Within settings) :
    (Likeness.tracking S.settings).Executes S (S.revised S.analysis.spare settings) where
  toActs := tracking_acts h
  declare name type line value description := by
    refine tracks_self ((Run.ask_follows _).bind fun frame => ?_)
    intro m address m' hm
    exact (declare_ticks hm).mono fun _ _ => trivial
  loop {line check check' body body' update update'} hcheck hbody hupdate := by
    obtain ⟨extra, hextra⟩ : ∃ extra, settings.iterations = S.settings.iterations + extra :=
      Nat.exists_eq_add_of_le (Int.toNat_le_toNat h.iterations)
    show (Likeness.tracking S.settings).rel
      (Loop.iterate S ⟨line, check, body, update⟩ S.settings.iterations)
      (Loop.iterate (S.revised S.analysis.spare settings) ⟨line, check', body', update'⟩
        settings.iterations)
    rw [hextra]
    refine Parallel.iterate_alike hcheck hbody hupdate ?_ _
    -- where no iteration is left, the first execution warns
    intro m flow m' hm huncut
    obtain ⟨_, m₁, hwarn, hdone⟩ := Eval.bind_eq_ok.1 hm
    obtain ⟨_, rfl⟩ := Eval.pure_eq_ok.1 hdone
    exact absurd huncut (not_uncut_of_warning hwarn)

theorem tracking_plays (h : S.settings.Within settings) :
    (Likeness.tracking S.settings).Plays S (S.revised S.analysis.spare settings) where
  toExecutes := tracking_executes h
  emitDelta kind line description delta :=
    tracks_self (emitDelta_ticks kind line description delta)
  activate _ := tracks_self (Run.change_follows fun _ => .single (.quiet ⟨rfl, rfl, rfl, rfl, rfl⟩))
  declareAt _ _ _ _ _ _ _ :=
    tracks_self fun _ _ _ hm => (declareAt_ticks hm).mono fun _ _ => trivial
  declareGlobal _ _ _ _ _ :=
    tracks_self fun _ _ _ hm => (declare_ticks hm).mono fun _ _ => trivial
  enter f frame arguments line := by
    have hsame : Invocation.enter (S.revised S.analysis.spare settings) f frame arguments line
        = Invocation.enter S f frame arguments line := by
      have hplace := Invocation.place_congr (S := S) (T := S.revised S.analysis.spare settings) rfl
        frame (f.named.zip arguments) [] []
      unfold Invocation.enter
      rw [hplace]
      rfl
    rw [hsame]
    exact tracks_self fun _ _ _ hm => (Invocation.enter_ticks hm).mono fun _ _ => trivial
  leave _ _ _ :=
    tracks_self fun _ _ _ hm => (Invocation.leave_ticks hm).mono fun _ _ => trivial

theorem tracking_evaluates (h : S.settings.Within settings) :
    EvaluatesAlike (Likeness.tracking S.settings) S (S.revised S.analysis.spare settings) := by
  intro call call' hcall scope e
  exact evaluate_alike (fun _ _ _ hm => absurd hm Eval.fail_ne_ok)
    (Parallel.machineHost_alike (tracking_acts h) rfl hcall) _ scope e

/-- A larger budget for calls is not observed: where the smaller one is used up, there is a
fault. -/
theorem tracking_invoke (h : S.settings.Within settings) (category : Category) (active : Nat)
    {f : Function} (hf : S.analysis.program.function? f.name = some f) (scope : Scope)
    (arguments : List Typed) (line : Nat) :
    (Likeness.tracking S.settings).rel
      (invoke S category.commentary (S.settings.calls - active) f scope arguments line)
      (invoke (S.revised S.analysis.spare settings) category.commentary (settings.calls - active) f
        scope arguments line) := by
  have hcalls : S.settings.calls ≤ settings.calls := Int.toNat_le_toNat h.calls
  obtain ⟨extra, hextra⟩ : ∃ extra, settings.calls - active
      = S.settings.calls - active + extra := Nat.exists_eq_add_of_le (by omega)
  rw [hextra]
  refine Parallel.invoke_alike (tracking_plays h)
    (Parallel.commentary_alike (tracking_executes h) category) (tracking_evaluates h) ?_ ?_ _ hf
    scope arguments line
  · intro d _ m v m' hm
    exact absurd hm Eval.fail_ne_ok
  · intro f scope arguments line m v m' hm
    exact absurd hm Eval.fail_ne_ok

theorem tracking_call (h : S.settings.Within settings) (category : Category) (active : Nat)
    (scope : Scope) (name : String) (arguments : List Typed) (line : Nat) :
    (Likeness.tracking S.settings).rel
      (callAt S category.commentary active scope name arguments line)
      (callAt (S.revised S.analysis.spare settings) category.commentary active scope name arguments
        line) :=
  Parallel.callBy_alike (tracking_acts h) fun _ hf =>
    tracking_invoke h category active (Parallel.function?_name hf) _ _ _

end Execution

/-! ## The sequence of an allocation -/

namespace Allocation

/-- More elements than the limit end with a warning. -/
theorem Stage.fillAndPrint_exceeds {s : Stage}
    (h : s.plan.exceeds s.setup.settings.maxLoopIterations = true) {m m' : Machine} {u : Unit}
    (hm : s.fillAndPrint m = .ok (u, m')) : ¬m'.Uncut s.setup.settings := by
  obtain ⟨_, _, _, hm⟩ := Eval.bind_eq_ok.1 hm
  obtain ⟨_, _, _, hm⟩ := Eval.bind_eq_ok.1 hm
  obtain ⟨_, _, _, hm⟩ := Eval.bind_eq_ok.1 hm
  obtain ⟨_, _, _, hwarn⟩ := Eval.bind_eq_ok.1 hm
  rw [Stage.warnOfLimit, if_pos h] at hwarn
  exact not_uncut_of_warning hwarn

/-- No more elements than the limit are counted out in full, under every larger limit as well. -/
theorem Plan.shownCount_of_not_exceeds {p : Plan} {limit larger : Int} {n : Nat}
    (h : p.exceeds limit = false) (hcount : p.shownCount limit = .ok n) (hle : limit ≤ larger) :
    p.exceeds larger = false ∧ p.shownCount larger = .ok n := by
  unfold Plan.exceeds at h ⊢
  unfold Plan.shownCount at hcount ⊢
  cases hp : p.count with
  | num k =>
    rw [hp] at h hcount
    dsimp only at h hcount ⊢
    rw [h] at hcount
    cases k with
    | float x o => cases hcount
    | int k =>
      rw [Number.less_int_int] at h ⊢
      have hless : decide (larger < k) = false := by
        rw [decide_eq_false_iff_not] at h ⊢
        omega
      rw [hless]
      exact ⟨rfl, hcount⟩
  | _ =>
    rw [hp] at hcount
    cases hcount

theorem fillAndPrint_tracks {s : Stage} (h : s.setup.settings.Within settings) :
    (Likeness.tracking s.setup.settings).rel s.fillAndPrint
      (s.under (s.setup.revised s.setup.analysis.spare settings)).fillAndPrint := by
  intro m u m' hm huncut
  have hexceeds : s.plan.exceeds s.setup.settings.maxLoopIterations = false := by
    cases hcase : s.plan.exceeds s.setup.settings.maxLoopIterations with
    | false => rfl
    | true => exact absurd huncut (Stage.fillAndPrint_exceeds hcase hm)
  obtain ⟨count, _, hcount, _⟩ := Eval.bind_eq_ok.1 hm
  obtain ⟨hlarger, hsame⟩ :=
    Plan.shownCount_of_not_exceeds hexceeds (Eval.lift_eq_ok.1 hcount).1 h.iterations
  suffices halike : (Likeness.tracking s.setup.settings).rel s.fillAndPrint
      (s.under (s.setup.revised s.setup.analysis.spare settings)).fillAndPrint from
    halike m u m' hm huncut
  refine Parallel.fillAndPrint_alike ?_ (fun i => ?_) ?_ (fun loop other => ?_)
  · show (Likeness.tracking s.setup.settings).rel
      (Eval.lift (s.plan.shownCount s.setup.settings.maxLoopIterations))
      (Eval.lift (s.plan.shownCount settings.maxLoopIterations))
    rw [(Eval.lift_eq_ok.1 hcount).1, hsame]
    exact Likeness.pure _ _
  · exact Parallel.fillElement_alike (tracks_self (Follows.lift _))
      fun _ _ _ _ => (tracking_plays h).emitDelta _ _ _ _
  · refine Parallel.printElement_alike (fun _ _ _ _ => (tracking_plays h).emitDelta _ _ _ _) ?_
    exact tracking_evaluates h _ _ (tracking_call h .dynamicAllocation 1)
  · have hnot : (s.under (s.setup.revised s.setup.analysis.spare settings)).warnOfLimit loop other
        = pure () := by
      unfold Stage.warnOfLimit
      exact if_neg (by rw [Bool.not_eq_true]; exact hlarger)
    rw [hnot, Stage.warnOfLimit, hexceeds]
    exact Likeness.pure _ _

end Allocation

/-! ## The main result -/

theorem script_tracks {S : Setup} (h : S.settings.Within settings) (category : Category) :
    (Likeness.tracking S.settings).rel (category.play S)
      (category.play (S.revised S.analysis.spare settings)) := by
  refine Parallel.script_alike (tracking_plays h)
    (fun category => tracking_evaluates h _ _ (tracking_call h category 0) [])
    (fun category f hf => tracking_invoke h category 0 hf []) h.keyboard h.stackBase h.heapBase
    (Parallel.Remark.directives_alike (tracking_executes h) rfl rfl)
    (Parallel.plans_alike (fun _ => rfl) fun _ fault _ => tracks_self (Follows.fail fault))
    ?_ fun _ _ _ _ _ => rfl
  rintro s rfl
  exact Allocation.fillAndPrint_tracks h

theorem trace_eq_ok {source : String} {settings : Settings} {t : Trace} :
    trace source settings = .ok t ↔
      ∃ p, parse (tokenize source) = .ok p ∧ t = p.trace source (tokenize source) settings := by
  unfold trace
  dsimp only
  cases parse (tokenize source) with
  | error e => simp
  | ok p => simp [eq_comm]

/-- **Limits only cut, and say so**: if a trace comes to its end and no step says that a loop
reached the limit, then the trace is the same under every settings with larger limits. -/
theorem larger_limits_change_nothing {source : String} {settings larger : Settings}
    (hwithin : settings.Within larger) {t : Trace} (ht : trace source settings = .ok t)
    (hok : t.ok = true) (huncut : ∀ step ∈ t.steps, ¬step.CutsLoop settings) :
    trace source larger = .ok t := by
  obtain ⟨p, hparse, rfl⟩ := trace_eq_ok.1 ht
  obtain ⟨analysis, ha⟩ := Program.analyze_of_trace_ok hok
  obtain ⟨m, hplay⟩ := Program.play_of_trace_ok ha hok
  rw [trace_of_play ha hplay] at huncut ⊢
  have hm : m.Uncut settings := fun step hstep =>
    huncut step (List.mem_cons_of_mem _ (List.mem_append_left _ hstep))
  obtain ⟨hlarger, _⟩ :=
    script_tracks (S := ⟨analysis, settings⟩) hwithin analysis.category _ _ _ hplay hm
  have hstart : Machine.start settings = Machine.start larger := by
    unfold Machine.start
    rw [hwithin.stackBase, hwithin.heapBase]
  rw [hstart] at hlarger
  exact trace_eq_ok.2 ⟨p, hparse, (trace_of_play ha hlarger).symm⟩

/-! ## A loop that needs every iteration it may have -/

namespace Exhausting

/-- A program with a loop of two iterations. -/
def source : String :=
  "int main()\x7bint i=0;while(i<2)i++;\x7d\n"

/-- Its tokens. -/
def tokens : List Token :=
  [⟨.keyword, "int", 1, 1⟩, ⟨.identifier, "main", 1, 5⟩, ⟨.punctuation, "(", 1, 9⟩,
    ⟨.punctuation, ")", 1, 10⟩, ⟨.punctuation, "\x7b", 1, 11⟩, ⟨.keyword, "int", 1, 12⟩,
    ⟨.identifier, "i", 1, 16⟩, ⟨.operator, "=", 1, 17⟩, ⟨.literal, "0", 1, 18⟩,
    ⟨.punctuation, ";", 1, 19⟩, ⟨.keyword, "while", 1, 20⟩, ⟨.punctuation, "(", 1, 25⟩,
    ⟨.identifier, "i", 1, 26⟩, ⟨.operator, "<", 1, 27⟩, ⟨.literal, "2", 1, 28⟩,
    ⟨.punctuation, ")", 1, 29⟩, ⟨.identifier, "i", 1, 30⟩, ⟨.operator, "++", 1, 31⟩,
    ⟨.punctuation, ";", 1, 33⟩, ⟨.punctuation, "\x7d", 1, 34⟩]

/-- The program. -/
def program : Program :=
  ⟨[.function
    { line := 1
      name := "main"
      returnType := .int
      parameters := []
      bodyLine := 1
      body :=
        [.decl ⟨1, .int, [⟨1, "i", 0, .none, some (.expr (.literal 1 "0"))⟩]⟩,
          .whileLoop 1 (.binary 1 (.rel .lt) (.name 1 "i") (.literal 1 "2"))
            (.expr 1 (.stepAfter 1 .increment (.name 1 "i")))] }]⟩

/-- Limits that the program just keeps to. -/
def tight : Settings :=
  { maxCallDepth := 1, maxLoopIterations := 2 }

/-- Its trace under them. -/
def traced : Trace :=
  program.trace source tokens tight

theorem tokenize_source : tokenize source = tokens :=
  Token.tokenize_of_chars rfl (by decide +kernel) (by decide)

theorem parse_tokens : parse tokens = .ok program := by
  decide +kernel

theorem trace_source : trace source tight = .ok traced :=
  trace_eq_ok.2 ⟨program, by rw [tokenize_source]; exact parse_tokens,
    by rw [tokenize_source]; rfl⟩

theorem traced_ok : traced.ok = true := by
  decide

theorem traced_uncut : ∀ step ∈ traced.steps, ¬step.CutsLoop tight := by
  unfold Step.CutsLoop
  decide

theorem tight_within : tight.Within {} :=
  ⟨rfl, rfl, rfl, by decide, by decide⟩

end Exhausting

/-- Under the limits that it just keeps to, this program has the trace it has under the usual
ones. -/
theorem tight_limits_suffice :
    Exhausting.tight.Within {} ∧ Exhausting.traced.ok = true ∧
      trace Exhausting.source Exhausting.tight = trace Exhausting.source {} := by
  refine ⟨Exhausting.tight_within, Exhausting.traced_ok, ?_⟩
  rw [larger_limits_change_nothing Exhausting.tight_within Exhausting.trace_source
    Exhausting.traced_ok Exhausting.traced_uncut]
  exact Exhausting.trace_source

end Stepwise
