/-
The steps of an allocation, in order.

Whatever the plan of the sequence was read off from, the same steps are shown in the
same order: the variables are declared, the block is reserved, the pointer checked,
the elements are filled and printed one by one, the block is freed and the pointer
cleared, and the main function returns. As long as printing an element shows no step
of its own, nothing comes in between.
-/
import Stepwise.Proofs.Allocation
import Stepwise.Proofs.CallFree
import Stepwise.Proofs.Calls
import Stepwise.Proofs.Limits
import Stepwise.Proofs.Replay

set_option autoImplicit false

namespace Stepwise

/-! ## Steps that are shown one after the other -/

/-- Where nothing is held back, a step shows the change and nothing else. -/
theorem Machine.nextStep_of_idle {m : Machine} (h : m.hasPending = false) (kind : StepKind)
    (line : Int) (description : String) (delta : Delta) :
    m.nextStep kind line description delta =
      ⟨kind, line, description,
        { memory := Table.ofEntries delta.memory
          stack := Table.ofEntries delta.stack
          heap := Table.ofEntries delta.heap
          output := delta.output }⟩ := by
  simp only [Machine.hasPending, Bool.or_eq_false_iff, Bool.not_eq_eq_eq_not, Bool.not_false,
    List.isEmpty_iff, String.isEmpty_iff] at h
  obtain ⟨⟨⟨hwrites, hblocks⟩, houtput⟩, hnotes⟩ := h
  simp [Machine.nextStep, Machine.fullDescription, Machine.pendingCells, Machine.pendingFrames,
    Table.ofEntries, hwrites, hblocks, houtput, hnotes]

/-- In the middle of the sequence nothing is held back, and the only frame is that of the main
function. -/
structure Machine.Waits (m : Machine) : Prop where
  idle : m.hasPending = false
  labels : m.state.labels = ["main"]

/-- From a machine that waits the computation only shows steps, of which something holds with the
result, and leaves a machine that waits. -/
def Shows {α : Type} (c : Run α) (P : α → List Step → Prop) : Prop :=
  ∀ m a m', m.Waits → c m = .ok (a, m') →
    m'.Waits ∧ ∃ steps, m'.steps.toList = m.steps.toList ++ steps ∧ P a steps

namespace Shows

variable {α β : Type} {c : Run α} {P Q : α → List Step → Prop}

theorem mono (h : Shows c P) (himp : ∀ a steps, P a steps → Q a steps) : Shows c Q := by
  intro m a m' hm hc
  obtain ⟨hm', steps, hsteps, hP⟩ := h m a m' hm hc
  exact ⟨hm', steps, hsteps, himp a steps hP⟩

theorem pure {a : α} (h : P a []) : Shows (pure a) P := by
  intro m b m' hm hc
  obtain ⟨rfl, rfl⟩ := Eval.pure_eq_ok.1 hc
  exact ⟨hm, [], (List.append_nil _).symm, h⟩

theorem lift {x : Except Fault α} (h : ∀ a, x = .ok a → P a []) : Shows (Eval.lift x) P := by
  intro m a m' hm hc
  obtain ⟨hx, rfl⟩ := Eval.lift_eq_ok.1 hc
  exact ⟨hm, [], (List.append_nil _).symm, h a hx⟩

/-- The steps of one computation after the other. -/
theorem bind {f : α → Run β} {R : β → List Step → Prop} (h : Shows c P)
    (hf : ∀ a first, P a first → Shows (f a) fun b steps => R b (first ++ steps)) :
    Shows (c >>= f) R := by
  intro m b m' hm hc
  obtain ⟨a, m₁, h₁, h₂⟩ := Eval.bind_eq_ok.1 hc
  obtain ⟨hm₁, first, hfirst, hP⟩ := h m a m₁ hm h₁
  obtain ⟨hm', steps, hsteps, hR⟩ := hf a first hP m₁ b m' hm₁ h₂
  refine ⟨hm', first ++ steps, ?_, hR⟩
  rw [hsteps, hfirst, List.append_assoc]

/-- One step for every item. -/
theorem mapM {f : α → Run β} {Q : α → Step → Prop} {items : List α}
    (hf : ∀ a ∈ items, Shows (f a) fun _ steps => ∃ step, steps = [step] ∧ Q a step) :
    Shows (items.mapM f) fun results steps =>
      results.length = items.length ∧ List.Forall₂ Q items steps := by
  induction items with
  | nil =>
    rw [List.mapM_nil]
    exact .pure ⟨rfl, .nil⟩
  | cons a items ih =>
    rw [List.mapM_cons]
    refine .bind (hf a List.mem_cons_self) ?_
    rintro b _ ⟨step, rfl, hsays⟩
    refine .bind (ih fun c hc => hf c (List.mem_cons_of_mem _ hc)) ?_
    rintro bs steps ⟨hlength, hall⟩
    refine .pure ⟨congrArg Nat.succ hlength, ?_⟩
    rw [List.append_nil]
    exact .cons hsays hall

theorem forM {f : α → Run Unit} {Q : α → Step → Prop} {items : List α}
    (hf : ∀ a ∈ items, Shows (f a) fun _ steps => ∃ step, steps = [step] ∧ Q a step) :
    Shows (items.forM f) fun _ steps => List.Forall₂ Q items steps := by
  induction items with
  | nil => exact .pure .nil
  | cons a items ih =>
    refine .bind (hf a List.mem_cons_self) ?_
    rintro _ _ ⟨step, rfl, hsays⟩
    refine (ih fun c hc => hf c (List.mem_cons_of_mem _ hc)).mono ?_
    intro _ steps hall
    exact .cons hsays hall

/-- A step that puts on no frame and takes none away. -/
theorem emitDelta {setup : Setup} {kind : StepKind} {line : Int} {description : String}
    {delta : Delta} (hstack : delta.stack = [] ∨ ∃ patch, delta.stack = [("main", patch)] ∧
      patch.action = .update) {Q : Step → Prop}
    (h : Q ⟨kind, setup.analysis.clamp line, description,
      { memory := Table.ofEntries delta.memory
        stack := Table.ofEntries delta.stack
        heap := Table.ofEntries delta.heap
        output := delta.output }⟩) :
    Shows (Run.emitDelta setup kind line description delta)
      fun _ steps => ∃ step, steps = [step] ∧ Q step := by
  intro m u m' hm hc
  have hemit := Run.attempt_eq_ok.1 hc
  have hlabels : m'.state.labels = ["main"] := by
    rcases hstack with hnil | ⟨patch, hone, haction⟩
    · rw [Machine.emit_labels_of_nil hnil hemit, hm.labels]
    · rw [Machine.emit_labels_of_singleton hone hemit, haction, hm.labels]
      rfl
  obtain ⟨state, _, rfl⟩ := Machine.emit_eq_ok.1 hemit
  refine ⟨⟨rfl, hlabels⟩, [_], ?_, _, rfl, h⟩
  rw [Array.toList_push, Machine.nextStep_of_idle hm.idle]

end Shows

/-! ## The steps of the sequence -/

/-- The step is of a kind, has a description and changes no block. -/
structure Step.Tells (kind : StepKind) (text : String) (step : Step) : Prop where
  kind : step.kind = kind
  text : step.description = text
  heap : step.delta.heap = []

namespace Allocation

/-- The steps that fill and print the elements. -/
structure ElementSteps where
  /-- The elements are filled. -/
  fills : List Step
  /-- The warning that not all were. -/
  unfilled : Option Step
  /-- The elements are printed. -/
  prints : List Step
  /-- The warning that not all were. -/
  unprinted : Option Step

/-- The steps in order. -/
def ElementSteps.steps (e : ElementSteps) : List Step :=
  e.fills ++ (e.unfilled.toList ++ (e.prints ++ e.unprinted.toList))

/-- The steps of the sequence, by what they show. -/
structure Score where
  /-- The pointer is declared. -/
  pointer : Step
  /-- The counter is declared, if there is one. -/
  counter : Option Step
  /-- The block is reserved. -/
  reserve : Step
  /-- The pointer is checked. -/
  check : Step
  /-- The elements are filled and printed. -/
  elements : ElementSteps
  /-- The block is freed. -/
  free : Step
  /-- The warning of the dangling pointer. -/
  dangling : Step
  /-- The pointer is cleared, if the program does. -/
  clear : Option Step
  /-- The main function returns. -/
  leave : Step

/-- The steps in order. -/
def Score.steps (score : Score) : List Step :=
  score.pointer :: (score.counter.toList ++ score.reserve :: score.check ::
    (score.elements.steps ++ score.free :: score.dangling ::
      (score.clear.toList ++ [score.leave])))

namespace Stage

variable (s : Stage)

/-- The step fills an element: the new value is written where the element is. -/
def Fills (i : Nat) (step : Step) : Prop :=
  ∃ value, s.plan.elementValue s.setup.analysis i = .ok value ∧
    step.Tells .assignment (s!"Initializing {s.plan.elementName i} with value " ++ value.print) ∧
    step.delta.memory =
      [(.int (s.block + i * s.elementSize), ⟨value, s.plan.elementName i, s.plan.element⟩)]

/-- The step prints an element. What the printing call noted comes first in its description. -/
structure Prints (i : Nat) (step : Step) : Prop where
  kind : step.kind = .call
  text : s!"Printing {s.plan.elementName i}".toList <:+ step.description.toList
  heap : step.delta.heap = []

/-- There is a warning if and only if there are more elements than a loop has iterations. -/
structure WarnsOfLimit (warning : Option Step) : Prop where
  isSome : warning.isSome = s.plan.exceeds s.setup.settings.maxLoopIterations
  tells : ∀ step ∈ warning, step.Tells .warning (loopWarning s.setup.settings)

/-- So many elements are filled and then printed, in order. -/
structure Handles (count : Nat) (e : ElementSteps) : Prop where
  fills : List.Forall₂ s.Fills (List.range count) e.fills
  unfilled : s.WarnsOfLimit e.unfilled
  prints : List.Forall₂ s.Prints (List.range count) e.prints
  unprinted : s.WarnsOfLimit e.unprinted

/-- The step reserves the block or frees it. -/
structure Blocks (freed : Bool) (step : Step) : Prop where
  kind : step.kind = .call
  heap : step.delta.heap = [(.int s.block, ⟨.int s.block, s.size, freed⟩)]

/-- The score is what the stage plays for so many elements. -/
structure Plays (count : Nat) (score : Score) : Prop where
  pointer : score.pointer.Tells .declaration
    s!"Declaration of pointer {s.plan.pointer} (uninitialized)"
  counter : ∀ step ∈ score.counter, ∃ c ∈ s.plan.counter, step.Tells .declaration
    (s!"Declaration of variable {c.var.name} with value " ++ c.value.print)
  reserve : s.Blocks false score.reserve
  check : score.check.Tells .conditional
    (s!"Checking if allocation was successful: {s.plan.pointer} is "
      ++ Numeral.address s.block ++ ", not NULL")
  elements : s.Handles count score.elements
  free : s.Blocks true score.free
  dangling : score.dangling.Tells .warning
    s!"{s.plan.pointer} is now a dangling pointer pointing to freed memory"
  clear : ∀ step ∈ score.clear, step.Tells .assignment
    s!"Assignment of NULL to {s.plan.pointer}: it no longer dangles"
  leave : score.leave.Tells .ret "Return from main with value 0"

/-- So many elements are shown: as many as there are, but at most as many as a loop has iterations,
and none if that is a negative number. -/
def Counts (count : Nat) : Prop :=
  ∃ n j, s.plan.count = .num n ∧
    (if Number.less (.int s.setup.settings.maxLoopIterations) n
      then .int s.setup.settings.maxLoopIterations else n) = Number.int j ∧
    (count : Int) = max 0 j

variable {s}

theorem counts_of_shownCount {count : Nat}
    (h : s.plan.shownCount s.setup.settings.maxLoopIterations = .ok count) : s.Counts count := by
  unfold Plan.shownCount at h
  split at h
  · next n hn =>
    refine ⟨n, ?_⟩
    split at h
    · next hless =>
      refine ⟨_, hn, if_pos hless, ?_⟩
      have := Except.ok.inj h
      omega
    · next hless =>
      split at h
      · next j =>
        refine ⟨j, hn, if_neg hless, ?_⟩
        have := Except.ok.inj h
        omega
      · cases h
  · cases h

/-! ## What the parts of the sequence show -/

theorem reserve_shows : Shows s.reserve fun _ steps => ∃ step, steps = [step] ∧ s.Blocks false step :=
  .emitDelta (.inr ⟨_, rfl, rfl⟩) ⟨rfl, rfl⟩

theorem check_shows : Shows s.check fun _ steps => ∃ step, steps = [step] ∧
    step.Tells .conditional (s!"Checking if allocation was successful: {s.plan.pointer} is "
      ++ Numeral.address s.block ++ ", not NULL") :=
  .emitDelta (.inl rfl) ⟨rfl, rfl, rfl⟩

theorem fillElement_shows (i : Nat) :
    Shows (s.fillElement i) fun _ steps => ∃ step, steps = [step] ∧ s.Fills i step := by
  refine .bind (.lift (P := fun value steps => steps = [] ∧
    s.plan.elementValue s.setup.analysis i = .ok value) fun value hvalue => ⟨rfl, hvalue⟩) ?_
  rintro value _ ⟨rfl, hvalue⟩
  refine .bind (.emitDelta (Q := s.Fills i) (.inl rfl)
    ⟨value, hvalue, ⟨rfl, rfl, rfl⟩, rfl⟩) ?_
  rintro _ _ ⟨step, rfl, hfills⟩
  exact .pure ⟨step, rfl, hfills⟩

theorem warnOfLimit_shows (loop : Option ForLoop) (other : Int) :
    Shows (s.warnOfLimit loop other) fun _ steps =>
      ∃ warning : Option Step, steps = warning.toList ∧ s.WarnsOfLimit warning := by
  unfold warnOfLimit
  split
  · next h =>
    refine Shows.mono (.emitDelta (Q := Step.Tells .warning (loopWarning s.setup.settings))
      (.inl rfl) ⟨rfl, rfl, rfl⟩) ?_
    rintro _ _ ⟨step, rfl, htells⟩
    refine ⟨some step, rfl, h.symm, fun warning hwarning => ?_⟩
    rw [← Option.mem_some_iff.1 hwarning]
    exact htells
  · next h =>
    rw [Bool.not_eq_true] at h
    exact .pure ⟨none, rfl, h.symm, fun _ hstep => by cases hstep⟩

variable (hprinter : ∀ c index, s.plan.printer? = some (c, index) → ∀ scope,
  Follows Machine.HoldsBack
    (evaluateWith s.setup (callAt s.setup noCommentary 1) scope c.expr))

include hprinter

/-- Printing an element shows one step. -/
theorem printElement_shows (i : Nat) (value : Value) :
    Shows (s.printElement i value) fun _ steps => ∃ step, steps = [step] ∧ s.Prints i step := by
  unfold printElement
  cases hp : s.plan.printer? with
  | none => exact .emitDelta (.inl rfl) ⟨rfl, List.suffix_rfl, rfl⟩
  | some printer =>
    obtain ⟨c, index⟩ := printer
    intro m u m' hm hc
    obtain ⟨_, m₁, hevaluate, hc⟩ := Eval.bind_eq_ok.1 hc
    have hheld := hprinter c index hp _ m _ m₁ hevaluate
    have hemit := Run.emit_eq_ok.1 hc
    have hblocks : m₁.blocks = [] := by
      have hidle := hm.idle
      simp only [Machine.hasPending, Bool.or_eq_false_iff, Bool.not_eq_eq_eq_not, Bool.not_false,
        List.isEmpty_iff] at hidle
      rw [hheld.blocks, hidle.1.1.2]
    have hlabels : m'.state.labels = ["main"] := by
      rw [Machine.emit_labels_of_nil rfl hemit, hheld.state, hm.labels]
    obtain ⟨state, _, rfl⟩ := Machine.emit_eq_ok.1 hemit
    have hprints : s.Prints i (m₁.nextStep .call (s.setup.analysis.clamp s.lines.print)
        s!"Printing {s.plan.elementName i}" {}) := by
      refine ⟨rfl, m₁.suffix_fullDescription ?_, hblocks⟩
      intro hempty
      have hlength := congrArg String.toList hempty
      rw [String.toList_append] at hlength
      cases hlength
    refine ⟨⟨rfl, hlabels⟩, [_], ?_, _, rfl, hprints⟩
    rw [Array.toList_push, hheld.steps]

theorem fillAndPrint_shows :
    Shows s.fillAndPrint fun _ steps =>
      ∃ count e, s.Counts count ∧ s.Handles count e ∧ steps = e.steps := by
  refine .bind (.lift (P := fun count steps => steps = [] ∧ s.Counts count)
    fun count hcount => ⟨rfl, counts_of_shownCount hcount⟩) ?_
  rintro count _ ⟨rfl, hcount⟩
  refine .bind (.mapM fun i _ => fillElement_shows i) ?_
  rintro values fills ⟨hlength, hfills⟩
  refine .bind (warnOfLimit_shows _ _) ?_
  rintro _ _ ⟨unfilled, rfl, hunfilled⟩
  refine .bind (.forM (Q := fun e => s.Prints e.2)
    fun e _ => printElement_shows hprinter e.2 e.1) ?_
  intro _ prints hprints
  refine (warnOfLimit_shows _ _).mono ?_
  rintro _ _ ⟨unprinted, rfl, hunprinted⟩
  refine ⟨count, ⟨fills, unfilled, prints, unprinted⟩, hcount,
    ⟨hfills, hunfilled, ?_, hunprinted⟩, rfl⟩
  -- the values are counted from zero on
  rw [← List.forall₂_map_left_iff, List.zipIdx_map_snd, hlength, List.length_range,
    ← List.range_eq_range'] at hprints
  exact hprints

omit hprinter

theorem free_shows : Shows s.free fun _ steps => ∃ free dangling, steps = [free, dangling] ∧
    s.Blocks true free ∧ dangling.Tells .warning
      s!"{s.plan.pointer} is now a dangling pointer pointing to freed memory" := by
  refine .bind (.emitDelta (Q := s.Blocks true) (.inl rfl) ⟨rfl, rfl⟩) ?_
  rintro _ _ ⟨free, rfl, hfree⟩
  refine Shows.mono (.emitDelta (Q := Step.Tells .warning
    s!"{s.plan.pointer} is now a dangling pointer pointing to freed memory")
    (.inl rfl) ⟨rfl, rfl, rfl⟩) ?_
  rintro _ _ ⟨dangling, rfl, hdangling⟩
  exact ⟨free, dangling, rfl, hfree, hdangling⟩

theorem clear_shows : Shows s.clear fun _ steps => ∃ clear : Option Step, steps = clear.toList ∧
    ∀ step ∈ clear, step.Tells .assignment
      s!"Assignment of NULL to {s.plan.pointer}: it no longer dangles" := by
  unfold clear
  split
  · exact .pure ⟨none, rfl, fun _ hstep => by cases hstep⟩
  · refine Shows.mono (.emitDelta (Q := Step.Tells .assignment
      s!"Assignment of NULL to {s.plan.pointer}: it no longer dangles")
      (.inr ⟨_, rfl, rfl⟩) ⟨rfl, rfl, rfl⟩) ?_
    rintro _ _ ⟨step, rfl, htells⟩
    refine ⟨some step, rfl, fun clear hclear => ?_⟩
    rw [← Option.mem_some_iff.1 hclear]
    exact htells

/-- When the main function is left, no frame remains. -/
theorem leave_shows {m m' : Machine} {line : Int} (hm : m.Waits)
    (h : m.emit .ret line "Return from main with value 0"
      { stack := [("main", { action := .remove })] } = .ok m') :
    m'.state.stack = [] ∧ ∃ leave, m'.steps.toList = m.steps.toList ++ [leave] ∧
      leave.Tells .ret "Return from main with value 0" := by
  have hlabels := Machine.emit_labels_of_singleton rfl h
  rw [hm.labels] at hlabels
  obtain ⟨state, _, rfl⟩ := Machine.emit_eq_ok.1 h
  refine ⟨List.map_eq_nil_iff.1 hlabels, _, Array.toList_push, ?_⟩
  rw [Machine.nextStep_of_idle hm.idle]
  exact ⟨rfl, rfl, rfl⟩

end Stage

/-! ## The whole sequence -/

/-- A variable of the main function is declared in its frame, which appears with the first. -/
theorem declareAt_shows {setup : Setup} {name : String} {type : CType} {line : Int} {value : Value}
    {description : String} {address : Int} {m m' : Machine} {u : Unit} (hidle : m.hasPending = false)
    (hlabels : m.state.labels = [] ∨ m.state.labels = ["main"])
    (h : declareAt setup "main" name type line value description address m = .ok (u, m')) :
    m'.Waits ∧ ∃ step, m'.steps.toList = m.steps.toList ++ [step] ∧
      step.Tells .declaration description := by
  obtain ⟨cells, _, hemit⟩ := declareAt_cases h
  have hown : (m.own type address "main" name).hasPending = m.hasPending ∧
      (m.own type address "main" name).state = m.state ∧
      (m.own type address "main" name).steps = m.steps := by
    unfold Machine.own
    split <;> exact ⟨rfl, rfl, rfl⟩
  obtain ⟨hpending, hstate, hsteps⟩ := hown
  have hafter := Machine.emit_labels_of_singleton rfl hemit
  rw [hstate] at hafter
  have hmain : m'.state.labels = ["main"] := by
    rcases hlabels with hnone | hone
    · rw [hafter, hnone]
      rfl
    · rw [hafter, hone]
      rfl
  obtain ⟨state, _, rfl⟩ := Machine.emit_eq_ok.1 hemit
  refine ⟨⟨rfl, hmain⟩, _, by rw [Array.toList_push, hsteps], ?_⟩
  rw [Machine.nextStep_of_idle (hpending.trans hidle)]
  exact ⟨rfl, rfl, rfl⟩

/-- Both variables are declared, the pointer first. -/
theorem declare_shows {setup : Setup} {s : Stage} {cursor : Cursor} {m m₁ m₂ : Machine}
    (hidle : m.hasPending = false) (hlabels : m.state.labels = [])
    (hpointer : declarePointer setup s.plan m = .ok ((s.pointerAddress, cursor), m₁))
    (hcounter : s.plan.counter.forM (declareCounter setup cursor) m₁ = .ok ((), m₂)) :
    m₂.Waits ∧ ∃ pointer, ∃ counter : Option Step,
      m₂.steps.toList = m.steps.toList ++ pointer :: counter.toList ∧
      pointer.Tells .declaration s!"Declaration of pointer {s.plan.pointer} (uninitialized)" ∧
      ∀ step ∈ counter, ∃ c ∈ s.plan.counter, step.Tells .declaration
        (s!"Declaration of variable {c.var.name} with value " ++ c.value.print) := by
  obtain ⟨_, _, _, _, _, _, _, hdeclared⟩ := declarePointer_cases hpointer
  obtain ⟨hm₁, pointer, hsteps₁, hpointer⟩ := declareAt_shows hidle (.inl hlabels) hdeclared
  cases hc : s.plan.counter with
  | none =>
    rw [hc] at hcounter
    obtain ⟨_, rfl⟩ := Eval.pure_eq_ok.1 hcounter
    exact ⟨hm₁, pointer, none, hsteps₁, hpointer, fun _ hstep => by cases hstep⟩
  | some c =>
    rw [hc] at hcounter
    obtain ⟨_, _, _, hdeclared⟩ := declareCounter_cases hcounter
    obtain ⟨hm₂, counter, hsteps₂, hcounter⟩ :=
      declareAt_shows hm₁.idle (.inr hm₁.labels) hdeclared
    refine ⟨hm₂, pointer, some counter, ?_, hpointer, fun step hstep => ?_⟩
    · rw [hsteps₂, hsteps₁, List.append_assoc]
      rfl
    · rw [← Option.mem_some_iff.1 hstep]
      exact ⟨c, rfl, hcounter⟩

/-- The steps between the declarations and the return make a score with them. -/
theorem Stage.middle_shows {s : Stage} {pointer : Step} {counter : Option Step}
    (hprinter : ∀ c index, s.plan.printer? = some (c, index) → ∀ scope,
      Follows Machine.HoldsBack
        (evaluateWith s.setup (callAt s.setup noCommentary 1) scope c.expr))
    (hpointer : pointer.Tells .declaration
      s!"Declaration of pointer {s.plan.pointer} (uninitialized)")
    (hcounter : ∀ step ∈ counter, ∃ c ∈ s.plan.counter, step.Tells .declaration
      (s!"Declaration of variable {c.var.name} with value " ++ c.value.print)) :
    Shows (do s.reserve; s.check; s.fillAndPrint; s.free; s.clear : Run Unit) fun _ steps =>
      ∃ count, s.Counts count ∧ ∀ leave : Step, leave.Tells .ret "Return from main with value 0" →
        ∃ score, s.Plays count score ∧
          score.steps = pointer :: (counter.toList ++ (steps ++ [leave])) := by
  refine .bind reserve_shows ?_
  rintro _ _ ⟨reserve, rfl, hreserve⟩
  refine .bind check_shows ?_
  rintro _ _ ⟨check, rfl, hcheck⟩
  refine .bind (fillAndPrint_shows hprinter) ?_
  rintro _ _ ⟨count, elements, hcount, helements, rfl⟩
  refine .bind free_shows ?_
  rintro _ _ ⟨free, dangling, rfl, hfree, hdangling⟩
  refine clear_shows.mono ?_
  rintro _ _ ⟨clear, rfl, hclear⟩
  refine ⟨count, hcount, fun leave hleave => ?_⟩
  refine ⟨{ pointer, counter, reserve, check, elements, free, dangling, clear, leave },
    ⟨hpointer, hcounter, hreserve, hcheck, helements, hfree, hdangling, hclear, hleave⟩, ?_⟩
  simp only [Score.steps, List.cons_append, List.nil_append, List.append_assoc]

/-- The sequence shows a score, if the printing call shows no step. -/
theorem run_plays {setup : Setup} {m : Machine} {u : Unit}
    (hprinter : ∀ main p c index, setup.analysis.main? = some main →
      plan setup.analysis main = .ok p → p.printer? = some (c, index) → ∀ scope,
      Follows Machine.HoldsBack (evaluateWith setup (callAt setup noCommentary 1) scope c.expr))
    (h : run setup (Machine.start setup.settings) = .ok (u, m)) :
    ∃ main, ∃ s : Stage, ∃ count score,
      setup.analysis.main? = some main ∧ s.SetFor setup main ∧ s.Counts count ∧
      s.Plays count score ∧ m.steps.toList = score.steps ∧ m.state.stack = [] := by
  obtain ⟨main, s, cursor, m₁, m₂, hmain, hset, hpointer, hcounter, hrest⟩ := run_setFor h
  obtain ⟨hm₂, pointer, counter, hdeclared, hpointerTells, hcounterTells⟩ :=
    declare_shows rfl rfl hpointer hcounter
  obtain rfl := hset.under
  obtain ⟨m₃, m₄, line, hmiddle, hret, rfl⟩ := Stage.rest_cases hrest
  obtain ⟨hm₃, steps, hsteps, count, hcount, hscore⟩ :=
    Stage.middle_shows (fun c index => hprinter main s.plan c index hmain hset.plan) hpointerTells
      hcounterTells m₂ () m₃ hm₂ hmiddle
  obtain ⟨hstack, leave, hlast, hleave⟩ := Stage.leave_shows hm₃ hret
  obtain ⟨score, hplays, horder⟩ := hscore leave hleave
  refine ⟨main, s, count, score, hmain, hset, hcount, hplays, ?_, hstack⟩
  rw [horder]
  show m₄.steps.toList = _
  rw [hlast, hsteps, hdeclared]
  simp only [Machine.start, List.nil_append, List.cons_append, List.append_assoc]

/-! ## What the steps of a score have in common -/

theorem Stage.WarnsOfLimit.heap {s : Stage} {warning : Option Step} (h : s.WarnsOfLimit warning) :
    ∀ step ∈ warning.toList, step.delta.heap = [] :=
  fun step hstep => (h.tells step (Option.mem_toList.1 hstep)).heap

/-- Filling and printing change no block. -/
theorem Stage.Handles.heap {s : Stage} {count : Nat} {e : ElementSteps} (h : s.Handles count e) :
    e.steps.flatMap (fun step => step.delta.heap) = [] := by
  refine List.flatMap_eq_nil_iff.2 fun step hstep => ?_
  simp only [ElementSteps.steps, List.mem_append] at hstep
  rcases hstep with hfill | hwarning | hprint | hwarning
  · obtain ⟨_, _, _, _, htells, _⟩ := mem_of_forall₂ h.fills hfill
    exact htells.heap
  · exact h.unfilled.heap step hwarning
  · obtain ⟨_, _, hprints⟩ := mem_of_forall₂ h.prints hprint
    exact hprints.heap
  · exact h.unprinted.heap step hwarning

/-- Over the whole score there are two changes of blocks: one is reserved, and the same one freed. -/
theorem Stage.Plays.heap {s : Stage} {count : Nat} {score : Score} (h : s.Plays count score) :
    score.steps.flatMap (fun step => step.delta.heap) =
      [(.int s.block, ⟨.int s.block, s.size, false⟩),
        (.int s.block, ⟨.int s.block, s.size, true⟩)] := by
  have hcounter : score.counter.toList.flatMap (fun step => step.delta.heap) = [] := by
    refine List.flatMap_eq_nil_iff.2 fun step hstep => ?_
    obtain ⟨_, _, htells⟩ := h.counter step (Option.mem_toList.1 hstep)
    exact htells.heap
  have hclear : score.clear.toList.flatMap (fun step => step.delta.heap) = [] :=
    List.flatMap_eq_nil_iff.2 fun step hstep => (h.clear step (Option.mem_toList.1 hstep)).heap
  simp only [Score.steps, List.flatMap_cons, List.flatMap_append, List.flatMap_nil, h.pointer.heap,
    hcounter, h.reserve.heap, h.check.heap, h.elements.heap, h.free.heap, h.dangling.heap, hclear,
    h.leave.heap, List.nil_append, List.append_nil, List.cons_append]

/-- The expansion of a macro is no part of a score. -/
theorem Stage.Plays.not_preprocessing {s : Stage} {count : Nat} {score : Score}
    (h : s.Plays count score) : ∀ step ∈ score.steps, step.kind ≠ .preprocessing := by
  have hwarning : ∀ {warning : Option Step}, s.WarnsOfLimit warning →
      ∀ step ∈ warning.toList, step.kind ≠ .preprocessing := by
    intro warning hwarns step hstep hkind
    rw [(hwarns.tells step (Option.mem_toList.1 hstep)).kind] at hkind
    cases hkind
  intro step hstep hkind
  simp only [Score.steps, ElementSteps.steps, List.mem_cons, List.mem_append, List.not_mem_nil,
    or_false] at hstep
  rcases hstep with rfl | hcounter | rfl | rfl | (hfill | hunfilled | hprint | hunprinted) | rfl |
    rfl | hclear | rfl
  · cases h.pointer.kind.symm.trans hkind
  · obtain ⟨_, _, htells⟩ := h.counter step (Option.mem_toList.1 hcounter)
    cases htells.kind.symm.trans hkind
  · cases h.reserve.kind.symm.trans hkind
  · cases h.check.kind.symm.trans hkind
  · obtain ⟨_, _, _, _, htells, _⟩ := mem_of_forall₂ h.elements.fills hfill
    cases htells.kind.symm.trans hkind
  · exact hwarning h.elements.unfilled step hunfilled hkind
  · obtain ⟨_, _, hprints⟩ := mem_of_forall₂ h.elements.prints hprint
    cases hprints.kind.symm.trans hkind
  · exact hwarning h.elements.unprinted step hunprinted hkind
  · cases h.free.kind.symm.trans hkind
  · cases h.dangling.kind.symm.trans hkind
  · cases (h.clear step (Option.mem_toList.1 hclear)).kind.symm.trans hkind
  · cases h.leave.kind.symm.trans hkind

/-! ## The main result -/

theorem Plan.printer?_callee {p : Plan} {c : Call} {index : String}
    (h : p.printer? = some (c, index)) : c.callee = "printf" := by
  unfold printer? at h
  obtain ⟨loop, _, h⟩ := Option.bind_eq_some_iff.1 h
  obtain ⟨c', hfound, hpure⟩ := Option.bind_eq_some_iff.1 h
  obtain ⟨rfl, _⟩ := Prod.mk.injEq .. ▸ Option.some.inj hpure
  exact eq_of_beq (List.find?_some (p := fun c : Call => c.callee == "printf") hfound)

theorem plan_reads {a : Analysis} {main : Function} {p : Plan} (h : plan a main = .ok p) :
    p.main = main ∧
      p.pointer = (((declaredIn main.stmts).find? fun d => 0 < d.var.stars).map
        fun d => d.var.name).getD "ptr" := by
  obtain ⟨_, _, h⟩ := bind_eq_ok.1 h
  dsimp only at h
  -- the plan is the same wherever the count comes from
  split at h
  · obtain rfl := Except.ok.inj h
    exact ⟨rfl, rfl⟩
  · split at h
    · obtain rfl := Except.ok.inj h
      exact ⟨rfl, rfl⟩
    · split at h
      · obtain rfl := Except.ok.inj h
        exact ⟨rfl, rfl⟩
      · cases h

/-- What the printing call of the sequence is called with calls nothing. -/
def PrintsPlainly (a : Analysis) : Prop :=
  ∀ main p c index, a.main? = some main → plan a main = .ok p → p.printer? = some (c, index) →
    ∀ e ∈ c.arguments, ¬e.Calling a.macros

end Allocation

/-- The trace shows a score of the sequence and nothing else. Over the whole trace one block changes
twice, which is reserved first and then freed, and no frame remains. -/
def Trace.ShowsScore (t : Trace) (tokens : List Token) (setup : Setup) : Prop :=
  ∃ main, ∃ s : Allocation.Stage, ∃ count score,
    setup.analysis.main? = some main ∧ s.SetFor setup main ∧ s.Counts count ∧
    s.Plays count score ∧
    t.steps = Trace.startStep :: (score.steps ++ [Trace.endStep tokens]) ∧
    (t.steps.flatMap fun step => step.delta.heap) =
      [(.int s.block, ⟨.int s.block, s.size, false⟩), (.int s.block, ⟨.int s.block, s.size, true⟩)] ∧
    t.state.stack = []

/-- A trace that shows a score shows no expansion of a macro. -/
theorem Trace.ShowsScore.not_preprocessing {t : Trace} {tokens : List Token} {setup : Setup}
    (h : t.ShowsScore tokens setup) : ∀ step ∈ t.steps, step.kind ≠ .preprocessing := by
  obtain ⟨_, _, _, _, _, _, _, hplays, hsteps, _⟩ := h
  intro step hstep
  rw [hsteps, List.mem_cons, List.mem_append, List.mem_singleton] at hstep
  rcases hstep with rfl | hstep | rfl
  · exact fun hkind => by cases hkind
  · exact hplays.not_preprocessing step hstep
  · exact fun hkind => by cases hkind

/-- **The steps of an allocation come in a fixed order.** Where no macro with parameters has taken
the name of `printf`, and the arguments of the printing call call nothing, the trace of a program
about dynamic allocation that comes to its end is the score: the declaration of the pointer and at
most that of a counter, the reservation, the check, a step for every element that is filled, the
warning if there are more than a loop has iterations, a step for every element that is printed, that
warning again, the release, the warning of the dangling pointer, at most one assignment that clears
it, and the return. -/
theorem allocation_shows_score {p : Program} {source : String} {tokens : List Token}
    {settings : Settings} {analysis : Analysis} (ha : analyze p source tokens = .ok analysis)
    (hcategory : analysis.category = .dynamicAllocation)
    (hok : (p.trace source tokens settings).ok = true)
    (hprintf : ∀ m, analysis.macros.find? "printf" = some m → m.parameters = none)
    (hplain : Allocation.PrintsPlainly analysis) :
    (p.trace source tokens settings).ShowsScore tokens ⟨analysis, settings⟩ := by
  obtain ⟨m, hplay⟩ := Program.play_of_trace_ok ha hok
  have hcompleted := trace_of_play ha hplay
  rw [hcategory] at hplay
  have hrun : Allocation.run ⟨analysis, settings⟩ (Machine.start settings) = .ok ((), m) := hplay
  obtain ⟨main, s, count, score, hmain, hset, hcount, hplays, hsteps, hstack⟩ :=
    Allocation.run_plays (fun main p c index hmain hp hc scope => by
      rw [Call.expr, Allocation.Plan.printer?_callee hc]
      exact evaluate_printf_holdsBack hprintf (hplain main p c index hmain hp hc) scope) hrun
  rw [hcompleted]
  have hordered : (Trace.completed tokens analysis.category m).steps =
      Trace.startStep :: (score.steps ++ [Trace.endStep tokens]) := by
    rw [Trace.completed, hsteps]
  refine ⟨main, s, count, score, hmain, hset, hcount, hplays, hordered, ?_, hstack⟩
  rw [hordered, List.flatMap_cons, List.flatMap_append, hplays.heap]
  rfl

/-! ## With and without a macro in the place of the printing function -/

namespace Printing

/-- A program that fills and prints one element, below a line of its own. -/
def source (line : String) : String :=
  line ++ "\nint main() \x7b\n  int *p = malloc(4);\n"
    ++ "  for (int i = 0; i < 1; i++) p[i] = 7;\n"
    ++ "  for (int i = 0; i < 1; i++) printf(\"%d\", p[i]);\n"
    ++ "  free(p);\n  return 0;\n\x7d\n"

/-- A loop over the one element. -/
def loop (line : Nat) (e : Expr) : Stmt :=
  .forLoop line (.decl ⟨line, .int, [⟨line, "i", 0, .none, some (.expr (.literal line "0"))⟩]⟩)
    (some (.binary line (.rel .lt) (.name line "i") (.literal line "1")))
    (some (.stepAfter line .increment (.name line "i")))
    (.expr line e)

/-- The main function. -/
def main : Function where
  line := 2
  name := "main"
  returnType := .int
  parameters := []
  bodyLine := 2
  body :=
    [.decl ⟨3, .int, [⟨3, "p", 1, .none, some (.expr (.call 3 "malloc" [.literal 3 "4"]))⟩]⟩,
      loop 4 (.assign 4 none (.index 4 "p" (.name 4 "i")) (.literal 4 "7")),
      loop 5 (.call 5 "printf" [.literal 5 "\"%d\"", .index 5 "p" (.name 5 "i")]),
      .expr 6 (.call 6 "free" [.name 6 "p"]),
      .ret 7 (some (.literal 7 "0"))]

/-- The program, below the directives of its first line. -/
def program (directives : List Item) : Program :=
  ⟨directives ++ [.function main]⟩

/-- What is known about it. -/
def analysis (line : String) (directives : List Item) : Analysis where
  program := program directives
  source := source line
  tokens := tokenize (source line)
  lines := Text.lines (source line)
  macros := (program directives).macros (Text.lines (source line))
  layouts := []

/-- The arguments of the printing call. -/
def arguments : List Expr :=
  [.literal 5 "\"%d\"", .index 5 "p" (.name 5 "i")]

theorem printer_arguments {p : Allocation.Plan} (hmain : p.main = main) (hpointer : p.pointer = "p") :
    p.printer?.map (fun printer => printer.1.arguments) = some arguments := by
  obtain ⟨_, _, _, _, _, _, _⟩ := p
  obtain rfl : _ = main := hmain
  obtain rfl : _ = "p" := hpointer
  rfl

/-- What is printed is no call, as long as the two names in it stand for themselves. -/
theorem printsPlainly {a : Analysis} (hmain : a.main? = some main) (hp : a.macros.find? "p" = none)
    (hi : a.macros.find? "i" = none) : Allocation.PrintsPlainly a := by
  intro f p c index hf hplan hc e he
  obtain rfl := Option.some.inj (hmain.symm.trans hf)
  obtain ⟨hfunction, hpointer⟩ := Allocation.plan_reads hplan
  have hsame := printer_arguments hfunction hpointer
  rw [hc] at hsame
  have hfound : c.arguments = arguments := Option.some.inj hsame
  rw [hfound] at he
  rcases List.mem_pair.1 he with rfl | rfl
  · exact Expr.not_calling rfl fun name hname => by cases hname
  · refine Expr.not_calling rfl fun name hname => ?_
    rcases List.mem_pair.1 hname with rfl | rfl
    · exact hp
    · exact hi

/-- What is known about the program alone. -/
def plain : Analysis :=
  analysis "" []

theorem analyze_plain :
    analyze plain.program plain.source plain.tokens = .ok plain :=
  rfl

theorem category_plain : plain.category = .dynamicAllocation := by
  have hsource : plain.source = String.ofList _ := Text.append_of_chars
    (Text.append_of_chars (Text.append_of_chars (Text.append_of_chars rfl rfl) rfl) rfl) rfl
  rw [Analysis.category, Analysis.lowered_eq hsource]
  decide

/-- What is known about it below a macro that takes the name of `printf`. -/
def shadowed : Analysis :=
  analysis "#define printf(f, x) x" [.directive ⟨1, "#define", ["printf", "(f, x) x"]⟩]

theorem analyze_shadowed :
    analyze shadowed.program shadowed.source shadowed.tokens = .ok shadowed :=
  rfl

theorem analysis_macros (line : String) (directives : List Item) :
    (analysis line directives).macros
      = (program directives).macros (Text.lines (source line)) :=
  rfl

theorem macros_shadowed : shadowed.macros = [("printf", ⟨"printf", some ["f", "x"], "x", 1⟩)] := by
  have hsource : source "#define printf(f, x) x" = String.ofList _ := Text.append_of_chars
    (Text.append_of_chars (Text.append_of_chars (Text.append_of_chars rfl rfl) rfl) rfl) rfl
  rw [shadowed, analysis_macros, Text.lines_of_chars hsource]
  decide +kernel

theorem category_shadowed : shadowed.category = .dynamicAllocation := by
  have hsource : shadowed.source = String.ofList _ := Text.append_of_chars
    (Text.append_of_chars (Text.append_of_chars (Text.append_of_chars rfl rfl) rfl) rfl) rfl
  rw [Analysis.category, Analysis.lowered_eq hsource]
  decide

/-- The trace. -/
def trace (a : Analysis) : Trace :=
  a.program.trace a.source a.tokens {}

theorem plain_ok : (trace plain).ok = true := by
  rw [trace, Program.trace_of_category analyze_plain category_plain]
  decide +kernel

theorem shadowed_expands : (trace shadowed).ok = true ∧
    ∃ step ∈ (trace shadowed).steps, step.kind = .preprocessing := by
  -- the macro is taken as it was read, so that it is not read anew for each name
  have hread : shadowed
      = { shadowed with macros := [("printf", ⟨"printf", some ["f", "x"], "x", 1⟩)] } := by
    rw [← macros_shadowed]
  rw [trace, Program.trace_of_category analyze_shadowed category_shadowed, hread]
  decide +kernel

end Printing

/-- Where `printf` is the function, the elements are filled and printed in order. -/
theorem plain_printing_shows_score :
    Printing.plain.category = .dynamicAllocation ∧ (Printing.trace Printing.plain).ok = true ∧
      (∀ m, Printing.plain.macros.find? "printf" = some m → m.parameters = none) ∧
      Allocation.PrintsPlainly Printing.plain ∧
      (Printing.trace Printing.plain).ShowsScore Printing.plain.tokens ⟨Printing.plain, {}⟩ := by
  have hprintf : ∀ m, Printing.plain.macros.find? "printf" = some m → m.parameters = none :=
    fun m hm => by cases hm
  have hplain : Allocation.PrintsPlainly Printing.plain := Printing.printsPlainly rfl rfl rfl
  exact ⟨Printing.category_plain, Printing.plain_ok, hprintf, hplain,
    allocation_shows_score Printing.analyze_plain Printing.category_plain Printing.plain_ok hprintf
      hplain⟩

/-- Where it is a macro with parameters, its expansion is shown as well, though the arguments of the
call call nothing. -/
theorem shadowed_printing_shows_no_score :
    ∃ p source tokens analysis, analyze p source tokens = .ok analysis ∧
      analysis.category = .dynamicAllocation ∧ (p.trace source tokens {}).ok = true ∧
      Allocation.PrintsPlainly analysis ∧
      ¬(p.trace source tokens {}).ShowsScore tokens ⟨analysis, {}⟩ := by
  obtain ⟨hok, step, hstep, hkind⟩ := Printing.shadowed_expands
  refine ⟨_, _, _, _, Printing.analyze_shadowed, Printing.category_shadowed, hok,
    Printing.printsPlainly rfl ?_ ?_, fun hscore => hscore.not_preprocessing step hstep hkind⟩
  · rw [Printing.macros_shadowed]
    rfl
  · rw [Printing.macros_shadowed]
    rfl

end Stepwise
