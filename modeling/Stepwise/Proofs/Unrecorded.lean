/-
Executions that differ in their record.

A machine keeps a record of what it has done: the steps it has shown, and its journal.
Nothing that is executed depends on the record, so two executions may be held against
each other apart from it, and that is a likeness. What is left is what a program does:
memory, stack, heap and console, what is held back for them, the room that is taken and
the open files.
-/
import Stepwise.Proofs.Phrasing

set_option autoImplicit false

namespace Stepwise

variable {α : Type}

/-- The two machines are the same apart from their records. -/
def Machine.SameEffects (m m' : Machine) : Prop :=
  ∃ steps journal, m' = { m with steps := steps, journal := journal }

namespace Machine.SameEffects

variable {m m' m'' : Machine}

theorem refl (m : Machine) : m.SameEffects m :=
  ⟨m.steps, m.journal, rfl⟩

theorem symm (h : m.SameEffects m') : m'.SameEffects m := by
  obtain ⟨steps, journal, rfl⟩ := h
  exact ⟨m.steps, m.journal, rfl⟩

theorem trans (h : m.SameEffects m') (h' : m'.SameEffects m'') : m.SameEffects m'' := by
  obtain ⟨steps, journal, rfl⟩ := h
  obtain ⟨steps', journal', rfl⟩ := h'
  exact ⟨steps', journal', rfl⟩

theorem hasPending (h : m.SameEffects m') : m'.hasPending = m.hasPending := by
  obtain ⟨steps, journal, rfl⟩ := h
  rfl

end Machine.SameEffects

/-- Computations of the machine that do the same, apart from what they record. -/
abbrev effects : Likeness Machine :=
  .resembling Machine.SameEffects

namespace Run

theorem ask_sameEffects {f : Machine → α} (hf : Machine.Unrecorded f) :
    effects.rel (ask f) (ask f) := by
  intro m m' h
  have hsame : f m' = f m := by
    obtain ⟨steps, journal, rfl⟩ := h
    exact hf m steps journal
  exact .ok ⟨hsame.symm, h⟩

theorem query_sameEffects {f : Machine → Except Fault α} (hf : Machine.Unrecorded f) :
    effects.rel (query f) (query f) := by
  intro m m' h
  have hsame : f m' = f m := by
    obtain ⟨steps, journal, rfl⟩ := h
    exact hf m steps journal
  unfold query
  rw [hsame]
  cases f m with
  | ok a => exact .ok ⟨rfl, h⟩
  | error fault => exact .error rfl

theorem change_sameEffects {f : Machine → Machine} (hf : Machine.Unrecording f) :
    effects.rel (change f) (change f) := by
  rintro m m' ⟨steps, journal, rfl⟩
  obtain ⟨events, hf⟩ := hf m
  exact .ok ⟨rfl, steps, events ++ journal, hf steps journal⟩

theorem write_sameEffects (address value : Value) :
    effects.rel (write address value) (write address value) := by
  rintro m m' ⟨steps, journal, rfl⟩
  unfold write attempt Machine.write
  cases Machine.addressOf address with
  | error fault => exact .error rfl
  | ok a =>
    dsimp only [bind, Except.bind]
    by_cases hfound : m.state.memory.has a = true
    · rw [if_pos hfound, if_pos hfound]
      exact .ok ⟨rfl, steps, .wrote a value :: journal, rfl⟩
    · rw [if_neg hfound, if_neg hfound]
      exact .error rfl

theorem allocateStack_sameEffects (size : Int) :
    effects.rel (allocateStack size) (allocateStack size) := by
  rintro m m' ⟨steps, journal, rfl⟩
  unfold allocateStack
  dsimp only
  cases m.cursor.stack size with
  | error fault => exact .error rfl
  | ok found => exact .ok ⟨rfl, steps, journal, rfl⟩

theorem allocateHeap_sameEffects (size : Int) :
    effects.rel (allocateHeap size) (allocateHeap size) := by
  rintro m m' ⟨steps, journal, rfl⟩
  exact .ok ⟨rfl, steps, journal, rfl⟩

/-- The change that a step makes does not depend on the record, nor on anything else that the step
says; and only the record keeps the step. -/
theorem emitDelta_sameEffects {setup : Setup} {kind kind' : StepKind} {line line' : Int}
    {description description' : String} {delta : Delta} :
    effects.rel (emitDelta setup kind line description delta)
      (emitDelta setup kind' line' description' delta) := by
  rintro m m' ⟨steps, journal, rfl⟩
  unfold emitDelta attempt Machine.emit
  have happly : m.state.apply
        (Machine.nextStep { m with steps := steps, journal := journal } kind'
          (setup.analysis.clamp line') description' delta)
      = m.state.apply (m.nextStep kind (setup.analysis.clamp line) description delta) := rfl
  dsimp only
  rw [happly]
  cases m.state.apply (m.nextStep kind (setup.analysis.clamp line) description delta) with
  | error e => exact .error rfl
  | ok state => exact .ok ⟨rfl, _, _, rfl⟩

end Run

/-! ## Executions -/

theorem effects_operates (S : Setup) : effects.Operates S S where
  kindred := .refl S
  settings := rfl
  ask _ hf := Run.ask_sameEffects hf
  query _ _ hf := Run.query_sameEffects hf
  change _ hf := Run.change_sameEffects hf
  write := Run.write_sameEffects
  allocateStack := Run.allocateStack_sameEffects
  allocateHeap := Run.allocateHeap_sameEffects
  emitDelta _ _ _ _ := Run.emitDelta_sameEffects
  objectCells _ _ _ _ := Likeness.Rewords.lift (Likeness.resembling_rewords _) (.refl _)

theorem effects_plays (S : Setup) : effects.Plays S S :=
  Operations.plays (effects_operates S)

theorem effects_evaluates (S : Setup) : EvaluatesAlike effects S S := by
  intro call call' hcall scope e
  exact evaluate_alike (fun _ _ _ => .error rfl)
    (Parallel.machineHost_alike (effects_plays S).toActs rfl hcall) _ scope e

/-- What a call of a function does, does not depend on the record. -/
theorem effects_invoke (S : Setup) (category : Category) (budget : Nat) {f : Function}
    (hf : S.analysis.program.function? f.name = some f) (scope : Scope) (arguments : List Typed)
    (line : Nat) :
    effects.rel (invoke S category.commentary budget f scope arguments line)
      (invoke S category.commentary budget f scope arguments line) := by
  have hzero : ∀ f scope arguments line,
      effects.rel (invoke S category.commentary 0 f scope arguments line)
        (invoke S category.commentary 0 f scope arguments line) :=
    fun _ _ _ _ => effects.fail _ (by simp)
  exact Parallel.invoke_alike (effects_plays S)
    (Parallel.commentary_alike (effects_plays S).toExecutes category) (effects_evaluates S)
    (fun _ _ _ _ _ => .error rfl) hzero budget hf scope arguments line

/-- How expressions are evaluated inside a call. -/
theorem effects_evaluateWith (S : Setup) (category : Category) (budget : Nat) (scope : Scope)
    (e : Expr) :
    effects.rel (evaluateWith S (callBy S (invoke S category.commentary budget)) scope e)
      (evaluateWith S (callBy S (invoke S category.commentary budget)) scope e) :=
  effects_evaluates S _ _
    (fun _ _ _ _ => Parallel.callBy_alike (effects_plays S).toActs fun _ hf =>
      effects_invoke S category budget (Parallel.function?_name hf) _ _ _)
    scope e

end Stepwise
