/-
Executions that differ in their wording.

A step says in words what it shows, and a fault about an expression quotes it.
Neither is anything that an execution depends on: nothing reads the words of a step
again, and whatever tells faults apart goes by their kind. So two executions may be
held against each other apart from the wording, and that is a likeness as well.
-/
import Stepwise.Proofs.Operations
import Stepwise.Trace

set_option autoImplicit false

namespace Stepwise

variable {σ α β : Type}

/-- The fault without the text of the expression that it is about. -/
def Fault.unworded : Fault → Fault
  | uninitializedOperand _ => uninitializedOperand ""
  | notAssignable _ => notAssignable ""
  | fault => fault

/-- The step without its description. -/
def Step.unworded (s : Step) : Step :=
  { s with description := "" }

/-- The machine without the descriptions of the steps it has shown. -/
def Machine.unworded (m : Machine) : Machine :=
  { m with steps := m.steps.map Step.unworded }

/-- The trace without the descriptions of its steps, and with its fault unworded. -/
def Trace.unworded (t : Trace) : Trace :=
  { t with steps := t.steps.map Step.unworded, fault := t.fault.map Fault.unworded }

/-! ## Results -/

/-- Two results that resemble each other: both are values so related, or both are faults that
differ at most in their wording. -/
inductive Resembles (R : α → α → Prop) : Except Fault α → Except Fault α → Prop
  | ok {a b : α} (h : R a b) : Resembles R (.ok a) (.ok b)
  | error {f g : Fault} (h : f.unworded = g.unworded) : Resembles R (.error f) (.error g)

theorem Resembles.bind {R : α → α → Prop} {Q : β → β → Prop} {r s : Except Fault α}
    {k l : α → Except Fault β} (h : Resembles R r s)
    (hk : ∀ a b, R a b → Resembles Q (k a) (l b)) : Resembles Q (r >>= k) (s >>= l) := by
  cases h with
  | ok h => exact hk _ _ h
  | error h => exact .error h

theorem Resembles.imp {R Q : α → α → Prop} {r s : Except Fault α} (h : Resembles R r s)
    (hRQ : ∀ a b, r = .ok a → R a b → Q a b) : Resembles Q r s := by
  cases h with
  | ok h => exact .ok (hRQ _ _ rfl h)
  | error h => exact .error h

/-- Two results that are the same apart from the wording of a fault. -/
abbrev SameResult (r s : Except Fault α) : Prop :=
  Resembles Eq r s

theorem SameResult.refl (r : Except Fault α) : SameResult r r := by
  cases r with
  | ok a => exact .ok rfl
  | error fault => exact .error rfl

theorem SameResult.bind {r s : Except Fault α} {k l : α → Except Fault β} (h : SameResult r s)
    (hk : ∀ a, SameResult (k a) (l a)) : SameResult (r >>= k) (s >>= l) := by
  refine Resembles.bind h fun a b hab => ?_
  subst hab
  exact hk a

theorem SameResult.mapM {items : List α} {f g : α → Except Fault β}
    (h : ∀ a, SameResult (f a) (g a)) : SameResult (items.mapM f) (items.mapM g) := by
  induction items with
  | nil =>
    rw [List.mapM_nil, List.mapM_nil]
    exact .refl _
  | cons a items ih =>
    rw [List.mapM_cons, List.mapM_cons]
    exact (h a).bind fun _ => ih.bind fun _ => .refl _

theorem SameResult.foldlM {items : List α} {f g : β → α → Except Fault β}
    (h : ∀ b a, SameResult (f b a) (g b a)) (b : β) :
    SameResult (items.foldlM f b) (items.foldlM g b) := by
  induction items generalizing b with
  | nil => exact .refl _
  | cons a items ih => exact (h b a).bind fun _ => ih _

/-! ## Computations -/

/-- From states so related, the two computations have results that resemble each other: the same
values, and states so related. -/
def Likeness.resembling (same : σ → σ → Prop) : Likeness σ where
  rel c d := ∀ s t, same s t → Resembles (fun p q => p.1 = q.1 ∧ same p.2 q.2) (c s) (d t)
  pure _ _ _ h := .ok ⟨rfl, h⟩
  fail _ _ _ _ _ := .error rfl
  bind hc hk s t h := by
    refine Resembles.bind (hc s t h) ?_
    rintro ⟨a, s'⟩ ⟨b, t'⟩ ⟨hab, hsame⟩
    dsimp only at hab hsame
    subst hab
    exact hk a s' t' hsame

/-- Faults that differ at most in their wording are alike. -/
def Likeness.Rewords (L : Likeness σ) : Prop :=
  ∀ {α : Type} {f g : Fault}, f.unworded = g.unworded →
    L.rel (Eval.fail f : Eval σ α) (Eval.fail g)

theorem Likeness.resembling_rewords (same : σ → σ → Prop) :
    (Likeness.resembling same).Rewords :=
  fun h _ _ _ => .error h

theorem Likeness.Rewords.lift {L : Likeness σ} (hL : L.Rewords) {r s : Except Fault α}
    (h : SameResult r s) : L.rel (Eval.lift r) (Eval.lift s) := by
  cases h with
  | ok h =>
    subst h
    exact L.pure _
  | error h => exact hL h

/-! ## The machine -/

namespace Machine

/-- The two machines are the same apart from the wording of their steps. -/
def Same (m m' : Machine) : Prop :=
  m.unworded = m'.unworded

variable {m m' : Machine}

/-- Machines that are the same apart from the wording of their steps differ in nothing but their
steps. -/
theorem Same.eq_with_steps (h : m.Same m') :
    m' = { m with steps := m'.steps } ∧
      m'.steps.map Step.unworded = m.steps.map Step.unworded := by
  have hsteps : m'.steps.map Step.unworded = m.steps.map Step.unworded :=
    congrArg Machine.steps (Eq.symm h)
  cases m
  cases m'
  simp only [Same, unworded, mk.injEq] at h
  obtain ⟨rfl, rfl, -, rfl, rfl, rfl, rfl, rfl, rfl, rfl, rfl, rfl⟩ := h
  exact ⟨rfl, hsteps⟩

theorem same_with_steps {steps : Array Step}
    (h : steps.map Step.unworded = m.steps.map Step.unworded) :
    m.Same { m with steps := steps } := by
  unfold Same unworded
  rw [h]

theorem Unrecorded.eq {f : Machine → α} (hf : Unrecorded f) (h : m.Same m') : f m' = f m := by
  rw [h.eq_with_steps.1]
  exact hf m m'.steps m.journal

theorem Unrecording.same {f : Machine → Machine} (hf : Unrecording f) (h : m.Same m') :
    (f m).Same (f m') := by
  obtain ⟨events, hf⟩ := hf m
  have hself : f m = { f m with steps := m.steps, journal := events ++ m.journal } :=
    hf m.steps m.journal
  have hkeeps : (f m).steps = m.steps := by rw [hself]
  have hjournal : (f m).journal = events ++ m.journal := by rw [hself]
  obtain ⟨hm', hsteps⟩ := h.eq_with_steps
  have hf' : f m' = { f m with steps := m'.steps } := by
    rw [hm', hf m'.steps m.journal, ← hjournal]
  rw [hf']
  refine same_with_steps ?_
  rw [hkeeps]
  exact hsteps

end Machine

/-- Computations of the machine that do the same apart from their wording. -/
abbrev wording : Likeness Machine :=
  .resembling Machine.Same

namespace Run

theorem ask_resembles {f : Machine → α} (hf : Machine.Unrecorded f) :
    wording.rel (ask f) (ask f) :=
  fun _ _ h => .ok ⟨(hf.eq h).symm, h⟩

theorem query_resembles {f : Machine → Except Fault α} (hf : Machine.Unrecorded f) :
    wording.rel (query f) (query f) := by
  intro m m' h
  unfold query
  rw [hf.eq h]
  cases f m with
  | ok a => exact .ok ⟨rfl, h⟩
  | error fault => exact .error rfl

theorem change_resembles {f : Machine → Machine} (hf : Machine.Unrecording f) :
    wording.rel (change f) (change f) :=
  fun _ _ h => .ok ⟨rfl, hf.same h⟩

theorem write_resembles (address value : Value) :
    wording.rel (write address value) (write address value) := by
  intro m m' h
  unfold write attempt Machine.write
  obtain ⟨hm', hsteps⟩ := h.eq_with_steps
  rw [hm']
  cases Machine.addressOf address with
  | error fault => exact .error rfl
  | ok a =>
    dsimp only [bind, Except.bind]
    by_cases hfound : m.state.memory.has a = true
    · rw [if_pos hfound, if_pos hfound]
      exact .ok ⟨rfl, Machine.same_with_steps hsteps⟩
    · rw [if_neg hfound, if_neg hfound]
      exact .error rfl

theorem allocateStack_resembles (size : Int) :
    wording.rel (allocateStack size) (allocateStack size) := by
  intro m m' h
  unfold allocateStack
  obtain ⟨hm', hsteps⟩ := h.eq_with_steps
  rw [hm']
  dsimp only
  cases m.cursor.stack size with
  | error fault => exact .error rfl
  | ok found => exact .ok ⟨rfl, Machine.same_with_steps hsteps⟩

theorem allocateHeap_resembles (size : Int) :
    wording.rel (allocateHeap size) (allocateHeap size) := by
  intro m m' h
  obtain ⟨hm', hsteps⟩ := h.eq_with_steps
  rw [hm']
  exact .ok ⟨rfl, Machine.same_with_steps hsteps⟩

/-- A step does not show in what follows how it was described. -/
theorem emitDelta_resembles {S T : Setup} (hST : S.Kindred T)
    (kind : StepKind) (line : Int) (description description' : String) (delta : Delta) :
    wording.rel (emitDelta S kind line description delta)
      (emitDelta T kind line description' delta) := by
  intro m m' h
  obtain ⟨hm', hsteps⟩ := h.eq_with_steps
  unfold emitDelta attempt Machine.emit
  rw [hm', hST.clamp]
  -- the change that a step makes is the same whatever its description
  have happly : m.state.apply (Machine.nextStep { m with steps := m'.steps } kind
        (S.analysis.clamp line) description' delta) =
      m.state.apply (m.nextStep kind (S.analysis.clamp line) description delta) := rfl
  dsimp only
  rw [happly]
  cases m.state.apply (m.nextStep kind (S.analysis.clamp line) description delta) with
  | error e => exact .error rfl
  | ok state =>
    refine .ok ⟨rfl, Machine.same_with_steps ?_⟩
    rw [Array.map_push, Array.map_push, hsteps]
    rfl

end Run

theorem wording_operates {S T : Setup} (hST : S.Kindred T) (hsettings : T.settings = S.settings)
    (hspare : T.analysis.spare = S.analysis.spare) : wording.Operates S T where
  kindred := hST
  settings := hsettings
  ask _ hf := Run.ask_resembles hf
  query _ _ hf := Run.query_resembles hf
  change _ hf := Run.change_resembles hf
  write := Run.write_resembles
  allocateStack := Run.allocateStack_resembles
  allocateHeap := Run.allocateHeap_resembles
  emitDelta kind line description := Run.emitDelta_resembles hST kind line description _
  objectCells _ _ _ _ := by
    rw [hST.layouts, hspare]
    exact Likeness.Rewords.lift (Likeness.resembling_rewords _) (.refl _)

end Stepwise
