/-
What applying a step does to each part of a state.

The parts of a step are applied one after the other, and each of them leaves the
other parts of the state alone. So the memory after a step is the memory before it
with the step's cells put in, the stack is changed by the stack part alone, and so
on; `apply_cases` takes a step apart in this way. Which cell is found at an address
after a step, and what it holds, is read off the step first and off the old memory
otherwise.
-/
import Stepwise.Machine.State
import Stepwise.Proofs.Number
import Stepwise.Proofs.Table

set_option autoImplicit false

namespace Stepwise

/-- What a cell is and holds, wherever it is. -/
def Cell.contents (c : Cell) : CellPatch :=
  ⟨c.value, c.name, c.type⟩

namespace State

/-! ## Memory -/

theorem applyMemory_cons (s : State) (e : Number × CellPatch) (patches : Table Number CellPatch) :
    s.applyMemory (e :: patches) =
      ({ s with memory := s.memory.put e.1 (patchCell e.1 e.2 (s.memory.find? e.1)) }).applyMemory
        patches := rfl

theorem applyMemory_beside (s : State) (patches : Table Number CellPatch) :
    (s.applyMemory patches).stack = s.stack ∧ (s.applyMemory patches).heap = s.heap ∧
      (s.applyMemory patches).console = s.console ∧
      (s.applyMemory patches).heapBase = s.heapBase := by
  induction patches generalizing s with
  | nil => exact ⟨rfl, rfl, rfl, rfl⟩
  | cons e patches ih =>
    rw [applyMemory_cons]
    exact ih _

theorem patchCell_contents (address : Number) (patch : CellPatch) (old : Option Cell) :
    (patchCell address patch old).contents = patch := by
  cases old <;> rfl

/-- A cell that a step shows has what the step says; any other is as it was. -/
theorem contents_applyMemory {s : State} {patches : Table Number CellPatch} (h : patches.Apart)
    (a : Number) :
    ((s.applyMemory patches).memory.find? a).map Cell.contents
      = (patches.find? a).or ((s.memory.find? a).map Cell.contents) := by
  induction patches generalizing s with
  | nil => rfl
  | cons e patches ih =>
    obtain ⟨hhead, htail⟩ := List.pairwise_cons.1 h
    rw [applyMemory_cons, ih htail, Table.find?_put, Table.find?_cons]
    by_cases he : (e.1 == a) = true
    · have hnone : Table.find? patches a = none := by
        rw [Table.find?_eq_none_iff]
        intro f hf
        cases hfa : f.1 == a with
        | false => rfl
        | true =>
          have hef : (e.1 == f.1) = true := PartialEquivBEq.trans he (BEq.symm hfa)
          rw [hhead f hf] at hef
          cases hef
      rw [if_pos he, if_pos he, hnone, Option.map_some, patchCell_contents]
      rfl
    · rw [if_neg he, if_neg he]

/-! ## Stack -/

/-- Variables are set one after the other, and an update finds each of them declared. -/
theorem applyVariables_cons_cases {s s' : State} {frame : String} {action : FrameAction}
    {v : FrameVariable} {vars : List FrameVariable}
    (h : s.applyVariables frame action (v :: vars) = .ok s') :
    (action = .update → ∃ f, s.frame? frame = some f ∧ f.vars.has v.name = true) ∧
      (s.setVariable frame v).applyVariables frame action vars = .ok s' := by
  unfold applyVariables at h
  cases hf : s.frame? frame with
  | none =>
    rw [hf] at h
    dsimp only at h
    split at h
    · cases h
    · next hnot => exact ⟨fun hu => absurd ⟨hu, rfl⟩ hnot, h⟩
  | some f =>
    rw [hf] at h
    dsimp only at h
    split at h
    · cases h
    · next hnot =>
      refine ⟨fun hu => ⟨f, rfl, ?_⟩, h⟩
      cases hv : f.vars.has v.name with
      | true => rfl
      | false => exact absurd ⟨hu, by rw [hv]; rfl⟩ hnot

theorem applyVariables_beside {s s' : State} {frame : String} {action : FrameAction}
    {vars : List FrameVariable} (h : s.applyVariables frame action vars = .ok s') :
    s'.memory = s.memory ∧ s'.heap = s.heap ∧ s'.console = s.console ∧ s'.heapBase = s.heapBase := by
  induction vars generalizing s with
  | nil =>
    obtain rfl := Except.ok.inj h
    exact ⟨rfl, rfl, rfl, rfl⟩
  | cons v vars ih =>
    have hrest := ih (applyVariables_cons_cases h).2
    exact hrest

theorem applyFrame_beside {s s' : State} {name : String} {patch : FramePatch}
    (h : s.applyFrame name patch = .ok s') :
    s'.memory = s.memory ∧ s'.heap = s.heap ∧ s'.console = s.console ∧ s'.heapBase = s.heapBase := by
  unfold applyFrame at h
  split at h
  · cases h
  · obtain rfl := Except.ok.inj h
    exact ⟨rfl, rfl, rfl, rfl⟩
  · cases h
  · have hfresh := applyVariables_beside h
    exact hfresh
  · exact applyVariables_beside h

theorem applyStack_beside {s s' : State} {patches : Table String FramePatch}
    (h : s.applyStack patches = .ok s') :
    s'.memory = s.memory ∧ s'.heap = s.heap ∧ s'.console = s.console ∧ s'.heapBase = s.heapBase := by
  induction patches generalizing s with
  | nil =>
    obtain rfl := Except.ok.inj h
    exact ⟨rfl, rfl, rfl, rfl⟩
  | cons e patches ih =>
    rw [applyStack] at h
    cases he : s.applyFrame e.1 e.2 with
    | error stopped =>
      rw [he] at h
      cases h
    | ok s₁ =>
      rw [he] at h
      obtain ⟨h₁, h₂, h₃, h₄⟩ := ih h
      obtain ⟨g₁, g₂, g₃, g₄⟩ := applyFrame_beside he
      exact ⟨h₁.trans g₁, h₂.trans g₂, h₃.trans g₃, h₄.trans g₄⟩

/-! ## Heap -/

theorem applyBlock_beside {s s' : State} {address : Number} {patch : BlockPatch}
    (h : s.applyBlock address patch = .ok s') :
    s'.memory = s.memory ∧ s'.stack = s.stack ∧ s'.console = s.console ∧
      s'.heapBase = s.heapBase := by
  unfold applyBlock at h
  split at h
  · cases h
  · split at h
    · obtain rfl := Except.ok.inj h
      exact ⟨rfl, rfl, rfl, rfl⟩
    · split at h
      · cases h
      · obtain rfl := Except.ok.inj h
        exact ⟨rfl, rfl, rfl, rfl⟩

theorem applyHeap_beside {s s' : State} {patches : Table Number BlockPatch}
    (h : s.applyHeap patches = .ok s') :
    s'.memory = s.memory ∧ s'.stack = s.stack ∧ s'.console = s.console ∧
      s'.heapBase = s.heapBase := by
  induction patches generalizing s with
  | nil =>
    obtain rfl := Except.ok.inj h
    exact ⟨rfl, rfl, rfl, rfl⟩
  | cons e patches ih =>
    rw [applyHeap] at h
    cases he : s.applyBlock e.1 e.2 with
    | error stopped =>
      rw [he] at h
      cases h
    | ok s₁ =>
      rw [he] at h
      obtain ⟨h₁, h₂, h₃, h₄⟩ := ih h
      obtain ⟨g₁, g₂, g₃, g₄⟩ := applyBlock_beside he
      exact ⟨h₁.trans g₁, h₂.trans g₂, h₃.trans g₃, h₄.trans g₄⟩

/-! ## Steps -/

/-- A step that can be applied changes each part of the state by the matching part of the step. -/
theorem apply_cases {s s' : State} {step : Step} (h : s.apply step = .ok s') :
    ∃ stacked heaped,
      (s.applyMemory step.delta.memory).applyStack step.delta.stack = .ok stacked ∧
      stacked.applyHeap step.delta.heap = .ok heaped ∧
      s'.memory = (s.applyMemory step.delta.memory).memory ∧
      s'.stack = stacked.stack ∧ s'.heap = heaped.heap ∧
      s'.console = s.console ++ step.delta.output ∧ s'.heapBase = s.heapBase := by
  unfold apply applyDelta at h
  cases hstack : (s.applyMemory step.delta.memory).applyStack step.delta.stack with
  | error e =>
    rw [hstack] at h
    cases h
  | ok stacked =>
    rw [hstack] at h
    dsimp only at h
    cases hheap : stacked.applyHeap step.delta.heap with
    | error e =>
      rw [hheap] at h
      cases h
    | ok heaped =>
      rw [hheap] at h
      obtain rfl := Except.ok.inj h
      obtain ⟨_, _, hc₁, hb₁⟩ := applyMemory_beside s step.delta.memory
      obtain ⟨hm₂, _, hc₂, hb₂⟩ := applyStack_beside hstack
      obtain ⟨hm₃, hs₃, hc₃, hb₃⟩ := applyHeap_beside hheap
      refine ⟨stacked, heaped, rfl, hheap, hm₃.trans hm₂, hs₃, rfl, ?_, ?_⟩
      · show heaped.console ++ step.delta.output = s.console ++ step.delta.output
        rw [hc₃, hc₂, hc₁]
      · exact hb₃.trans (hb₂.trans hb₁)

end State

end Stepwise
