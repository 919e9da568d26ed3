/-
What a step leaves that cannot be applied.

A step that contradicts the state stops at one entry of one of its parts: a frame is
popped or updated that is not on the stack, an update names a variable that the frame
does not have, a block lies below the heap, or a freed block is brought back. Cut the
step there, behind what it had done, and the cut can be applied; what the step leaves
is what the cut makes of the state. The cut keeps all cells, the changes of frames
before the one that stops, of an update that stops at a variable the variables before
it, and blocks only if all frames could be changed. It prints nothing, because the
console comes last.

The parts are applied entry by entry by the same kind of loop, so where such a loop
stops is told once (`stops_iff`) and used for the variables of a frame, the frames and
the blocks.
-/
import Stepwise.Proofs.State

set_option autoImplicit false

namespace Stepwise

namespace State

/-! ## Loops that stop -/

section Loops

variable {α : Type} {one : State → α → Applied} {all : State → List α → Applied}

/-- A loop over entries: each is applied to the state that those before it made, and the first that
cannot be applied ends it. -/
structure IsLoop (one : State → α → Applied) (all : State → List α → Applied) : Prop where
  nil : ∀ s, all s [] = .ok s
  cons : ∀ s a rest, all s (a :: rest) = match one s a with
    | .ok s => all s rest
    | .error e => .error e

theorem IsLoop.append (h : IsLoop one all) {s reached : State} {before : List α}
    (hbefore : all s before = .ok reached) (after : List α) :
    all s (before ++ after) = all reached after := by
  induction before generalizing s with
  | nil =>
    rw [h.nil] at hbefore
    rw [← Except.ok.inj hbefore, List.nil_append]
  | cons a before ih =>
    rw [h.cons] at hbefore
    rw [List.cons_append, h.cons]
    cases ha : one s a with
    | error e =>
      rw [ha] at hbefore
      cases hbefore
    | ok s₁ =>
      rw [ha] at hbefore
      exact ih hbefore

/-- Entries can be applied one after the other if the first of them can, and then the rest. -/
theorem IsLoop.append_eq_ok_iff (h : IsLoop one all) {s reached : State} {before after : List α} :
    all s (before ++ after) = .ok reached ↔
      ∃ between, all s before = .ok between ∧ all between after = .ok reached := by
  constructor
  · intro happly
    induction before generalizing s with
    | nil => exact ⟨s, h.nil s, happly⟩
    | cons a before ih =>
      rw [List.cons_append, h.cons] at happly
      cases ha : one s a with
      | error e =>
        rw [ha] at happly
        cases happly
      | ok s₁ =>
        rw [ha] at happly
        obtain ⟨between, hbefore, hafter⟩ := ih happly
        refine ⟨between, ?_, hafter⟩
        rw [h.cons, ha]
        exact hbefore
  · rintro ⟨between, hbefore, hafter⟩
    rw [h.append hbefore, hafter]

theorem IsLoop.one_eq_ok_iff (h : IsLoop one all) {s reached : State} {a : α} :
    all s [a] = .ok reached ↔ one s a = .ok reached := by
  rw [h.cons]
  cases one s a with
  | error e => simp
  | ok s₁ => simp [h.nil]

/-- A loop stops at the first entry that cannot be applied to what the entries before it made. -/
theorem IsLoop.stops_iff (h : IsLoop one all) {s : State} {entries : List α} {e : Stopped} :
    all s entries = .error e ↔
      ∃ before a after reached, entries = before ++ a :: after ∧ all s before = .ok reached ∧
        one reached a = .error e := by
  constructor
  · intro hstop
    induction entries generalizing s with
    | nil =>
      rw [h.nil] at hstop
      cases hstop
    | cons a entries ih =>
      rw [h.cons] at hstop
      cases ha : one s a with
      | error e' =>
        rw [ha] at hstop
        exact ⟨[], a, entries, s, rfl, h.nil s, ha.trans hstop⟩
      | ok s₁ =>
        -- the loop stops further on, in the state that `a` made
        rw [ha] at hstop
        obtain ⟨before, b, after, reached, rfl, hbefore, hb⟩ := ih hstop
        refine ⟨a :: before, b, after, reached, rfl, ?_, hb⟩
        rw [h.cons, ha]
        exact hbefore
  · rintro ⟨before, a, after, reached, rfl, hbefore, ha⟩
    rw [h.append hbefore, h.cons, ha]

end Loops

/-! ## Variables, frames and blocks that stop -/

/-- Does the frame with a name have the variable? -/
def declares (s : State) (frame name : String) : Bool :=
  (s.frame? frame).any fun f => f.vars.has name

/-- Sets a variable of a frame; an update needs it declared. -/
def applyVariable (frame : String) (action : FrameAction) (s : State) (v : FrameVariable) :
    Applied :=
  if action = .update ∧ s.declares frame v.name = false then
    .error ⟨.undeclaredVariable v.name frame, s⟩
  else .ok (s.setVariable frame v)

theorem applyVariables_isLoop (frame : String) (action : FrameAction) :
    IsLoop (applyVariable frame action) fun s vars => s.applyVariables frame action vars where
  nil _ := rfl
  cons s v rest := by
    -- the loop asks for the variable only if the frame is there; a frame that is not declares none
    show s.applyVariables frame action (v :: rest) = _
    rw [applyVariables, applyVariable, declares]
    cases s.frame? frame with
    | none => by_cases haction : action = .update <;> simp [haction]
    | some f => by_cases hstops : action = .update ∧ f.vars.has v.name = false <;> simp [hstops]

theorem applyStack_isLoop :
    IsLoop (fun s (e : String × FramePatch) => s.applyFrame e.1 e.2) applyStack where
  nil _ := rfl
  cons _ _ _ := rfl

theorem applyHeap_isLoop :
    IsLoop (fun s (e : Number × BlockPatch) => s.applyBlock e.1 e.2) applyHeap where
  nil _ := rfl
  cons _ _ _ := rfl

variable {s : State} {e : Stopped}

theorem applyVariable_eq_error_iff {frame : String} {action : FrameAction} {v : FrameVariable} :
    applyVariable frame action s v = .error e ↔
      action = .update ∧ s.declares frame v.name = false ∧
        e = ⟨.undeclaredVariable v.name frame, s⟩ := by
  unfold applyVariable
  split
  · next hstops => simp [hstops, @eq_comm Stopped e]
  · next hgoes =>
    constructor
    · intro h
      cases h
    · rintro ⟨haction, hmissing, _⟩
      exact absurd ⟨haction, hmissing⟩ hgoes

/-- A change of a frame stops where the frame is missing, or else at a variable that an update does
not find declared; the variables before it are set. -/
theorem applyFrame_eq_error_iff {name : String} {patch : FramePatch} :
    s.applyFrame name patch = .error e ↔
      (patch.action = .remove ∧ s.frame? name = none ∧ e = ⟨.missingFramePopped name, s⟩) ∨
      (patch.action = .update ∧ s.frame? name = none ∧ e = ⟨.missingFrameUpdated name, s⟩) ∨
      ∃ known v more reached, patch.action = .update ∧ patch.vars = known ++ v :: more ∧
        s.applyFrame name { patch with vars := known } = .ok reached ∧
        reached.declares name v.name = false ∧ e = ⟨.undeclaredVariable v.name name, reached⟩ := by
  obtain ⟨action, vars, returnAddress⟩ := patch
  have hvars : ∀ s : State, s.applyVariables name action vars = .error e ↔
      ∃ before v after reached, vars = before ++ v :: after ∧
        s.applyVariables name action before = .ok reached ∧
        applyVariable name action reached v = .error e :=
    fun s => (applyVariables_isLoop name action).stops_iff
  simp only [applyVariable_eq_error_iff] at hvars
  -- only an update asks for its variables, so with `add` the third way is closed by its action
  cases action with
  | remove =>
    cases hframe : s.frame? name with
    | none => simp [applyFrame, hframe, @eq_comm Stopped e]
    | some f => simp [applyFrame, hframe]
  | add =>
    cases hframe : s.frame? name with
    | none => simp [applyFrame, hframe, hvars]
    | some f => simp [applyFrame, hframe, hvars]
  | update =>
    cases hframe : s.frame? name with
    | none => simp [applyFrame, hframe, @eq_comm Stopped e]
    | some f =>
      simp [applyFrame, hframe, hvars]

theorem applyBlock_eq_error_iff {address : Number} {patch : BlockPatch} :
    s.applyBlock address patch = .error e ↔
      (address.less (.int s.heapBase) = true ∧ e = ⟨addressFault .belowHeap address, s⟩) ∨
      (address.less (.int s.heapBase) = false ∧ patch.freed = false ∧
        (∃ block, s.heap.find? address = some block ∧ block.freed = true) ∧
        e = ⟨addressFault .alreadyFreed address, s⟩) := by
  unfold applyBlock
  cases address.less (.int s.heapBase) with
  | true => simp [@eq_comm Stopped e]
  | false =>
    cases s.heap.find? address with
    | none => simp
    | some block =>
      cases hfreed : block.freed <;> cases hpatch : patch.freed <;>
        simp [hfreed, @eq_comm Stopped e]

end State

/-! ## The cut of a change -/

/-- The change can be applied up to a cut, and in the state that the cut reaches its next entry
stops it with the fault. -/
inductive Delta.StopsBehind (d : Delta) : (cut : Delta) → (reached : State) → Fault → Prop where
  /-- A frame is popped that is not there. -/
  | popped {before after : Table String FramePatch} {name : String} {patch : FramePatch}
      {reached : State} :
      d.stack = before ++ (name, patch) :: after → patch.action = .remove →
      reached.frame? name = none →
      StopsBehind d { memory := d.memory, stack := before } reached (.missingFramePopped name)
  /-- A frame is updated that is not there. -/
  | updated {before after : Table String FramePatch} {name : String} {patch : FramePatch}
      {reached : State} :
      d.stack = before ++ (name, patch) :: after → patch.action = .update →
      reached.frame? name = none →
      StopsBehind d { memory := d.memory, stack := before } reached (.missingFrameUpdated name)
  /-- An update names a variable that the frame does not have. -/
  | undeclared {before after : Table String FramePatch} {name : String} {patch : FramePatch}
      {known more : List FrameVariable} {v : FrameVariable} {reached : State} :
      d.stack = before ++ (name, patch) :: after → patch.action = .update →
      patch.vars = known ++ v :: more → reached.declares name v.name = false →
      StopsBehind d
        { memory := d.memory, stack := before ++ [(name, { patch with vars := known })] } reached
        (.undeclaredVariable v.name name)
  /-- A block lies below the heap. -/
  | below {before after : Table Number BlockPatch} {address : Number} {patch : BlockPatch}
      {reached : State} :
      d.heap = before ++ (address, patch) :: after →
      address.less (.int reached.heapBase) = true →
      StopsBehind d { memory := d.memory, stack := d.stack, heap := before } reached
        (State.addressFault .belowHeap address)
  /-- A freed block is brought back. -/
  | revived {before after : Table Number BlockPatch} {address : Number} {patch : BlockPatch}
      {reached : State} :
      d.heap = before ++ (address, patch) :: after →
      address.less (.int reached.heapBase) = false → patch.freed = false →
      (∃ block, reached.heap.find? address = some block ∧ block.freed = true) →
      StopsBehind d { memory := d.memory, stack := d.stack, heap := before } reached
        (State.addressFault .alreadyFreed address)

namespace State

variable {s s' : State}

/-- A change without heap and output is applied by its memory and its stack. -/
theorem applyDelta_stack (memory : Table Number CellPatch) (stack : Table String FramePatch) :
    s.applyDelta { memory := memory, stack := stack } = .ok s' ↔
      (s.applyMemory memory).applyStack stack = .ok s' := by
  rw [applyDelta]
  cases (s.applyMemory memory).applyStack stack with
  | error e => simp
  | ok stacked => simp [applyHeap]

/-- A change without output is applied by its memory, its stack and its heap. -/
theorem applyDelta_heap (memory : Table Number CellPatch) (stack : Table String FramePatch)
    (heap : Table Number BlockPatch) :
    s.applyDelta { memory := memory, stack := stack, heap := heap } = .ok s' ↔
      ∃ stacked, (s.applyMemory memory).applyStack stack = .ok stacked ∧
        stacked.applyHeap heap = .ok s' := by
  rw [applyDelta]
  cases (s.applyMemory memory).applyStack stack with
  | error e => simp
  | ok stacked => cases h : stacked.applyHeap heap <;> simp [h]

/-- A change stops in its stack, or in its heap when all frames were changed. -/
theorem applyDelta_eq_error_iff {d : Delta} {e : Stopped} :
    s.applyDelta d = .error e ↔
      (s.applyMemory d.memory).applyStack d.stack = .error e ∨
      ∃ stacked, (s.applyMemory d.memory).applyStack d.stack = .ok stacked ∧
        stacked.applyHeap d.heap = .error e := by
  rw [applyDelta]
  cases (s.applyMemory d.memory).applyStack d.stack with
  | error e' => simp
  | ok stacked => cases h : stacked.applyHeap d.heap <;> simp [h]

theorem console_of_applyDelta {d : Delta} (h : s.applyDelta d = .ok s') :
    s'.console = s.console ++ d.output := by
  obtain ⟨_, _, _, _, _, _, _, hconsole, _⟩ :=
    @apply_cases s s' ⟨.execution, 0, "", d⟩ h
  exact hconsole

end State

open State

theorem Delta.StopsBehind.output {d cut : Delta} {reached : State} {fault : Fault}
    (h : d.StopsBehind cut reached fault) : cut.output = "" := by
  cases h <;> rfl

variable {s : State} {d : Delta} {fault : Fault} {left : State}

/-- A change that stops in its stack is cut there. -/
theorem Delta.stopsBehind_of_applyStack
    (h : (s.applyMemory d.memory).applyStack d.stack = .error ⟨fault, left⟩) :
    ∃ cut, d.StopsBehind cut left fault ∧ s.applyDelta cut = .ok left := by
  obtain ⟨before, ⟨name, patch⟩, after, reached, hsplit, hbefore, hstop⟩ :=
    applyStack_isLoop.stops_iff.1 h
  rcases applyFrame_eq_error_iff.1 hstop with ⟨haction, hnone, he⟩ | ⟨haction, hnone, he⟩ |
    ⟨known, v, more, between, haction, hvars, hknown, hmissing, he⟩
  · cases he
    exact ⟨_, .popped hsplit haction hnone, (applyDelta_stack _ _).2 hbefore⟩
  · cases he
    exact ⟨_, .updated hsplit haction hnone, (applyDelta_stack _ _).2 hbefore⟩
  · -- the last frame of the cut is the one that stops, with the variables it has set
    cases he
    refine ⟨_, .undeclared hsplit haction hvars hmissing, (applyDelta_stack _ _).2 ?_⟩
    exact applyStack_isLoop.append_eq_ok_iff.2
      ⟨reached, hbefore, applyStack_isLoop.one_eq_ok_iff.2 hknown⟩

/-- A change that stops in its heap is cut there. -/
theorem Delta.stopsBehind_of_applyHeap {stacked : State}
    (hstack : (s.applyMemory d.memory).applyStack d.stack = .ok stacked)
    (h : stacked.applyHeap d.heap = .error ⟨fault, left⟩) :
    ∃ cut, d.StopsBehind cut left fault ∧ s.applyDelta cut = .ok left := by
  obtain ⟨before, ⟨address, patch⟩, after, reached, hsplit, hbefore, hstop⟩ :=
    applyHeap_isLoop.stops_iff.1 h
  rcases applyBlock_eq_error_iff.1 hstop with ⟨hbelow, he⟩ | ⟨habove, hpatch, hblock, he⟩
  · cases he
    exact ⟨_, .below hsplit hbelow, (applyDelta_heap _ _ _).2 ⟨stacked, hstack, hbefore⟩⟩
  · cases he
    exact ⟨_, .revived hsplit habove hpatch hblock,
      (applyDelta_heap _ _ _).2 ⟨stacked, hstack, hbefore⟩⟩

/-- Behind its cut a change stops. -/
theorem Delta.StopsBehind.applyDelta {cut : Delta} (h : d.StopsBehind cut left fault)
    (hcut : s.applyDelta cut = .ok left) : s.applyDelta d = .error ⟨fault, left⟩ := by
  rw [applyDelta_eq_error_iff]
  cases h with
  | popped hsplit haction hnone =>
    refine .inl (applyStack_isLoop.stops_iff.2 ⟨_, _, _, left, hsplit, ?_, ?_⟩)
    · exact (applyDelta_stack _ _).1 hcut
    · exact applyFrame_eq_error_iff.2 (.inl ⟨haction, hnone, rfl⟩)
  | updated hsplit haction hnone =>
    refine .inl (applyStack_isLoop.stops_iff.2 ⟨_, _, _, left, hsplit, ?_, ?_⟩)
    · exact (applyDelta_stack _ _).1 hcut
    · exact applyFrame_eq_error_iff.2 (.inr (.inl ⟨haction, hnone, rfl⟩))
  | undeclared hsplit haction hvars hmissing =>
    -- the change stops in the frame that the cut ends with, so the state before it is needed
    obtain ⟨reached, hbefore, hknown⟩ :=
      applyStack_isLoop.append_eq_ok_iff.1 ((applyDelta_stack _ _).1 hcut)
    refine .inl (applyStack_isLoop.stops_iff.2 ⟨_, _, _, reached, hsplit, hbefore, ?_⟩)
    exact applyFrame_eq_error_iff.2 (.inr (.inr ⟨_, _, _, left, haction, hvars,
      applyStack_isLoop.one_eq_ok_iff.1 hknown, hmissing, rfl⟩))
  | below hsplit hbelow =>
    obtain ⟨stacked, hstack, hbefore⟩ := (applyDelta_heap _ _ _).1 hcut
    refine .inr ⟨stacked, hstack, applyHeap_isLoop.stops_iff.2 ⟨_, _, _, left, hsplit, hbefore, ?_⟩⟩
    exact applyBlock_eq_error_iff.2 (.inl ⟨hbelow, rfl⟩)
  | revived hsplit habove hpatch hblock =>
    obtain ⟨stacked, hstack, hbefore⟩ := (applyDelta_heap _ _ _).1 hcut
    refine .inr ⟨stacked, hstack, applyHeap_isLoop.stops_iff.2 ⟨_, _, _, left, hsplit, hbefore, ?_⟩⟩
    exact applyBlock_eq_error_iff.2 (.inr ⟨habove, hpatch, hblock, rfl⟩)

/-- **What a failing step leaves.** A step stops with a fault if and only if it can be applied up to
a cut behind which its next entry stops it with that fault. What it leaves is what the cut makes of
the state, and nothing is printed. -/
theorem failing_steps_leave_their_cut (s : State) (step : Step) (fault : Fault) (left : State) :
    s.apply step = .error ⟨fault, left⟩ ↔
      left.console = s.console ∧
      ∃ cut, step.delta.StopsBehind cut left fault ∧ s.applyDelta cut = .ok left := by
  constructor
  · intro h
    have hcut : ∃ cut, step.delta.StopsBehind cut left fault ∧ s.applyDelta cut = .ok left := by
      rcases applyDelta_eq_error_iff.1 h with hstack | ⟨stacked, hstack, hheap⟩
      · exact Delta.stopsBehind_of_applyStack hstack
      · exact Delta.stopsBehind_of_applyHeap hstack hheap
    obtain ⟨cut, hstops, hreaches⟩ := hcut
    refine ⟨?_, cut, hstops, hreaches⟩
    rw [console_of_applyDelta hreaches, hstops.output, String.append_empty]
  · rintro ⟨_, cut, hstops, hreaches⟩
    exact hstops.applyDelta hreaches

end Stepwise
