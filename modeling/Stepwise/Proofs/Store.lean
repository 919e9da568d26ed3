/-
The order of a state that any steps may have made.

Nothing is asked of the steps here: they may mix additions, updates and removals
as they like, use an address again, or contradict the state they meet, and then
what they had done before stays. So a step is not looked at as a whole. Applying
it is a sequence of *changes*, each of which touches one cell, one frame, one
variable, one block or the console, and a step that stops half way is a shorter
sequence of them. What every change keeps is therefore kept at every moment.

A frame that goes is looked for from the inside, and taken off the stack by
whatever tells it from the others. Since no label occurs twice, it makes no
difference what that is: the frame that goes is the first one that equals it
(`Ordered.applyFrame_remove`).
-/
import Stepwise.Proofs.Frames
import Mathlib.Logic.Relation
import Mathlib.Tactic.SplitIfs

set_option autoImplicit false

namespace Stepwise

open Relation (ReflTransGen)

namespace State

/-! ## Changes -/

/-- A change of a state, as applying a step makes one after the other. -/
inductive Change : State → State → Prop
  /-- A cell gets new contents, or appears. -/
  | cell (s : State) (address : Number) (patch : CellPatch) :
      Change s
        { s with memory := s.memory.put address (patchCell address patch (s.memory.find? address)) }
  /-- A frame appears whose label the stack does not have. -/
  | push (s : State) (frame : Frame) (hnew : s.frame? frame.name = none) (hvars : frame.vars = []) :
      Change s { s with stack := s.stack ++ [frame] }
  /-- A variable of a frame is set. -/
  | set (s : State) (label : String) (v : FrameVariable) : Change s (s.setVariable label v)
  /-- The innermost frame of a label goes. -/
  | pop (s : State) (label : String) : Change s { s with stack := dropFrame label s.stack }
  /-- A block appears at the heap base or above it. -/
  | reserve (s : State) (address : Number) (block : Block)
      (hbase : address.less (.int s.heapBase) = false) (hnew : s.heap.find? address = none) :
      Change s { s with heap := s.heap.put address block }
  /-- A block changes, and is free if it was. -/
  | revise (s : State) (address : Number) (old new : Block)
      (hold : s.heap.find? address = some old) (hfreed : old.freed = true → new.freed = true) :
      Change s { s with heap := s.heap.put address new }
  /-- A text is written to the console. -/
  | print (s : State) (text : String) : Change s { s with console := s.console ++ text }

/-- The state that is left, whether or not the step could be applied. -/
def left : Applied → State
  | .ok s => s
  | .error stopped => stopped.state

theorem applyMemory_changes (s : State) (patches : Table Number CellPatch) :
    ReflTransGen Change s (s.applyMemory patches) := by
  induction patches generalizing s with
  | nil => exact .refl
  | cons e patches ih =>
    rw [applyMemory_cons]
    exact .head (.cell s e.1 e.2) (ih _)

theorem applyVariables_changes (s : State) (label : String) (action : FrameAction)
    (vars : List FrameVariable) :
    ReflTransGen Change s (left (s.applyVariables label action vars)) := by
  induction vars generalizing s with
  | nil => exact .refl
  | cons v vars ih =>
    rw [applyVariables]
    -- an update of a variable that is not declared stops here, with nothing changed
    split_ifs
    · exact .refl
    · exact .head (.set s label v) (ih _)

theorem applyFrame_changes (s : State) (label : String) (patch : FramePatch) :
    ReflTransGen Change s (left (s.applyFrame label patch)) := by
  unfold applyFrame
  split
  · exact .refl
  · exact .single (.pop s label)
  · exact .refl
  · next hnew =>
    exact .head (.push s { name := label, returnAddress := patch.returnAddress } hnew rfl)
      (applyVariables_changes _ label patch.action patch.vars)
  · exact applyVariables_changes s label patch.action patch.vars

theorem applyStack_changes (s : State) (patches : Table String FramePatch) :
    ReflTransGen Change s (left (s.applyStack patches)) := by
  induction patches generalizing s with
  | nil => exact .refl
  | cons e patches ih =>
    have hframe := applyFrame_changes s e.1 e.2
    rw [applyStack]
    cases happly : s.applyFrame e.1 e.2 with
    | error stopped =>
      rw [happly] at hframe
      exact hframe
    | ok s₁ =>
      rw [happly] at hframe
      exact hframe.trans (ih s₁)

theorem applyBlock_changes (s : State) (address : Number) (patch : BlockPatch) :
    ReflTransGen Change s (left (s.applyBlock address patch)) := by
  unfold applyBlock
  by_cases hbelow : address.less (.int s.heapBase) = true
  · rw [if_pos hbelow]
    exact .refl
  · rw [if_neg hbelow]
    rw [Bool.not_eq_true] at hbelow
    cases hfound : s.heap.find? address with
    | none => exact .single (.reserve s address _ hbelow hfound)
    | some block =>
      dsimp only
      by_cases hback : (block.freed && !patch.freed) = true
      · rw [if_pos hback]
        exact .refl
      · rw [if_neg hback]
        refine .single (.revise s address block _ hfound ?_)
        -- a freed block is not reserved again, or the step would have stopped
        intro hfreed
        rw [hfreed, Bool.true_and, Bool.not_eq_true', Bool.not_eq_false] at hback
        exact hback

theorem applyHeap_changes (s : State) (patches : Table Number BlockPatch) :
    ReflTransGen Change s (left (s.applyHeap patches)) := by
  induction patches generalizing s with
  | nil => exact .refl
  | cons e patches ih =>
    have hblock := applyBlock_changes s e.1 e.2
    rw [applyHeap]
    cases happly : s.applyBlock e.1 e.2 with
    | error stopped =>
      rw [happly] at hblock
      exact hblock
    | ok s₁ =>
      rw [happly] at hblock
      exact hblock.trans (ih s₁)

/-- Applying a step, as far as it goes, is a sequence of changes. -/
theorem apply_changes (s : State) (step : Step) : ReflTransGen Change s (left (s.apply step)) := by
  unfold apply applyDelta
  have hmemory := applyMemory_changes s step.delta.memory
  have hstack := applyStack_changes (s.applyMemory step.delta.memory) step.delta.stack
  cases hstacked : (s.applyMemory step.delta.memory).applyStack step.delta.stack with
  | error stopped =>
    rw [hstacked] at hstack
    exact hmemory.trans hstack
  | ok s₁ =>
    rw [hstacked] at hstack
    have hheap := applyHeap_changes s₁ step.delta.heap
    dsimp only
    cases hheaped : s₁.applyHeap step.delta.heap with
    | error stopped =>
      rw [hheaped] at hheap
      exact (hmemory.trans hstack).trans hheap
    | ok s₂ =>
      rw [hheaped] at hheap
      exact ((hmemory.trans hstack).trans hheap).tail (.print s₂ step.delta.output)

/-! ## What every change keeps -/

/-- The keys of a state say what they stand for: no label occurs twice, a cell stands under its own
address and a variable under its own name, and no block stands below the heap base. -/
structure Ordered (s : State) : Prop where
  labels : s.labels.Nodup
  memory : ∀ e ∈ s.memory, e.1 = e.2.address
  vars : ∀ f ∈ s.stack, ∀ e ∈ f.vars, e.1 = e.2.name
  heap : ∀ e ∈ s.heap, e.1.less (.int s.heapBase) = false

/-- The second state has every cell and every block of the first, what was free is free, and what was
written to the console stands at the beginning of it. -/
structure Grows (s t : State) : Prop where
  memory : ∀ address, s.memory.has address = true → t.memory.has address = true
  heap : ∀ address block, s.heap.find? address = some block →
    ∃ later, t.heap.find? address = some later ∧ (block.freed = true → later.freed = true)
  console : s.console.toList <+: t.console.toList
  heapBase : t.heapBase = s.heapBase

theorem Grows.refl (s : State) : s.Grows s :=
  ⟨fun _ h => h, fun _ block h => ⟨block, h, fun hfreed => hfreed⟩, List.prefix_rfl, rfl⟩

theorem Grows.trans {s t u : State} (h : s.Grows t) (h' : t.Grows u) : s.Grows u := by
  refine ⟨fun address hs => h'.memory address (h.memory address hs), ?_,
    h.console.trans h'.console, h'.heapBase.trans h.heapBase⟩
  intro address block hblock
  obtain ⟨later, hlater, hfreed⟩ := h.heap address block hblock
  obtain ⟨last, hlast, hfreed'⟩ := h'.heap address later hlater
  exact ⟨last, hlast, fun hf => hfreed' (hfreed hf)⟩

/-- A state that differs in its stack only has grown. -/
theorem Grows.of_stack (s : State) (stack : List Frame) : s.Grows { s with stack := stack } :=
  ⟨fun _ h => h, fun _ block h => ⟨block, h, fun hfreed => hfreed⟩, List.prefix_rfl, rfl⟩

theorem mem_changeFrame {label : String} {change : Frame → Frame} {stack : List Frame} {f : Frame}
    (h : f ∈ changeFrame label change stack) : f ∈ stack ∨ ∃ g ∈ stack, f = change g := by
  induction stack with
  | nil => cases h
  | cons g stack ih =>
    rw [changeFrame] at h
    split at h
    · rcases List.mem_cons.1 h with rfl | h
      · exact Or.inr ⟨g, List.mem_cons_self, rfl⟩
      · exact Or.inl (List.mem_cons_of_mem _ h)
    · rcases List.mem_cons.1 h with rfl | h
      · exact Or.inl List.mem_cons_self
      · rcases ih h with h | ⟨g', hg', rfl⟩
        · exact Or.inl (List.mem_cons_of_mem _ h)
        · exact Or.inr ⟨g', List.mem_cons_of_mem _ hg', rfl⟩

theorem Change.ordered {s t : State} (h : Change s t) (hs : s.Ordered) : t.Ordered := by
  cases h with
  | cell address patch =>
    refine ⟨hs.labels, ?_, hs.vars, hs.heap⟩
    intro e he
    rcases Table.mem_put_cases he with he | ⟨hnone, rfl⟩ | ⟨cell, hcell, hmem, hvalue⟩
    · exact hs.memory e he
    · -- a new cell is given the address it is put under
      show address = (patchCell address patch (s.memory.find? address)).address
      rw [hnone]
      rfl
    · -- a known cell keeps its address, and its key is the one that came first
      rw [hvalue, hcell]
      exact hs.memory _ hmem
  | push frame hnew hvars =>
    refine ⟨?_, hs.memory, ?_, hs.heap⟩
    · show ((s.stack ++ [frame]).map Frame.name).Nodup
      rw [List.map_append, List.map_singleton, ← List.concat_eq_append]
      exact List.Nodup.concat (frameIn_eq_none_iff.1 hnew) hs.labels
    · intro f hf
      rcases List.mem_append.1 hf with hf | hf
      · exact hs.vars f hf
      · rw [List.mem_singleton.1 hf, hvars]
        intro e he
        cases he
  | set label v =>
    refine ⟨?_, hs.memory, ?_, hs.heap⟩
    · -- the frame that changes keeps its label
      show ((changeFrame label _ s.stack).map Frame.name).Nodup
      rw [map_name_changeFrame]
      · exact hs.labels
      · intro f
        rfl
    · intro f hf
      rcases mem_changeFrame hf with hf | ⟨g, hg, rfl⟩
      · exact hs.vars f hf
      · intro e he
        rcases Table.mem_put he with he | rfl | ⟨hkey, hvalue, _⟩
        · exact hs.vars g hg e he
        · rfl
        · rw [hvalue]
          exact eq_of_beq hkey
  | pop label =>
    -- the frames that stay are some of the old ones, in their order
    refine ⟨nodup_dropFrame hs.labels, hs.memory, ?_, hs.heap⟩
    intro f hf
    exact hs.vars f ((dropFrame_sublist label s.stack).subset hf)
  | reserve address block hbase hnew =>
    refine ⟨hs.labels, hs.memory, hs.vars, ?_⟩
    intro e he
    rcases Table.mem_put he with he | rfl | ⟨_, _, old, hold⟩
    · exact hs.heap e he
    · exact hbase
    · exact hs.heap (e.1, old) hold
  | revise address old new hold hfreed =>
    refine ⟨hs.labels, hs.memory, hs.vars, ?_⟩
    intro e he
    rcases Table.mem_put_cases he with he | ⟨hnone, _⟩ | ⟨block, _, hmem, _⟩
    · exact hs.heap e he
    · rw [hold] at hnone
      cases hnone
    · exact hs.heap (e.1, block) hmem
  | print text => exact ⟨hs.labels, hs.memory, hs.vars, hs.heap⟩

theorem Change.grows {s t : State} (h : Change s t) : s.Grows t := by
  cases h with
  | cell address patch =>
    refine ⟨fun a ha => ?_, fun _ block hb => ⟨block, hb, id⟩, List.prefix_rfl, rfl⟩
    rw [Table.has, Table.find?_put]
    by_cases heq : (address == a) = true
    · rw [if_pos heq]
      rfl
    · rw [if_neg heq]
      exact ha
  | push frame _ _ => exact .of_stack s _
  | set label v => exact .of_stack s _
  | pop label => exact .of_stack s _
  | reserve address block _ hnew =>
    refine ⟨fun _ ha => ha, fun a other hother => ⟨other, ?_, id⟩, List.prefix_rfl, rfl⟩
    -- the address is another one, since nothing was found under the new one
    have hne : (address == a) = false := by
      cases heq : address == a with
      | false => rfl
      | true =>
        rw [Table.find?_congr heq, hother] at hnew
        cases hnew
    rw [Table.find?_put_of_ne hne]
    exact hother
  | revise address old new hold hfreed =>
    refine ⟨fun _ ha => ha, fun a block hblock => ?_, List.prefix_rfl, rfl⟩
    rw [Table.find?_put]
    by_cases heq : (address == a) = true
    · rw [if_pos heq]
      rw [← Table.find?_congr heq, hold] at hblock
      obtain rfl := Option.some.inj hblock
      exact ⟨new, rfl, hfreed⟩
    · rw [if_neg heq]
      exact ⟨block, hblock, id⟩
  | print text =>
    refine ⟨fun _ ha => ha, fun _ block hb => ⟨block, hb, id⟩, ?_, rfl⟩
    rw [String.toList_append]
    exact List.prefix_append _ _

/-! ## Steps one after the other -/

/-- The state after steps that are applied one after the other, each as far as it goes. -/
def afterAll (s : State) (steps : List Step) : State :=
  steps.foldl (fun s step => left (s.apply step)) s

theorem afterAll_changes (s : State) (steps : List Step) :
    ReflTransGen Change s (s.afterAll steps) := by
  induction steps generalizing s with
  | nil => exact .refl
  | cons step steps ih => exact (apply_changes s step).trans (ih _)

theorem ordered_of_changes {s t : State} (h : ReflTransGen Change s t) (hs : s.Ordered) :
    t.Ordered := by
  induction h with
  | refl => exact hs
  | tail _ hchange ih => exact hchange.ordered ih

theorem grows_of_changes {s t : State} (h : ReflTransGen Change s t) : s.Grows t := by
  induction h with
  | refl => exact .refl s
  | tail _ hchange ih => exact ih.trans hchange.grows

theorem ordered_empty (heapBase : Int) : Ordered { heapBase := heapBase } := by
  refine ⟨List.nodup_nil, ?_, ?_, ?_⟩
  · intro e he
    cases he
  · intro f hf
    cases hf
  · intro e he
    cases he

/-- **Whatever steps are applied, the state stays in order and only grows.** From an empty state on,
with steps that contradict it included, the keys say what they stand for at every moment; and from
one moment to a later one no cell and no block is lost, what is free stays free, and the console gets
longer at its end. -/
theorem store_stays_in_order (heapBase : Int) (earlier later : List Step) :
    (afterAll { heapBase := heapBase } earlier).Ordered ∧
      (afterAll { heapBase := heapBase } earlier).Grows
        (afterAll { heapBase := heapBase } (earlier ++ later)) := by
  refine ⟨ordered_of_changes (afterAll_changes _ earlier) (ordered_empty heapBase), ?_⟩
  rw [afterAll, afterAll, List.foldl_append]
  exact grows_of_changes (afterAll_changes _ later)

/-! ## Taking a frame off the stack -/

theorem eraseP_eq_filter {α : Type} {p : α → Bool} {l : List α}
    (h : l.Pairwise fun a b => p a = true → p b = false) :
    l.eraseP p = l.filter fun a => !p a := by
  induction l with
  | nil => rfl
  | cons a l ih =>
    obtain ⟨hhead, htail⟩ := List.pairwise_cons.1 h
    by_cases ha : p a = true
    · rw [List.eraseP_cons_of_pos ha, List.filter_cons_of_neg (by simp [ha])]
      refine (List.filter_eq_self.2 ?_).symm
      intro b hb
      rw [hhead b hb ha]
      rfl
    · rw [List.eraseP_cons_of_neg ha, List.filter_cons_of_pos (by simp [ha]), ih htail]

/-- Where no label occurs twice, the innermost frame of a label goes by whatever it is told from the
others, as long as that holds of the frame and of none with another label. -/
theorem dropFrame_eq_eraseP {s : State} (hs : s.labels.Nodup) {label : String} {f : Frame}
    (hf : s.frame? label = some f) {p : Frame → Bool} (hself : p f = true)
    (hp : ∀ g ∈ s.stack, p g = true → g.name = f.name) :
    dropFrame label s.stack = s.stack.eraseP p := by
  obtain ⟨_, hname⟩ := frameIn_some hf
  -- the test and the comparison of labels pick out the same frame
  have hsame : ∀ g ∈ s.stack, p g = (g.name == label) := by
    intro g hg
    rw [Bool.eq_iff_iff, beq_iff_eq]
    constructor
    · intro hpg
      exact (hp g hg hpg).trans hname
    · intro hlabel
      have hfound := frame?_of_mem hs hg
      rw [hlabel, hf] at hfound
      rw [← Option.some.inj hfound]
      exact hself
  have hapart : s.stack.Pairwise fun a b => a.name ≠ b.name := List.pairwise_map.1 hs
  have hone : s.stack.Pairwise fun a b => (a.name == label) = true → (b.name == label) = false := by
    refine hapart.imp ?_
    intro a b hne ha
    rw [beq_eq_false_iff_ne]
    intro hb
    exact hne ((eq_of_beq ha).trans hb.symm)
  have honeBack : s.stack.reverse.Pairwise
      fun a b => (a.name == label) = true → (b.name == label) = false := by
    rw [List.pairwise_reverse]
    refine hapart.imp ?_
    intro a b hne hb
    rw [beq_eq_false_iff_ne]
    intro ha
    exact hne (ha.trans (eq_of_beq hb).symm)
  have hpone : s.stack.Pairwise fun a b => p a = true → p b = false := by
    refine hone.imp_of_mem ?_
    intro a b ha hb hab
    rw [hsame a ha, hsame b hb]
    exact hab
  rw [dropFrame, eraseP_eq_filter honeBack, List.filter_reverse, List.reverse_reverse,
    eraseP_eq_filter hpone]
  refine List.filter_congr ?_
  intro g hg
  rw [hsame g hg]

/-- A frame that is removed from a state in order, as any steps leave it, is the first one that equals
it: for every way to compare frames that finds each equal to itself and none equal to one of another
label. -/
theorem Ordered.applyFrame_remove {s : State} (hs : s.Ordered) {label : String} {patch : FramePatch}
    (hpatch : patch.action = .remove) {f : Frame} (hf : s.frame? label = some f)
    {same : Frame → Frame → Bool} (hself : ∀ g, same g g = true)
    (hname : ∀ g h, same g h = true → g.name = h.name) :
    s.applyFrame label patch = .ok { s with stack := s.stack.eraseP (same f) } := by
  unfold applyFrame
  rw [hpatch, hf, dropFrame_eq_eraseP hs.labels hf (hself f) fun g _ hg => (hname f g hg).symm]

end State

end Stepwise
