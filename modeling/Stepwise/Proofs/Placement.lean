/-
Where objects are.

Every object of an executed program is placed on the stack behind all objects before
it, and stays where it is; so the cells of the memory tile the stack, and the
cursor stands behind the last of them. A step shows new cells only for the
variables it adds to a frame. Any other cell that it shows was held back, and what
is held back is written to cells that are there, however the address was computed.
Heap blocks are those of open files, which are placed from the base of the heap on.

All this holds as long as every array that a step declares has an element:
otherwise an object may take no space, and the next one stands in the same place.
-/
import Stepwise.Proofs.Books
import Stepwise.Proofs.Tiling

set_option autoImplicit false

namespace Stepwise

/-! ## What is to be shown -/

/-- The cells of the memory take some space between two addresses and do not overlap, and every
variable of a frame is between them. -/
structure State.Housed (sizes : StructSizes) (low high : Int) (s : State) : Prop where
  cells : ∀ e ∈ s.memory, ∃ a n,
    e.1 = .int a ∧ e.2.type.size sizes = .ok n ∧ 0 < n ∧ low ≤ a ∧ a + n ≤ high
  beside : s.memory.Pairwise fun e f => ∀ a b n k, e.1 = .int a → f.1 = .int b →
    e.2.type.size sizes = .ok n → f.2.type.size sizes = .ok k → a + n ≤ b ∨ b + k ≤ a
  frames : ∀ f ∈ s.stack, ∀ e ∈ f.vars,
    ∃ a, (Number.int a == e.2.address) = true ∧ low ≤ a ∧ a < high

/-- A cell is part of a variable: its bytes are among those of the variable, and its name begins
with the variable's. -/
def FrameVariable.Covers (sizes : StructSizes) (v : FrameVariable) (key : Number)
    (cell : CellPatch) : Prop :=
  v.name.toList <+: cell.name.toList ∧
    ∃ a b n k, (Number.int a == key) = true ∧ v.address = .int b ∧
      cell.type.size sizes = .ok n ∧ v.type.size sizes = .ok k ∧ b ≤ a ∧ a + n ≤ b + k

/-- A cell is part of a variable that the change adds to a frame. -/
def Delta.Declares (sizes : StructSizes) (d : Delta) (key : Number) (cell : CellPatch) : Prop :=
  ∃ f ∈ d.stack, f.2.action = .add ∧ ∃ v ∈ f.2.vars, v.Covers sizes key cell

/-- Each cell that the step shows was there and keeps its name and type, or it was not there and
is part of a variable that the step declares; and heap blocks are not below the base of the heap. -/
structure Step.Grounded (sizes : StructSizes) (heapBase : Int) (s : State) (step : Step) : Prop where
  cells : ∀ e ∈ step.delta.memory,
    (∃ cell, s.memory.find? e.1 = some cell ∧ e.2.name = cell.name ∧ e.2.type = cell.type) ∨
    (s.memory.find? e.1 = none ∧ step.delta.Declares sizes e.1 e.2)
  blocks : ∀ e ∈ step.delta.heap, ∃ a, (Number.int a == e.1) = true ∧ heapBase ≤ a

/-- Every array that the step declares has elements. -/
def Step.Filled (step : Step) : Prop :=
  ∀ f ∈ step.delta.stack, f.2.action = .add → ∀ v ∈ f.2.vars, v.type.Filled

/-! ## Tables of addresses -/

namespace Table

variable {ν : Type}

theorem whole_put {t : Table Number ν} (ht : t.Whole) {key : Number} (v : ν)
    (hkey : t.has key = true ∨ ∃ n, key = .int n) : (t.put key v).Whole := by
  intro e he
  have hmem : e.1 ∈ (t.put key v).keys := mem_keys.2 ⟨e.2, he⟩
  rw [keys_put] at hmem
  have hold : e.1 ∈ t.keys → ∃ n, e.1 = .int n := by
    intro hkeys
    obtain ⟨w, hw⟩ := mem_keys.1 hkeys
    exact ht (e.1, w) hw
  split at hmem
  · exact hold hmem
  · next hnot =>
    rcases List.mem_append.1 hmem with hmem | hmem
    · exact hold hmem
    · rw [List.mem_singleton.1 hmem]
      rcases hkey with hhas | hint
      · exact absurd hhas hnot
      · exact hint

theorem has_put_of_has {t : Table Number ν} {key a : Number} (v : ν) (h : t.has a = true) :
    (t.put key v).has a = true := by
  rw [has_eq_true_iff] at h ⊢
  obtain ⟨w, hw⟩ := h
  rw [find?_put]
  split
  · exact ⟨v, rfl⟩
  · exact ⟨w, hw⟩

/-- Every key is a whole number from a base on. -/
def Beyond (base : Int) (t : Table Number ν) : Prop :=
  ∀ e ∈ t, ∃ n, (Number.int n == e.1) = true ∧ base ≤ n

theorem Beyond.put {base : Int} {t : Table Number ν} (h : t.Beyond base) {key : Number} (v : ν)
    (hkey : ∃ n, (Number.int n == key) = true ∧ base ≤ n) : (t.put key v).Beyond base := by
  intro e he
  rcases mem_put he with he | rfl | ⟨_, _, w, hw⟩
  · exact h e he
  · exact hkey
  · exact h (e.1, w) hw

theorem Beyond.of_find? {base : Int} {t : Table Number ν} (h : t.Beyond base) {key : Number} {v : ν}
    (hkey : t.find? key = some v) : ∃ n, (Number.int n == key) = true ∧ base ≤ n := by
  obtain ⟨k, hk, heq⟩ := mem_of_find? hkey
  obtain ⟨n, hn, hle⟩ := h _ hk
  exact ⟨n, PartialEquivBEq.trans hn heq, hle⟩

theorem mem_of_mem_drop {t : Table Number ν} {key : Number} {e : Number × ν}
    (h : e ∈ t.drop key) : e ∈ t := by
  induction t with
  | nil => exact h
  | cons f t ih =>
    unfold drop at h
    split at h
    · exact List.mem_cons_of_mem _ h
    · rcases List.mem_cons.1 h with rfl | h
      · exact List.mem_cons_self
      · exact List.mem_cons_of_mem _ (ih h)

end Table

/-! ## The memory after a step -/

/-- The type of the cell at an address. -/
def State.typeAt (s : State) (a : Int) : Option CType :=
  (s.memory.find? (.int a)).map Cell.type

theorem State.applyMemory_whole {s : State} {patches : Table Number CellPatch}
    (hs : s.memory.Whole)
    (hkeys : ∀ e ∈ patches, s.memory.has e.1 = true ∨ ∃ n, e.1 = .int n) :
    (s.applyMemory patches).memory.Whole := by
  induction patches generalizing s with
  | nil => exact hs
  | cons e patches ih =>
    rw [applyMemory_cons]
    refine ih (Table.whole_put hs _ (hkeys e List.mem_cons_self)) ?_
    intro f hf
    rcases hkeys f (List.mem_cons_of_mem _ hf) with hhas | hint
    · exact Or.inl (Table.has_put_of_has _ hhas)
    · exact Or.inr hint

theorem State.applyMemory_apart {s : State} (patches : Table Number CellPatch)
    (hs : s.memory.Apart) : (s.applyMemory patches).memory.Apart := by
  induction patches generalizing s with
  | nil => exact hs
  | cons e patches ih =>
    rw [applyMemory_cons]
    exact ih (Table.apart_put _ _ hs)

namespace Machine

variable {m : Machine} {kind : StepKind} {line : Int} {description : String} {delta : Delta}
  {state : State}

/-- After a step, an address has the type of the step's own cell there, else the type it had. -/
theorem typeAt_emitted (hwrites : m.writes.Apart) (hmemory : delta.memory.Apart)
    (happly : m.state.apply (m.nextStep kind line description delta) = .ok state) (a : Int) :
    state.typeAt a = (cellTypeAt delta.memory a).or (m.state.typeAt a) := by
  have hcontents : state.typeAt a
      = ((state.memory.find? (.int a)).map Cell.contents).map CellPatch.type := by
    rw [Option.map_map]
    rfl
  rw [hcontents, find?_emitted hwrites hmemory happly, cellTypeAt, State.typeAt]
  cases delta.memory.find? (.int a) with
  | some k => rfl
  | none =>
    rw [Option.none_or, find?_pendingCells]
    -- a write that was held back shows the type of the cell that is there
    cases m.state.memory.find? (.int a) with
    | none => cases m.writes.find? (.int a) <;> rfl
    | some cell => cases m.writes.find? (.int a) <;> rfl

/-- A step brings no key into the memory that is not a whole number. -/
theorem whole_emitted (hwhole : m.state.memory.Whole) (hdelta : delta.memory.Whole)
    (happly : m.state.apply (m.nextStep kind line description delta) = .ok state) :
    state.memory.Whole := by
  obtain ⟨_, _, _, _, hstate, _⟩ := State.apply_cases happly
  rw [hstate]
  refine State.applyMemory_whole hwhole ?_
  have hpending : ∀ e ∈ m.pendingCells, m.state.memory.has e.1 = true := by
    intro e he
    obtain ⟨cell, hcell, _⟩ := mem_pendingCells he
    exact Table.has_eq_true_iff.2 ⟨cell, hcell⟩
  intro e he
  rcases Table.mem_putAll he with he | he | ⟨_, _, _, _, w, hw | hw⟩
  · exact Or.inl (hpending e he)
  · exact Or.inr (hdelta e he)
  · exact Or.inl (hpending (e.1, w) hw)
  · exact Or.inr (hdelta (e.1, w) hw)

theorem apart_emitted (hapart : m.state.memory.Apart)
    (happly : m.state.apply (m.nextStep kind line description delta) = .ok state) :
    state.memory.Apart := by
  obtain ⟨_, _, _, _, hstate, _⟩ := State.apply_cases happly
  rw [hstate]
  exact State.applyMemory_apart _ hapart

end Machine

/-! ## Laying objects -/

/-- Objects stand one behind the other between two addresses: the cells tile them, the variables
are among them, and every cell is part of one of the variables. -/
structure Laid (sizes : StructSizes) (start stop : Int) (cells : Table Number CellPatch)
    (vars : List FrameVariable) : Prop where
  forward : start ≤ stop
  tiled : Tiled sizes (cellTypeAt cells) start stop
  whole : cells.Whole
  listed : ∀ v ∈ vars, ∃ a, v.address = .int a ∧ start ≤ a ∧ a < stop
  parts : ∀ e ∈ cells, ∃ v ∈ vars, v.Covers sizes e.1 e.2

namespace Laid

variable {sizes : StructSizes} {start stop : Int} {cells : Table Number CellPatch}
  {vars : List FrameVariable}

theorem nothing (sizes : StructSizes) (start : Int) : Laid sizes start start [] [] where
  forward := Int.le_refl _
  tiled := Tiled.nothing sizes start start
  whole := Table.whole_nil
  listed v hv := by cases hv
  parts e he := by cases he

/-- One more object is laid behind the others. -/
theorem add {spare : Nat} {layouts : Layouts} (hlayouts : layouts.Settled)
    (h : Laid layouts.sizes start stop cells vars) {name : String} {type : CType} {value : Value}
    {size : Int} {more cells' : Table Number CellPatch} (hfilled : type.Filled)
    (hsize : type.size layouts.sizes = .ok size)
    (hmore : objectCells spare layouts name type stop value = .ok more)
    (hcells : ∀ a, cells'.find? a = (more.find? a).or (cells.find? a))
    (hmem : ∀ e ∈ cells', e ∈ cells ∨ e ∈ more) :
    Laid layouts.sizes start (stop + size) cells'
      (vars ++ [frameVariable name type stop value]) := by
  have hpos : 0 < size := hfilled.size_pos hlayouts.pos hsize
  have htiled := cellsWithin_tiled hlayouts hfilled hsize hmore
  have hforward := h.forward
  refine ⟨by omega, ?_, ?_, ?_, ?_⟩
  · refine h.tiled.append htiled hforward (by omega) ?_
    intro a
    rw [cellTypeAt, hcells, cellTypeAt, cellTypeAt]
    cases more.find? (.int a) <;> rfl
  · intro e he
    rcases hmem e he with he | he
    · exact h.whole e he
    · exact cellsWithin_whole hmore e he
  · intro v hv
    rcases List.mem_append.1 hv with hv | hv
    · obtain ⟨a, ha, hlow, hhigh⟩ := h.listed v hv
      exact ⟨a, ha, hlow, by omega⟩
    · obtain rfl := List.mem_singleton.1 hv
      exact ⟨stop, rfl, hforward, by omega⟩
  · intro e he
    rcases hmem e he with he | he
    · obtain ⟨v, hv, hrest⟩ := h.parts e he
      exact ⟨v, List.mem_append_left _ hv, hrest⟩
    · obtain ⟨a, ha⟩ := cellsWithin_whole hmore e he
      have hat : cellTypeAt more a = some e.2.type := by
        refine cellTypeAt_of_mem (cellsWithin_apart hmore) ?_
        rw [← ha]
        exact he
      -- a cell of the new object is among its bytes
      obtain ⟨n, hn, _, hlow, hhigh⟩ := htiled.inside a _ hat
      exact ⟨frameVariable name type stop value,
        List.mem_append_right _ (List.mem_singleton_self _), cellsWithin_name hmore he,
        a, stop, n, size, by simp [ha], rfl, hn, hsize, hlow, hhigh⟩

end Laid

/-- The change of a step shows objects that are laid between two addresses, and no heap block. -/
structure Delta.Lays (sizes : StructSizes) (start stop : Int) (d : Delta) : Prop where
  forward : start ≤ stop
  tiled : Tiled sizes (cellTypeAt d.memory) start stop
  whole : d.memory.Whole
  listed : ∀ label patch, d.stack.find? label = some patch → ∀ v ∈ patch.vars,
    ∃ a, v.address = .int a ∧ start ≤ a ∧ a < stop
  declared : ∀ e ∈ d.memory, ∃ label patch, d.stack.find? label = some patch ∧
    patch.action = .add ∧ ∃ v ∈ patch.vars, v.Covers sizes e.1 e.2
  heap : d.heap = []

theorem Delta.lays_of_no_objects (sizes : StructSizes) (limit : Int) {d : Delta}
    (hmemory : d.memory = []) (hstack : ∀ e ∈ d.stack, e.2.vars = []) (hheap : d.heap = []) :
    d.Lays sizes limit limit where
  forward := Int.le_refl _
  tiled := by
    rw [hmemory]
    exact Tiled.nothing sizes limit limit
  whole := by
    rw [hmemory]
    exact Table.whole_nil
  listed label patch hpatch v hv := by
    obtain ⟨_, hmem, _⟩ := Table.mem_of_find? hpatch
    rw [hstack _ hmem] at hv
    cases hv
  declared e he := by
    rw [hmemory] at he
    cases he
  heap := hheap

/-- The change that adds laid objects to a frame. -/
theorem Laid.lays {sizes : StructSizes} {start stop : Int} {cells : Table Number CellPatch}
    {vars : List FrameVariable} (h : Laid sizes start stop cells vars) {d : Delta}
    (hmemory : d.memory = cells) {frame : String} {patch : FramePatch}
    (hstack : d.stack = [(frame, patch)]) (haction : patch.action = .add)
    (hvars : patch.vars = vars) (hheap : d.heap = []) : d.Lays sizes start stop where
  forward := h.forward
  tiled := by
    rw [hmemory]
    exact h.tiled
  whole := by
    rw [hmemory]
    exact h.whole
  listed label found hfound v hv := by
    obtain ⟨_, hmem, _⟩ := Table.mem_of_find? hfound
    rw [hstack, List.mem_singleton, Prod.mk.injEq] at hmem
    obtain ⟨_, rfl⟩ := hmem
    exact h.listed v (hvars ▸ hv)
  declared e he := by
    rw [hmemory] at he
    refine ⟨frame, patch, ?_, haction, hvars ▸ h.parts e he⟩
    rw [hstack, Table.find?_cons, if_pos (beq_self_eq_true _)]
  heap := hheap

end Stepwise
