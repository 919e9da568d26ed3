/-
File handles and heap blocks.

The handle of an open file is the address of a heap block. Opening and closing a
file change the table of open files at once, while the change of the block is held
back until the next step shows it, merged with whatever else is held back for the
same address. So the table is held against the heap *with* what is held back
(`blockAt`), and showing a step makes no difference to that.

What a move can do to files and blocks is said once (`FileMove`): nothing, showing
what was held back, reading a file further, opening one behind all blocks there are,
or closing one that is open. Hence a handle is open exactly while its block is not
free, a block that is free stays free, and no address is used for a second file.
-/
import Stepwise.Proofs.Journal
import Stepwise.Proofs.Placement

set_option autoImplicit false

namespace Stepwise

open Relation (ReflTransGen)

/-! ## Heap blocks -/

/-- The size of the heap block at an address, and whether it is free. What is held back counts. -/
def Machine.blockAt (m : Machine) (a : Number) : Option (Number × Bool) :=
  ((m.blocks.find? a).map fun patch => (patch.size, patch.freed)).or
    ((m.state.heap.find? a).map fun block => (block.size, block.freed))

theorem Machine.blockAt_congr {m m' : Machine} (hblocks : m'.blocks = m.blocks)
    (hheap : m'.state.heap = m.state.heap) (a : Number) : m'.blockAt a = m.blockAt a := by
  rw [blockAt, blockAt, hblocks, hheap]

theorem Machine.blockAt_put (m m' : Machine) (key : Number) (patch : BlockPatch)
    (hblocks : m'.blocks = m.blocks.put key patch) (hheap : m'.state.heap = m.state.heap)
    (a : Number) :
    m'.blockAt a = if key == a then some (patch.size, patch.freed) else m.blockAt a := by
  rw [blockAt, blockAt, hblocks, hheap, Table.find?_put]
  by_cases h : (key == a) = true
  · rw [if_pos h, if_pos h]
    rfl
  · rw [if_neg h, if_neg h]

theorem Machine.blockAt_opened (m : Machine) (file : OpenFile) (a : Number) :
    (m.opened file).blockAt a = if Number.int m.cursor.nextHeap == a
      then some (.int Library.fileSize, false) else m.blockAt a :=
  m.blockAt_put (m.opened file) (.int m.cursor.nextHeap)
    ⟨.int m.cursor.nextHeap, .int Library.fileSize, false⟩ rfl rfl a

theorem Machine.blockAt_closed (m : Machine) (key a : Number) :
    (m.closed key).blockAt a = if key == a
      then some (.int Library.fileSize, true) else m.blockAt a :=
  m.blockAt_put (m.closed key) key ⟨key, .int Library.fileSize, true⟩ rfl rfl a

namespace State

/-- A block that is applied gets the size of its patch, and is free if the patch says so. -/
theorem applyBlock_cases {s s' : State} {address : Number} {patch : BlockPatch}
    (h : s.applyBlock address patch = .ok s') :
    ∃ block : Block, s'.heap = s.heap.put address block ∧ block.size = patch.size ∧
      block.freed = patch.freed := by
  unfold applyBlock at h
  split at h
  · cases h
  · split at h
    · obtain rfl := Except.ok.inj h
      exact ⟨_, rfl, rfl, rfl⟩
    · split at h
      · cases h
      · obtain rfl := Except.ok.inj h
        exact ⟨_, rfl, rfl, rfl⟩

theorem applyHeap_cons_cases {s s' : State} {e : Number × BlockPatch}
    {patches : Table Number BlockPatch} (h : s.applyHeap (e :: patches) = .ok s') :
    ∃ s₁, s.applyBlock e.1 e.2 = .ok s₁ ∧ s₁.applyHeap patches = .ok s' := by
  rw [applyHeap] at h
  cases he : s.applyBlock e.1 e.2 with
  | error stopped =>
    rw [he] at h
    cases h
  | ok s₁ =>
    rw [he] at h
    exact ⟨s₁, rfl, h⟩

/-- Blocks that are applied are what their patches say; any other is as it was. -/
theorem find?_applyHeap {s s' : State} {patches : Table Number BlockPatch} (hapart : patches.Apart)
    (h : s.applyHeap patches = .ok s') (a : Number) :
    (s'.heap.find? a).map (fun block => (block.size, block.freed))
      = ((patches.find? a).map fun patch => (patch.size, patch.freed)).or
        ((s.heap.find? a).map fun block => (block.size, block.freed)) := by
  induction patches generalizing s with
  | nil =>
    obtain rfl := Except.ok.inj h
    rfl
  | cons e patches ih =>
    obtain ⟨hhead, htail⟩ := List.pairwise_cons.1 hapart
    obtain ⟨s₁, hblock, hrest⟩ := applyHeap_cons_cases h
    obtain ⟨block, hheap, hsize, hfreed⟩ := applyBlock_cases hblock
    rw [ih htail hrest, hheap, Table.find?_put, Table.find?_cons]
    by_cases he : (e.1 == a) = true
    · have hnone : Table.find? patches a = none := by
        rw [Table.find?_eq_none_iff]
        intro f hf
        cases hfa : f.1 == a with
        | false => rfl
        | true =>
          have hef : (e.1 == f.1) = true := PartialEquivBEq.trans he (BEq.symm hfa)
          rw [hhead f hf] at hef
          cases hef
      rw [if_pos he, if_pos he, hnone, Option.map_some, Option.map_some, hsize, hfreed]
      rfl
    · rw [if_neg he, if_neg he]

theorem applyHeap_apart {s s' : State} {patches : Table Number BlockPatch} (hs : s.heap.Apart)
    (h : s.applyHeap patches = .ok s') : s'.heap.Apart := by
  induction patches generalizing s with
  | nil =>
    obtain rfl := Except.ok.inj h
    exact hs
  | cons e patches ih =>
    obtain ⟨s₁, hblock, hrest⟩ := applyHeap_cons_cases h
    obtain ⟨block, hheap, _, _⟩ := applyBlock_cases hblock
    refine ih ?_ hrest
    rw [hheap]
    exact Table.apart_put _ _ hs

/-- A block under a key that is not a whole number changes one that is there, and the key that is
there stays. -/
theorem applyHeap_whole {s s' : State} {patches : Table Number BlockPatch} (hs : s.heap.Whole)
    (hkeys : ∀ e ∈ patches, s.heap.has e.1 = true ∨ ∃ n, e.1 = .int n)
    (h : s.applyHeap patches = .ok s') : s'.heap.Whole := by
  induction patches generalizing s with
  | nil =>
    obtain rfl := Except.ok.inj h
    exact hs
  | cons e patches ih =>
    obtain ⟨s₁, hblock, hrest⟩ := applyHeap_cons_cases h
    obtain ⟨block, hheap, _, _⟩ := applyBlock_cases hblock
    refine ih ?_ ?_ hrest
    · rw [hheap]
      exact Table.whole_put hs _ (hkeys e List.mem_cons_self)
    · intro f hf
      rw [hheap]
      rcases hkeys f (List.mem_cons_of_mem _ hf) with hhas | hint
      · exact Or.inl (Table.has_put_of_has _ hhas)
      · exact Or.inr hint

end State

/-! ## What a move does to files -/

/-- Files and heap blocks are the same, and so is the place of the next block. -/
structure Machine.Beside (m m' : Machine) : Prop where
  files : m'.files = m.files
  blocks : m'.blocks = m.blocks
  heap : m'.state.heap = m.state.heap
  next : m'.cursor.nextHeap = m.cursor.nextHeap

theorem Machine.Beside.trans {m m' m'' : Machine} (h : m.Beside m') (h' : m'.Beside m'') :
    m.Beside m'' :=
  ⟨h'.files.trans h.files, h'.blocks.trans h.blocks, h'.heap.trans h.heap, h'.next.trans h.next⟩

/-- A move, as far as files and heap blocks are concerned. -/
inductive FileMove : Machine → Machine → Prop
  /-- It does nothing to them. -/
  | beside {m m' : Machine} (h : m.Beside m') : FileMove m m'
  /-- What was held back for the blocks is applied to them. -/
  | shown {m m' : Machine} {before after : State} (hfiles : m'.files = m.files)
      (hblocks : m'.blocks = []) (hnext : m'.cursor.nextHeap = m.cursor.nextHeap)
      (hbefore : before.heap = m.state.heap) (happly : before.applyHeap m.blocks = .ok after)
      (hafter : m'.state.heap = after.heap) : FileMove m m'
  /-- An open file is read further. -/
  | seek {m : Machine} {key : Number} {file : OpenFile} (position : Nat)
      (h : m.files.find? key = some file) :
      FileMove m { m with files := m.files.put key { file with position := position } }
  /-- A file is opened. -/
  | open (m : Machine) (file : OpenFile) : FileMove m (m.opened file)
  /-- A file is closed. -/
  | close {m : Machine} {key : Number} {file : OpenFile} (h : m.files.find? key = some file) :
      FileMove m (m.closed key)

/-- A step without blocks of its own shows the blocks that were held back. -/
theorem FileMove.emit {m n n' m' : Machine} {kind : StepKind} {line : Int} {description : String}
    {delta : Delta} (hbefore : m.Beside n) (hheap : delta.heap = [])
    (h : n.emit kind line description delta = .ok n') (hafter : n'.Beside m') : FileMove m m' := by
  obtain ⟨state, happly, rfl⟩ := Machine.emit_eq_ok.1 h
  obtain ⟨stacked, heaped, hstacked, hheaped, _, _, hstate, _⟩ := State.apply_cases happly
  have hpatches : (n.nextStep kind line description delta).delta.heap = n.blocks := by
    show n.blocks.putAll delta.heap = n.blocks
    rw [hheap, Table.putAll_nil]
  rw [hpatches, hbefore.blocks] at hheaped
  refine .shown (hafter.files.trans hbefore.files) hafter.blocks (hafter.next.trans hbefore.next)
    ?_ hheaped (hafter.heap.trans hstate)
  obtain ⟨_, hstack, _, _⟩ := State.applyStack_beside hstacked
  rw [hstack, (State.applyMemory_beside _ _).2.1]
  exact hbefore.heap

theorem Machine.beside_self (m : Machine) : m.Beside m :=
  ⟨rfl, rfl, rfl, rfl⟩

theorem Machine.own_beside (m : Machine) (type : CType) (address : Int) (frame name : String) :
    m.Beside (m.own type address frame name) := by
  unfold Machine.own
  split
  · exact m.beside_self
  · exact ⟨rfl, rfl, rfl, rfl⟩

/-- Space on the stack is no space on the heap. -/
theorem Machine.reserve_beside {m : Machine} {size address : Int} {cursor : Cursor}
    (h : m.cursor.stack size = .ok (address, cursor)) : m.Beside { m with cursor := cursor } := by
  obtain ⟨_, _, rfl⟩ := Cursor.stack_eq_ok.1 h
  exact ⟨rfl, rfl, rfl, rfl⟩

theorem Invocation.place_beside {setup : Setup} {frame : String}
    {arguments : List (Parameter × Typed)} {cells : Table Number CellPatch}
    {vars : List FrameVariable} {m m' : Machine}
    {placed : Table Number CellPatch × List FrameVariable}
    (h : place setup frame arguments cells vars m = .ok (placed, m')) : m.Beside m' := by
  induction arguments generalizing cells vars m with
  | nil =>
    obtain ⟨_, rfl⟩ := Eval.pure_eq_ok.1 h
    exact m.beside_self
  | cons head rest ih =>
    obtain ⟨value, size, address, cursor, more, _, _, hcursor, _, hrest⟩ := place_cons_cases h
    exact ((Machine.reserve_beside hcursor).trans (Machine.own_beside _ _ _ _ _)).trans (ih hrest)

theorem Act.fileMove {setup : Setup} {m m' : Machine} (h : Act setup m m') : FileMove m m' := by
  cases h with
  | emit kind line description h => exact .emit m.beside_self rfl h m'.beside_self
  | write address value h =>
    obtain ⟨a, _, _, rfl⟩ := Machine.write_eq_ok.1 h
    exact .beside ⟨rfl, rfl, rfl, rfl⟩
  | seek position hfile => exact .seek position hfile
  | «open» file => exact .open m file
  | close hfile => exact .close hfile
  | _ => exact .beside ⟨rfl, rfl, rfl, rfl⟩

/-- **Every move is one of these.** -/
theorem Walk.fileMove {setup : Setup} {m m' : Machine} (h : Walk setup m m') : FileMove m m' := by
  cases h with
  | act h => exact h.fileMove
  | declare name type line value description address h =>
    obtain ⟨size, cursor, cells, _, hcursor, _, hemit⟩ := declare_cases h
    exact .emit ((Machine.reserve_beside hcursor).trans (Machine.own_beside _ _ _ _ _)) rfl hemit
      m'.beside_self
  | enter f arguments line _ _ h =>
    obtain ⟨cells, vars, m₁, description, m₂, hplace, hemit, rfl⟩ := Invocation.enter_cases h
    exact .emit (Invocation.place_beside hplace) rfl hemit ⟨rfl, rfl, rfl, rfl⟩
  | leave f outer flow _ h =>
    obtain ⟨line, description, m₁, hemit, rfl⟩ := Invocation.leave_cases h
    have hinner : m.Beside { m with active := m.active.tail } := ⟨rfl, rfl, rfl, rfl⟩
    exact .emit hinner rfl hemit ⟨rfl, rfl, rfl, rfl⟩

/-! ## What every move keeps -/

/-- The open files are the blocks that are not free, and every block is one of a file, in front of
the place of the next one. -/
structure Machine.Filed (m : Machine) : Prop where
  /-- An address is the handle of an open file if and only if its block is not free. -/
  handle_iff : ∀ a, m.files.has a = true ↔ ∃ size, m.blockAt a = some (size, false)
  size : ∀ a size freed, m.blockAt a = some (size, freed) → size = .int Library.fileSize
  placed : ∀ a block, m.blockAt a = some block →
    ∃ n, (Number.int n == a) = true ∧ n < m.cursor.nextHeap
  files_apart : m.files.Apart
  files_whole : m.files.Whole
  heap_apart : m.state.heap.Apart
  heap_whole : m.state.heap.Whole
  blocks_apart : m.blocks.Apart
  /-- What is held back under a key that is no whole number is held back for a block that is there. -/
  blocks_keys : ∀ e ∈ m.blocks, m.state.heap.has e.1 = true ∨ ∃ n, e.1 = .int n

/-- The next block is no further in front, and what was free is free. -/
structure Machine.FiledSince (m m' : Machine) : Prop where
  next : m.cursor.nextHeap ≤ m'.cursor.nextHeap
  freed : ∀ a size, m.blockAt a = some (size, true) → ∃ size', m'.blockAt a = some (size', true)

theorem Machine.FiledSince.trans {m m' m'' : Machine} (h : m.FiledSince m')
    (h' : m'.FiledSince m'') : m.FiledSince m'' := by
  refine ⟨Int.le_trans h.next h'.next, ?_⟩
  intro a size hfree
  obtain ⟨size', hfree'⟩ := h.freed a size hfree
  exact h'.freed a size' hfree'

theorem Machine.FiledSince.of_eq {m m' : Machine} (hnext : m'.cursor.nextHeap = m.cursor.nextHeap)
    (hblock : ∀ a, m'.blockAt a = m.blockAt a) : m.FiledSince m' := by
  refine ⟨Int.le_of_eq hnext.symm, ?_⟩
  intro a size hfree
  exact ⟨size, (hblock a).trans hfree⟩

theorem Machine.filed_start (settings : Settings) : (Machine.start settings).Filed where
  handle_iff a := by
    constructor
    · intro h
      cases h
    · rintro ⟨_, h⟩
      cases h
  size a size freed h := by cases h
  placed a block h := by cases h
  files_apart := List.Pairwise.nil
  files_whole := Table.whole_nil
  heap_apart := List.Pairwise.nil
  heap_whole := Table.whole_nil
  blocks_apart := List.Pairwise.nil
  blocks_keys e he := by cases he

namespace Machine.Filed

variable {m m' : Machine}

theorem beside (hm : m.Filed) (h : m.Beside m') : m'.Filed := by
  have hblock := Machine.blockAt_congr h.blocks h.heap
  refine ⟨?_, ?_, ?_, h.files ▸ hm.files_apart, h.files ▸ hm.files_whole, h.heap ▸ hm.heap_apart,
    h.heap ▸ hm.heap_whole, h.blocks ▸ hm.blocks_apart, ?_⟩
  · intro a
    rw [h.files, hblock a]
    exact hm.handle_iff a
  · intro a size freed ha
    exact hm.size a size freed ((hblock a).symm.trans ha)
  · intro a block ha
    rw [h.next]
    exact hm.placed a block ((hblock a).symm.trans ha)
  · rw [h.blocks, h.heap]
    exact hm.blocks_keys

/-- Nothing is known of the place of the next block. -/
theorem next_unused (hm : m.Filed) : m.blockAt (.int m.cursor.nextHeap) = none := by
  cases h : m.blockAt (.int m.cursor.nextHeap) with
  | none => rfl
  | some block =>
    obtain ⟨n, hn, hlt⟩ := hm.placed _ block h
    rw [Number.int_beq_int, decide_eq_true_eq] at hn
    omega

/-- Showing what was held back makes no difference to what is known of the blocks. -/
theorem shown {before after : State} (hm : m.Filed) (hfiles : m'.files = m.files)
    (hblocks : m'.blocks = []) (hnext : m'.cursor.nextHeap = m.cursor.nextHeap)
    (hbefore : before.heap = m.state.heap) (happly : before.applyHeap m.blocks = .ok after)
    (hafter : m'.state.heap = after.heap) : m'.Filed ∧ m.FiledSince m' := by
  have hblock : ∀ a, m'.blockAt a = m.blockAt a := by
    intro a
    rw [blockAt, blockAt, hblocks, hafter, State.find?_applyHeap hm.blocks_apart happly, hbefore]
    rfl
  refine ⟨⟨?_, ?_, ?_, hfiles ▸ hm.files_apart, hfiles ▸ hm.files_whole, ?_, ?_, ?_, ?_⟩,
    .of_eq hnext hblock⟩
  · intro a
    rw [hfiles, hblock a]
    exact hm.handle_iff a
  · intro a size freed ha
    exact hm.size a size freed ((hblock a).symm.trans ha)
  · intro a block ha
    rw [hnext]
    exact hm.placed a block ((hblock a).symm.trans ha)
  · rw [hafter]
    exact State.applyHeap_apart (hbefore ▸ hm.heap_apart) happly
  · rw [hafter]
    refine State.applyHeap_whole (hbefore ▸ hm.heap_whole) ?_ happly
    rw [hbefore]
    exact hm.blocks_keys
  · rw [hblocks]
    exact List.Pairwise.nil
  · rw [hblocks]
    intro e he
    cases he

/-- Reading a file further changes no handle. -/
theorem seek (hm : m.Filed) {key : Number} {file : OpenFile} (position : Nat)
    (h : m.files.find? key = some file) :
    ({ m with files := m.files.put key { file with position := position } }).Filed := by
  have hhas : m.files.has key = true := Table.has_eq_true_iff.2 ⟨file, h⟩
  refine ⟨?_, hm.size, hm.placed, Table.apart_put _ _ hm.files_apart,
    Table.whole_put hm.files_whole _ (Or.inl hhas), hm.heap_apart, hm.heap_whole, hm.blocks_apart,
    hm.blocks_keys⟩
  intro a
  refine Iff.trans ?_ (hm.handle_iff a)
  show (m.files.put key _).has a = true ↔ _
  rw [Table.has, Table.find?_put]
  by_cases heq : (key == a) = true
  · rw [if_pos heq, Table.has, ← Table.find?_congr heq, h]
    rfl
  · rw [if_neg heq]
    rfl

/-- A file is opened at an address where there was no block. -/
theorem opened (hm : m.Filed) (file : OpenFile) :
    (m.opened file).Filed ∧ m.FiledSince (m.opened file) := by
  have hnext : (m.opened file).cursor.nextHeap = m.cursor.nextHeap + 216 := rfl
  have hblock := m.blockAt_opened file
  have hunused := hm.next_unused
  refine ⟨⟨?_, ?_, ?_, Table.apart_put _ _ hm.files_apart,
    Table.whole_put hm.files_whole _ (Or.inr ⟨_, rfl⟩), hm.heap_apart, hm.heap_whole,
    Table.apart_put _ _ hm.blocks_apart, ?_⟩, ?_, ?_⟩
  · intro a
    rw [hblock a]
    show (m.files.put (.int m.cursor.nextHeap) file).has a = true ↔ _
    rw [Table.has, Table.find?_put]
    -- only the new address changes; it has the file and a block in use
    by_cases heq : (Number.int m.cursor.nextHeap == a) = true
    · rw [if_pos heq, if_pos heq]
      exact ⟨fun _ => ⟨_, rfl⟩, fun _ => rfl⟩
    · rw [if_neg heq, if_neg heq]
      exact hm.handle_iff a
  · intro a size freed ha
    rw [hblock a] at ha
    split at ha
    · obtain ⟨rfl, _⟩ := Prod.mk.injEq .. ▸ Option.some.inj ha
      rfl
    · exact hm.size a size freed ha
  · intro a block ha
    rw [hblock a] at ha
    split at ha
    · next heq =>
      exact ⟨m.cursor.nextHeap, heq, by omega⟩
    · obtain ⟨n, hn, hlt⟩ := hm.placed a block ha
      exact ⟨n, hn, by omega⟩
  · intro e he
    rcases Table.mem_put he with he | rfl | ⟨_, _, w, hw⟩
    · exact hm.blocks_keys e he
    · exact Or.inr ⟨_, rfl⟩
    · exact hm.blocks_keys (e.1, w) hw
  · omega
  · intro a size hfree
    refine ⟨size, ?_⟩
    rw [hblock a]
    by_cases heq : (Number.int m.cursor.nextHeap == a) = true
    · -- the address of the new block has none yet
      rw [Machine.blockAt, ← Table.find?_congr heq, ← Table.find?_congr heq, ← Machine.blockAt,
        hunused] at hfree
      cases hfree
    · rw [if_neg heq]
      exact hfree

/-- A file is closed under a handle that is open. -/
theorem closed (hm : m.Filed) {key : Number} {file : OpenFile}
    (h : m.files.find? key = some file) :
    (m.closed key).Filed ∧ m.FiledSince (m.closed key) := by
  have hopen : m.files.has key = true := Table.has_eq_true_iff.2 ⟨file, h⟩
  have hblock := m.blockAt_closed key
  obtain ⟨size₀, hsize₀⟩ := (hm.handle_iff key).1 hopen
  obtain ⟨n₀, hn₀, hlt₀⟩ := hm.placed key _ hsize₀
  refine ⟨⟨?_, ?_, ?_, hm.files_apart.sublist (Table.drop_sublist _ _), ?_, hm.heap_apart,
    hm.heap_whole, Table.apart_put _ _ hm.blocks_apart, ?_⟩, Int.le_refl _, ?_⟩
  · intro a
    rw [hblock a]
    show (m.files.drop key).has a = true ↔ _
    rw [Table.has, Table.find?_drop hm.files_apart]
    -- only the handle changes; it has no file any more, and its block is freed
    by_cases heq : (key == a) = true
    · rw [if_pos heq, if_pos heq]
      constructor
      · intro hnone
        cases hnone
      · rintro ⟨_, hfreed⟩
        cases hfreed
    · rw [if_neg heq, if_neg heq]
      exact hm.handle_iff a
  · intro a size freed ha
    rw [hblock a] at ha
    split at ha
    · obtain ⟨rfl, _⟩ := Prod.mk.injEq .. ▸ Option.some.inj ha
      rfl
    · exact hm.size a size freed ha
  · intro a block ha
    rw [hblock a] at ha
    split at ha
    · next heq => exact ⟨n₀, PartialEquivBEq.trans hn₀ heq, hlt₀⟩
    · exact hm.placed a block ha
  · intro e he
    exact hm.files_whole e ((Table.drop_sublist _ _).subset he)
  · intro e he
    rcases Table.mem_put_cases he with he | ⟨hnone, rfl⟩ | ⟨w, _, hw, _⟩
    · exact hm.blocks_keys e he
    · -- nothing is held back for the block, so the state has it
      rw [Machine.blockAt, hnone] at hsize₀
      obtain ⟨block, hfound, _⟩ := Option.map_eq_some_iff.1 hsize₀
      exact Or.inl (Table.has_eq_true_iff.2 ⟨block, hfound⟩)
    · exact hm.blocks_keys (e.1, w) hw
  · intro a size hfree
    rw [hblock a]
    by_cases heq : (key == a) = true
    · rw [if_pos heq]
      exact ⟨_, rfl⟩
    · rw [if_neg heq]
      exact ⟨size, hfree⟩

end Machine.Filed

/-- A move keeps open files and blocks together. -/
theorem FileMove.filed {m m' : Machine} (h : FileMove m m') (hm : m.Filed) :
    m'.Filed ∧ m.FiledSince m' := by
  cases h with
  | beside h => exact ⟨hm.beside h, .of_eq h.next (Machine.blockAt_congr h.blocks h.heap)⟩
  | shown hfiles hblocks hnext hbefore happly hafter =>
    exact hm.shown hfiles hblocks hnext hbefore happly hafter
  | seek position hfile =>
    exact ⟨hm.seek position hfile, .of_eq rfl (Machine.blockAt_congr rfl rfl)⟩
  | «open» file => exact hm.opened file
  | close hfile => exact hm.closed hfile

/-- So does a run. -/
theorem Machine.Filed.walks {setup : Setup} {m m' : Machine} (hm : m.Filed)
    (h : ReflTransGen (Walk setup) m m') : m'.Filed ∧ m.FiledSince m' := by
  induction h with
  | refl => exact ⟨hm, .of_eq rfl fun _ => rfl⟩
  | tail _ hmove ih =>
    obtain ⟨hfiled, hsince⟩ := ih
    obtain ⟨hfiled', hsince'⟩ := hmove.fileMove.filed hfiled
    exact ⟨hfiled', hsince.trans hsince'⟩

/-- The machines that an execution of the program passes through. -/
def Setup.Passes (setup : Setup) (m : Machine) : Prop :=
  ReflTransGen (Walk setup) (Machine.start setup.settings) m

theorem Setup.Passes.filed {setup : Setup} {m : Machine} (h : setup.Passes m) : m.Filed :=
  ((Machine.filed_start setup.settings).walks h).1

/-! ## Opening and closing -/

namespace Library

theorem textArgument_eq_ok {arguments : List Typed} {index : Nat} {m m' : Machine} {text : String}
    (h : textArgument arguments index m = .ok (text, m')) : m = m' := by
  unfold textArgument at h
  cases hfound : arguments[index]? with
  | none =>
    rw [hfound] at h
    exact absurd h Eval.fail_ne_ok
  | some a =>
    rw [hfound] at h
    exact (Run.query_eq_ok.1 h).2

/-- Opening a file gives a null handle and leaves files and blocks alone, or it gives the address of
a new block, for a file that is not read yet. -/
theorem fopen_cases {arguments : List Typed} {m m' : Machine} {v : Typed}
    (h : fopen arguments m = .ok (v, m')) :
    (v.value = .int 0 ∧ m.Beside m') ∨
      (v.value = .int m.cursor.nextHeap ∧
        ∃ n file, file.position = 0 ∧ m.Beside n ∧ (Machine.opened n file).Beside m') := by
  obtain ⟨name, m₁, h₁, h⟩ := Eval.bind_eq_ok.1 h
  obtain rfl := textArgument_eq_ok h₁
  obtain ⟨mode, m₂, h₂, h⟩ := Eval.bind_eq_ok.1 h
  obtain rfl := textArgument_eq_ok h₂
  obtain ⟨known, m₃, h₃, h⟩ := Eval.bind_eq_ok.1 h
  obtain ⟨_, rfl⟩ := Run.ask_eq_ok.1 h₃
  -- what follows a new entry on the disk, or follows at once
  have hopening : ∀ n : Machine, m.Beside n →
      (do
        let address ← Run.allocateHeap fileSize
        Run.change fun m =>
          { m with
            blocks := m.blocks.put (.int address)
              { address := .int address, size := .int fileSize }
            files := m.files.put (.int address) { name := name, mode := mode } }
        let purpose ← Eval.lift (purpose mode)
        Run.note ("fopen opens " ++ Value.showText name ++ " for " ++ purpose
          ++ "; FILE structure at " ++ Numeral.address address)
        return (⟨.int address, ⟨"FILE*"⟩⟩ : Typed) : Run Typed) n = .ok (v, m') →
      v.value = .int m.cursor.nextHeap ∧
        ∃ n file, file.position = 0 ∧ m.Beside n ∧ (Machine.opened n file).Beside m' := by
    intro n hn hm
    obtain ⟨address, n₁, g₁, hm⟩ := Eval.bind_eq_ok.1 hm
    obtain ⟨_, n₂, g₂, hm⟩ := Eval.bind_eq_ok.1 hm
    obtain ⟨_, n₃, g₃, hm⟩ := Eval.bind_eq_ok.1 hm
    obtain ⟨_, rfl⟩ := Eval.lift_eq_ok.1 g₃
    obtain ⟨_, n₄, g₄, hm⟩ := Eval.bind_eq_ok.1 hm
    obtain ⟨rfl, rfl⟩ := Eval.pure_eq_ok.1 hm
    obtain ⟨rfl, rfl⟩ := Prod.mk.injEq .. ▸ Except.ok.inj g₁
    refine ⟨?_, n, { name := name, mode := mode }, rfl, hn, ?_⟩
    · show Value.int n.cursor.nextHeap = _
      rw [hn.next]
    · rw [← Run.change_eq_ok.1 g₄, ← Run.change_eq_ok.1 g₂]
      exact ⟨rfl, rfl, rfl, rfl⟩
  split at h
  · obtain ⟨_, m₄, h₄, h⟩ := Eval.bind_eq_ok.1 h
    obtain ⟨rfl, rfl⟩ := Eval.pure_eq_ok.1 h
    rw [← Run.change_eq_ok.1 h₄]
    exact Or.inl ⟨rfl, rfl, rfl, rfl, rfl⟩
  · refine Or.inr ?_
    split at h
    · obtain ⟨_, m₄, h₄, h⟩ := Eval.bind_eq_ok.1 h
      refine hopening m₄ ?_ h
      rw [← Run.change_eq_ok.1 h₄]
      exact ⟨rfl, rfl, rfl, rfl⟩
    · exact hopening m m.beside_self h

theorem argument_eq_ok {arguments : List Typed} {index : Nat} {m m' : Machine} {a : Typed}
    (h : argument arguments index m = .ok (a, m')) : arguments[index]? = some a ∧ m = m' := by
  unfold argument at h
  cases hfound : arguments[index]? with
  | none =>
    rw [hfound] at h
    exact absurd h Eval.fail_ne_ok
  | some found =>
    rw [hfound] at h
    obtain ⟨rfl, rfl⟩ := Eval.pure_eq_ok.1 h
    exact ⟨rfl, rfl⟩

/-- Only a number is the handle of an open file. -/
theorem handle_of_openFile {m : Machine} {handle : Value} {key : Number} {file : OpenFile}
    (h : m.openFile handle = .ok (key, file)) : handle = .num key := by
  unfold Machine.openFile at h
  cases handle with
  | num n =>
    simp only [Machine.handleKey, bind, Except.bind] at h
    split at h
    · rw [(Prod.mk.inj (Except.ok.inj h)).1]
    · cases h
  | _ => cases h

/-- Closing a file takes the handle of one that is open. -/
theorem fclose_cases {arguments : List Typed} {m m' : Machine} {v : Typed}
    (h : fclose arguments m = .ok (v, m')) :
    ∃ a key file, arguments[0]? = some a ∧ a.value = .num key ∧
      m.files.find? key = some file ∧ (m.closed key).Beside m' := by
  obtain ⟨handle, m₁, h₁, h⟩ := Eval.bind_eq_ok.1 h
  obtain ⟨hargument, rfl⟩ := argument_eq_ok h₁
  obtain ⟨⟨key, file⟩, m₂, h₂, h⟩ := Eval.bind_eq_ok.1 h
  obtain ⟨hopen, rfl⟩ := Run.query_eq_ok.1 h₂
  obtain ⟨_, m₃, h₃, h⟩ := Eval.bind_eq_ok.1 h
  obtain ⟨_, m₄, h₄, h⟩ := Eval.bind_eq_ok.1 h
  obtain ⟨_, rfl⟩ := Eval.pure_eq_ok.1 h
  refine ⟨handle, key, file, hargument, handle_of_openFile hopen, openFile_eq_ok hopen, ?_⟩
  rw [← Run.change_eq_ok.1 h₄, ← Run.change_eq_ok.1 h₃]
  exact ⟨rfl, rfl, rfl, rfl⟩

/-- The call opens a file: it gives a handle that was not open and is open now. -/
def Opens (arguments : List Typed) (m : Machine) (handle : Number) (m' : Machine) : Prop :=
  ∃ v, fopen arguments m = .ok (v, m') ∧ v.value = .num handle ∧ m.files.has handle = false ∧
    m'.files.has handle = true

/-- A call that does not fail opens a file, or it gives a null handle and opens none. -/
theorem opens_or_null {arguments : List Typed} {m m' : Machine} {v : Typed} (hm : m.Filed)
    (h : fopen arguments m = .ok (v, m')) :
    (v.value = .int 0 ∧ m'.files = m.files) ∨ ∃ handle, Opens arguments m handle m' := by
  rcases fopen_cases h with ⟨hnull, hbeside⟩ | ⟨hvalue, n, file, _, hn, hopened⟩
  · exact Or.inl ⟨hnull, hbeside.files⟩
  · refine Or.inr ⟨.int m.cursor.nextHeap, v, h, hvalue, ?_, ?_⟩
    · cases hhas : m.files.has (.int m.cursor.nextHeap) with
      | false => rfl
      | true =>
        obtain ⟨size, hblock⟩ := (hm.handle_iff _).1 hhas
        rw [hm.next_unused] at hblock
        cases hblock
    · rw [hopened.files]
      show (n.files.put (.int n.cursor.nextHeap) file).has (.int m.cursor.nextHeap) = true
      rw [hn.next, Table.has, Table.find?_put_of_beq (by simp)]
      rfl

/-- A handle that was opened is the address in front of which no block was, and all blocks are in
front of the next one afterwards. -/
theorem Opens.placed {arguments : List Typed} {m m' : Machine} {handle : Number} (hm : m.Filed)
    (h : Opens arguments m handle m') :
    handle = .int m.cursor.nextHeap ∧ m'.Filed ∧ m.cursor.nextHeap < m'.cursor.nextHeap := by
  obtain ⟨v, hopen, hvalue, hbefore, hafter⟩ := h
  rcases fopen_cases hopen with ⟨_, hbeside⟩ | ⟨hhandle, n, file, _, hn, hopened⟩
  · rw [hbeside.files, hbefore] at hafter
    cases hafter
  · refine ⟨Value.num.inj (hvalue.symm.trans hhandle), ((hm.beside hn).opened file).1.beside hopened,
      ?_⟩
    rw [hopened.next]
    show m.cursor.nextHeap < n.cursor.nextHeap + 216
    rw [hn.next]
    omega

/-- A handle is given to one file only. -/
theorem Opens.fresh {setup : Setup} {first second : List Typed} {m₁ m₁' m₂ m₂' : Machine}
    {handle₁ handle₂ : Number} (hm : m₁.Filed) (h₁ : Opens first m₁ handle₁ m₁')
    (hbetween : ReflTransGen (Walk setup) m₁' m₂) (h₂ : Opens second m₂ handle₂ m₂') :
    (handle₁ == handle₂) = false := by
  obtain ⟨rfl, hm₁', hlt⟩ := h₁.placed hm
  obtain ⟨hm₂, hsince⟩ := hm₁'.walks hbetween
  obtain ⟨rfl, _, _⟩ := h₂.placed hm₂
  have hnext := hsince.next
  rw [Number.int_beq_int, decide_eq_false_iff_not]
  omega

/-- Closing a file needs its handle to be open, and it is open no more. -/
theorem closes_open {arguments : List Typed} {m m' : Machine} {v : Typed} (hm : m.Filed)
    (h : fclose arguments m = .ok (v, m')) :
    ∃ a key, arguments[0]? = some a ∧ a.value = .num key ∧ m.files.has key = true ∧ m'.Filed ∧
      ∃ size, m'.blockAt key = some (size, true) := by
  obtain ⟨a, key, file, hargument, hvalue, hfile, hclosed⟩ := fclose_cases h
  have hhas : m.files.has key = true := Table.has_eq_true_iff.2 ⟨file, hfile⟩
  obtain ⟨size, hblock⟩ := (hm.handle_iff key).1 hhas
  obtain ⟨n, hn, _⟩ := hm.placed key _ hblock
  have hself : (key == key) = true := PartialEquivBEq.trans (BEq.symm hn) hn
  refine ⟨a, key, hargument, hvalue, hhas, (hm.closed hfile).1.beside hclosed,
    .int fileSize, ?_⟩
  rw [Machine.blockAt_congr hclosed.blocks hclosed.heap, Machine.blockAt_closed, if_pos hself]

/-- What is closed cannot be closed again, however the handle was come by: its block is free and
stays free, and the block of an open file is not. -/
theorem closes_once {setup : Setup} {arguments : List Typed} {m n n' : Machine} {key size : Number}
    {w : Typed} (hm : m.Filed) (hfree : m.blockAt key = some (size, true))
    (hbetween : ReflTransGen (Walk setup) m n) (h : fclose arguments n = .ok (w, n')) :
    ∃ a other, arguments[0]? = some a ∧ a.value = .num other ∧ (key == other) = false := by
  obtain ⟨hn, hsince⟩ := hm.walks hbetween
  obtain ⟨a, other, hargument, hvalue, hopen, _⟩ := closes_open hn h
  refine ⟨a, other, hargument, hvalue, ?_⟩
  cases heq : key == other with
  | false => rfl
  | true =>
    obtain ⟨size', hfree'⟩ := hsince.freed key size hfree
    obtain ⟨size'', hused⟩ := (hn.handle_iff other).1 hopen
    rw [Machine.blockAt, ← Table.find?_congr heq, ← Table.find?_congr heq, ← Machine.blockAt,
      hfree'] at hused
    cases hused

end Library

end Stepwise
