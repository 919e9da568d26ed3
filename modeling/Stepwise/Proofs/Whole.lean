/-
Where whole numbers are the addresses.

An address can come out of floating arithmetic, and so can a size. A cell and a heap
block are filed under whole numbers all the same: every object is placed by a cursor,
and whatever reaches it later, under a number of either sort, finds it under the key
it has. A block is no different, as long as what is held back for it is held back for
one that is there; and a file that is open has a block.

The address that a frame shows of a variable is another matter. It is the one that
the last write went through, so it is a whole number as long as every write was to
one. What a run wrote, and where, is in its journal. The sizes of blocks are those of
files, except for the block that the sequence of an allocation reserves.
-/
import Stepwise.Proofs.Allocation
import Stepwise.Proofs.Handles
import Stepwise.Proofs.Placement
import Stepwise.Proofs.Replay
import Stepwise.Proofs.Store

set_option autoImplicit false

namespace Stepwise

open Relation (ReflTransGen)

/-! ## What is whole -/

/-- A whole number. -/
def Number.Whole (a : Number) : Prop :=
  ∃ n : Int, a = .int n

/-- Cells and heap blocks are filed under whole numbers. -/
structure State.Numbered (s : State) : Prop where
  cells : s.memory.Whole
  blocks : s.heap.Whole

/-- Frames show their variables at whole numbers. -/
def State.ShownWhole (s : State) : Prop :=
  ∀ f ∈ s.stack, ∀ e ∈ f.vars, e.2.address.Whole

/-- Heap blocks have whole sizes. -/
def State.SizedWhole (s : State) : Prop :=
  ∀ e ∈ s.heap, e.2.size.Whole

instance : DecidablePred Number.Whole
  | .int n => .isTrue ⟨n, rfl⟩
  | .float .. => .isFalse fun ⟨_, h⟩ => by cases h

instance (s : State) : Decidable s.ShownWhole :=
  inferInstanceAs (Decidable (∀ f ∈ s.stack, ∀ e ∈ f.vars, e.2.address.Whole))

instance (s : State) : Decidable s.SizedWhole :=
  inferInstanceAs (Decidable (∀ e ∈ s.heap, e.2.size.Whole))

/-- A change files nothing under another key and shows no variable elsewhere; its blocks have whole
sizes, on a condition. -/
structure Delta.Whole (sized : Prop) (d : Delta) : Prop where
  cells : d.memory.Whole
  vars : ∀ f ∈ d.stack, ∀ v ∈ f.2.vars, v.address.Whole
  blocks : d.heap.Whole
  sizes : sized → ∀ e ∈ d.heap, e.2.size.Whole

/-- A change that shows no block. -/
theorem Delta.whole_of_no_blocks {sized : Prop} {d : Delta} (hcells : d.memory.Whole)
    (hvars : ∀ f ∈ d.stack, ∀ v ∈ f.2.vars, v.address.Whole) (hheap : d.heap = []) :
    d.Whole sized where
  cells := hcells
  vars := hvars
  blocks := by
    rw [hheap]
    exact Table.whole_nil
  sizes _ e he := by
    rw [hheap] at he
    cases he

/-- A change that shows neither a cell nor a variable nor a block. -/
theorem Delta.whole_of_no_objects {sized : Prop} {d : Delta} (hmemory : d.memory = [])
    (hstack : ∀ f ∈ d.stack, f.2.vars = []) (hheap : d.heap = []) : d.Whole sized := by
  refine whole_of_no_blocks ?_ ?_ hheap
  · rw [hmemory]
    exact Table.whole_nil
  · intro f hf v hv
    rw [hstack f hf] at hv
    cases hv

/-- No value was written to an address that is no whole number. -/
def Machine.WroteWhole (m : Machine) : Prop :=
  ∀ a value, .wrote a value ∈ m.journal → a.Whole

/-! ## Applying a change -/

namespace State

variable {s s' : State}

theorem shownWhole_applyVariables {frame : String} {action : FrameAction} {vars : List FrameVariable}
    (hs : s.ShownWhole) (hvars : ∀ v ∈ vars, v.address.Whole)
    (h : s.applyVariables frame action vars = .ok s') :
    s'.ShownWhole := by
  induction vars generalizing s with
  | nil =>
    obtain rfl := Except.ok.inj h
    exact hs
  | cons v vars ih =>
    refine ih ?_ (fun w hw => hvars w (List.mem_cons_of_mem _ hw)) (applyVariables_cons_cases h).2
    intro f hf e he
    rcases mem_changeFrame hf with hf | ⟨g, hg, rfl⟩
    · exact hs f hf e he
    · have hv : v.address.Whole := hvars v List.mem_cons_self
      rcases Table.mem_put he with he | rfl | ⟨_, hvalue, _⟩
      · exact hs g hg e he
      · exact hv
      · rw [hvalue]
        exact hv

theorem shownWhole_applyFrame {name : String} {patch : FramePatch}
    (hs : s.ShownWhole) (hvars : ∀ v ∈ patch.vars, v.address.Whole)
    (h : s.applyFrame name patch = .ok s') :
    s'.ShownWhole := by
  unfold applyFrame at h
  split at h
  · cases h
  · obtain rfl := Except.ok.inj h
    exact fun f hf => hs f ((dropFrame_sublist name s.stack).subset hf)
  · cases h
  · refine shownWhole_applyVariables ?_ hvars h
    intro f hf e he
    rcases List.mem_append.1 hf with hf | hf
    · exact hs f hf e he
    · rw [List.mem_singleton.1 hf] at he
      cases he
  · exact shownWhole_applyVariables hs hvars h

theorem shownWhole_applyStack {patches : Table String FramePatch}
    (hs : s.ShownWhole)
    (hpatches : ∀ f ∈ patches, ∀ v ∈ f.2.vars, v.address.Whole)
    (h : s.applyStack patches = .ok s') : s'.ShownWhole := by
  induction patches generalizing s with
  | nil =>
    obtain rfl := Except.ok.inj h
    exact hs
  | cons e patches ih =>
    rw [applyStack] at h
    cases hframe : s.applyFrame e.1 e.2 with
    | error stopped =>
      rw [hframe] at h
      cases h
    | ok s₁ =>
      rw [hframe] at h
      refine ih ?_ (fun f hf => hpatches f (List.mem_cons_of_mem _ hf)) h
      exact shownWhole_applyFrame hs (hpatches e List.mem_cons_self) hframe

theorem sizedWhole_applyHeap {patches : Table Number BlockPatch} (hs : s.SizedWhole)
    (hpatches : ∀ e ∈ patches, e.2.size.Whole) (h : s.applyHeap patches = .ok s') :
    s'.SizedWhole := by
  induction patches generalizing s with
  | nil =>
    obtain rfl := Except.ok.inj h
    exact hs
  | cons e patches ih =>
    obtain ⟨s₁, hblock, hrest⟩ := applyHeap_cons_cases h
    obtain ⟨block, hheap, hsize, _⟩ := applyBlock_cases hblock
    have hnew : block.size.Whole := by
      rw [hsize]
      exact hpatches e List.mem_cons_self
    refine ih ?_ (fun f hf => hpatches f (List.mem_cons_of_mem _ hf)) hrest
    intro f hf
    rw [hheap] at hf
    rcases Table.mem_put hf with hf | rfl | ⟨_, hvalue, _⟩
    · exact hs f hf
    · exact hnew
    · rw [hvalue]
      exact hnew

/-- Blocks that are applied are there, and so are those that were there. -/
theorem has_applyHeap {patches : Table Number BlockPatch} {a : Number}
    (ha : s.heap.has a = true ∨ patches.has a = true) (h : s.applyHeap patches = .ok s') :
    s'.heap.has a = true := by
  induction patches generalizing s with
  | nil =>
    obtain rfl := Except.ok.inj h
    rcases ha with ha | ha
    · exact ha
    · cases ha
  | cons e patches ih =>
    obtain ⟨s₁, hblock, hrest⟩ := applyHeap_cons_cases h
    obtain ⟨block, hheap, _, _⟩ := applyBlock_cases hblock
    refine ih ?_ hrest
    rw [hheap]
    rcases ha with ha | ha
    · exact Or.inl (Table.has_put_of_has _ ha)
    · rw [Table.has, Table.find?_cons] at ha
      split at ha
      · next heq =>
        left
        rw [Table.has, Table.find?_put_of_beq heq]
        rfl
      · exact Or.inr ha

end State

theorem Table.has_of_mem {κ ν : Type} [BEq κ] {t : Table κ ν} {k a : κ} {v : ν} (hk : (k, v) ∈ t)
    (h : (k == a) = true) : t.has a = true := by
  rw [has_eq_true_iff]
  cases hfound : t.find? a with
  | some w => exact ⟨w, rfl⟩
  | none =>
    rw [find?_eq_none_iff] at hfound
    rw [hfound _ hk] at h
    cases h

theorem Table.has_putAll_of_has {ν : Type} {t more : Table Number ν} {a : Number}
    (h : t.has a = true) : (t.putAll more).has a = true := by
  induction more generalizing t with
  | nil => exact h
  | cons e more ih => exact ih (Table.has_put_of_has e.2 h)

/-- Values that were put are values of one of the two tables. -/
theorem Table.forall_putAll {κ ν : Type} [BEq κ] {t more : Table κ ν} {P : ν → Prop}
    (ht : ∀ e ∈ t, P e.2) (hmore : ∀ e ∈ more, P e.2) : ∀ e ∈ t.putAll more, P e.2 := by
  intro e he
  rcases Table.mem_putAll he with he | he | ⟨f, hf, _, hvalue, _⟩
  · exact ht e he
  · exact hmore e he
  · rw [hvalue]
    exact hmore f hf

/-- What is held back for frames is shown where it was written. -/
theorem Machine.pendingFrames_whole {m : Machine} (hwrites : m.writes.Whole) :
    ∀ f ∈ m.pendingFrames, ∀ v ∈ f.2.vars, v.address.Whole := by
  intro f hf v hv
  have hfound : m.pendingFrames.find? f.1 = some f.2 :=
    Table.find?_of_mem m.pendingFrames_apart (beq_self_eq_true _) hf
  rw [Machine.find?_pendingFrames, updateOf] at hfound
  split at hfound
  · cases hfound
  · rw [← Option.some.inj hfound] at hv
    obtain ⟨a, value, hmem, hpending⟩ := Machine.mem_heldBack.1 hv
    obtain ⟨_, _, _, _, _, _, rfl⟩ := Machine.pendingVariable?_eq_some.1 hpending
    exact hwrites _ hmem

/-! ## The invariant of a run -/

/-- The state meets a condition that every step kept. -/
structure Machine.Upholds (heapBase : Int) (I : State → Prop) (m : Machine) : Prop where
  state : I m.state
  along : Along (fun s _ s' => I s → I s') { heapBase := heapBase } m.steps.toList m.state

theorem Machine.Upholds.start {settings : Settings} {I : State → Prop}
    (h : I { heapBase := settings.heapBase }) :
    (Machine.start settings).Upholds settings.heapBase I :=
  ⟨h, .nil⟩

theorem Machine.Upholds.congr {heapBase : Int} {I : State → Prop} {m m' : Machine}
    (hm : m.Upholds heapBase I) (hstate : m'.state = m.state) (hsteps : m'.steps = m.steps) :
    m'.Upholds heapBase I := by
  refine ⟨hstate ▸ hm.state, ?_⟩
  rw [hsteps, hstate]
  exact hm.along

theorem Machine.Upholds.emit {heapBase : Int} {I : State → Prop} {m : Machine} {kind : StepKind}
    {line : Int} {description : String} {delta : Delta} {state : State} (hm : m.Upholds heapBase I)
    (happly : m.state.apply (m.nextStep kind line description delta) = .ok state) (hI : I state) :
    ({ m.flushed with
      state := state
      steps := m.steps.push (m.nextStep kind line description delta)
      journal := .emitted delta state :: m.journal }).Upholds heapBase I := by
  refine ⟨hI, ?_⟩
  show Along _ _ (m.steps.push _).toList state
  rw [Array.toList_push]
  exact .snoc hm.along happly fun _ => hI

/-- Cells and blocks are filed under whole numbers; what is held back for a block under another key
is held back for one that is there, and an open file has a block. Frames show whole numbers as long
as writes were to whole numbers, and sizes are whole on a condition. -/
structure Machine.Anchored (heapBase : Int) (sized : Prop) (m : Machine) : Prop where
  numbered : m.Upholds heapBase State.Numbered
  blocks : ∀ e ∈ m.blocks, m.state.heap.has e.1 = true ∨ e.1.Whole
  files : ∀ a, m.files.has a = true → m.blocks.has a = true ∨ m.state.heap.has a = true
  shown : m.WroteWhole → m.Upholds heapBase State.ShownWhole ∧ m.writes.Whole
  sizes : sized → m.Upholds heapBase State.SizedWhole ∧ ∀ e ∈ m.blocks, e.2.size.Whole

theorem State.numbered_empty (heapBase : Int) : ({ heapBase := heapBase } : State).Numbered :=
  ⟨Table.whole_nil, Table.whole_nil⟩

theorem State.shownWhole_empty (heapBase : Int) : ({ heapBase := heapBase } : State).ShownWhole :=
  List.forall_mem_nil _

theorem State.sizedWhole_empty (heapBase : Int) : ({ heapBase := heapBase } : State).SizedWhole :=
  List.forall_mem_nil _

theorem Machine.anchored_start (settings : Settings) (sized : Prop) :
    (Machine.start settings).Anchored settings.heapBase sized where
  numbered := .start (State.numbered_empty _)
  blocks := List.forall_mem_nil _
  files a ha := by cases ha
  shown _ := ⟨.start (State.shownWhole_empty _), Table.whole_nil⟩
  sizes _ := ⟨.start (State.sizedWhole_empty _), List.forall_mem_nil _⟩

namespace Machine.Anchored

variable {heapBase : Int} {sized : Prop} {m m' : Machine}

theorem congr (hm : m.Anchored heapBase sized) (hstate : m'.state = m.state)
    (hsteps : m'.steps = m.steps) (hwrites : m'.writes = m.writes)
    (hblocks : m'.blocks = m.blocks) (hfiles : m'.files = m.files)
    (hjournal : m'.WroteWhole → m.WroteWhole) : m'.Anchored heapBase sized := by
  refine ⟨hm.numbered.congr hstate hsteps, ?_, ?_, ?_, ?_⟩
  · rw [hblocks, hstate]
    exact hm.blocks
  · rw [hfiles, hblocks, hstate]
    exact hm.files
  · intro hwrote
    rw [hwrites]
    exact (hm.shown (hjournal hwrote)).imp_left fun h => h.congr hstate hsteps
  · intro hsized
    rw [hblocks]
    exact (hm.sizes hsized).imp_left fun h => h.congr hstate hsteps

/-- A step shows what was held back and a change of its own. -/
theorem emit {kind : StepKind} {line : Int} {description : String} {delta : Delta}
    (hm : m.Anchored heapBase sized) (hdelta : delta.Whole sized)
    (h : m.emit kind line description delta = .ok m') : m'.Anchored heapBase sized := by
  obtain ⟨state, happly, rfl⟩ := Machine.emit_eq_ok.1 h
  obtain ⟨stacked, heaped, hstacked, hheaped, _, hstack, hheap, _⟩ := State.apply_cases happly
  obtain ⟨hframes, hmemory, _, _⟩ := State.applyMemory_beside m.state
    (m.nextStep kind line description delta).delta.memory
  have hbefore : stacked.heap = m.state.heap :=
    (State.applyStack_beside hstacked).2.1.trans hmemory
  have hpatches : (m.nextStep kind line description delta).delta.heap
      = m.blocks.putAll delta.heap := rfl
  rw [hpatches] at hheaped
  -- a block that is there keeps its key, so only new keys have to be whole
  have hkeys : ∀ e ∈ m.blocks.putAll delta.heap, stacked.heap.has e.1 = true ∨ e.1.Whole := by
    rw [hbefore]
    intro e he
    rcases Table.mem_putAll he with he | he | ⟨_, _, _, _, w, hw | hw⟩
    · exact hm.blocks e he
    · exact Or.inr (hdelta.blocks e he)
    · exact hm.blocks (e.1, w) hw
    · exact Or.inr (hdelta.blocks (e.1, w) hw)
  have hnumbered : state.Numbered := by
    refine ⟨Machine.whole_emitted hm.numbered.state.cells hdelta.cells happly, ?_⟩
    rw [hheap]
    exact State.applyHeap_whole (hbefore ▸ hm.numbered.state.blocks) hkeys hheaped
  refine ⟨hm.numbered.emit happly hnumbered, List.forall_mem_nil _, ?_, ?_, ?_⟩
  · -- nothing is held back any more: a block that was is on the heap now
    intro a ha
    right
    show state.heap.has a = true
    rw [hheap]
    refine State.has_applyHeap ?_ hheaped
    rcases hm.files a ha with ha | ha
    · exact Or.inr (Table.has_putAll_of_has ha)
    · exact Or.inl (hbefore ▸ ha)
  · -- the frames show the writes that were held back, and what the change shows itself
    intro hwrote
    obtain ⟨hshown, hheld⟩ :=
      hm.shown fun a value hmem => hwrote a value (List.mem_cons_of_mem _ hmem)
    refine ⟨hshown.emit happly ?_, Table.whole_nil⟩
    rw [State.ShownWhole, hstack]
    refine State.shownWhole_applyStack ?_ ?_ hstacked
    · rw [State.ShownWhole, hframes]
      exact hshown.state
    · exact Table.forall_putAll (P := fun patch : FramePatch => ∀ v ∈ patch.vars, v.address.Whole)
        (Machine.pendingFrames_whole hheld) hdelta.vars
  · intro hsized
    obtain ⟨hstate, hheld⟩ := hm.sizes hsized
    refine ⟨hstate.emit happly ?_, List.forall_mem_nil _⟩
    rw [State.SizedWhole, hheap]
    refine State.sizedWhole_applyHeap ?_ ?_ hheaped
    · rw [State.SizedWhole, hbefore]
      exact hstate.state
    · exact Table.forall_putAll (P := fun patch : BlockPatch => patch.size.Whole) hheld
        (hdelta.sizes hsized)

theorem write {address value : Value} (hm : m.Anchored heapBase sized)
    (h : m.write address value = .ok m') : m'.Anchored heapBase sized := by
  obtain ⟨a, _, _, rfl⟩ := Machine.write_eq_ok.1 h
  refine ⟨hm.numbered.congr rfl rfl, hm.blocks, hm.files, ?_, ?_⟩
  · intro hwrote
    obtain ⟨hshown, hheld⟩ :=
      hm.shown fun b w hmem => hwrote b w (List.mem_cons_of_mem _ hmem)
    exact ⟨hshown.congr rfl rfl,
      Table.whole_put hheld value (Or.inr (hwrote a value List.mem_cons_self))⟩
  · exact fun hsized => (hm.sizes hsized).imp_left fun h => h.congr rfl rfl

/-- What is held back for a block is as large as a file. -/
theorem hold {key : Number} {patch : BlockPatch} {files : Table Number OpenFile} {cursor : Cursor}
    (hm : m.Anchored heapBase sized) (hsize : patch.size = .int Library.fileSize)
    (hkey : key.Whole ∨ m.blocks.has key = true ∨ m.state.heap.has key = true)
    (hfiles : ∀ a, files.has a = true → (key == a) = true ∨ m.files.has a = true) :
    ({ m with blocks := m.blocks.put key patch, files := files, cursor := cursor }).Anchored heapBase
      sized := by
  refine ⟨hm.numbered.congr rfl rfl, ?_, ?_, ?_, ?_⟩
  · intro e he
    rcases Table.mem_put_cases he with he | ⟨hnone, rfl⟩ | ⟨w, _, hw, _⟩
    · exact hm.blocks e he
    · -- a key that is new to what is held back
      rcases hkey with hkey | hkey | hkey
      · exact Or.inr hkey
      · rw [Table.has, hnone] at hkey
        cases hkey
      · exact Or.inl hkey
    · exact hm.blocks (e.1, w) hw
  · intro a ha
    rcases hfiles a ha with heq | ha
    · left
      show (m.blocks.put key patch).has a = true
      rw [Table.has, Table.find?_put_of_beq heq]
      rfl
    · exact (hm.files a ha).imp_left fun ha => Table.has_put_of_has _ ha
  · exact fun hwrote => (hm.shown hwrote).imp_left fun h => h.congr rfl rfl
  · intro hsized
    obtain ⟨hstate, hheld⟩ := hm.sizes hsized
    refine ⟨hstate.congr rfl rfl, ?_⟩
    intro e he
    rcases Table.mem_put he with he | rfl | ⟨_, hvalue, _⟩
    · exact hheld e he
    · exact ⟨_, hsize⟩
    · rw [hvalue]
      exact ⟨_, hsize⟩

theorem opened (hm : m.Anchored heapBase sized) (file : OpenFile) :
    (m.opened file).Anchored heapBase sized := by
  refine hm.hold rfl (Or.inl ⟨_, rfl⟩) ?_
  intro a ha
  rw [Table.has, Table.find?_put] at ha
  split at ha
  · next heq => exact Or.inl heq
  · exact Or.inr ha

theorem closed (hm : m.Anchored heapBase sized) {key : Number} {file : OpenFile}
    (h : m.files.find? key = some file) : (m.closed key).Anchored heapBase sized := by
  -- the key can be a floating number here, but an open file has a block
  refine hm.hold rfl (Or.inr (hm.files key (Table.has_eq_true_iff.2 ⟨file, h⟩))) ?_
  intro a ha
  obtain ⟨file', hfound⟩ := Table.has_eq_true_iff.1 ha
  obtain ⟨k, hk, heq⟩ := Table.mem_of_find? hfound
  exact Or.inr (Table.has_of_mem (Table.mem_of_mem_drop hk) heq)

theorem seek (hm : m.Anchored heapBase sized) {key : Number} {file : OpenFile} (position : Nat)
    (h : m.files.find? key = some file) :
    ({ m with files := m.files.put key { file with position := position } }).Anchored heapBase
      sized := by
  refine ⟨hm.numbered.congr rfl rfl, hm.blocks, ?_, ?_, ?_⟩
  · intro a ha
    rw [Table.has, Table.find?_put] at ha
    refine hm.files a ?_
    split at ha
    · next heq =>
      rw [Table.has, ← Table.find?_congr heq, h]
      rfl
    · exact ha
  · exact fun hwrote => (hm.shown hwrote).imp_left fun h => h.congr rfl rfl
  · exact fun hsized => (hm.sizes hsized).imp_left fun h => h.congr rfl rfl

end Machine.Anchored

/-! ## Moves -/

section Moves

variable {setup : Setup} {heapBase : Int} {sized : Prop} {m m' : Machine}

theorem Act.anchored (h : Act setup m m') (hm : m.Anchored heapBase sized) :
    m'.Anchored heapBase sized := by
  cases h with
  | emit kind line description h =>
    exact hm.emit (Delta.whole_of_no_objects rfl (List.forall_mem_nil _) rfl) h
  | write address value h => exact hm.write h
  | print text =>
    exact hm.congr rfl rfl rfl rfl rfl fun hwrote a value hmem =>
      hwrote a value (List.mem_cons_of_mem _ hmem)
  | note text => exact hm.congr rfl rfl rfl rfl rfl fun hwrote => hwrote
  | store disk => exact hm.congr rfl rfl rfl rfl rfl fun hwrote => hwrote
  | seek position hfile => exact hm.seek position hfile
  | «open» file => exact hm.opened file
  | close hfile => exact hm.closed hfile

theorem Machine.Anchored.own (hm : m.Anchored heapBase sized) (type : CType) (address : Int)
    (frame name : String) : (m.own type address frame name).Anchored heapBase sized := by
  unfold Machine.own
  split
  · exact hm
  · exact hm.congr rfl rfl rfl rfl rfl fun hwrote => hwrote

/-- The change that declares a variable. -/
theorem declarationDelta_whole {spare : Nat} {layouts : Layouts} {frame name : String}
    {type : CType} {address : Int} {value : Value} {cells : Table Number CellPatch}
    (h : objectCells spare layouts name type address value = .ok cells) :
    (declarationDelta frame name type address value cells).Whole sized := by
  refine Delta.whole_of_no_blocks (cellsWithin_whole h) ?_ rfl
  intro f hf v hv
  obtain rfl := List.mem_singleton.1 hf
  obtain rfl := List.mem_singleton.1 hv
  exact ⟨address, rfl⟩

theorem declareAt_anchored {frame name : String} {type : CType} {line : Int} {value : Value}
    {description : String} {address : Int} {u : Unit} (hm : m.Anchored heapBase sized)
    (h : declareAt setup frame name type line value description address m = .ok (u, m')) :
    m'.Anchored heapBase sized := by
  obtain ⟨cells, hcells, hemit⟩ := declareAt_cases h
  exact (hm.own type address frame name).emit (declarationDelta_whole hcells) hemit

namespace Invocation

/-- Arguments are placed at whole numbers. -/
theorem place_anchored {frame : String} {arguments : List (Parameter × Typed)}
    {cells cells' : Table Number CellPatch} {vars vars' : List FrameVariable}
    (hm : m.Anchored heapBase sized) (hcells : cells.Whole) (hvars : ∀ v ∈ vars, v.address.Whole)
    (h : place setup frame arguments cells vars m = .ok ((cells', vars'), m')) :
    m'.Anchored heapBase sized ∧ cells'.Whole ∧ ∀ v ∈ vars', v.address.Whole := by
  induction arguments generalizing cells vars m with
  | nil =>
    obtain ⟨heq, rfl⟩ := Eval.pure_eq_ok.1 h
    obtain ⟨rfl, rfl⟩ := Prod.mk.injEq .. ▸ heq
    exact ⟨hm, hcells, hvars⟩
  | cons head rest ih =>
    obtain ⟨value, size, address, cursor, more, _, _, _, hmore, hrest⟩ := place_cons_cases h
    have hreserved : ({ m with cursor := cursor }).Anchored heapBase sized :=
      hm.congr rfl rfl rfl rfl rfl fun hwrote => hwrote
    refine ih (hreserved.own _ _ _ _) (Table.whole_putAll hcells (cellsWithin_whole hmore)) ?_ hrest
    intro v hv
    rcases List.mem_append.1 hv with hv | hv
    · exact hvars v hv
    · obtain rfl := List.mem_singleton.1 hv
      exact ⟨address, rfl⟩

end Invocation

/-- The change that puts on or takes off a frame without variables. -/
theorem Delta.whole_of_frame (frame : String) (action : FrameAction) :
    ({ stack := [(frame, { action := action })] } : Delta).Whole sized := by
  refine whole_of_no_objects rfl ?_ rfl
  intro f hf
  rw [List.mem_singleton.1 hf]

theorem Walk.anchored (h : Walk setup m m') (hm : m.Anchored heapBase sized) :
    m'.Anchored heapBase sized := by
  cases h with
  | act h => exact h.anchored hm
  | declare name type line value description address h =>
    obtain ⟨size, cursor, cells, _, _, hcells, hemit⟩ := declare_cases h
    have hreserved : ({ m with cursor := cursor }).Anchored heapBase sized :=
      hm.congr rfl rfl rfl rfl rfl fun hwrote => hwrote
    exact (hreserved.own _ _ _ _).emit (declarationDelta_whole hcells) hemit
  | enter f arguments line _ _ h =>
    obtain ⟨cells, vars, m₁, description, m₂, hplace, hemit, rfl⟩ := Invocation.enter_cases h
    obtain ⟨hm₁, hcells, hvars⟩ :=
      Invocation.place_anchored hm Table.whole_nil (List.forall_mem_nil _) hplace
    have hdelta : (Invocation.enterDelta (m.nextLabel f.name) cells vars line).Whole sized := by
      refine Delta.whole_of_no_blocks hcells ?_ rfl
      intro e he
      obtain rfl := List.mem_singleton.1 he
      exact hvars
    exact (hm₁.emit hdelta hemit).congr rfl rfl rfl rfl rfl fun hwrote => hwrote
  | leave f outer flow _ h =>
    obtain ⟨line, description, m₁, hemit, rfl⟩ := Invocation.leave_cases h
    have hbefore : ({ m with active := m.active.tail }).Anchored heapBase sized :=
      hm.congr rfl rfl rfl rfl rfl fun hwrote => hwrote
    exact (hbefore.emit (Delta.whole_of_frame _ _) hemit).congr rfl rfl rfl rfl rfl
      fun hwrote => hwrote

/-- So every run keeps it. -/
theorem Walks.anchored (h : Walks setup m m') (hm : m.Anchored heapBase sized) :
    m'.Anchored heapBase sized := by
  have hwalk := h.1
  clear h
  induction hwalk with
  | refl => exact hm
  | tail _ hmove ih => exact hmove.anchored ih

theorem emitDelta_anchored {kind : StepKind} {line : Int} {description : String} {delta : Delta}
    (hdelta : delta.Whole sized) :
    Follows (Keeps (Machine.Anchored heapBase sized))
      (Run.emitDelta setup kind line description delta) :=
  Run.attempt_follows fun _ _ h hm => hm.emit hdelta h

theorem output_anchored {kind : StepKind} {line : Int} {description output : String} :
    Follows (Keeps (Machine.Anchored heapBase sized))
      (Run.emitDelta setup kind line description { output := output }) :=
  emitDelta_anchored (Delta.whole_of_no_objects rfl (List.forall_mem_nil _) rfl)

/-! ## Scripts -/

theorem outline_anchored :
    Follows (Keeps (Machine.Anchored heapBase sized)) (Outline.run setup) := by
  unfold Outline.run
  split
  · exact (emitDelta_anchored (Delta.whole_of_frame _ _)).bind fun _ =>
      (Follows.forM fun _ _ => output_anchored).bind fun _ =>
        emitDelta_anchored (Delta.whole_of_frame _ _)
  · exact output_anchored

namespace Allocation.Stage

variable {s : Stage}

/-- The pointer is at a whole number, whatever its value. -/
theorem pointerDelta_whole (value : Int) : (s.pointerDelta value).Whole sized := by
  refine Delta.whole_of_no_blocks (Table.whole_singleton _ _) ?_ rfl
  intro f hf v hv
  obtain rfl := List.mem_singleton.1 hf
  obtain rfl := List.mem_singleton.1 hv
  exact ⟨s.pointerAddress, rfl⟩

/-- The block has the size that is reserved. -/
theorem blockDelta_whole (hsize : sized → s.size.Whole) (freed : Bool) :
    (s.blockDelta freed).Whole sized where
  cells := Table.whole_nil
  vars f hf := by cases hf
  blocks := Table.whole_singleton _ _
  sizes hsized e he := by
    obtain rfl := List.mem_singleton.1 he
    exact hsize hsized

theorem rest_anchored (hsize : sized → s.size.Whole) :
    Follows (Keeps (Machine.Anchored heapBase sized))
      (do s.reserve; s.check; s.fillAndPrint; s.free; s.clear; s.leave) := by
  have hpointer : (s.pointerDelta s.block).Whole sized := pointerDelta_whole s.block
  have hblock : (s.blockDelta false).Whole sized := blockDelta_whole hsize false
  -- the block appears in the same step as the pointer to it
  have hreserve : ({ s.pointerDelta s.block with heap := (s.blockDelta false).heap }).Whole sized :=
    ⟨hpointer.cells, hpointer.vars, hblock.blocks, hblock.sizes⟩
  have hfill : Follows (Keeps (Machine.Anchored heapBase sized)) s.fillAndPrint := by
    refine fillAndPrint_follows (fun _ _ _ _ => output_anchored) ?_ ?_
    · intro i kind line description cell
      exact emitDelta_anchored (Delta.whole_of_no_blocks (Table.whole_singleton _ _)
        (List.forall_mem_nil _) rfl)
    · intro scope e
      exact (evaluateWith_follows (callAt_follows .dynamicAllocation 1) scope e).mono
        fun _ _ hwalks => hwalks.anchored
  have hclear : Follows (Keeps (Machine.Anchored heapBase sized)) s.clear := by
    unfold clear
    split
    · exact Follows.pure _
    · exact emitDelta_anchored (pointerDelta_whole 0)
  have hleave : Follows (Keeps (Machine.Anchored heapBase sized)) s.leave :=
    (emitDelta_anchored (Delta.whole_of_frame _ _)).bind fun _ =>
      Run.change_follows fun _ hm => hm.congr rfl rfl rfl rfl rfl fun hwrote => hwrote
  exact (emitDelta_anchored hreserve).bind fun _ => output_anchored.bind fun _ => hfill.bind fun _ =>
    ((emitDelta_anchored (blockDelta_whole hsize true)).bind fun _ => output_anchored).bind fun _ =>
      hclear.bind fun _ => hleave

end Allocation.Stage

end Moves

/-- The sequence of an allocation reserves a whole number of bytes. -/
def Setup.ReservesWhole (setup : Setup) : Prop :=
  ∀ main (s : Allocation.Stage), setup.analysis.main? = some main → s.SetFor setup main →
    s.size.Whole

theorem allocation_anchored {setup : Setup} {heapBase : Int} {sized : Prop} {m m' : Machine}
    {u : Unit} (hsized : sized → setup.ReservesWhole) (hm : m.Anchored heapBase sized)
    (h : Allocation.run setup m = .ok (u, m')) : m'.Anchored heapBase sized := by
  obtain ⟨main, s, cursor, m₁, m₂, hmain, hset, hpointer, hcounter, hrest⟩ :=
    Allocation.run_setFor h
  have hactive : ({ m with active := "main" :: m.active }).Anchored heapBase sized :=
    hm.congr rfl rfl rfl rfl rfl fun hwrote => hwrote
  obtain ⟨_, _, _, _, _, _, _, hdeclared⟩ := Allocation.declarePointer_cases hpointer
  have hm₁ := declareAt_anchored hactive hdeclared
  have hm₂ : m₂.Anchored heapBase sized := by
    cases hc : s.plan.counter with
    | none =>
      rw [hc] at hcounter
      obtain ⟨_, rfl⟩ := Eval.pure_eq_ok.1 hcounter
      exact hm₁
    | some c =>
      rw [hc] at hcounter
      obtain ⟨_, _, _, hdeclared⟩ := Allocation.declareCounter_cases hcounter
      exact declareAt_anchored hm₁ hdeclared
  exact Allocation.Stage.rest_anchored (fun h => hsized h main s hmain hset) m₂ u m' hrest hm₂

/-- **Every script keeps cells and blocks under whole numbers**, and keeps what frames show whole if
it writes to whole numbers, and sizes if it reserves a whole number of bytes. -/
theorem play_anchored {setup : Setup} {category : Category} {u : Unit} {m : Machine}
    (h : category.play setup (Machine.start setup.settings) = .ok (u, m)) :
    m.Anchored setup.settings.heapBase (category = .dynamicAllocation → setup.ReservesWhole) := by
  by_cases hexec : category.executes = true
  · exact (play_follows hexec h rfl).anchored (Machine.anchored_start _ _)
  · cases category with
    | generic => exact outline_anchored _ _ _ h (Machine.anchored_start _ _)
    | dynamicAllocation =>
      exact allocation_anchored (fun hsized => hsized rfl) (Machine.anchored_start _ _) h
    | _ => exact absurd rfl hexec

/-! ## Traces -/

section Traces

variable {p : Program} {source : String} {tokens : List Token} {settings : Settings}

/-- What the run of a trace upholds holds after any number of its steps. -/
theorem Program.trace_upholds {I : State → Prop} (hempty : I { heapBase := settings.heapBase })
    (hplay : ∀ analysis m, analyze p source tokens = .ok analysis →
      analysis.category.play { analysis, settings } (Machine.start settings) = .ok ((), m) →
      m.Upholds settings.heapBase I)
    {n : Nat} {s : State} (h : replayFrom { heapBase := settings.heapBase }
      ((p.trace source tokens settings).steps.take n) = .ok s) : I s := by
  obtain ⟨t, ht⟩ : ∃ t, Along (fun s _ s' => I s → I s') { heapBase := settings.heapBase }
      (p.trace source tokens settings).steps t :=
    Program.trace_along (fun _ _ _ hs => hs) fun analysis _ m ha hm => (hplay analysis m ha hm).along
  exact ht.take hempty (fun _ _ _ hstep => hstep) h

/-- Cells and heap blocks of every trace are filed under whole numbers. -/
theorem Program.trace_numbered {n : Nat} {s : State}
    (h : replayFrom { heapBase := settings.heapBase }
      ((p.trace source tokens settings).steps.take n) = .ok s) : s.Numbered :=
  trace_upholds (State.numbered_empty _) (fun _ _ _ hplay => (play_anchored hplay).numbered) h

/-- Where a frame of a trace shows a variable at an address that is no whole number, the run wrote
to such an address. -/
theorem Program.wrote_of_not_shownWhole {n : Nat} {s : State}
    (h : replayFrom { heapBase := settings.heapBase }
      ((p.trace source tokens settings).steps.take n) = .ok s) (hs : ¬s.ShownWhole) :
    ∃ analysis m, analyze p source tokens = .ok analysis ∧
      analysis.category.play { analysis, settings } (Machine.start settings) = .ok ((), m) ∧
      ∃ a value, .wrote a value ∈ m.journal ∧ ¬a.Whole := by
  -- without such a run the invariant would hold, and with it what the state shows would be whole
  by_contra hnone
  refine hs (trace_upholds (State.shownWhole_empty _) (fun analysis m ha hplay => ?_) h)
  refine ((play_anchored hplay).shown fun a value hmem => ?_).1
  by_contra ha'
  exact hnone ⟨analysis, m, ha, hplay, a, value, hmem, ha'⟩

/-- Where a block of a trace has a size that is no whole number, the program is about dynamic
allocation, and such a size is what its sequence reserves. -/
theorem Program.reserved_of_not_sizedWhole {n : Nat} {s : State}
    (h : replayFrom { heapBase := settings.heapBase }
      ((p.trace source tokens settings).steps.take n) = .ok s) (hs : ¬s.SizedWhole) :
    ∃ analysis main, ∃ stage : Allocation.Stage, analyze p source tokens = .ok analysis ∧
      analysis.category = .dynamicAllocation ∧ analysis.main? = some main ∧
      stage.SetFor { analysis, settings } main ∧ ¬stage.size.Whole := by
  by_contra hnone
  refine hs (trace_upholds (State.sizedWhole_empty _) (fun analysis m ha hplay => ?_) h)
  refine ((play_anchored hplay).sizes fun hcategory main stage hmain hset => ?_).1
  by_contra hsize
  exact hnone ⟨analysis, main, stage, ha, hcategory, hmain, hset, hsize⟩

end Traces

end Stepwise
