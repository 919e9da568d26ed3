/-
The regions of the memory.

What a machine keeps is that it is *housed* up to a limit: the cells of its memory
tile the stack from the base up to the limit, the variables of its frames lie
there, and its files and heap blocks lie from the base of the heap on. A step whose
change lays objects from the limit on moves the limit behind them; every other move
leaves it where it is. So a machine that executes a program is housed up to its
cursor, all along, and every trace keeps its objects where they belong.
-/
import Stepwise.Proofs.Placement
import Stepwise.Proofs.Tags
import Stepwise.Syntax.Equality
import Mathlib

set_option autoImplicit false

namespace Stepwise

/-- The step is grounded and keeps the state housed. -/
def KeepsHouse (setup : Setup) (s : State) (step : Step) (s' : State) : Prop :=
  s.Housed setup.analysis.sizes setup.settings.stackBase setup.settings.heapBase →
    step.Grounded setup.analysis.sizes setup.settings.heapBase s ∧
    s'.Housed setup.analysis.sizes setup.settings.stackBase setup.settings.heapBase

/-! ## Packed states -/

/-- The cells of the memory tile the bytes between two addresses, and the variables of the frames
are among them. -/
structure State.Packed (sizes : StructSizes) (low limit : Int) (s : State) : Prop where
  tiled : Tiled sizes s.typeAt low limit
  whole : s.memory.Whole
  apart : s.memory.Apart
  tidy : s.Tidy
  shown : ∀ label name c, s.shown? label name = some c →
    ∃ a, (Number.int a == c.address) = true ∧ low ≤ a ∧ a < limit

namespace State.Packed

variable {sizes : StructSizes} {low limit high : Int} {s : State}

theorem typeAt_of_mem (hs : s.Packed sizes low limit) {key : Number} {cell : Cell} {a : Int}
    (h : (key, cell) ∈ s.memory) (hkey : key = .int a) : s.typeAt a = some cell.type := by
  subst hkey
  rw [State.typeAt, Table.find?_of_mem hs.apart (by simp) h]
  rfl

/-- An address that is mapped lies between the two. -/
theorem mapped_within (hs : s.Packed sizes low limit) {key : Number} {cell : Cell}
    (h : s.memory.find? key = some cell) :
    ∃ a, (Number.int a == key) = true ∧ low ≤ a ∧ a < limit := by
  obtain ⟨k, hk, heq⟩ := Table.mem_of_find? h
  obtain ⟨a, ha⟩ := hs.whole _ hk
  dsimp only at ha
  subst ha
  obtain ⟨n, _, hpos, hlow, hhigh⟩ := hs.tiled.inside a _ (hs.typeAt_of_mem hk rfl)
  exact ⟨a, heq, hlow, by omega⟩

/-- An address from the limit on is not mapped. -/
theorem unmapped (hs : s.Packed sizes low limit) {a : Int} (h : limit ≤ a) :
    s.memory.find? (.int a) = none := by
  cases hfound : s.memory.find? (.int a) with
  | none => rfl
  | some cell =>
    obtain ⟨b, hb, _, hlt⟩ := hs.mapped_within hfound
    rw [Number.int_beq_int, decide_eq_true_eq] at hb
    omega

/-- A state that is packed up to a limit in a region is housed in the region. -/
theorem housed (hs : s.Packed sizes low limit) (hroof : limit ≤ max low high) :
    s.Housed sizes low high := by
  refine ⟨?_, ?_, ?_⟩
  · intro e he
    obtain ⟨a, ha⟩ := hs.whole e he
    obtain ⟨n, hn, hpos, hlow, hhigh⟩ := hs.tiled.inside a _ (hs.typeAt_of_mem he ha)
    exact ⟨a, n, ha, hn, hpos, hlow, by omega⟩
  · refine List.Pairwise.imp_of_mem ?_ hs.apart
    intro e f he hf hne a b n k ha hb hn hk
    have hat := hs.typeAt_of_mem he ha
    have hbt := hs.typeAt_of_mem hf hb
    rw [ha, hb, Number.int_beq_int, decide_eq_false_iff_not] at hne
    rcases Int.lt_or_gt_of_ne hne with hlt | hgt
    · exact Or.inl (hs.tiled.beside a b _ _ n hat hbt hn hlt)
    · exact Or.inr (hs.tiled.beside b a _ _ k hbt hat hk hgt)
  · intro f hf e he
    obtain ⟨a, ha, hlow, hhigh⟩ := hs.shown f.name e.1 e.2
      (hs.tidy.shown?_eq_some_iff.2 ⟨f, hf, rfl, he⟩)
    exact ⟨a, ha, hlow, by omega⟩

end State.Packed

/-! ## Housed machines -/

/-- The state is packed up to a limit on the stack, and files and heap blocks are from the base of
the heap on; and every step was grounded and kept the state housed. -/
structure Machine.Housed (setup : Setup) (limit : Int) (m : Machine) : Prop where
  packed : m.state.Packed setup.analysis.sizes setup.settings.stackBase limit
  floor : setup.settings.stackBase ≤ limit
  roof : limit ≤ max setup.settings.stackBase setup.settings.heapBase
  base : m.cursor.heapBase = setup.settings.heapBase
  next : setup.settings.heapBase ≤ m.cursor.nextHeap
  files : m.files.Beyond setup.settings.heapBase
  blocks : m.blocks.Beyond setup.settings.heapBase
  along : Along (KeepsHouse setup) { heapBase := setup.settings.heapBase } m.steps.toList m.state

theorem State.packed_empty (sizes : StructSizes) (low limit heapBase : Int) :
    ({ heapBase := heapBase } : State).Packed sizes low limit where
  tiled := Tiled.nothing _ _ _
  whole := Table.whole_nil
  apart := List.Pairwise.nil
  tidy := ⟨List.nodup_nil, fun f hf => by cases hf⟩
  shown label name c hc := by cases hc

theorem Machine.housed_start (setup : Setup) :
    (Machine.start setup.settings).Housed setup setup.settings.stackBase where
  packed := State.packed_empty _ _ _ _
  floor := Int.le_refl _
  roof := Int.le_max_left _ _
  base := rfl
  next := Int.le_refl _
  files e he := by cases he
  blocks e he := by cases he
  along := .nil

namespace Machine.Housed

variable {setup : Setup} {limit stop : Int} {m m' : Machine} {kind : StepKind} {line : Int}
  {description : String} {delta : Delta} {state : State}

/-- Only the state, the steps, the files, the heap blocks and the heap's end of the cursor matter. -/
theorem congr (hm : m.Housed setup limit) (hstate : m'.state = m.state) (hsteps : m'.steps = m.steps)
    (hfiles : m'.files = m.files) (hblocks : m'.blocks = m.blocks)
    (hbase : m'.cursor.heapBase = m.cursor.heapBase)
    (hnext : m'.cursor.nextHeap = m.cursor.nextHeap) : m'.Housed setup limit where
  packed := hstate ▸ hm.packed
  floor := hm.floor
  roof := hm.roof
  base := hbase.trans hm.base
  next := hnext ▸ hm.next
  files := hfiles ▸ hm.files
  blocks := hblocks ▸ hm.blocks
  along := hsteps ▸ hstate ▸ hm.along

/-! ## Steps -/

/-- A step that lays objects from the limit on is grounded. -/
theorem grounded (hm : m.Housed setup limit) (hfits : m.Fits delta)
    (hlays : delta.Lays setup.analysis.sizes limit stop) :
    (m.nextStep kind line description delta).Grounded setup.analysis.sizes
      setup.settings.heapBase m.state := by
  refine ⟨?_, ?_⟩
  · intro e he
    -- the cells of the step are those held back and those of its delta
    have hcases : e ∈ m.pendingCells ∨
        ∃ f ∈ delta.memory, (f.1 == e.1) = true ∧ e.2 = f.2 := by
      rcases Table.mem_putAll he with he | he | ⟨f, hf, heq, hvalue, _⟩
      · exact Or.inl he
      · obtain ⟨a, ha⟩ := hlays.whole e he
        exact Or.inr ⟨e, he, by simp [ha], rfl⟩
      · exact Or.inr ⟨f, hf, BEq.symm heq, hvalue⟩
    rcases hcases with he | ⟨f, hf, heq, hvalue⟩
    · exact Or.inl (Machine.mem_pendingCells he)
    · -- a cell of the delta lies from the limit on, where memory has nothing yet
      refine Or.inr ⟨?_, ?_⟩
      · obtain ⟨a, ha⟩ := hlays.whole f hf
        have hat : cellTypeAt delta.memory a = some f.2.type := by
          refine cellTypeAt_of_mem hfits.memory ?_
          rw [← ha]
          exact hf
        obtain ⟨_, _, _, hlow, _⟩ := hlays.tiled.inside a _ hat
        rw [← Table.find?_congr heq, ha]
        exact hm.packed.unmapped hlow
      · obtain ⟨label, patch, hpatch, hadd, v, hv, hname, a, b, n, k, ha, hrest⟩ :=
          hlays.declared f hf
        have hstack : (m.nextStep kind line description delta).delta.stack.find? label
            = some patch := by
          rw [Machine.Booked.find?_stack m hfits.stack, hpatch]
          rfl
        obtain ⟨key, hkey, _⟩ := Table.mem_of_find? hstack
        rw [hvalue]
        exact ⟨_, hkey, hadd, v, hv, hname, a, b, n, k, PartialEquivBEq.trans ha heq, hrest⟩
  · show Table.Beyond setup.settings.heapBase (m.blocks.putAll delta.heap)
    rw [hlays.heap]
    exact hm.blocks

/-- What the frames show after the step lies on the stack. -/
theorem shown_emitted (hm : m.Housed setup limit) (hfits : m.Fits delta)
    (hlays : delta.Lays setup.analysis.sizes limit stop)
    (happly : m.state.apply (m.nextStep kind line description delta) = .ok state)
    {label name : String} {c : Cell} (hc : state.shown? label name = some c) :
    ∃ a, (Number.int a == c.address) = true ∧ setup.settings.stackBase ≤ a ∧ a < stop := by
  have hforward := hlays.forward
  have hfloor := hm.floor
  have hold : m.state.shown? label name = some c →
      ∃ a, (Number.int a == c.address) = true ∧ setup.settings.stackBase ≤ a ∧ a < stop := by
    intro hshown
    obtain ⟨a, ha, hlow, hhigh⟩ := hm.packed.shown label name c hshown
    exact ⟨a, ha, hlow, by omega⟩
  rcases hm.packed.tidy.shown?_apply (Machine.Booked.stack_apart m) happly hc with
    ⟨_, hshown⟩ | ⟨patch, hpatch, _, ⟨v, hv, _, rfl⟩ | ⟨_, hshown⟩⟩
  · exact hold hshown
  · rw [Machine.Booked.find?_stack m hfits.stack] at hpatch
    rcases Option.or_eq_some_iff.1 hpatch with hpatch | ⟨_, hpatch⟩
    · obtain ⟨a, ha, hlow, hhigh⟩ := hlays.listed label patch hpatch v hv
      exact ⟨a, by simp [State.variableCell, ha], by omega, hhigh⟩
    · -- an update is held back for a write, and a write goes to a cell that is there
      unfold updateOf at hpatch
      split at hpatch
      · cases hpatch
      · obtain rfl := Option.some.inj hpatch
        obtain ⟨key, value, _, hpending⟩ := Machine.mem_heldBack.1 hv
        obtain ⟨cell, _, _, hcell, _, _, rfl⟩ := Machine.pendingVariable?_eq_some.1 hpending
        obtain ⟨a, ha, hlow, hhigh⟩ := hm.packed.mapped_within hcell
        exact ⟨a, ha, hlow, by omega⟩
  · exact hold hshown

/-- **A step that lays objects from the limit on moves the limit behind them.** -/
theorem emit (hm : m.Housed setup limit) (hwrites : m.writes.Apart) (hfits : m.Fits delta)
    (hlays : delta.Lays setup.analysis.sizes limit stop)
    (hroof : stop ≤ max setup.settings.stackBase setup.settings.heapBase)
    (h : m.emit kind line description delta = .ok m') : m'.Housed setup stop := by
  obtain ⟨state, happly, rfl⟩ := Machine.emit_eq_ok.1 h
  have hfloor := hm.floor
  have hforward := hlays.forward
  have hpacked : state.Packed setup.analysis.sizes setup.settings.stackBase stop :=
    { tiled := hm.packed.tiled.append hlays.tiled hfloor hforward
        (Machine.typeAt_emitted hwrites hfits.memory happly)
      whole := Machine.whole_emitted hm.packed.whole hlays.whole happly
      apart := Machine.apart_emitted hm.packed.apart happly
      tidy := hm.packed.tidy.apply (Machine.Booked.stack_apart m) happly
      shown := fun label name c hc => hm.shown_emitted hfits hlays happly hc }
  refine ⟨hpacked, by omega, hroof, hm.base, hm.next, hm.files, ?_, ?_⟩
  · intro e he
    cases he
  · rw [Array.toList_push]
    exact .snoc hm.along happly fun _ => ⟨hm.grounded hfits hlays, hpacked.housed hroof⟩

/-- A step that places nothing leaves the limit where it is. -/
theorem emit_nothing (hm : m.Housed setup limit) (hwrites : m.writes.Apart) (hfits : m.Fits delta)
    (hmemory : delta.memory = []) (hstack : ∀ e ∈ delta.stack, e.2.vars = [])
    (hheap : delta.heap = []) (h : m.emit kind line description delta = .ok m') :
    m'.Housed setup limit :=
  hm.emit hwrites hfits (Delta.lays_of_no_objects _ limit hmemory hstack hheap) hm.roof h

/-- Owners are no part of it. -/
theorem own (hm : m.Housed setup limit) (type : CType) (address : Int) (frame name : String) :
    (m.own type address frame name).Housed setup limit := by
  unfold Machine.own
  split
  · exact hm
  · exact hm.congr rfl rfl rfl rfl rfl rfl

/-- Nor is the stack's end of the cursor. -/
theorem reserve (hm : m.Housed setup limit) {size address : Int} {cursor : Cursor}
    (h : m.cursor.stack size = .ok (address, cursor)) :
    ({ m with cursor := cursor }).Housed setup limit ∧
      cursor.nextStack ≤ max setup.settings.stackBase setup.settings.heapBase := by
  obtain ⟨hroom, _, rfl⟩ := Cursor.stack_eq_ok.1 h
  have hbase := hm.base
  refine ⟨hm.congr rfl rfl rfl rfl rfl rfl, ?_⟩
  show m.cursor.nextStack + size ≤ _
  omega

end Machine.Housed

/-! ## Moves -/

theorem Act.housed {setup : Setup} {limit : Int} {m m' : Machine} (h : Act setup m m')
    (hwrites : m.writes.Apart) (hm : m.Housed setup limit) : m'.Housed setup limit := by
  cases h with
  | emit kind line description h =>
    exact hm.emit_nothing hwrites (m.fits_of_output "") rfl (fun e he => by cases he) rfl h
  | write address value h =>
    obtain ⟨a, _, _, rfl⟩ := Machine.write_eq_ok.1 h
    exact hm.congr rfl rfl rfl rfl rfl rfl
  | seek position hfile =>
    exact ⟨hm.packed, hm.floor, hm.roof, hm.base, hm.next,
      hm.files.put _ (hm.files.of_find? hfile), hm.blocks, hm.along⟩
  | «open» file =>
    -- the handle is the address of a heap block that is placed behind the others
    have hhandle : ∃ n, (Number.int n == Number.int m.cursor.nextHeap) = true ∧
        setup.settings.heapBase ≤ n := ⟨m.cursor.nextHeap, by simp, hm.next⟩
    have hnext := hm.next
    refine ⟨hm.packed, hm.floor, hm.roof, hm.base, ?_, hm.files.put _ hhandle,
      hm.blocks.put _ hhandle, hm.along⟩
    show setup.settings.heapBase ≤ m.cursor.nextHeap + max Library.fileSize 1
    omega
  | close hfile =>
    exact ⟨hm.packed, hm.floor, hm.roof, hm.base, hm.next,
      fun e he => hm.files e (Table.mem_of_mem_drop he),
      hm.blocks.put _ (hm.files.of_find? hfile), hm.along⟩
  | _ => exact hm.congr rfl rfl rfl rfl rfl rfl

namespace Invocation

variable {setup : Setup} {frame : String} {arguments : List (Parameter × Typed)}
  {cells : Table Number CellPatch} {vars : List FrameVariable} {m m' : Machine}
  {placed : Table Number CellPatch × List FrameVariable}

theorem place_subset (h : place setup frame arguments cells vars m = .ok (placed, m')) :
    vars ⊆ placed.2 := by
  induction arguments generalizing cells vars m with
  | nil =>
    obtain ⟨rfl, rfl⟩ := Eval.pure_eq_ok.1 h
    exact List.Subset.refl _
  | cons head rest ih =>
    obtain ⟨value, size, address, cursor, more, _, _, _, _, hrest⟩ := place_cons_cases h
    exact List.Subset.trans (List.subset_append_left _ _) (ih hrest)

/-- Placing arguments leaves the machine housed as it was, and the cursor in front of the heap. -/
theorem place_housed {limit : Int} (hm : m.Housed setup limit)
    (hroof : m.cursor.nextStack ≤ max setup.settings.stackBase setup.settings.heapBase)
    (h : place setup frame arguments cells vars m = .ok (placed, m')) :
    m'.Housed setup limit ∧
      m'.cursor.nextStack ≤ max setup.settings.stackBase setup.settings.heapBase := by
  induction arguments generalizing cells vars m with
  | nil =>
    obtain ⟨rfl, rfl⟩ := Eval.pure_eq_ok.1 h
    exact ⟨hm, hroof⟩
  | cons head rest ih =>
    obtain ⟨value, size, address, cursor, more, _, _, hcursor, _, hrest⟩ := place_cons_cases h
    obtain ⟨hm₁, hroof₁⟩ := hm.reserve hcursor
    refine ih (hm₁.own _ _ _ _) ?_ hrest
    rw [Machine.own_cursor]
    exact hroof₁

/-- The arguments of a call are laid one behind the other. -/
theorem place_laid (hlayouts : setup.analysis.layouts.Settled) {start : Int}
    (hlaid : Laid setup.analysis.sizes start m.cursor.nextStack cells vars)
    (h : place setup frame arguments cells vars m = .ok (placed, m'))
    (hfilled : ∀ v ∈ placed.2, v.type.Filled) :
    Laid setup.analysis.sizes start m'.cursor.nextStack placed.1 placed.2 := by
  induction arguments generalizing cells vars m with
  | nil =>
    obtain ⟨rfl, rfl⟩ := Eval.pure_eq_ok.1 h
    exact hlaid
  | cons head rest ih =>
    obtain ⟨value, size, address, cursor, more, _, hsize, hcursor, hmore, hrest⟩ :=
      place_cons_cases h
    obtain ⟨_, rfl, hnext⟩ := Cursor.stack_eq_ok.1 hcursor
    have htype : head.1.fullType.Filled := by
      refine hfilled (frameVariable head.1.name head.1.fullType m.cursor.nextStack value) ?_
      exact place_subset hrest (List.mem_append_right _ (List.mem_singleton_self _))
    refine ih ?_ hrest
    rw [Machine.own_cursor]
    show Laid setup.analysis.sizes start cursor.nextStack _ _
    rw [hnext]
    refine hlaid.add hlayouts htype hsize hmore (Table.find?_putAll (cellsWithin_apart hmore)) ?_
    intro e he
    exact Table.mem_putAll_whole hlaid.whole (cellsWithin_whole hmore) he

end Invocation

/-- Every array that the steps declare has elements. -/
def AllFilled (steps : List Step) : Prop :=
  ∀ step ∈ steps, step.Filled

theorem Layouts.Settled.solid {layouts : Layouts} (h : layouts.Settled) : layouts.Solid := by
  refine ⟨fun e he => ⟨layouts.sizes, h.placed e he, ?_⟩, h.pos⟩
  exact Int.le_of_lt (h.pos _ (List.mem_map_of_mem he))

theorem AllFilled.of_emit {m m' : Machine} {kind : StepKind} {line : Int} {description : String}
    {delta : Delta} {label : String} {patch : FramePatch} (hfilled : AllFilled m'.steps.toList)
    (h : m.emit kind line description delta = .ok m') (hstack : delta.stack = [(label, patch)])
    (haction : patch.action = .add) : ∀ v ∈ patch.vars, v.type.Filled := by
  have hfound : delta.stack.find? label = some patch := by
    rw [hstack, Table.find?_cons, if_pos (beq_self_eq_true _)]
  have hapart : delta.stack.Apart := by
    rw [hstack]
    exact List.pairwise_singleton _ _
  obtain ⟨step, hstep, hmem⟩ := Machine.emitted_patch h hapart hfound
  exact hfilled step hstep _ hmem haction

/-- **Every move of an executed program keeps the machine housed up to its cursor.** -/
theorem Walk.housed {setup : Setup} (hlayouts : setup.analysis.layouts.Settled) {m m' : Machine}
    (h : Walk setup m m') (hviewed : m.Viewed setup.settings m.cursor.nextStack)
    (hm : m.Housed setup m.cursor.nextStack) (hfilled : AllFilled m'.steps.toList) :
    m'.Housed setup m'.cursor.nextStack := by
  have hsolid := hlayouts.solid
  cases h with
  | act h =>
    rw [h.beside.2.2]
    exact h.housed hviewed.booked.apart hm
  | declare name type line value description address h =>
    obtain ⟨size, cursor, cells, hsize, hcursor, hcells, hemit⟩ := declare_cases h
    obtain ⟨hreserved, hroof⟩ := hm.reserve hcursor
    obtain ⟨_, rfl, hnext⟩ := Cursor.stack_eq_ok.1 hcursor
    -- the object is placed where the cursor stood, and its cells end where it goes to
    have hplacing := ((Placing.nothing hviewed.booked m.currentFrame).withCursor cursor).add
      hsolid.sound (hsolid.size_nonneg hsize) (hsolid.size_pos hsize) hcells
      (cellsWithin_apart hcells) (fun a => (Option.or_none).symm)
    have htype : type.Filled :=
      hfilled.of_emit hemit rfl rfl (frameVariable name type m.cursor.nextStack value)
        (List.mem_singleton_self _)
    have hlaid := (Laid.nothing setup.analysis.sizes m.cursor.nextStack).add hlayouts htype hsize
      hcells (fun a => (Option.or_none).symm) (fun e he => Or.inr he)
    rw [Machine.emit_cursor hemit, Machine.own_cursor]
    show m'.Housed setup cursor.nextStack
    rw [hnext] at hroof ⊢
    exact (hreserved.own type _ _ name).emit hplacing.booked.apart
      (hplacing.fits hviewed.booked rfl rfl rfl rfl) (hlaid.lays rfl rfl rfl rfl rfl) hroof hemit
  | enter f arguments line hf harity h =>
    obtain ⟨cells, vars, m₁, description, m₂, hplace, hemit, rfl⟩ := Invocation.enter_cases h
    have hplacing := Invocation.place_placing hsolid
      (Placing.nothing hviewed.booked (m.nextLabel f.name)) hplace
    obtain ⟨hm₁, hroof⟩ := Invocation.place_housed hm hm.roof hplace
    have hvars : ∀ v ∈ vars, v.type.Filled := by
      have hemitted : AllFilled m₂.steps.toList := hfilled
      exact hemitted.of_emit hemit rfl rfl
    have hlaid := Invocation.place_laid hlayouts
      (Laid.nothing setup.analysis.sizes m.cursor.nextStack) hplace hvars
    have hm₂ := hm₁.emit hplacing.booked.apart (hplacing.fits hviewed.booked rfl rfl rfl rfl)
      (hlaid.lays rfl rfl rfl rfl rfl) hroof hemit
    rw [← Machine.emit_cursor hemit] at hm₂
    exact hm₂.congr rfl rfl rfl rfl rfl rfl
  | leave f outer flow hactive h =>
    obtain ⟨line, description, m₁, hemit, rfl⟩ := Invocation.leave_cases h
    -- leaving removes a frame and shows no cell
    have hbefore : ({ m with active := m.active.tail }).Housed setup m.cursor.nextStack :=
      hm.congr rfl rfl rfl rfl rfl rfl
    have hm₁ : m₁.Housed setup m₁.cursor.nextStack := by
      rw [Machine.emit_cursor hemit]
      refine hbefore.emit_nothing hviewed.booked.apart
        (Machine.fits_of_frame _ _ (show FrameAction.remove ≠ .update by decide)) rfl ?_ rfl hemit
      intro e he
      rw [List.mem_singleton.1 he]
    exact hm₁.congr rfl rfl rfl rfl rfl rfl

/-- So every machine that such moves lead to is housed up to its cursor. -/
theorem Walk.housed_along {setup : Setup} (hlayouts : setup.analysis.layouts.Settled)
    {m m' : Machine} (h : Relation.ReflTransGen (Walk setup) m m')
    (hviewed : m.Viewed setup.settings m.cursor.nextStack)
    (hm : m.Housed setup m.cursor.nextStack) :
    m'.Viewed setup.settings m'.cursor.nextStack ∧
      (AllFilled m'.steps.toList → m'.Housed setup m'.cursor.nextStack) := by
  induction h with
  | refl => exact ⟨hviewed, fun _ => hm⟩
  | tail _ hstep ih =>
    refine ⟨hstep.viewed hlayouts.solid ih.1, fun hfilled => ?_⟩
    refine hstep.housed hlayouts ih.1 (ih.2 ?_) hfilled
    intro step hmem
    exact hfilled step (hstep.ticks.steps_extend.subset hmem)

theorem Walks.housed {setup : Setup} (hlayouts : setup.analysis.layouts.Settled) {m m' : Machine}
    (h : Walks setup m m') (hviewed : m.Viewed setup.settings m.cursor.nextStack)
    (hm : m.Housed setup m.cursor.nextStack) (hfilled : AllFilled m'.steps.toList) :
    m'.Housed setup m'.cursor.nextStack :=
  (Walk.housed_along hlayouts h.1 hviewed hm).2 hfilled

/-- The outline of a program places nothing. -/
theorem outline_housed {setup : Setup} {limit limit' : Int} {u : Unit} {m m' : Machine}
    (h : Outline.run setup m = .ok (u, m')) (hviewed : m.Viewed setup.settings limit')
    (hm : m.Housed setup limit) : m'.Housed setup limit := by
  have hemit : ∀ kind line description (delta : Delta), (∀ m : Machine, m.Fits delta) →
      delta.memory = [] → (∀ e ∈ delta.stack, e.2.vars = []) → delta.heap = [] →
      Follows (Keeps fun m : Machine => m.Viewed setup.settings limit' ∧ m.Housed setup limit)
        (Run.emitDelta setup kind line description delta) := by
    intro kind line description delta hfits hmemory hstack hheap
    refine Run.attempt_follows fun m m' hemit hm => ⟨hm.1.emit (hfits m) hemit, ?_⟩
    exact hm.2.emit_nothing hm.1.booked.apart (hfits m) hmemory hstack hheap hemit
  have houtput : ∀ kind line description output,
      Follows (Keeps fun m : Machine => m.Viewed setup.settings limit' ∧ m.Housed setup limit)
        (Run.emitDelta setup kind line description { output := output }) := by
    intro kind line description output
    exact hemit _ _ _ _ (fun m => m.fits_of_output _) rfl (fun e he => by cases he) rfl
  have hframe : ∀ kind line description action, action ≠ FrameAction.update →
      Follows (Keeps fun m : Machine => m.Viewed setup.settings limit' ∧ m.Housed setup limit)
        (Run.emitDelta setup kind line description { stack := [("main", { action := action })] }) := by
    intro kind line description action haction
    refine hemit _ _ _ _ (fun m => m.fits_of_frame "main" haction) rfl ?_ rfl
    intro e he
    rw [List.mem_singleton.1 he]
  refine ((?_ : Follows (Keeps fun m : Machine =>
    m.Viewed setup.settings limit' ∧ m.Housed setup limit) (Outline.run setup)) m u m' h
      ⟨hviewed, hm⟩).2
  unfold Outline.run
  split
  · exact (hframe _ _ _ _ (by decide)).bind fun _ =>
      (Follows.forM fun _ _ => houtput _ _ _ _).bind fun _ => hframe _ _ _ _ (by decide)
  · exact houtput _ _ _ _

/-! ## Whole traces -/

/-- Every script but the sequence of an allocation keeps the state housed, if it comes to its
end. -/
theorem play_keepsHouse {setup : Setup} {category : Category} {u : Unit} {m : Machine}
    (hlayouts : setup.analysis.layouts.Settled) (hcategory : category ≠ .dynamicAllocation)
    (hfilled : AllFilled m.steps.toList)
    (h : category.play setup (Machine.start setup.settings) = .ok (u, m)) :
    Along (KeepsHouse setup) { heapBase := setup.settings.heapBase } m.steps.toList m.state := by
  have hhoused := Machine.housed_start setup
  have hviewed := Machine.viewed_start setup.settings setup.settings.stackBase
  by_cases hexec : category.executes = true
  · exact (Walks.housed hlayouts (play_follows hexec h rfl) hviewed hhoused hfilled).along
  · cases category with
    | generic => exact (outline_housed h hviewed hhoused).along
    | dynamicAllocation => exact absurd rfl hcategory
    | _ => exact absurd rfl hexec

/-- A step without a change is grounded and keeps the state as it is. -/
theorem keepsHouse_of_no_change (setup : Setup) (s : State) (step : Step) (h : step.delta = {}) :
    KeepsHouse setup s step s := by
  intro hs
  refine ⟨⟨?_, ?_⟩, hs⟩
  · intro e he
    rw [h] at he
    cases he
  · intro e he
    rw [h] at he
    cases he

/-! ## The main result -/

/-- **Objects keep their regions.** In a program whose structs are well defined and whose arrays
have elements, after every step no two cells overlap and all cells and variables are on the stack;
and a step shows new cells only for the variables it declares, and heap blocks only in the heap. -/
theorem objects_keep_their_regions {source : String} {p : Program} {analysis : Analysis}
    {settings : Settings} (hparse : parse (tokenize source) = .ok p)
    (ha : analyze p source (tokenize source) = .ok analysis)
    (hcategory : analysis.category ≠ .dynamicAllocation)
    (hstructs : p.StructsDefined analysis.layouts)
    (harrays : AllFilled (p.trace source (tokenize source) settings).steps) :
    (∀ n, ∃ s, replayFrom { heapBase := settings.heapBase }
        ((p.trace source (tokenize source) settings).steps.take n) = .ok s ∧
      s.Housed analysis.sizes settings.stackBase settings.heapBase) ∧
    ∀ n step, (p.trace source (tokenize source) settings).steps[n]? = some step →
      ∃ s, replayFrom { heapBase := settings.heapBase }
          ((p.trace source (tokenize source) settings).steps.take n) = .ok s ∧
        step.Grounded analysis.sizes settings.heapBase s := by
  have hsettled : analysis.layouts.Settled :=
    hstructs.settled (parse_tagged hparse) (analyze_layouts ha).1
  have halong : ∃ t, Along (KeepsHouse { analysis, settings }) { heapBase := settings.heapBase }
      (p.trace source (tokenize source) settings).steps t := by
    refine Program.trace_along (keepsHouse_of_no_change _) ?_
    intro analysis' u m ha' hplay
    obtain rfl := Except.ok.inj (ha.symm.trans ha')
    have hfilled : AllFilled m.steps.toList := by
      intro step hstep
      refine harrays step ?_
      rw [trace_of_play ha hplay]
      exact List.mem_cons_of_mem _ (List.mem_append_left _ hstep)
    exact play_keepsHouse hsettled hcategory hfilled hplay
  obtain ⟨t, ht⟩ := halong
  have hempty : ({ heapBase := settings.heapBase } : State).Housed analysis.sizes
      settings.stackBase settings.heapBase :=
    (State.packed_empty _ _ settings.stackBase _).housed (Int.le_max_left _ _)
  exact ht.keeps hempty


/-! ## A struct and an array -/

namespace StructAndArray

/-- A program with a struct variable and an array. -/
def source : String :=
  "struct s\x7bint a;\x7d;\nint main()\x7bstruct s x;int t[2];\x7d\n"

/-- Its tokens. -/
def tokens : List Token :=
  [⟨.keyword, "struct", 1, 1⟩, ⟨.identifier, "s", 1, 8⟩, ⟨.punctuation, "\x7b", 1, 9⟩,
    ⟨.keyword, "int", 1, 10⟩, ⟨.identifier, "a", 1, 14⟩, ⟨.punctuation, ";", 1, 15⟩,
    ⟨.punctuation, "\x7d", 1, 16⟩, ⟨.punctuation, ";", 1, 17⟩,
    ⟨.keyword, "int", 2, 1⟩, ⟨.identifier, "main", 2, 5⟩, ⟨.punctuation, "(", 2, 9⟩,
    ⟨.punctuation, ")", 2, 10⟩, ⟨.punctuation, "\x7b", 2, 11⟩,
    ⟨.keyword, "struct", 2, 12⟩, ⟨.identifier, "s", 2, 19⟩, ⟨.identifier, "x", 2, 21⟩,
    ⟨.punctuation, ";", 2, 22⟩,
    ⟨.keyword, "int", 2, 23⟩, ⟨.identifier, "t", 2, 27⟩, ⟨.punctuation, "[", 2, 28⟩,
    ⟨.literal, "2", 2, 29⟩, ⟨.punctuation, "]", 2, 30⟩, ⟨.punctuation, ";", 2, 31⟩,
    ⟨.punctuation, "\x7d", 2, 32⟩]

/-- Its main function. -/
def main : Function where
  line := 2
  name := "main"
  returnType := .int
  parameters := []
  bodyLine := 2
  body :=
    [.decl ⟨2, ⟨"struct s"⟩, [⟨2, "x", 0, .none, none⟩]⟩,
      .decl ⟨2, .int, [⟨2, "t", 0, .sized (.literal 2 "2"), none⟩]⟩]

/-- The program. -/
def program : Program :=
  ⟨[.struct ⟨1, "s", [⟨1, .int, [⟨1, "a", 0, .none, none⟩]⟩]⟩, .function main]⟩

/-- What is known about it. -/
def analysis : Analysis where
  program := program
  source := source
  tokens := tokens
  lines := Text.lines source
  macros := []
  layouts := [("struct s", ⟨"struct s", [("a", 0, .int)], 4⟩)]

theorem tokenize_source : tokenize source = tokens :=
  Token.tokenize_of_chars rfl (by decide +kernel) (by decide)

theorem parse_tokens : parse tokens = .ok program := by
  decide +kernel

theorem analyze_program : analyze program source tokens = .ok analysis :=
  analyze_of_layouts rfl (by decide +kernel)

theorem category_analysis : analysis.category = .structures := by
  have hsource : analysis.source = String.ofList _ := rfl
  rw [Analysis.category, Analysis.lowered_eq hsource]
  decide

theorem structsDefined : program.StructsDefined analysis.layouts :=
  .of_ints (by decide) (by decide) (by decide)

/-- What its script comes to. -/
def outcome : Except Fault (Unit × Machine) :=
  Category.structures.play ⟨analysis, {}⟩ (Machine.start {})

/-- The step shows no variables but the two of the program. -/
def showsNoOther (step : Step) : Bool :=
  step.delta.stack.all fun e => e.2.vars.all fun v =>
    v.type == ⟨"struct s"⟩ || v.type == ⟨"int[2]"⟩

theorem outcome_showsNoOther :
    (match outcome with
      | .ok (_, m) => m.steps.toList.all showsNoOther
      | .error _ => false) = true := by
  have hcalls : Settings.calls {} = 31 + 1 := rfl
  have hmain : analysis.main? = some main := rfl
  unfold outcome Category.play runMain
  rw [hmain]
  dsimp only
  rw [hcalls, invoke]
  -- statements are unfolded by their equations; the rest is computed
  simp only [main, Walker.runBody, Walker.items, Walker.run]
  decide +kernel

theorem filled_of_showsNoOther {step : Step} (h : showsNoOther step = true) : step.Filled := by
  intro f hf _ v hv
  have hvars := List.all_eq_true.1 (List.all_eq_true.1 h f hf) v hv
  rw [Bool.or_eq_true, beq_iff_eq, beq_iff_eq] at hvars
  rcases hvars with hstruct | harray
  · rw [hstruct]
    exact .single (by decide)
  · rw [harray]
    have helement : CType.element ⟨"int[2]"⟩ = .ok .int := by decide
    have hlength : CType.length ⟨"int[2]"⟩ = .ok 2 := by decide
    exact .array (by decide) helement hlength (by decide) (.single (by decide))

theorem allFilled : AllFilled (program.trace source tokens {}).steps := by
  have h := outcome_showsNoOther
  cases houtcome : outcome with
  | error fault =>
    rw [houtcome] at h
    cases h
  | ok result =>
    rw [houtcome] at h
    have hplay : analysis.category.play ⟨analysis, {}⟩ (Machine.start {}) = .ok result := by
      rw [category_analysis]
      exact houtcome
    rw [trace_of_play analyze_program hplay]
    intro step hstep
    apply filled_of_showsNoOther
    rcases List.mem_cons.1 hstep with rfl | hstep
    · rfl
    · rcases List.mem_append.1 hstep with hstep | hstep
      · exact List.all_eq_true.1 h step hstep
      · rw [List.mem_singleton.1 hstep]
        rfl

end StructAndArray

/-- The objects of this program keep their regions. -/
theorem struct_and_array_are_housed :
    parse (tokenize StructAndArray.source) = .ok StructAndArray.program ∧
    ∀ n, ∃ s, replayFrom { heapBase := Settings.heapBase {} }
        ((StructAndArray.program.trace StructAndArray.source
          (tokenize StructAndArray.source) {}).steps.take n) = .ok s ∧
      s.Housed StructAndArray.analysis.sizes (Settings.stackBase {}) (Settings.heapBase {}) := by
  have htokens := StructAndArray.tokenize_source
  refine ⟨by rw [htokens]; exact StructAndArray.parse_tokens, ?_⟩
  refine (objects_keep_their_regions (p := StructAndArray.program) ?_ ?_ ?_
    StructAndArray.structsDefined ?_).1
  · rw [htokens]
    exact StructAndArray.parse_tokens
  · rw [htokens]
    exact StructAndArray.analyze_program
  · rw [StructAndArray.category_analysis]
    decide
  · rw [htokens]
    exact StructAndArray.allFilled

end Stepwise
