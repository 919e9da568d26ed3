/-
The frames against the memory.

A state shows a variable twice: in its frame and in the memory cell at its
address. A write to the cell changes the frame through the books of the machine,
which say what variable a cell belongs to; the change is held back and goes out
with the next step, as an update of the frame. But a step has one change for each
frame, and what it says of its own replaces what was held back. So a step that
adds a variable to a frame drops the update of the others in it: the cell shows
the new value and the frame the old one.

That is the only way in which the two come apart. The books are kept: each scalar
that a frame shows owns the cell at its address. From this, a step whose change
*fits* keeps the views in agreement exactly if it is *discreet*, that is if it
adds to no frame in which it changes another scalar; and the changes of executed
programs fit, as long as every struct takes some space.
-/
import Stepwise.Proofs.Frames
import Stepwise.Proofs.Layouts
import Stepwise.Proofs.Pending
import Stepwise.Proofs.Replay

set_option autoImplicit false

namespace Stepwise

/-! ## Agreement -/

/-- The memory has a cell with the type and the value of another, at its address. -/
def State.Holds (s : State) (c : Cell) : Prop :=
  ∃ cell, s.memory.find? c.address = some cell ∧ cell.type = c.type ∧ cell.value = c.value

/-- Every scalar that a frame shows is in memory as the frame shows it. -/
def State.ViewsAgree (s : State) : Prop :=
  ∀ f ∈ s.stack, ∀ e ∈ f.vars, e.2.type.isAggregate = false → s.Holds e.2

/-- Where the step adds variables to a frame, it changes no other scalar of that frame. -/
def Step.Discreet (s : State) (step : Step) : Prop :=
  ∀ f ∈ s.stack, ∀ patch, step.delta.stack.find? f.name = some patch → patch.action = .add →
    ∀ e ∈ f.vars, e.2.type.isAggregate = false → e.1 ∉ patch.vars.map FrameVariable.name →
      ∀ cell, step.delta.memory.find? e.2.address = some cell → cell.value = e.2.value

theorem State.holds_of_contents {s : State} {c : Cell} {k : CellPatch}
    (h : (s.memory.find? c.address).map Cell.contents = some k) (htype : k.type = c.type)
    (hvalue : k.value = c.value) : s.Holds c := by
  obtain ⟨cell, hcell, rfl⟩ := Option.map_eq_some_iff.1 h
  exact ⟨cell, hcell, htype, hvalue⟩

theorem State.Tidy.viewsAgree_iff {s : State} (hs : s.Tidy) :
    s.ViewsAgree ↔ ∀ label name c, s.shown? label name = some c → c.type.isAggregate = false →
      s.Holds c := by
  constructor
  · intro h label name c hc hscalar
    obtain ⟨f, hf, _, hmem⟩ := hs.shown?_eq_some_iff.1 hc
    exact h f hf _ hmem hscalar
  · intro h f hf e he hscalar
    exact h f.name e.1 e.2 (hs.shown?_eq_some_iff.2 ⟨f, hf, rfl, he⟩) hscalar

theorem State.Tidy.discreet_iff {s : State} (hs : s.Tidy) {step : Step} :
    step.Discreet s ↔ ∀ label name c patch, s.shown? label name = some c →
      step.delta.stack.find? label = some patch → patch.action = .add →
      c.type.isAggregate = false → name ∉ patch.vars.map FrameVariable.name →
      ∀ cell, step.delta.memory.find? c.address = some cell → cell.value = c.value := by
  constructor
  · intro h label name c patch hc hpatch hadd hscalar hnot
    obtain ⟨f, hf, rfl, hmem⟩ := hs.shown?_eq_some_iff.1 hc
    exact h f hf patch hpatch hadd _ hmem hscalar hnot
  · intro h f hf patch hpatch hadd e he hscalar hnot
    exact h f.name e.1 e.2 patch (hs.shown?_eq_some_iff.2 ⟨f, hf, rfl, he⟩) hpatch hadd hscalar hnot

/-! ## Books -/

/-- The books are kept: each scalar that a frame shows owns the cell at its address, and only cells
in front of a limit are owned, and only those that are there are written to. -/
structure Machine.Booked (m : Machine) (limit : Int) : Prop where
  tidy : m.state.Tidy
  owned : ∀ label name c, m.state.shown? label name = some c → c.type.isAggregate = false →
    m.owners.find? c.address = some ⟨label, name⟩
  below : ∀ a o, m.owners.find? a = some o → ∃ n, (Number.int n == a) = true ∧ n < limit
  apart : m.writes.Apart
  mapped : ∀ a v, m.writes.find? a = some v → ∃ cell, m.state.memory.find? a = some cell

theorem Machine.booked_start (settings : Settings) (limit : Int) :
    (Machine.start settings).Booked limit where
  tidy := ⟨List.nodup_nil, fun f hf => by cases hf⟩
  owned label name c hc := by cases hc
  below a o ho := by cases ho
  apart := List.Pairwise.nil
  mapped a v h := by cases h

/-- The change of a step fits the books: it puts no cell where there is one of a variable that it
does not list, and the scalars it lists are among its cells. -/
structure Machine.Fits (m : Machine) (delta : Delta) : Prop where
  memory : delta.memory.Apart
  stack : delta.stack.Apart
  fresh : ∀ a o, m.owners.find? a = some o →
    (∀ patch, delta.stack.find? o.frame = some patch →
      o.name ∉ patch.vars.map FrameVariable.name) →
    delta.memory.find? a = none
  listed : ∀ label patch, delta.stack.find? label = some patch → ∀ v ∈ patch.vars,
    v.type.isAggregate = false →
    m.owners.find? v.address = some ⟨label, v.name⟩ ∧
      ∃ k, delta.memory.find? v.address = some k ∧ k.type = v.type ∧ k.value = v.value
  /-- What an update of its own would replace has not been held back. -/
  update : ∀ label patch, delta.stack.find? label = some patch → patch.action = .update →
    m.writes = []

theorem Machine.fits_of_no_objects (m : Machine) {delta : Delta} (hmemory : delta.memory = [])
    (hapart : delta.stack.Apart)
    (hstack : ∀ e ∈ delta.stack, e.2.vars = [] ∧ e.2.action ≠ .update) : m.Fits delta := by
  have hpatch : ∀ label patch, delta.stack.find? label = some patch →
      patch.vars = [] ∧ patch.action ≠ .update := by
    intro label patch hfound
    obtain ⟨_, hmem, _⟩ := Table.mem_of_find? hfound
    exact hstack _ hmem
  refine ⟨?_, hapart, ?_, ?_, ?_⟩
  · rw [hmemory]
    exact List.Pairwise.nil
  · intro a o _ _
    rw [hmemory]
    rfl
  · intro label patch hfound v hv
    rw [(hpatch label patch hfound).1] at hv
    cases hv
  · intro label patch hfound haction
    exact absurd haction (hpatch label patch hfound).2

/-- A step may show nothing of its own but output. -/
theorem Machine.fits_of_output (m : Machine) (output : String) : m.Fits { output := output } :=
  m.fits_of_no_objects rfl List.Pairwise.nil fun e he => by cases he

/-- A step may take a frame off, or put on one without variables. -/
theorem Machine.fits_of_frame (m : Machine) (label : String) {action : FrameAction}
    (haction : action ≠ .update) : m.Fits { stack := [(label, { action := action })] } := by
  refine m.fits_of_no_objects rfl (List.pairwise_singleton _ _) ?_
  intro e he
  obtain rfl := List.mem_singleton.1 he
  exact ⟨rfl, haction⟩

namespace Machine.Booked

variable {m m' : Machine} {limit : Int} {kind : StepKind} {line : Int} {description : String}
  {delta : Delta} {state : State}

theorem mono (hm : m.Booked limit) {limit' : Int} (h : limit ≤ limit') : m.Booked limit' where
  tidy := hm.tidy
  owned := hm.owned
  below a o ho := by
    obtain ⟨n, hn, hlt⟩ := hm.below a o ho
    exact ⟨n, hn, by omega⟩
  apart := hm.apart
  mapped := hm.mapped

theorem stack_apart (m : Machine) :
    (m.nextStep kind line description delta).delta.stack.Apart :=
  Table.apart_putAll _ m.pendingFrames_apart

theorem find?_stack (m : Machine) (hstack : delta.stack.Apart) (label : String) :
    (m.nextStep kind line description delta).delta.stack.find? label
      = (delta.stack.find? label).or (updateOf (m.heldBack label)) := by
  rw [← m.find?_pendingFrames]
  exact Table.find?_putAll hstack label

/-- A scalar whose cell is written to is among the variables held back for its frame. -/
theorem mem_heldBack (hm : m.Booked limit) {label name : String} {c : Cell} {v : Value}
    (hshown : m.state.shown? label name = some c) (hscalar : c.type.isAggregate = false)
    (hwrite : m.writes.find? c.address = some v) :
    name ∈ (m.heldBack label).map FrameVariable.name := by
  obtain ⟨key, hkey, heq⟩ := Table.mem_of_find? hwrite
  obtain ⟨cell, hcell⟩ := hm.mapped _ _ hwrite
  obtain ⟨f, hf, _⟩ := Option.bind_eq_some_iff.1 hshown
  have hheld : (⟨name, v, key, cell.type⟩ : FrameVariable) ∈ m.heldBack label := by
    refine Machine.mem_heldBack.2 ⟨key, v, hkey, Machine.pendingVariable?_eq_some.2 ?_⟩
    refine ⟨cell, name, f, ?_, ?_, hf, rfl⟩
    · rw [Table.find?_congr heq]
      exact hcell
    · rw [Table.find?_congr heq]
      exact hm.owned label name c hshown hscalar
  exact List.mem_map_of_mem hheld

/-- A scalar that is not among them is not written to. -/
theorem find?_pendingCells_of_not_heldBack (hm : m.Booked limit) {label name : String} {c : Cell}
    (hshown : m.state.shown? label name = some c) (hscalar : c.type.isAggregate = false)
    (hnot : name ∉ (m.heldBack label).map FrameVariable.name) :
    m.pendingCells.find? c.address = none := by
  rw [m.find?_pendingCells]
  cases hwrite : m.writes.find? c.address with
  | none => rfl
  | some v => exact absurd (hm.mem_heldBack hshown hscalar hwrite) hnot

/-- A variable held back for a frame is one that owns the cell at its address, and the step shows it
there. -/
theorem heldBack_shown (hm : m.Booked limit) (hfits : m.Fits delta) {label : String}
    (hdelta : delta.stack.find? label = none)
    (happly : m.state.apply (m.nextStep kind line description delta) = .ok state)
    {v : FrameVariable} (hv : v ∈ m.heldBack label) :
    m.owners.find? v.address = some ⟨label, v.name⟩ ∧ state.Holds (State.variableCell v) := by
  obtain ⟨a, value, hmem, hpending⟩ := Machine.mem_heldBack.1 hv
  obtain ⟨cell, name, f, hcell, howner, _, rfl⟩ := Machine.pendingVariable?_eq_some.1 hpending
  have hself : (a == a) = true := by
    obtain ⟨n, hn, _⟩ := hm.below a _ howner
    exact PartialEquivBEq.trans (BEq.symm hn) hn
  have hwrite : m.writes.find? a = some value := Table.find?_of_mem hm.apart hself hmem
  have hfresh : delta.memory.find? a = none := by
    refine hfits.fresh a _ howner ?_
    intro patch hpatch
    rw [hdelta] at hpatch
    cases hpatch
  refine ⟨howner, State.holds_of_contents (k := ⟨value, cell.name, cell.type⟩) ?_ rfl rfl⟩
  show (state.memory.find? a).map Cell.contents = _
  rw [Machine.find?_emitted hm.apart hfits.memory happly, hfresh, m.find?_pendingCells, hwrite,
    hcell]
  rfl

/-- The step shows a variable as it was before, has no cell of its own at its address, and writes
there only if it adds other variables to the frame. -/
def Kept (m : Machine) (delta : Delta) (label name : String) (c : Cell) : Prop :=
  m.state.shown? label name = some c ∧ delta.memory.find? c.address = none ∧
    (m.pendingCells.find? c.address = none ∨
      ∃ patch, delta.stack.find? label = some patch ∧ patch.action = .add ∧
        name ∉ patch.vars.map FrameVariable.name)

theorem kept_of_not_heldBack (hm : m.Booked limit) (hfits : m.Fits delta) {label name : String}
    {c : Cell} (hdelta : delta.stack.find? label = none) (hshown : m.state.shown? label name = some c)
    (hscalar : c.type.isAggregate = false)
    (hnot : name ∉ (m.heldBack label).map FrameVariable.name) : Kept m delta label name c := by
  refine ⟨hshown, ?_, Or.inl (hm.find?_pendingCells_of_not_heldBack hshown hscalar hnot)⟩
  refine hfits.fresh _ _ (hm.owned label name c hshown hscalar) ?_
  intro patch hpatch
  rw [hdelta] at hpatch
  cases hpatch

theorem kept_of_not_listed (hm : m.Booked limit) (hfits : m.Fits delta) {label name : String} {c : Cell}
    {patch : FramePatch} (hdelta : delta.stack.find? label = some patch)
    (hremove : patch.action ≠ .remove) (hshown : m.state.shown? label name = some c)
    (hscalar : c.type.isAggregate = false) (hnot : name ∉ patch.vars.map FrameVariable.name) :
    Kept m delta label name c := by
  refine ⟨hshown, ?_, ?_⟩
  · refine hfits.fresh _ _ (hm.owned label name c hshown hscalar) ?_
    intro other hother
    obtain rfl := Option.some.inj (hdelta.symm.trans hother)
    exact hnot
  · cases haction : patch.action with
    | add => exact Or.inr ⟨patch, hdelta, haction, hnot⟩
    | remove => exact absurd haction hremove
    | update =>
      refine Or.inl ?_
      rw [m.find?_pendingCells, hfits.update label patch hdelta haction]
      rfl

/-- A scalar that a frame shows after a step was kept by it, or was set by it and is in memory. In
either case it owns its cell. -/
theorem shown_cases (hm : m.Booked limit) (hfits : m.Fits delta)
    (happly : m.state.apply (m.nextStep kind line description delta) = .ok state)
    {label name : String} {c : Cell} (hshown : state.shown? label name = some c)
    (hscalar : c.type.isAggregate = false) :
    Kept m delta label name c ∨
      (m.owners.find? c.address = some ⟨label, name⟩ ∧ state.Holds c) := by
  have hfind : (m.nextStep kind line description delta).delta.stack.find? label
      = (delta.stack.find? label).or (updateOf (m.heldBack label)) :=
    find?_stack m hfits.stack label
  have hstep := hm.tidy.shown?_apply (stack_apart m) happly hshown
  rw [hfind] at hstep
  -- a patch of the delta hides what was held back for the same frame
  cases hdelta : delta.stack.find? label with
  | some patch =>
    rw [hdelta] at hstep
    obtain ⟨hnone, _⟩ | ⟨_, hpatch, hremove, hvars⟩ := hstep
    · cases hnone
    obtain rfl := Option.some.inj hpatch
    rcases hvars with ⟨v, hv, rfl, rfl⟩ | ⟨hnot, hold⟩
    · obtain ⟨howner, k, hk, htype, hvalue⟩ := hfits.listed label patch hdelta v hv hscalar
      refine Or.inr ⟨howner, State.holds_of_contents ?_ htype hvalue⟩
      show (state.memory.find? v.address).map Cell.contents = _
      rw [Machine.find?_emitted hm.apart hfits.memory happly, hk]
      rfl
    · exact Or.inl (hm.kept_of_not_listed hfits hdelta hremove hold hscalar hnot)
  | none =>
    rw [hdelta, Option.none_or, updateOf] at hstep
    split at hstep
    · next hnothing =>
      obtain ⟨_, hold⟩ | ⟨_, hpatch, _⟩ := hstep
      · exact Or.inl (hm.kept_of_not_heldBack hfits hdelta hold hscalar (by rw [hnothing]; simp))
      · cases hpatch
    · obtain ⟨hnone, _⟩ | ⟨_, hpatch, _, hvars⟩ := hstep
      · cases hnone
      obtain rfl := Option.some.inj hpatch
      rcases hvars with ⟨v, hv, rfl, rfl⟩ | ⟨hnot, hold⟩
      · exact Or.inr (hm.heldBack_shown hfits hdelta happly hv)
      · exact Or.inl (hm.kept_of_not_heldBack hfits hdelta hold hscalar hnot)

/-! ## Steps -/

/-- A step that fits keeps the books. -/
theorem emit (hm : m.Booked limit) (hfits : m.Fits delta)
    (h : m.emit kind line description delta = .ok m') : m'.Booked limit := by
  obtain ⟨state, happly, rfl⟩ := Machine.emit_eq_ok.1 h
  refine ⟨hm.tidy.apply (stack_apart m) happly, ?_, hm.below, List.Pairwise.nil, ?_⟩
  · intro label name c hshown hscalar
    rcases hm.shown_cases hfits happly hshown hscalar with ⟨hold, _⟩ | ⟨howner, _⟩
    · exact hm.owned label name c hold hscalar
    · exact howner
  · intro a v h
    cases h

/-- A frame that a step takes off is gone. -/
theorem removed (hm : m.Booked limit) {label : String} (hstack : delta.stack.Apart)
    (hdelta : delta.stack.find? label = some { action := .remove })
    (h : m.emit kind line description delta = .ok m') : m'.state.frame? label = none := by
  obtain ⟨state, happly, rfl⟩ := Machine.emit_eq_ok.1 h
  obtain ⟨_, hframes⟩ := State.apply_frames hm.tidy.labels (stack_apart m) happly
  have hframe := hframes label
  rw [find?_stack m hstack, hdelta] at hframe
  exact hframe

/-- **A step that fits keeps the views in agreement exactly if it is discreet.** -/
theorem discreet_iff (hm : m.Booked limit) (hfits : m.Fits delta)
    (happly : m.state.apply (m.nextStep kind line description delta) = .ok state)
    (hagree : m.state.ViewsAgree) :
    (m.nextStep kind line description delta).Discreet m.state ↔ state.ViewsAgree := by
  have htidy : state.Tidy := hm.tidy.apply (stack_apart m) happly
  have hcells : ∀ a, (m.nextStep kind line description delta).delta.memory.find? a
      = (delta.memory.find? a).or (m.pendingCells.find? a) := fun a =>
    Table.find?_putAll hfits.memory a
  have hemitted := Machine.find?_emitted hm.apart hfits.memory happly
  rw [hm.tidy.viewsAgree_iff] at hagree
  rw [hm.tidy.discreet_iff, htidy.viewsAgree_iff]
  constructor
  · intro hdiscreet label name c hshown hscalar
    rcases hm.shown_cases hfits happly hshown hscalar with ⟨hold, hfresh, hpending⟩ | ⟨_, hholds⟩
    · obtain ⟨cell, hcell, htype, hvalue⟩ := hagree label name c hold hscalar
      have hafter := hemitted c.address
      rw [hfresh, Option.none_or, hcell] at hafter
      cases hwritten : m.pendingCells.find? c.address with
      | none =>
        rw [hwritten] at hafter
        exact State.holds_of_contents hafter htype hvalue
      | some k =>
        -- the cell keeps its type, and a discreet step writes the value that is shown
        rw [hwritten] at hafter hpending
        obtain hnone | ⟨patch, hpatch, hadd, hnot⟩ := hpending
        · cases hnone
        have hstack : (m.nextStep kind line description delta).delta.stack.find? label
            = some patch := by
          rw [find?_stack m hfits.stack, hpatch]
          rfl
        have hmemory : (m.nextStep kind line description delta).delta.memory.find? c.address
            = some k := by
          rw [hcells, hfresh, hwritten]
          rfl
        have hk : k.type = cell.type := by
          rw [m.find?_pendingCells, hcell] at hwritten
          obtain ⟨v, _, hv⟩ := Option.bind_eq_some_iff.1 hwritten
          obtain rfl := Option.some.inj hv
          rfl
        exact State.holds_of_contents hafter (hk.trans htype)
          (hdiscreet label name c patch hold hstack hadd hscalar hnot k hmemory)
    · exact hholds
  · intro hafter label name c patch hold hpatch hadd hscalar hnot k hk
    have hshown : state.shown? label name = some c :=
      hm.tidy.shown?_apply_of_add (stack_apart m) happly hpatch hadd hnot hold
    obtain ⟨cell, hcell, _, hvalue⟩ := hafter label name c hshown hscalar
    have hcontents := hemitted c.address
    rw [← Option.or_assoc, ← hcells, hk, hcell, Option.map_some, Option.some_or,
      Option.some.injEq] at hcontents
    rw [← hcontents]
    exact hvalue

end Machine.Booked

/-- What a step says of a frame of its own is what it shows of it. -/
theorem Machine.emitted_patch {m m' : Machine} {kind : StepKind} {line : Int} {description : String}
    {delta : Delta} {label : String} {patch : FramePatch}
    (h : m.emit kind line description delta = .ok m') (hstack : delta.stack.Apart)
    (hpatch : delta.stack.find? label = some patch) :
    ∃ step ∈ m'.steps.toList, (label, patch) ∈ step.delta.stack := by
  obtain ⟨state, _, rfl⟩ := Machine.emit_eq_ok.1 h
  have hfound : (m.nextStep kind line description delta).delta.stack.find? label = some patch := by
    rw [Machine.Booked.find?_stack m hstack, hpatch]
    rfl
  obtain ⟨key, hkey, heq⟩ := Table.mem_of_find? hfound
  rw [eq_of_beq heq] at hkey
  refine ⟨_, ?_, hkey⟩
  show _ ∈ (m.steps.push _).toList
  rw [Array.toList_push]
  exact List.mem_append_right _ (List.mem_singleton_self _)

/-- The step keeps the views in agreement exactly if it is discreet. -/
def ShowsExactly (s : State) (step : Step) (s' : State) : Prop :=
  s.ViewsAgree → (step.Discreet s ↔ s'.ViewsAgree)

/-- The books are kept, and every step so far kept the views in agreement exactly if it was
discreet. -/
structure Machine.Viewed (settings : Settings) (limit : Int) (m : Machine) : Prop where
  booked : m.Booked limit
  along : Along ShowsExactly { heapBase := settings.heapBase } m.steps.toList m.state

theorem Machine.viewed_start (settings : Settings) (limit : Int) :
    (Machine.start settings).Viewed settings limit :=
  ⟨Machine.booked_start settings limit, .nil⟩

namespace Machine.Viewed

variable {settings : Settings} {limit : Int} {m m' : Machine}

theorem emit {kind : StepKind} {line : Int} {description : String} {delta : Delta}
    (hm : m.Viewed settings limit) (hfits : m.Fits delta)
    (h : m.emit kind line description delta = .ok m') : m'.Viewed settings limit := by
  refine ⟨hm.booked.emit hfits h, ?_⟩
  obtain ⟨state, happly, rfl⟩ := Machine.emit_eq_ok.1 h
  rw [Array.toList_push]
  exact .snoc hm.along happly (hm.booked.discreet_iff hfits happly)

/-- Only the state, the steps, the writes and the owners matter. -/
theorem congr (hm : m.Viewed settings limit) (hstate : m'.state = m.state)
    (hsteps : m'.steps = m.steps) (hwrites : m'.writes = m.writes) (howners : m'.owners = m.owners) :
    m'.Viewed settings limit := by
  refine ⟨⟨?_, ?_, ?_, ?_, ?_⟩, ?_⟩
  · rw [hstate]
    exact hm.booked.tidy
  · rw [hstate, howners]
    exact hm.booked.owned
  · rw [howners]
    exact hm.booked.below
  · rw [hwrites]
    exact hm.booked.apart
  · rw [hwrites, hstate]
    exact hm.booked.mapped
  · rw [hsteps, hstate]
    exact hm.along

theorem write {address value : Value} (hm : m.Viewed settings limit)
    (h : m.write address value = .ok m') : m'.Viewed settings limit := by
  obtain ⟨a, _, hmapped, rfl⟩ := Machine.write_eq_ok.1 h
  refine ⟨⟨hm.booked.tidy, hm.booked.owned, hm.booked.below, ?_, ?_⟩, hm.along⟩
  · exact Table.apart_put a value hm.booked.apart
  · intro b v hb
    rw [Table.find?_put] at hb
    split at hb
    · next hab =>
      obtain ⟨cell, hcell⟩ := Table.has_eq_true_iff.1 hmapped
      exact ⟨cell, by rw [← Table.find?_congr hab, hcell]⟩
    · exact hm.booked.mapped b v hb

end Machine.Viewed

theorem Act.viewed {setup : Setup} {settings : Settings} {limit : Int} {m m' : Machine}
    (h : Act setup m m') (hm : m.Viewed settings limit) : m'.Viewed settings limit := by
  cases h with
  | emit kind line description h =>
    exact hm.emit (m.fits_of_output "") h
  | write address value h => exact hm.write h
  | _ => exact hm.congr rfl rfl rfl rfl

/-! ## Placing objects -/

/-- Every struct is laid out soundly and takes some space. -/
structure Layouts.Solid (layouts : Layouts) : Prop where
  sound : layouts.Sound
  pos : ∀ e ∈ layouts.sizes, 0 < e.2

theorem Layouts.Solid.size_nonneg {layouts : Layouts} (h : layouts.Solid) {type : CType} {size : Int}
    (hsize : type.size layouts.sizes = .ok size) : 0 ≤ size :=
  CType.size_nonneg h.sound.sizes_nonneg hsize

theorem Layouts.Solid.size_pos {layouts : Layouts} (h : layouts.Solid) {type : CType} {size : Int}
    (hsize : type.size layouts.sizes = .ok size) (hscalar : type.isAggregate = false) :
    0 < size := by
  rw [CType.isAggregate, Bool.or_eq_false_iff] at hscalar
  exact CType.size_pos_of_not_isArray h.pos hscalar.1 hsize

/-- Objects have been placed for a frame from an address up to another, before a step shows them:
their cells lie between the two, each scalar owns its cell, and nothing else has a new owner. -/
structure Placing (m₀ : Machine) (start : Int) (frame : String) (cells : Table Number CellPatch)
    (vars : List FrameVariable) (m : Machine) (stop : Int) : Prop where
  quiet : m₀.Quiet m
  booked : m.Booked stop
  apart : cells.Apart
  behind : ∀ a k, cells.find? a = some k → ∃ n, (Number.int n == a) = true ∧ start ≤ n
  forward : start ≤ stop
  owners : ∀ a o, m.owners.find? a = some o →
    m₀.owners.find? a = some o ∨ (o.frame = frame ∧ o.name ∈ vars.map FrameVariable.name)
  listed : ∀ v ∈ vars, v.type.isAggregate = false →
    m.owners.find? v.address = some ⟨frame, v.name⟩ ∧
      ∃ k, cells.find? v.address = some k ∧ k.type = v.type ∧ k.value = v.value

namespace Placing

variable {m₀ m : Machine} {start stop : Int} {frame : String} {cells : Table Number CellPatch}
  {vars : List FrameVariable}

theorem nothing (h : m₀.Booked start) (frame : String) :
    Placing m₀ start frame [] [] m₀ start where
  quiet := ⟨rfl, rfl, rfl, rfl, rfl⟩
  booked := h
  apart := List.Pairwise.nil
  behind a k hk := by cases hk
  forward := Int.le_refl _
  owners a o ho := Or.inl ho
  listed v hv := by cases hv

theorem find?_own (m : Machine) (type : CType) (address : Int) (frame name : String) (a : Number) :
    (m.own type address frame name).owners.find? a
      = if type.isAggregate = false ∧ (Number.int address == a) = true then some ⟨frame, name⟩
        else m.owners.find? a := by
  unfold Machine.own
  cases type.isAggregate with
  | true => simp
  | false =>
    rw [if_neg (by decide)]
    simp only [true_and]
    exact Table.find?_put _ _ _ _

/-- A new owner at the limit leaves the others. -/
theorem find?_own_of_owned (hm : m.Booked stop) (type : CType) (frame name : String) {a : Number}
    {o : Owner} (h : m.owners.find? a = some o) :
    (m.own type stop frame name).owners.find? a = some o := by
  rw [find?_own, if_neg]
  · exact h
  · rintro ⟨_, heq⟩
    obtain ⟨n, hn, hlt⟩ := hm.below a o h
    have hsame := Number.int_unique hn heq
    omega

/-- The books after an object at the limit got its owner. -/
theorem booked_own (hm : m.Booked stop) (type : CType) (frame name : String) {size : Int}
    (hsize : 0 ≤ size) (hpos : type.isAggregate = false → 0 < size) :
    (m.own type stop frame name).Booked (stop + size) := by
  obtain ⟨hstate, _, hwrites, _, _⟩ := m.quiet_own type stop frame name
  refine ⟨?_, ?_, ?_, ?_, ?_⟩
  · rw [hstate]
    exact hm.tidy
  · intro label other c hc hscalar
    rw [hstate] at hc
    exact find?_own_of_owned hm type frame name (hm.owned label other c hc hscalar)
  · intro a o ho
    rw [find?_own] at ho
    split at ho
    · next hnew =>
      have hlt := hpos hnew.1
      exact ⟨stop, hnew.2, by omega⟩
    · obtain ⟨n, hn, hlt⟩ := hm.below a o ho
      exact ⟨n, hn, by omega⟩
  · rw [hwrites]
    exact hm.apart
  · rw [hwrites, hstate]
    exact hm.mapped

/-- The cursor is not part of the books. -/
theorem withCursor (h : Placing m₀ start frame cells vars m stop) (cursor : Cursor) :
    Placing m₀ start frame cells vars { m with cursor := cursor } stop where
  quiet := h.quiet
  booked := ⟨h.booked.tidy, h.booked.owned, h.booked.below, h.booked.apart, h.booked.mapped⟩
  apart := h.apart
  behind := h.behind
  forward := h.forward
  owners := h.owners
  listed := h.listed

/-- One more object is placed behind the others. -/
theorem add {spare : Nat} {layouts : Layouts} (hlayouts : layouts.Sound)
    (h : Placing m₀ start frame cells vars m stop) {name : String} {type : CType} {value : Value}
    {size : Int} {more cells' : Table Number CellPatch} (hsize : 0 ≤ size)
    (hpos : type.isAggregate = false → 0 < size)
    (hmore : objectCells spare layouts name type stop value = .ok more) (hapart : cells'.Apart)
    (hcells : ∀ a, cells'.find? a = (more.find? a).or (cells.find? a)) :
    Placing m₀ start frame cells' (vars ++ [frameVariable name type stop value])
      (m.own type stop frame name) (stop + size) := by
  have hforward := h.forward
  -- the new cells are all behind the objects placed so far
  have hbehind : ∀ a k, more.find? a = some k → ∃ n, (Number.int n == a) = true ∧ stop ≤ n := by
    intro a k hk
    obtain ⟨key, hkey, heq⟩ := Table.mem_of_find? hk
    obtain ⟨n, hn, hle⟩ := cellsWithin_behind hlayouts hmore hkey
    exact ⟨n, hn ▸ heq, hle⟩
  refine ⟨?_, booked_own h.booked type frame name hsize hpos, hapart, ?_, by omega, ?_, ?_⟩
  · exact h.quiet.trans (m.quiet_own type stop frame name)
  · intro a k hk
    rw [hcells a] at hk
    rcases Option.or_eq_some_iff.1 hk with hk | ⟨_, hk⟩
    · obtain ⟨n, hn, hle⟩ := hbehind a k hk
      exact ⟨n, hn, by omega⟩
    · exact h.behind a k hk
  · intro a o ho
    rw [find?_own] at ho
    split at ho
    · obtain rfl := Option.some.inj ho
      exact Or.inr ⟨rfl, by simp [frameVariable]⟩
    · rcases h.owners a o ho with hold | ⟨hframe, hname⟩
      · exact Or.inl hold
      · exact Or.inr ⟨hframe, by simp [hname]⟩
  · intro v hv hscalar
    rcases List.mem_append.1 hv with hv | hv
    · obtain ⟨howner, k, hk, hrest⟩ := h.listed v hv hscalar
      refine ⟨find?_own_of_owned h.booked type frame name howner, k, ?_, hrest⟩
      -- an object listed before lies in front of the new cells, so it keeps its own
      cases hnew : more.find? v.address with
      | none =>
        rw [hcells, hnew]
        exact hk
      | some k' =>
        obtain ⟨n, hn, hle⟩ := hbehind _ _ hnew
        obtain ⟨n', hn', hlt⟩ := h.booked.below _ _ howner
        have hsame := Number.int_unique hn hn'
        omega
    · obtain rfl := List.mem_singleton.1 hv
      have hscalar' : type.isAggregate = false := hscalar
      have hself : (Number.int stop == Number.int stop) = true := by
        rw [Number.int_beq_int, decide_eq_true_eq]
      refine ⟨?_, ⟨value, name, type⟩, ?_, rfl, ?_⟩
      · rw [find?_own]
        exact if_pos ⟨hscalar', hself⟩
      · rw [hcells, cellsWithin_scalar hscalar' hmore]
        show (Table.find? [(Number.int stop, _)] (Number.int stop)).or _ = _
        rw [Table.find?_cons, if_pos hself]
        rfl
      · show value = if type.isAggregate then _ else value
        rw [hscalar']
        rfl

/-- The change that shows the placed objects fits. -/
theorem fits (hm₀ : m₀.Booked start) (h : Placing m₀ start frame cells vars m stop) {delta : Delta}
    (hmemory : delta.memory = cells) {patch : FramePatch} (hstack : delta.stack = [(frame, patch)])
    (haction : patch.action = .add) (hvars : patch.vars = vars) : m.Fits delta := by
  have hfind : ∀ label found, delta.stack.find? label = some found →
      label = frame ∧ found = patch := by
    intro label found hfound
    rw [hstack, Table.find?_cons] at hfound
    split at hfound
    · next heq => exact ⟨(eq_of_beq heq).symm, (Option.some.inj hfound).symm⟩
    · cases hfound
  refine ⟨?_, ?_, ?_, ?_, ?_⟩
  · rw [hmemory]
    exact h.apart
  · rw [hstack]
    exact List.pairwise_singleton _ _
  · intro a o ho hnot
    rw [hmemory]
    cases hk : cells.find? a with
    | none => rfl
    | some k =>
      exfalso
      rcases h.owners a o ho with hold | ⟨hframe, hname⟩
      · obtain ⟨n, hn, hle⟩ := h.behind a k hk
        obtain ⟨n', hn', hlt⟩ := hm₀.below a o hold
        have hsame := Number.int_unique hn hn'
        omega
      · refine hnot patch ?_ (hvars ▸ hname)
        rw [hstack, hframe, Table.find?_cons, if_pos (beq_self_eq_true _)]
  · intro label found hfound v hv hscalar
    obtain ⟨rfl, rfl⟩ := hfind label found hfound
    rw [hmemory]
    exact h.listed v (hvars ▸ hv) hscalar
  · intro label found hfound hupdate
    obtain ⟨_, rfl⟩ := hfind label found hfound
    rw [haction] at hupdate
    cases hupdate

/-- Once a step shows the placed objects, the books are kept up to the end of the last of them. -/
theorem emit {settings : Settings} {m' : Machine} (hm₀ : m₀.Viewed settings start)
    (h : Placing m₀ start frame cells vars m stop) {delta : Delta} (hmemory : delta.memory = cells)
    {patch : FramePatch} (hstack : delta.stack = [(frame, patch)]) (haction : patch.action = .add)
    (hvars : patch.vars = vars) {kind : StepKind} {line : Int} {description : String}
    (hemit : m.emit kind line description delta = .ok m') : m'.Viewed settings stop := by
  obtain ⟨hstate, hsteps, _, _, _⟩ := h.quiet
  have hm : m.Viewed settings stop := by
    refine ⟨h.booked, ?_⟩
    rw [hsteps, hstate]
    exact hm₀.along
  exact hm.emit (h.fits hm₀.booked hmemory hstack haction hvars) hemit

end Placing

/-! ## Executed programs -/

theorem Machine.own_cursor (m : Machine) (type : CType) (address : Int) (frame name : String) :
    (m.own type address frame name).cursor = m.cursor := by
  unfold Machine.own
  split <;> rfl

theorem Machine.emit_cursor {m m' : Machine} {kind : StepKind} {line : Int} {description : String}
    {delta : Delta} (h : m.emit kind line description delta = .ok m') : m'.cursor = m.cursor := by
  obtain ⟨state, _, rfl⟩ := Machine.emit_eq_ok.1 h
  rfl

/-- Placing the arguments of a call. -/
theorem Invocation.place_placing {setup : Setup} (hlayouts : setup.analysis.layouts.Solid)
    {frame : String} {arguments : List (Parameter × Typed)} {cells : Table Number CellPatch}
    {vars : List FrameVariable} {m₀ m m' : Machine} {start : Int}
    {placed : Table Number CellPatch × List FrameVariable}
    (hplacing : Placing m₀ start frame cells vars m m.cursor.nextStack)
    (h : place setup frame arguments cells vars m = .ok (placed, m')) :
    Placing m₀ start frame placed.1 placed.2 m' m'.cursor.nextStack := by
  induction arguments generalizing cells vars m with
  | nil =>
    obtain ⟨rfl, rfl⟩ := Eval.pure_eq_ok.1 h
    exact hplacing
  | cons head rest ih =>
    obtain ⟨parameter, argument⟩ := head
    obtain ⟨value, size, address, cursor, more, _, hsize, hcursor, hmore, hrest⟩ :=
      place_cons_cases h
    obtain ⟨_, rfl, hnext⟩ := Cursor.stack_eq_ok.1 hcursor
    refine ih ?_ hrest
    rw [Machine.own_cursor]
    show Placing m₀ start frame _ _ _ cursor.nextStack
    rw [hnext]
    exact (hplacing.withCursor _).add hlayouts.sound (hlayouts.size_nonneg hsize)
      (hlayouts.size_pos hsize) hmore (Table.apart_putAll more hplacing.apart)
      (Table.find?_putAll (cellsWithin_apart hmore))

/-- A declaration shows an object that has been placed at the end of the stack. -/
theorem declare_placing {setup : Setup} (hlayouts : setup.analysis.layouts.Solid)
    {frame name : String} {type : CType} {line : Int} {value : Value} {description : String}
    {m m' : Machine} {address : Int} (hm : m.Booked m.cursor.nextStack)
    (h : declare setup frame name type line value description m = .ok (address, m')) :
    ∃ size cells n, address = m.cursor.nextStack ∧ type.size setup.analysis.sizes = .ok size ∧
      objectCells setup.analysis.spare setup.analysis.layouts name type address value = .ok cells ∧
      Placing m address frame cells [frameVariable name type address value] n n.cursor.nextStack ∧
      n.emit .declaration (setup.analysis.clamp line) description
        (declarationDelta frame name type address value cells) = .ok m' := by
  obtain ⟨size, cursor, cells, hsize, hcursor, hcells, hemit⟩ := declare_cases h
  obtain ⟨_, rfl, rfl⟩ := Cursor.stack_eq_ok.1 hcursor
  refine ⟨size, cells, _, rfl, hsize, hcells, ?_, hemit⟩
  rw [Machine.own_cursor]
  exact ((Placing.nothing hm frame).withCursor _).add hlayouts.sound
    (hlayouts.size_nonneg hsize) (hlayouts.size_pos hsize) hcells (cellsWithin_apart hcells)
    (fun a => (Option.or_none).symm)

/-- Leaving a call takes the frame off, so what its variables owned may be forgotten. -/
theorem Machine.Viewed.forget {settings : Settings} {limit : Int} {m : Machine} {frame : String}
    (hm : m.Viewed settings limit) (hgone : m.state.frame? frame = none) :
    ({ m with owners := m.owners.filter fun entry => entry.2.frame != frame }).Viewed settings
      limit := by
  refine ⟨⟨hm.booked.tidy, ?_, ?_, hm.booked.apart, hm.booked.mapped⟩, hm.along⟩
  · intro label name c hshown hscalar
    have hne : label ≠ frame := by
      rintro rfl
      rw [State.shown?, hgone] at hshown
      cases hshown
    exact Table.find?_filter_of_some (p := fun o : Owner => o.frame != frame)
      (hm.booked.owned label name c hshown hscalar) (by simpa using hne)
  · intro a o ho
    obtain ⟨o', ho'⟩ := Table.find?_of_find?_filter ho
    exact hm.booked.below a o' ho'

theorem Walk.viewed {setup : Setup} {settings : Settings}
    (hlayouts : setup.analysis.layouts.Solid) {m m' : Machine} (h : Walk setup m m')
    (hm : m.Viewed settings m.cursor.nextStack) : m'.Viewed settings m'.cursor.nextStack := by
  cases h with
  | act h =>
    rw [h.beside.2.2]
    exact h.viewed hm
  | declare name type line value description address h =>
    obtain ⟨size, cells, n, rfl, _, _, hplacing, hemit⟩ := declare_placing hlayouts hm.booked h
    rw [Machine.emit_cursor hemit]
    exact hplacing.emit hm rfl rfl rfl rfl hemit
  | enter f arguments line hf harity h =>
    obtain ⟨cells, vars, m₁, description, m₂, hplace, hemit, rfl⟩ := Invocation.enter_cases h
    have hplacing := Invocation.place_placing hlayouts
      (Placing.nothing hm.booked (m.nextLabel f.name)) hplace
    have hm₂ := hplacing.emit hm rfl rfl rfl rfl hemit
    rw [← Machine.emit_cursor hemit] at hm₂
    exact hm₂.congr rfl rfl rfl rfl
  | leave f outer flow hactive h =>
    obtain ⟨line, description, m₁, hemit, rfl⟩ := Invocation.leave_cases h
    have hbefore : ({ m with active := m.active.tail }).Viewed settings m.cursor.nextStack :=
      hm.congr rfl rfl rfl rfl
    have hfits := Machine.fits_of_frame { m with active := m.active.tail }
      (Machine.label f.name (outer.count f.name)) (show FrameAction.remove ≠ .update by decide)
    have hm₁ : m₁.Viewed settings m₁.cursor.nextStack := by
      rw [Machine.emit_cursor hemit]
      exact hbefore.emit hfits hemit
    exact hm₁.forget (hbefore.booked.removed hfits.stack (if_pos (beq_self_eq_true _)) hemit)

theorem Walks.viewed {setup : Setup} {settings : Settings}
    (hlayouts : setup.analysis.layouts.Solid) {m m' : Machine} (h : Walks setup m m')
    (hm : m.Viewed settings m.cursor.nextStack) : m'.Viewed settings m'.cursor.nextStack := by
  have hwalk := h.1
  clear h
  induction hwalk with
  | refl => exact hm
  | tail _ hstep ih => exact hstep.viewed hlayouts ih

theorem outline_viewed {setup : Setup} {settings : Settings} {limit : Int} {u : Unit}
    {m m' : Machine} (h : Outline.run setup m = .ok (u, m')) (hm : m.Viewed settings limit) :
    m'.Viewed settings limit := by
  have hemit : ∀ kind line description (delta : Delta), (∀ m : Machine, m.Fits delta) →
      Follows (Keeps (Machine.Viewed settings limit))
        (Run.emitDelta setup kind line description delta) := by
    intro kind line description delta hfits
    exact Run.attempt_follows fun m m' hemit hm => hm.emit (hfits m) hemit
  refine (?_ : Follows (Keeps (Machine.Viewed settings limit)) (Outline.run setup)) m u m' h hm
  unfold Outline.run
  split
  · exact (hemit _ _ _ _ fun m => m.fits_of_frame "main" (by decide)).bind fun _ =>
      (Follows.forM fun _ _ => hemit _ _ _ _ fun m => m.fits_of_output _).bind fun _ =>
        hemit _ _ _ _ fun m => m.fits_of_frame "main" (by decide)
  · exact hemit _ _ _ _ fun m => m.fits_of_output ""

end Stepwise
