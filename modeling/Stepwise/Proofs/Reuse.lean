/-
Addresses in the sequence of an allocation.

The sequence of a program about dynamic allocation declares a pointer, and perhaps
a counter, at addresses that a cursor of its own gives out; the machine's cursor
stays at the base of the stack. The calls that print an element execute functions of
the program, and those take their addresses from the machine's cursor.

So there are two halves. As long as no called function has a parameter or a variable
of its own, nothing moves the machine's cursor, and no later step shows another cell
at the address of a variable of the main function: what was held back for a cell
keeps its name and type, and the elements lie on the heap. But the first variable
that a called function gets stands at the base of the stack, where the pointer is.
-/
import Stepwise.Proofs.Views

set_option autoImplicit false

namespace Stepwise

/-! ## What is to be shown -/

/-- No step adds a variable to a frame other than that of the main function. -/
def PlacesNone (steps : List Step) : Prop :=
  ∀ step ∈ steps, ∀ e ∈ step.delta.stack, e.2.action = .add → e.1 ≠ "main" → e.2.vars = []

namespace Step

/-- The step adds the variable, which is no array, to the frame of the main function. -/
def DeclaresInMain (step : Step) (v : FrameVariable) : Prop :=
  v.type.isArray = false ∧
    ∃ patch, ("main", patch) ∈ step.delta.stack ∧ patch.action = .add ∧ v ∈ patch.vars

/-- If the variable is a scalar, the step shows a cell with its name and type at its address. -/
def ShowsCell (step : Step) (v : FrameVariable) : Prop :=
  v.type.isAggregate = false →
    ∃ cell, step.delta.memory.find? v.address = some cell ∧ cell.name = v.name ∧ cell.type = v.type

/-- What the step shows at the address has the name and the type of the cell. -/
def Respects (step : Step) (address : Number) (cell : CellPatch) : Prop :=
  ∀ e ∈ step.delta.memory, (e.1 == address) = true → e.2.name = cell.name ∧ e.2.type = cell.type

/-- The first variable that the step adds to a frame other than that of the main function stands at
the address. -/
def PlacesFirstAt (base : Int) (step : Step) : Prop :=
  ∀ e ∈ step.delta.stack, e.2.action = .add → e.1 ≠ "main" → ∀ v, e.2.vars.head? = some v →
    v.address = .int base

end Step

/-- Once a step has declared a variable of the main function, no later step shows a cell with
another name or type at the variable's address. -/
def KeepsAddresses (steps : List Step) : Prop :=
  steps.Pairwise fun earlier later => ∀ v cell, earlier.DeclaresInMain v →
    earlier.delta.memory.find? v.address = some cell → later.Respects v.address cell

theorem PlacesNone.of_initial {steps more : List Step} (h : PlacesNone more)
    (hinitial : steps <+: more) : PlacesNone steps :=
  fun step hstep => h step (hinitial.subset hstep)

/-! ## What a step shows -/

/-- Patches that keep the name and the type of a cell leave a cell with that name and type. -/
theorem State.applyMemory_respects {s : State} {patches : Table Number CellPatch} {a : Number}
    {name : String} {type : CType}
    (hcell : ∃ c, s.memory.find? a = some c ∧ c.name = name ∧ c.type = type)
    (hpatches : ∀ e ∈ patches, (e.1 == a) = true → e.2.name = name ∧ e.2.type = type) :
    ∃ c, (s.applyMemory patches).memory.find? a = some c ∧ c.name = name ∧ c.type = type := by
  induction patches generalizing s with
  | nil => exact hcell
  | cons e patches ih =>
    rw [applyMemory_cons]
    refine ih ?_ fun f hf => hpatches f (List.mem_cons_of_mem _ hf)
    rw [Table.find?_put]
    split
    · next heq =>
      obtain ⟨hname, htype⟩ := hpatches e List.mem_cons_self heq
      have hcontents := patchCell_contents e.1 e.2 (s.memory.find? e.1)
      refine ⟨_, rfl, ?_, ?_⟩
      · exact (congrArg CellPatch.name hcontents).trans hname
      · exact (congrArg CellPatch.type hcontents).trans htype
    · exact hcell

namespace Machine

variable {m m' : Machine} {kind : StepKind} {line : Int} {description : String} {delta : Delta}

/-- Variables are only added to frames by what a step says of its own. -/
theorem mem_nextStep_stack {e : String × FramePatch}
    (h : e ∈ (m.nextStep kind line description delta).delta.stack) (hadd : e.2.action = .add) :
    e ∈ delta.stack := by
  rcases Table.mem_putAll h with h | h | ⟨f, hf, heq, hvalue, _⟩
  · have hfound := Table.find?_of_mem m.pendingFrames_apart (beq_self_eq_true _) h
    rw [find?_pendingFrames, updateOf] at hfound
    split at hfound
    · cases hfound
    · rw [← Option.some.inj hfound] at hadd
      cases hadd
  · exact h
  · have hsame : e = f := Prod.ext (eq_of_beq heq) hvalue
    rw [hsame]
    exact hf

/-- A step respects a cell that is there, if what it says of its own does. -/
theorem nextStep_respects {a : Number} {cell : CellPatch}
    (hcell : ∃ c, m.state.memory.find? a = some c ∧ c.name = cell.name ∧ c.type = cell.type)
    (hdelta : ∀ e ∈ delta.memory, (e.1 == a) = true → e.2.name = cell.name ∧ e.2.type = cell.type) :
    (m.nextStep kind line description delta).Respects a cell := by
  intro e he heq
  rcases Table.mem_putAll he with he | he | ⟨f, hf, hkeys, hvalue, _⟩
  · obtain ⟨c, hc, hname, htype⟩ := mem_pendingCells he
    obtain ⟨c', hc', hname', htype'⟩ := hcell
    rw [Table.find?_congr heq, hc'] at hc
    obtain rfl := Option.some.inj hc
    exact ⟨hname.trans hname', htype.trans htype'⟩
  · exact hdelta e he heq
  · rw [hvalue]
    exact hdelta f hf (PartialEquivBEq.trans (BEq.symm hkeys) heq)

end Machine

/-! ## Machines -/

/-- Nothing has been placed by the machine's cursor, and the variables of the main function have
their cells. -/
structure Machine.Held (settings : Settings) (m : Machine) : Prop where
  cursor : m.cursor.nextStack = settings.stackBase
  addresses : KeepsAddresses m.steps.toList
  below : ∀ step ∈ m.steps.toList, ∀ v, step.DeclaresInMain v →
    ∃ n, v.address = .int n ∧ n < settings.heapBase
  cells : ∀ step ∈ m.steps.toList, ∀ v cell, step.DeclaresInMain v →
    step.delta.memory.find? v.address = some cell →
      ∃ c, m.state.memory.find? v.address = some c ∧ c.name = cell.name ∧ c.type = cell.type

theorem Machine.held_start (settings : Settings) (active : List String) :
    ({ Machine.start settings with active := active }).Held settings where
  cursor := rfl
  addresses := List.Pairwise.nil
  below step hstep := by cases hstep
  cells step hstep := by cases hstep

/-- The pointer was declared first; variables of the main function are shown as they are declared;
until something is placed by the machine's cursor the machine is held; and what is placed first
stands at the base of the stack. -/
structure Machine.Kept (settings : Settings) (pointer : FrameVariable) (m : Machine) : Prop where
  first : ∃ step, m.steps.toList.head? = some step ∧ step.DeclaresInMain pointer
  shown : ∀ step ∈ m.steps.toList, ∀ v, step.DeclaresInMain v → step.ShowsCell v
  held : PlacesNone m.steps.toList → m.Held settings
  collides : ∀ (n : Nat) step, m.steps.toList[n]? = some step →
    PlacesNone (m.steps.toList.take n) → step.PlacesFirstAt settings.stackBase

namespace Machine.Kept

variable {settings : Settings} {pointer : FrameVariable} {m m' : Machine} {kind : StepKind}
  {line : Int} {description : String} {delta : Delta}

theorem congr (hm : m.Kept settings pointer) (hsteps : m'.steps = m.steps)
    (hmemory : m'.state.memory = m.state.memory)
    (hcursor : m'.cursor.nextStack = m.cursor.nextStack) : m'.Kept settings pointer := by
  refine ⟨hsteps ▸ hm.first, hsteps ▸ hm.shown, ?_, hsteps ▸ hm.collides⟩
  rw [hsteps]
  intro hnone
  have hheld := hm.held hnone
  refine ⟨hcursor.trans hheld.cursor, hsteps ▸ hheld.addresses, hsteps ▸ hheld.below, ?_⟩
  rw [hsteps, hmemory]
  exact hheld.cells

/-- One more step keeps what is kept if it places nothing, or places its first variable at the base
of the stack. -/
theorem push (hm : m.Kept settings pointer) {step : Step}
    (hsteps : m'.steps.toList = m.steps.toList ++ [step])
    (hshown : ∀ v, step.DeclaresInMain v → step.ShowsCell v)
    (hheld : PlacesNone m'.steps.toList → m'.Held settings)
    (hplaces : PlacesNone m.steps.toList → step.PlacesFirstAt settings.stackBase) :
    m'.Kept settings pointer := by
  refine ⟨?_, ?_, hheld, ?_⟩
  · obtain ⟨first, hfirst, hpointer⟩ := hm.first
    refine ⟨first, ?_, hpointer⟩
    rw [hsteps, List.head?_append, hfirst]
    rfl
  · rw [hsteps]
    intro other hother
    rcases List.mem_append.1 hother with hother | hother
    · exact hm.shown other hother
    · obtain rfl := List.mem_singleton.1 hother
      exact hshown
  · rw [hsteps]
    intro n other hn hnone
    by_cases hlast : n < m.steps.toList.length
    · rw [List.getElem?_append_left hlast] at hn
      rw [List.take_append_of_le_length (Nat.le_of_lt hlast)] at hnone
      exact hm.collides n other hn hnone
    · rw [List.getElem?_append_right (Nat.le_of_not_lt hlast)] at hn
      obtain ⟨hindex, hsame⟩ := List.getElem?_eq_some_iff.1 hn
      rw [List.length_singleton] at hindex
      rw [List.getElem_singleton] at hsame
      subst hsame
      rw [List.take_append_of_le_length (by omega), List.take_of_length_le (by omega)] at hnone
      exact hplaces hnone

/-- A step that declares nothing and leaves the cells of the main function's variables what they
are. -/
theorem emit (hm : m.Kept settings pointer)
    (h : m.emit kind line description delta = .ok m')
    (hstack : ∀ e ∈ delta.stack, e.2.action = .add → e.2.vars = [])
    (hmemory : m.Held settings → ∀ step ∈ m.steps.toList, ∀ v cell, step.DeclaresInMain v →
      step.delta.memory.find? v.address = some cell →
      ∀ e ∈ delta.memory, (e.1 == v.address) = true →
        e.2.name = cell.name ∧ e.2.type = cell.type) :
    m'.Kept settings pointer := by
  obtain ⟨state, happly, rfl⟩ := Machine.emit_eq_ok.1 h
  have hnothing : ∀ v, ¬(m.nextStep kind line description delta).DeclaresInMain v := by
    rintro v ⟨_, patch, hpatch, hadd, hv⟩
    rw [hstack _ (mem_nextStep_stack hpatch hadd) hadd] at hv
    cases hv
  -- the step declares nothing, so it has only to spare the cells declared before it
  refine hm.push Array.toList_push (fun v hv => absurd hv (hnothing v)) ?_ ?_
  · intro hnone
    have hheld := hm.held (hnone.of_initial (by rw [Array.toList_push]; exact List.prefix_append _ _))
    have hrespects : ∀ step ∈ m.steps.toList, ∀ v cell, step.DeclaresInMain v →
        step.delta.memory.find? v.address = some cell →
        (m.nextStep kind line description delta).Respects v.address cell := by
      intro step hstep v cell hv hcell
      exact nextStep_respects (hheld.cells step hstep v cell hv hcell)
        (hmemory hheld step hstep v cell hv hcell)
    refine ⟨hheld.cursor, ?_, ?_, ?_⟩
    · show KeepsAddresses (m.steps.push _).toList
      rw [Array.toList_push]
      refine List.pairwise_append.2 ⟨hheld.addresses, List.pairwise_singleton _ _, ?_⟩
      intro step hstep later hlater
      obtain rfl := List.mem_singleton.1 hlater
      exact hrespects step hstep
    · intro step hstep v hv
      rw [Array.toList_push] at hstep
      rcases List.mem_append.1 hstep with hstep | hstep
      · exact hheld.below step hstep v hv
      · obtain rfl := List.mem_singleton.1 hstep
        exact absurd hv (hnothing v)
    · intro step hstep v cell hv hcell
      rw [Array.toList_push] at hstep
      rcases List.mem_append.1 hstep with hstep | hstep
      · -- a cell declared before is still there, with its name and its type
        obtain ⟨_, _, _, _, hstate, _⟩ := State.apply_cases happly
        show ∃ c, state.memory.find? v.address = some c ∧ _
        rw [hstate]
        exact State.applyMemory_respects (hheld.cells step hstep v cell hv hcell)
          (hrespects step hstep v cell hv hcell)
      · obtain rfl := List.mem_singleton.1 hstep
        exact absurd hv (hnothing v)
  · intro _ e he hadd _ v hv
    rw [hstack e (mem_nextStep_stack he hadd) hadd] at hv
    cases hv

/-- A step that adds variables to another frame, the first of them where the machine's cursor
stood. -/
theorem emit_placing {m₁ : Machine} (hm : m.Kept settings pointer) (hsteps : m₁.steps = m.steps)
    (h : m₁.emit kind line description delta = .ok m') {frame : String} {patch : FramePatch}
    {v : FrameVariable} {more : List FrameVariable} (hframe : frame ≠ "main")
    (hstack : delta.stack = [(frame, patch)]) (hadd : patch.action = .add)
    (hvars : patch.vars = v :: more) (haddress : v.address = .int m.cursor.nextStack) :
    m'.Kept settings pointer := by
  obtain ⟨step, hstep, hadded⟩ := Machine.emitted_patch h
    (by rw [hstack]; exact List.pairwise_singleton _ _)
    (show Table.find? delta.stack frame = some patch by
      rw [hstack, Table.find?_cons, if_pos (beq_self_eq_true _)])
  obtain ⟨state, _, rfl⟩ := Machine.emit_eq_ok.1 h
  have hown : ∀ e ∈ (m₁.nextStep kind line description delta).delta.stack, e.2.action = .add →
      e = (frame, patch) := by
    intro e he hadd
    have hmem := mem_nextStep_stack he hadd
    rw [hstack] at hmem
    exact List.mem_singleton.1 hmem
  refine hm.push (by rw [← hsteps]; exact Array.toList_push) ?_ ?_ ?_
  · rintro w ⟨_, other, hother, hadded, _⟩
    exact absurd (congrArg Prod.fst (hown _ hother hadded)).symm hframe
  · intro hnone
    have hempty := hnone step hstep _ hadded hadd hframe
    rw [hvars] at hempty
    cases hempty
  · intro hnone e he hadded _ w hw
    obtain rfl := hown e he hadded
    rw [hvars] at hw
    obtain rfl := Option.some.inj hw
    rw [haddress, (hm.held hnone).cursor]

end Machine.Kept

/-! ## Declarations in the main function -/

section Declarations

variable {setup : Setup} {name : String} {type : CType} {line : Int} {value : Value}
  {description : String} {address : Int} {m m' : Machine} {u : Unit}

/-- When nothing is held back, a declaration shows the object's cells and adds its variable. -/
theorem declareAt_step (hwrites : m.writes = [])
    (h : declareAt setup "main" name type line value description address m = .ok (u, m')) :
    ∃ cells step,
      objectCells setup.analysis.spare setup.analysis.layouts name type address value = .ok cells ∧
      m'.steps.toList = m.steps.toList ++ [step] ∧
      step.delta.memory = Table.putAll [] cells ∧
      step.delta.stack
        = [("main", { action := .add, vars := [frameVariable name type address value] })] ∧
      m.state.apply step = .ok m'.state ∧ m'.cursor = m.cursor := by
  obtain ⟨cells, hcells, hemit⟩ := declareAt_cases h
  obtain ⟨hstate, hsteps, hown, _, _⟩ := m.quiet_own type address "main" name
  have hnone : (m.own type address "main" name).writes = [] := hown.trans hwrites
  obtain ⟨state, happly, rfl⟩ := Machine.emit_eq_ok.1 hemit
  refine ⟨cells, (m.own type address "main" name).nextStep .declaration
    (setup.analysis.clamp line) description (declarationDelta "main" name type address value cells),
    hcells, ?_, ?_, ?_, ?_, m.own_cursor type address "main" name⟩
  · rw [← hsteps]
    exact Array.toList_push
  · show (Machine.pendingCells _).putAll cells = _
    rw [Machine.pendingCells, hnone]
    rfl
  · show (Machine.pendingFrames _).putAll _ = _
    rw [Machine.pendingFrames, hnone]
    rfl
  · rw [← hstate]
    exact happly

/-- A variable of the main function is declared behind those before it. -/
theorem Machine.Held.declare (hlayouts : setup.analysis.layouts.Sound) {settings : Settings}
    (hm : m.Held settings) (hwrites : m.writes = [])
    (haddress : type.isArray = false → address < settings.heapBase)
    (hbefore : ∀ step ∈ m.steps.toList, ∀ v, step.DeclaresInMain v →
      ∃ n, v.address = .int n ∧ n < address)
    (h : declareAt setup "main" name type line value description address m = .ok (u, m')) :
    m'.Held settings ∧ ∃ step, m'.steps.toList = m.steps.toList ++ [step] ∧
      (∀ v, step.DeclaresInMain v ↔
        type.isArray = false ∧ v = frameVariable name type address value) ∧
      step.ShowsCell (frameVariable name type address value) ∧
      step.PlacesFirstAt settings.stackBase := by
  obtain ⟨cells, step, hcells, hsteps, hmemory, hstack, happly, hcursor⟩ :=
    declareAt_step hwrites h
  have hdeclares : ∀ v, step.DeclaresInMain v ↔
      type.isArray = false ∧ v = frameVariable name type address value := by
    intro v
    unfold Step.DeclaresInMain
    rw [hstack]
    constructor
    · rintro ⟨harray, patch, hpatch, _, hv⟩
      obtain ⟨_, rfl⟩ := Prod.mk.injEq .. ▸ List.mem_singleton.1 hpatch
      obtain rfl := List.mem_singleton.1 hv
      exact ⟨harray, rfl⟩
    · rintro ⟨harray, rfl⟩
      exact ⟨harray, _, List.mem_singleton_self _, rfl, List.mem_singleton_self _⟩
  have hfind : ∀ a, step.delta.memory.find? a = cells.find? a := by
    intro a
    rw [hmemory, Table.find?_putAll (cellsWithin_apart hcells)]
    exact Option.or_none
  -- the cells lie behind the variables before
  have hrespects : ∀ a cell, (∃ n, a = .int n ∧ n < address) → step.Respects a cell := by
    rintro a cell ⟨n, rfl, hlt⟩ e he heq
    rw [hmemory] at he
    rcases Table.mem_putAll_whole Table.whole_nil (cellsWithin_whole hcells) he with he | he
    · cases he
    · obtain ⟨k, hk, hle⟩ := cellsWithin_behind hlayouts hcells he
      rw [hk, Number.int_beq_int, decide_eq_true_eq] at heq
      omega
  obtain ⟨_, _, _, _, hstate, _⟩ := State.apply_cases happly
  refine ⟨⟨?_, ?_, ?_, ?_⟩, step, hsteps, hdeclares, ?_, ?_⟩
  · rw [hcursor]
    exact hm.cursor
  · rw [hsteps]
    refine List.pairwise_append.2 ⟨hm.addresses, List.pairwise_singleton _ _, ?_⟩
    intro earlier hearlier later hlater v cell hv _
    obtain rfl := List.mem_singleton.1 hlater
    exact hrespects _ _ (hbefore earlier hearlier v hv)
  · rw [hsteps]
    intro earlier hearlier v hv
    rcases List.mem_append.1 hearlier with hearlier | hearlier
    · exact hm.below earlier hearlier v hv
    · obtain rfl := List.mem_singleton.1 hearlier
      obtain ⟨harray, rfl⟩ := (hdeclares v).1 hv
      exact ⟨address, rfl, haddress harray⟩
  · rw [hsteps, hstate]
    intro earlier hearlier v cell hv hcell
    rcases List.mem_append.1 hearlier with hearlier | hearlier
    · exact State.applyMemory_respects (hm.cells earlier hearlier v cell hv hcell)
        (hrespects _ _ (hbefore earlier hearlier v hv))
    · obtain rfl := List.mem_singleton.1 hearlier
      have hapart : earlier.delta.memory.Apart := by
        rw [hmemory]
        exact Table.apart_putAll cells List.Pairwise.nil
      have hcontents := State.contents_applyMemory (s := m.state) hapart v.address
      rw [hcell] at hcontents
      obtain ⟨c, hc, hsame⟩ := Option.map_eq_some_iff.1 hcontents
      rw [← hsame]
      exact ⟨c, hc, rfl, rfl⟩
  · intro hscalar
    have hone : cells = [(Number.int address, ⟨value, name, type⟩)] :=
      cellsWithin_scalar hscalar hcells
    refine ⟨⟨value, name, type⟩, ?_, rfl, rfl⟩
    rw [hfind, hone]
    exact if_pos (by simp [frameVariable])
  · intro e he _ hframe
    rw [hstack] at he
    rw [List.mem_singleton.1 he] at hframe
    exact absurd rfl hframe

end Declarations

/-! ## Calls -/

/-- From the given active calls, what is kept of the main function stays so, and the calls are
active again. -/
def Settles (setup : Setup) (pointer : FrameVariable) (calls : List String) (m m' : Machine) :
    Prop :=
  m.active = calls →
    m'.active = calls ∧ (m.Kept setup.settings pointer → m'.Kept setup.settings pointer)

section Calls

variable {setup : Setup} {pointer : FrameVariable} {calls : List String}

theorem Act.kept {settings : Settings} {m m' : Machine} (h : Act setup m m')
    (hm : m.Kept settings pointer) : m'.Kept settings pointer := by
  cases h with
  | emit kind line description h =>
    exact hm.emit h (fun e he => by cases he) fun _ _ _ _ _ _ _ e he => by cases he
  | write address value h =>
    obtain ⟨a, _, _, rfl⟩ := Machine.write_eq_ok.1 h
    exact hm.congr rfl rfl rfl
  | _ => exact hm.congr rfl rfl rfl

instance : Acting setup (Settles setup pointer calls) where
  refl _ hactive := ⟨hactive, id⟩
  trans _ _ _ h h' hactive :=
    ⟨(h' (h hactive).1).1, fun hm => (h' (h hactive).1).2 ((h hactive).2 hm)⟩
  act _ _ h hactive := ⟨h.active.trans hactive, h.kept⟩

/-- A variable that a called function declares is placed by the machine's cursor. -/
theorem declare_kept {settings : Settings} {frame name : String} {type : CType} {line : Int}
    {value : Value} {description : String} {address : Int} {m m' : Machine} (hframe : frame ≠ "main")
    (h : declare setup frame name type line value description m = .ok (address, m'))
    (hm : m.Kept settings pointer) : m'.Kept settings pointer := by
  obtain ⟨size, cursor, cells, _, hcursor, hcells, hemit⟩ := declare_cases h
  obtain ⟨_, rfl, _⟩ := Cursor.stack_eq_ok.1 hcursor
  obtain ⟨_, hsteps, _⟩ :=
    Machine.quiet_own { m with cursor := cursor } type m.cursor.nextStack frame name
  exact hm.emit_placing hsteps hemit hframe rfl rfl rfl rfl

/-- Inside a call that was made from the main function, declarations are in another frame. -/
theorem settles_executing {name : String} {outer : List String} (hmain : "main" ∈ outer) :
    Executing setup (Settles setup pointer (name :: outer)) where
  declare m _ type line value description address m' h hactive := by
    refine ⟨(declare_active h).trans hactive, declare_kept ?_ h⟩
    rw [Machine.currentFrame, hactive]
    exact label_ne_main hmain name

/-- Placing arguments only adds variables behind those there are. -/
theorem Invocation.place_extends {frame : String} {arguments : List (Parameter × Typed)}
    {cells cells' : Table Number CellPatch} {vars vars' : List FrameVariable} {m m' : Machine}
    (h : place setup frame arguments cells vars m = .ok ((cells', vars'), m')) : vars <+: vars' := by
  induction arguments generalizing cells vars m with
  | nil =>
    obtain ⟨heq, rfl⟩ := Eval.pure_eq_ok.1 h
    obtain ⟨rfl, rfl⟩ := Prod.mk.injEq .. ▸ heq
    exact List.prefix_rfl
  | cons head rest ih =>
    obtain ⟨value, size, address, cursor, more, _, _, _, _, hrest⟩ := place_cons_cases h
    exact (List.prefix_append _ _).trans (ih hrest)

/-- A function with parameters gets the first of them where the machine's cursor stands; one without
gets nothing. -/
theorem enter_kept {settings : Settings} {f : Function} {frame : String} {arguments : List Typed}
    {line : Nat} {m m' : Machine} {u : Unit} (hframe : frame ≠ "main")
    (h : Invocation.enter setup f frame arguments line m = .ok (u, m'))
    (hm : m.Kept settings pointer) : m'.Kept settings pointer := by
  obtain ⟨cells, vars, m₁, description, m₂, hplace, hemit, rfl⟩ := Invocation.enter_cases h
  suffices hm₂ : m₂.Kept settings pointer from hm₂.congr rfl rfl rfl
  cases hnamed : f.named.zip arguments with
  | nil =>
    rw [hnamed] at hplace
    obtain ⟨heq, rfl⟩ := Eval.pure_eq_ok.1 hplace
    obtain ⟨rfl, rfl⟩ := Prod.mk.injEq .. ▸ heq
    refine hm.emit hemit (fun e he _ => ?_) fun _ _ _ _ _ _ _ e he => by cases he
    rw [List.mem_singleton.1 he]
  | cons head rest =>
    rw [hnamed] at hplace
    obtain ⟨⟨_, hsteps, _⟩, _⟩ := Invocation.place_quiet List.Pairwise.nil hplace
    obtain ⟨value, size, address, cursor, more, _, _, hcursor, _, hrest⟩ :=
      Invocation.place_cons_cases hplace
    obtain ⟨_, rfl, _⟩ := Cursor.stack_eq_ok.1 hcursor
    obtain ⟨later, rfl⟩ := Invocation.place_extends hrest
    exact hm.emit_placing hsteps hemit hframe rfl rfl rfl rfl

theorem leave_kept {settings : Settings} {f : Function} {frame : String} {flow : Flow}
    {m m' : Machine} {v : Typed} (h : Invocation.leave setup f frame flow m = .ok (v, m'))
    (hm : m.Kept settings pointer) : m'.Kept settings pointer := by
  obtain ⟨line, description, m₁, hemit, rfl⟩ := Invocation.leave_cases h
  have hm₀ : ({ m with active := m.active.tail }).Kept settings pointer := hm.congr rfl rfl rfl
  refine (hm₀.emit hemit (fun e he hadd => ?_) fun _ _ _ _ _ _ _ e he => by cases he).congr
    rfl rfl rfl
  rw [List.mem_singleton.1 he] at hadd
  cases hadd

/-- A call settles if its body does inside the call. -/
theorem invocation_settles (hmain : "main" ∈ calls) {f : Function} (arguments : List Typed)
    (line : Nat) {body : Run Flow}
    (hbody : Follows (Settles setup pointer (f.name :: calls)) body) :
    Follows (Settles setup pointer calls) (Invocation.run setup f arguments line body) := by
  unfold Invocation.run
  refine Follows.ite (fun _ => Follows.fail _) fun _ => ?_
  intro m v m' hm hactive
  obtain ⟨frame, m₁, h₁, hm₁⟩ := Eval.bind_eq_ok.1 hm
  obtain ⟨rfl, rfl⟩ := Run.ask_eq_ok.1 h₁
  obtain ⟨_, m₂, hentered, hm₂⟩ := Eval.bind_eq_ok.1 hm₁
  obtain ⟨flow, m₃, h₃, hleft⟩ := Eval.bind_eq_ok.1 hm₂
  obtain ⟨hexit, hbetween⟩ := hbody m₂ flow m₃ h₃ (Invocation.enter_active hentered hactive)
  have hframe : m.nextLabel f.name ≠ "main" := by
    rw [Machine.nextLabel, hactive]
    exact label_ne_main hmain f.name
  exact ⟨Invocation.leave_active hleft hexit,
    fun hkept => leave_kept hleft (hbetween (enter_kept hframe hentered hkept))⟩

/-- Calls of the program's functions settle. The induction is on the budget of calls. -/
theorem invoke_settles (category : Category) (budget : Nat) (hmain : "main" ∈ calls) {f : Function}
    (hf : setup.analysis.program.function? f.name = some f) (scope : Scope) (arguments : List Typed)
    (line : Nat) :
    Follows (Settles setup pointer calls)
      (invoke setup category.commentary budget f scope arguments line) := by
  induction budget generalizing calls f scope arguments line with
  | zero => exact Follows.fail _
  | succ budget ih =>
    rw [invoke]
    have hexecuting : Executing setup (Settles setup pointer (f.name :: calls)) :=
      settles_executing hmain
    refine invocation_settles hmain arguments line ?_
    exact runBody_follows category
      (callBy_follows fun _ hf => ih (List.mem_cons_of_mem _ hmain) hf) scope f.body

theorem evaluate_settles (category : Category) (active : Nat) (hmain : "main" ∈ calls)
    (scope : Scope) (e : Expr) :
    Follows (Settles setup pointer calls)
      (evaluateWith setup (callAt setup category.commentary active) scope e) :=
  evaluateWith_follows (callBy_follows fun _ hf => invoke_settles category _ hmain hf) scope e

end Calls

/-! ## The sequence -/

theorem Machine.Kept.pointer_cell {settings : Settings} {pointer : FrameVariable} {m : Machine}
    (hm : m.Kept settings pointer) (hheld : m.Held settings)
    (hscalar : pointer.type.isAggregate = false) :
    ∃ c, m.state.memory.find? pointer.address = some c ∧ c.name = pointer.name ∧
      c.type = pointer.type := by
  obtain ⟨step, hstep, hdeclares⟩ := hm.first
  have hmem := List.mem_of_head? hstep
  obtain ⟨cell, hcell, hname, htype⟩ := hm.shown step hmem pointer hdeclares hscalar
  obtain ⟨c, hc, hname', htype'⟩ := hheld.cells step hmem pointer cell hdeclares hcell
  exact ⟨c, hc, hname'.trans hname, htype'.trans htype⟩

namespace Allocation

namespace Stage

variable {s : Stage}

/-- The pointer as the sequence declares it. -/
def pointerVariable (s : Stage) : FrameVariable :=
  frameVariable s.plan.pointer s.plan.pointerType s.pointerAddress .uninit

/-- The machine in the middle of the sequence: only the main function is active, and its variables
are kept. -/
def Steady (s : Stage) (m : Machine) : Prop :=
  m.active = ["main"] ∧ m.Kept s.setup.settings s.pointerVariable

theorem emit_steady {kind : StepKind} {line : Int} {description : String} {delta : Delta}
    (hstack : ∀ e ∈ delta.stack, e.2.action = .add → e.2.vars = [])
    (hmemory : ∀ m, s.Steady m → m.Held s.setup.settings → ∀ step ∈ m.steps.toList, ∀ v cell,
      step.DeclaresInMain v → step.delta.memory.find? v.address = some cell →
      ∀ e ∈ delta.memory, (e.1 == v.address) = true →
        e.2.name = cell.name ∧ e.2.type = cell.type) :
    Follows (Keeps s.Steady) (Run.emitDelta s.setup kind line description delta) := by
  refine Run.attempt_follows ?_
  intro m m' h hm
  have hkept := hm.2.emit h hstack (hmemory m hm)
  obtain ⟨state, _, rfl⟩ := Machine.emit_eq_ok.1 h
  exact ⟨hm.1, hkept⟩

/-- A step without cells. -/
theorem plain_steady {kind : StepKind} {line : Int} {description : String} {output : String}
    {heap : Table Number BlockPatch} :
    Follows (Keeps s.Steady)
      (Run.emitDelta s.setup kind line description { output := output, heap := heap }) :=
  emit_steady (fun e he => by cases he) fun _ _ _ _ _ _ _ _ _ e he => by cases he

/-- The pointer gets another value, in the cell it has. -/
theorem pointer_steady {kind : StepKind} {line : Int} {description : String} {value : Int}
    {heap : Table Number BlockPatch} :
    Follows (Keeps s.Steady)
      (Run.emitDelta s.setup kind line description { s.pointerDelta value with heap := heap }) := by
  refine emit_steady (fun e he hadd => ?_) fun m hm hheld step hstep v cell hv hcell e he heq => ?_
  · rw [List.mem_singleton.1 he] at hadd
    cases hadd
  · obtain rfl := List.mem_singleton.1 he
    obtain ⟨c, hc, hname, htype⟩ := hheld.cells step hstep v cell hv hcell
    obtain ⟨c', hc', hname', htype'⟩ :=
      hm.2.pointer_cell hheld (CType.pointer_isAggregate _)
    rw [← Table.find?_congr heq] at hc
    obtain rfl := Option.some.inj (hc.symm.trans hc')
    exact ⟨hname'.symm.trans hname, htype'.symm.trans htype⟩

/-- The elements lie behind the base of the heap. -/
theorem element_steady (hblock : s.block = s.setup.settings.heapBase) (hsize : 0 ≤ s.elementSize)
    (i : Nat) {kind : StepKind} {line : Int} {description : String} {cell : CellPatch} :
    Follows (Keeps s.Steady) (Run.emitDelta s.setup kind line description
      { memory := [(.int (s.block + i * s.elementSize), cell)] }) := by
  refine emit_steady (fun e he => by cases he) ?_
  intro m _ hheld step hstep v _ hv _ e he heq
  obtain ⟨n, hn, hlt⟩ := hheld.below step hstep v hv
  obtain rfl := List.mem_singleton.1 he
  have hoffset : 0 ≤ (i : Int) * s.elementSize := Int.mul_nonneg (Int.natCast_nonneg i) hsize
  rw [hn, Number.int_beq_int, decide_eq_true_eq] at heq
  omega

theorem evaluate_steady (scope : Scope) (e : Expr) :
    Follows (Keeps s.Steady) (evaluateWith s.setup (callAt s.setup noCommentary 1) scope e) := by
  intro m v m' h hm
  obtain ⟨hactive, hkept⟩ := evaluate_settles .dynamicAllocation 1 (List.mem_singleton_self _)
    scope e m v m' h hm.1
  exact ⟨hactive, hkept hm.2⟩

theorem clear_steady : Follows (Keeps s.Steady) s.clear := by
  unfold clear
  split
  · exact Follows.pure _
  · exact pointer_steady

/-- From the reservation on, the variables of the main function are kept. -/
theorem rest_kept (hblock : s.block = s.setup.settings.heapBase) (hsize : 0 ≤ s.elementSize)
    {m m' : Machine} {u : Unit} (hm : s.Steady m)
    (h : (do s.reserve; s.check; s.fillAndPrint; s.free; s.clear; s.leave : Run Unit) m
      = .ok (u, m')) : m'.Kept s.setup.settings s.pointerVariable := by
  obtain ⟨m₁, m₂, line, hplayed, hret, rfl⟩ := rest_cases h
  have hplay : Follows (Keeps s.Steady)
      (do s.reserve; s.check; s.fillAndPrint; s.free; s.clear : Run Unit) := by
    refine pointer_steady.bind fun _ => plain_steady.bind fun _ => Follows.bind ?_ fun _ =>
      (plain_steady.bind fun _ => plain_steady).bind fun _ => clear_steady
    exact fillAndPrint_follows (fun _ _ _ _ => plain_steady)
      (fun i _ _ _ _ => element_steady hblock hsize i) evaluate_steady
  obtain ⟨_, hkept⟩ := hplay m () m₁ hplayed hm
  refine (hkept.emit hret (fun e he hadd => ?_) fun _ _ _ _ _ _ _ e he => by cases he).congr
    rfl rfl rfl
  rw [List.mem_singleton.1 he] at hadd
  cases hadd

end Stage

/-- The pointer is declared first, at the base of the stack. -/
theorem declarePointer_kept {setup : Setup} (hlayouts : setup.analysis.layouts.Sound) {p : Plan}
    {m m' : Machine} {address : Int} {cursor : Cursor} (hm : m.Held setup.settings)
    (hsteps : m.steps.toList = []) (hwrites : m.writes = [])
    (h : declarePointer setup p m = .ok ((address, cursor), m')) :
    m'.Kept setup.settings (frameVariable p.pointer p.pointerType address .uninit) ∧
      m'.Held setup.settings ∧
      ∀ step ∈ m'.steps.toList, ∀ v, step.DeclaresInMain v →
        ∃ n, v.address = .int n ∧ n < cursor.nextStack := by
  obtain ⟨size, _, hpos, hroom, rfl, hnext, _, hdeclared⟩ := declarePointer_cases h
  obtain ⟨hheld, step, hstep, hdeclares, hshown, hplaces⟩ :=
    hm.declare hlayouts hwrites (fun _ => by omega)
      (fun step hstep => by rw [hsteps] at hstep; cases hstep) hdeclared
  rw [hsteps, List.nil_append] at hstep
  have hscalar := CType.pointer_isAggregate p.element
  rw [CType.isAggregate, Bool.or_eq_false_iff] at hscalar
  refine ⟨⟨⟨step, by rw [hstep]; rfl, (hdeclares _).2 ⟨hscalar.1, rfl⟩⟩, ?_, fun _ => hheld, ?_⟩,
    hheld, ?_⟩
  · rw [hstep]
    intro other hother v hv
    obtain rfl := List.mem_singleton.1 hother
    rw [((hdeclares v).1 hv).2]
    exact hshown
  · rw [hstep]
    intro n other hn _
    obtain rfl := List.mem_singleton.1 (List.mem_of_getElem? hn)
    exact hplaces
  · rw [hstep]
    intro other hother v hv
    obtain rfl := List.mem_singleton.1 hother
    rw [((hdeclares v).1 hv).2]
    exact ⟨_, rfl, by omega⟩

/-- The counter is declared behind the pointer. -/
theorem declareCounter_kept {setup : Setup} (hlayouts : setup.analysis.layouts.Sound)
    {cursor : Cursor} {c : Counter} {pointer : FrameVariable} {m m' : Machine} {u : Unit}
    (hm : m.Kept setup.settings pointer) (hheld : m.Held setup.settings) (hwrites : m.writes = [])
    (hbefore : ∀ step ∈ m.steps.toList, ∀ v, step.DeclaresInMain v →
      ∃ n, v.address = .int n ∧ n < cursor.nextStack)
    (hbase : cursor.heapBase = setup.settings.heapBase)
    (h : declareCounter setup cursor c m = .ok (u, m')) : m'.Kept setup.settings pointer := by
  obtain ⟨size, hsize, hroom, hdeclared⟩ := declareCounter_cases h
  have haddress : c.type.isArray = false → cursor.nextStack < setup.settings.heapBase := by
    intro harray
    have hpos := CType.size_pos_of_not_isArray (fun e he => by cases he) harray hsize
    omega
  obtain ⟨hheld', step, hstep, hdeclares, hshown, hplaces⟩ :=
    hheld.declare hlayouts hwrites haddress hbefore hdeclared
  refine hm.push hstep (fun v hv => ?_) (fun _ => hheld') fun _ => hplaces
  rw [((hdeclares v).1 hv).2]
  exact hshown

/-- **The variables of the main function are kept throughout the sequence.** -/
theorem run_kept {setup : Setup} (hlayouts : setup.analysis.layouts.Sound) {m : Machine} {u : Unit}
    (h : run setup (Machine.start setup.settings) = .ok (u, m)) :
    ∃ pointer, pointer.type.isAggregate = false ∧
      pointer.address = .int setup.settings.stackBase ∧ m.Kept setup.settings pointer := by
  obtain ⟨s, cursor, m₁, m₂, rfl, hblock, helement, hpointer, hcounter, hrest⟩ := run_cases h
  obtain ⟨_, _, _, _, haddress, _, hbase, hdeclared⟩ := declarePointer_cases hpointer
  obtain ⟨hactive₁, hwrites₁, _⟩ := declareAt_beside hdeclared
  obtain ⟨hm₁, hheld₁, hbefore⟩ := declarePointer_kept hlayouts
    (Machine.held_start s.setup.settings ["main"]) rfl rfl hpointer
  have hm₂ : s.Steady m₂ := by
    cases hc : s.plan.counter with
    | none =>
      rw [hc] at hcounter
      obtain ⟨_, rfl⟩ := Eval.pure_eq_ok.1 hcounter
      exact ⟨hactive₁, hm₁⟩
    | some c =>
      rw [hc] at hcounter
      have hkept := declareCounter_kept hlayouts hm₁ hheld₁ hwrites₁ hbefore hbase hcounter
      obtain ⟨_, _, _, hplaced⟩ := declareCounter_cases hcounter
      exact ⟨(declareAt_beside hplaced).1.trans hactive₁, hkept⟩
  have hsize : 0 ≤ s.elementSize := CType.size_nonneg hlayouts.sizes_nonneg helement
  refine ⟨s.pointerVariable, CType.pointer_isAggregate _, ?_, Stage.rest_kept hblock hsize hm₂ hrest⟩
  rw [← haddress]
  rfl

end Allocation

/-! ## The main result -/

/-- A step without a change declares nothing. -/
theorem Step.not_declaresInMain {step : Step} (h : step.delta = {}) (v : FrameVariable) :
    ¬step.DeclaresInMain v := by
  rintro ⟨_, patch, hpatch, _⟩
  rw [h] at hpatch
  cases hpatch

/-- Steps without a change before and after the others leave the addresses kept. -/
theorem KeepsAddresses.around {before after : Step} {steps : List Step} (h : KeepsAddresses steps)
    (hbefore : before.delta = {}) (hafter : after.delta = {}) :
    KeepsAddresses (before :: (steps ++ [after])) := by
  refine List.pairwise_cons.2 ⟨fun _ _ v _ hv => absurd hv (Step.not_declaresInMain hbefore v), ?_⟩
  refine List.pairwise_append.2 ⟨h, List.pairwise_singleton _ _, ?_⟩
  intro _ _ later hlater _ _ _ _ e he
  obtain rfl := List.mem_singleton.1 hlater
  rw [hafter] at he
  cases he

/-- **In a program about dynamic allocation the variables of the main function keep their addresses
as long as no called function has a variable**: the pointer is declared first, at the base of the
stack; if no step adds a variable to another frame, no step after the declaration of a variable of
the main function shows another cell at its address; and the first variable that a step does add to
another frame stands where the pointer does. -/
theorem addresses_kept_until_collision {p : Program} {source : String} {tokens : List Token}
    {settings : Settings} {analysis : Analysis} (ha : analyze p source tokens = .ok analysis)
    (hcategory : analysis.category = .dynamicAllocation)
    (hok : (p.trace source tokens settings).ok = true) :
    ∃ first pointer, (p.trace source tokens settings).steps[1]? = some first ∧
      first.DeclaresInMain pointer ∧ pointer.address = .int settings.stackBase ∧
      (∀ step ∈ (p.trace source tokens settings).steps, ∀ v, step.DeclaresInMain v →
        step.ShowsCell v) ∧
      (PlacesNone (p.trace source tokens settings).steps →
        KeepsAddresses (p.trace source tokens settings).steps) ∧
      ∀ (n : Nat) step, (p.trace source tokens settings).steps[n]? = some step →
        PlacesNone ((p.trace source tokens settings).steps.take n) →
        step.PlacesFirstAt settings.stackBase := by
  obtain ⟨m, hplay⟩ := Program.play_of_trace_ok ha hok
  rw [trace_of_play ha hplay]
  rw [hcategory] at hplay
  obtain ⟨pointer, _, haddress, hm⟩ :=
    Allocation.run_kept (layouts_sound (analyze_layouts ha).1) hplay
  obtain ⟨first, hfirst, hpointer⟩ := hm.first
  -- the steps in front of the script and behind it declare nothing
  refine ⟨first, pointer, ?_, hpointer, haddress, ?_, ?_, ?_⟩
  · show (m.steps.toList ++ [Trace.endStep tokens])[0]? = some first
    rw [← List.head?_eq_getElem?, List.head?_append, hfirst]
    rfl
  · intro step hstep v hv
    rcases List.mem_cons.1 hstep with rfl | hstep
    · exact absurd hv (Step.not_declaresInMain rfl v)
    · rcases List.mem_append.1 hstep with hstep | hstep
      · exact hm.shown step hstep v hv
      · obtain rfl := List.mem_singleton.1 hstep
        exact absurd hv (Step.not_declaresInMain rfl v)
  · intro hnone
    have hscript : PlacesNone m.steps.toList := fun step hstep =>
      hnone step (List.mem_cons_of_mem _ (List.mem_append_left _ hstep))
    exact (hm.held hscript).addresses.around rfl rfl
  · intro n step hn hnone
    cases n with
    | zero =>
      obtain rfl := Option.some.inj hn
      intro e he
      cases he
    | succ n =>
      have hstep : (m.steps.toList ++ [Trace.endStep tokens])[n]? = some step := hn
      rcases Nat.lt_or_ge n m.steps.toList.length with hlt | hge
      · rw [List.getElem?_append_left hlt] at hstep
        refine hm.collides n step hstep fun other hother => hnone other ?_
        refine List.mem_cons_of_mem _ ?_
        rw [List.take_append_of_le_length (Nat.le_of_lt hlt)]
        exact hother
      · rw [List.getElem?_append_right hge] at hstep
        obtain rfl := List.mem_singleton.1 (List.mem_of_getElem? hstep)
        intro e he
        cases he

/-! ## A parameter in the place of the pointer -/

namespace Overlaid

/-- A program that prints an element through a function, or as it is. -/
def source (argument : String) : String :=
  "int f(int x) \x7b return x; \x7d\nint main() \x7b\n  int *p = malloc(4);\n"
    ++ "  for (int i = 0; i < 1; i++) printf(\"%d\", " ++ argument ++ ");\n"
    ++ "  free(p);\n  return 0;\n\x7d\n"

/-- The function. -/
def function : Function where
  line := 1
  name := "f"
  returnType := .int
  parameters := [⟨.int, "x", false, false⟩]
  bodyLine := 1
  body := [.ret 1 (some (.name 1 "x"))]

/-- The element. -/
def element : Expr :=
  .index 4 "p" (.name 4 "i")

/-- The main function. -/
def main (argument : Expr) : Function where
  line := 2
  name := "main"
  returnType := .int
  parameters := []
  bodyLine := 2
  body :=
    [.decl ⟨3, .int, [⟨3, "p", 1, .none, some (.expr (.call 3 "malloc" [.literal 3 "4"]))⟩]⟩,
      .forLoop 4 (.decl ⟨4, .int, [⟨4, "i", 0, .none, some (.expr (.literal 4 "0"))⟩]⟩)
        (some (.binary 4 (.rel .lt) (.name 4 "i") (.literal 4 "1")))
        (some (.stepAfter 4 .increment (.name 4 "i")))
        (.expr 4 (.call 4 "printf" [.literal 4 "\"%d\"", argument])),
      .expr 5 (.call 5 "free" [.name 5 "p"]),
      .ret 6 (some (.literal 6 "0"))]

/-- The program. -/
def program (argument : Expr) : Program :=
  ⟨[.function function, .function (main argument)]⟩

/-- What is known about it. -/
def analysis (argument : Expr) (text : String) : Analysis where
  program := program argument
  source := source text
  tokens := tokenize (source text)
  lines := Text.lines (source text)
  macros := []
  layouts := []

theorem analyze_eq (argument : Expr) (text : String) :
    analyze (program argument) (source text) (tokenize (source text))
      = .ok (analysis argument text) :=
  rfl

/-- The trace where the element is printed as it is. -/
def plain : Trace :=
  (program element).trace (source "p[i]") (tokenize (source "p[i]")) {}

theorem plain_category : (analysis element "p[i]").category = .dynamicAllocation := by
  have hsource : (analysis element "p[i]").source = String.ofList _ := Text.append_of_chars
    (Text.append_of_chars (Text.append_of_chars (Text.append_of_chars rfl rfl) rfl) rfl) rfl
  rw [Analysis.category, Analysis.lowered_eq hsource]
  decide

theorem plain_ok : plain.ok = true := by
  rw [plain, Program.trace_of_category (analyze_eq _ _) plain_category]
  decide +kernel

theorem plain_placesNone : PlacesNone plain.steps := by
  rw [plain, Program.trace_of_category (analyze_eq _ _) plain_category]
  unfold PlacesNone
  decide +kernel

/-- The element, printed through the function. -/
def throughFunction : Expr :=
  .call 4 "f" [element]

/-- The trace where it is. -/
def overlaid : Trace :=
  (program throughFunction).trace (source "f(p[i])") (tokenize (source "f(p[i])")) {}

theorem overlaid_category :
    (analysis throughFunction "f(p[i])").category = .dynamicAllocation := by
  have hsource : (analysis throughFunction "f(p[i])").source = String.ofList _ := Text.append_of_chars
    (Text.append_of_chars (Text.append_of_chars (Text.append_of_chars rfl rfl) rfl) rfl) rfl
  rw [Analysis.category, Analysis.lowered_eq hsource]
  decide

/-- The second step declares the pointer, and the sixth shows the parameter at its address. -/
def collides (t : Trace) : Bool :=
  match t.steps with
  | _ :: a :: _ :: _ :: _ :: b :: _ =>
    match a.delta.stack, a.delta.memory.find? (.int 0x1000), b.delta.memory with
    | [("main", ⟨.add, [⟨"p", _, .int 0x1000, ⟨"int*"⟩⟩], _⟩)], some ⟨_, "p", _⟩,
      [(.int 0x1000, ⟨_, "x", _⟩)] => true
    | _, _, _ => false
  | _ => false

theorem overlaid_collides : overlaid.ok = true ∧ collides overlaid = true := by
  rw [overlaid, Program.trace_of_category (analyze_eq _ _) overlaid_category]
  decide +kernel

theorem not_keepsAddresses {t : Trace} (h : collides t = true) : ¬KeepsAddresses t.steps := by
  intro hkeeps
  unfold collides at h
  split at h
  · next start a _ _ _ b rest hsteps =>
    split at h
    · next value returnAddress held heldType shown shownType hstack hcell hmemory =>
      rw [hsteps] at hkeeps
      have hlater := (List.pairwise_cons.1 (List.pairwise_cons.1 hkeeps).2).1 b (by simp)
      have harray : CType.isArray ⟨"int*"⟩ = false := by decide
      have hpatch : ("main", ⟨.add, [⟨"p", value, .int 0x1000, ⟨"int*"⟩⟩], returnAddress⟩)
          ∈ a.delta.stack := by
        rw [hstack]
        exact List.mem_singleton_self _
      have hdeclares : a.DeclaresInMain ⟨"p", value, .int 0x1000, ⟨"int*"⟩⟩ :=
        ⟨harray, _, hpatch, rfl, List.mem_singleton_self _⟩
      have hrespects : b.Respects (.int 0x1000) ⟨held, "p", heldType⟩ :=
        hlater _ _ hdeclares hcell
      have hshown : (.int 0x1000, ⟨shown, "x", shownType⟩) ∈ b.delta.memory := by
        rw [hmemory]
        exact List.mem_singleton_self _
      have hname : "x" = "p" := (hrespects _ hshown (by simp)).1
      exact absurd hname (by decide)
    · cases h
  · cases h

end Overlaid

/-- Where the element is printed as it is, the pointer keeps its address. -/
theorem plain_print_keeps_pointer :
    PlacesNone Overlaid.plain.steps ∧ KeepsAddresses Overlaid.plain.steps := by
  obtain ⟨_, _, _, _, _, _, hkeeps, _⟩ := addresses_kept_until_collision
    (Overlaid.analyze_eq Overlaid.element "p[i]") Overlaid.plain_category Overlaid.plain_ok
  exact ⟨Overlaid.plain_placesNone, hkeeps Overlaid.plain_placesNone⟩

/-- Where it is printed through a function, the parameter takes the place of the pointer. -/
theorem parameter_overlays_pointer :
    ∃ p source analysis, analyze p source (tokenize source) = .ok analysis ∧
      analysis.category = .dynamicAllocation ∧
      (p.trace source (tokenize source) {}).ok = true ∧
      ¬KeepsAddresses (p.trace source (tokenize source) {}).steps :=
  ⟨_, _, _, Overlaid.analyze_eq Overlaid.throughFunction "f(p[i])", Overlaid.overlaid_category,
    Overlaid.overlaid_collides.1, Overlaid.not_keepsAddresses Overlaid.overlaid_collides.2⟩

end Stepwise
