/-
What goes out with a step.

Whatever was held back goes out with the next step, together with the change that
the step shows of its own. Here it is read address by address and label by label:
a cell after a step has what the step's own change says, else what was held back
for it, else what it had; and what is held back for a frame is an update with one
variable for every held-back write to a cell that the frame owns.
-/
import Stepwise.Machine.Basic
import Stepwise.Proofs.State

set_option autoImplicit false

namespace Stepwise

/-! ## Cells -/

theorem Machine.pendingCells_apart {m : Machine} (h : m.writes.Apart) : m.pendingCells.Apart := by
  unfold Machine.pendingCells Table.Apart
  rw [List.pairwise_filterMap]
  refine h.imp ?_
  intro e f hef e' he' f' hf'
  rw [Option.map_eq_some_iff] at he' hf'
  obtain ⟨_, _, rfl⟩ := he'
  obtain ⟨_, _, rfl⟩ := hf'
  exact hef

/-- What was held back for a cell keeps its name and its type. -/
theorem Machine.mem_pendingCells {m : Machine} {e : Number × CellPatch} (h : e ∈ m.pendingCells) :
    ∃ cell, m.state.memory.find? e.1 = some cell ∧ e.2.name = cell.name ∧ e.2.type = cell.type := by
  obtain ⟨w, _, hw⟩ := List.mem_filterMap.1 h
  obtain ⟨cell, hcell, rfl⟩ := Option.map_eq_some_iff.1 hw
  exact ⟨cell, hcell, rfl, rfl⟩

/-- A held-back write shows the new value in the cell that is there. -/
theorem Machine.find?_pendingCells (m : Machine) (a : Number) :
    m.pendingCells.find? a
      = (m.writes.find? a).bind fun v =>
          (m.state.memory.find? a).map fun cell => ⟨v, cell.name, cell.type⟩ := by
  unfold Machine.pendingCells
  generalize m.writes = writes
  induction writes with
  | nil => rfl
  | cons e writes ih =>
    obtain ⟨k, v⟩ := e
    rw [List.filterMap_cons, Table.find?_cons]
    dsimp only
    by_cases hk : (k == a) = true
    · rw [if_pos hk, Table.find?_congr hk]
      cases hcell : m.state.memory.find? a with
      | none =>
        rw [hcell] at ih
        dsimp only [Option.map_none]
        rw [ih]
        cases Table.find? writes a <;> rfl
      | some cell =>
        dsimp only [Option.map_some]
        rw [Table.find?_cons, if_pos hk]
        rfl
    · rw [if_neg hk, ← ih]
      cases m.state.memory.find? k with
      | none => rfl
      | some cell =>
        dsimp only [Option.map_some]
        rw [Table.find?_cons, if_neg hk]

/-- After a step, every address holds what the step's own change says, else what was held back for
it, else what was there. -/
theorem Machine.find?_emitted {m : Machine} {kind : StepKind} {line : Int} {description : String}
    {delta : Delta} {state : State} (hwrites : m.writes.Apart) (hmemory : delta.memory.Apart)
    (happly : m.state.apply (m.nextStep kind line description delta) = .ok state) (a : Number) :
    (state.memory.find? a).map Cell.contents
      = (delta.memory.find? a).or ((m.pendingCells.find? a).or
          ((m.state.memory.find? a).map Cell.contents)) := by
  obtain ⟨_, _, _, _, hstate, _⟩ := State.apply_cases happly
  have hapart : (m.nextStep kind line description delta).delta.memory.Apart :=
    Table.apart_putAll _ (pendingCells_apart hwrites)
  rw [hstate, State.contents_applyMemory hapart]
  show ((m.pendingCells.putAll delta.memory).find? a).or _ = _
  rw [Table.find?_putAll hmemory, Option.or_assoc]

/-! ## Frames -/

/-- The variables of a frame that held-back writes change. -/
def Machine.heldBack (m : Machine) (label : String) : List FrameVariable :=
  m.writes.filterMap fun e =>
    match m.pendingVariable? e.1 e.2 with
    | some (frame, v) => if frame = label then some v else none
    | none => none

theorem Machine.pendingVariable?_eq_some {m : Machine} {a : Number} {value : Value} {label : String}
    {v : FrameVariable} :
    m.pendingVariable? a value = some (label, v) ↔
      ∃ cell name f, m.state.memory.find? a = some cell ∧ m.owners.find? a = some ⟨label, name⟩ ∧
        m.state.frame? label = some f ∧ v = ⟨name, value, a, cell.type⟩ := by
  unfold Machine.pendingVariable?
  constructor
  · intro h
    obtain ⟨cell, hcell, h⟩ := Option.bind_eq_some_iff.1 h
    obtain ⟨owner, howner, h⟩ := Option.bind_eq_some_iff.1 h
    obtain ⟨f, hf, h⟩ := Option.bind_eq_some_iff.1 h
    obtain ⟨rfl, rfl⟩ := Prod.mk.injEq .. ▸ Option.some.inj h
    exact ⟨cell, owner.name, f, hcell, howner, hf, rfl⟩
  · rintro ⟨cell, name, f, hcell, howner, hf, rfl⟩
    rw [hcell, howner]
    show (m.state.frame? label).bind _ = _
    rw [hf]
    rfl

theorem Machine.mem_heldBack {m : Machine} {label : String} {v : FrameVariable} :
    v ∈ m.heldBack label ↔
      ∃ a value, (a, value) ∈ m.writes ∧ m.pendingVariable? a value = some (label, v) := by
  unfold Machine.heldBack
  rw [List.mem_filterMap]
  constructor
  · rintro ⟨⟨a, value⟩, hmem, h⟩
    refine ⟨a, value, hmem, ?_⟩
    dsimp only at h
    split at h
    · next frame w hw =>
      split at h
      · next hframe =>
        obtain rfl := Option.some.inj h
        rw [hw, hframe]
      · cases h
    · cases h
  · rintro ⟨a, value, hmem, h⟩
    refine ⟨(a, value), hmem, ?_⟩
    dsimp only
    rw [h]
    exact if_pos rfl

/-- The changes of frames with one more held-back write. -/
def Machine.addPending (m : Machine) (frames : Table String FramePatch) (e : Number × Value) :
    Table String FramePatch :=
  match m.pendingVariable? e.1 e.2 with
  | some (frame, v) =>
    let known := ((frames.find? frame).map FramePatch.vars).getD []
    frames.put frame { action := .update, vars := known ++ [v] }
  | none => frames

theorem Machine.pendingFrames_eq (m : Machine) :
    m.pendingFrames = m.writes.foldl m.addPending [] := rfl

theorem Machine.pendingFrames_apart (m : Machine) : m.pendingFrames.Apart := by
  have hfold : ∀ (writes : Table Number Value) (frames : Table String FramePatch), frames.Apart →
      Table.Apart (writes.foldl m.addPending frames) := by
    intro writes
    induction writes with
    | nil => exact fun frames h => h
    | cons e writes ih =>
      intro frames h
      refine ih _ ?_
      unfold addPending
      split
      · exact Table.apart_put _ _ h
      · exact h
  exact hfold m.writes [] List.Pairwise.nil

/-- An update with some variables; without any there is none. -/
def updateOf (vars : List FrameVariable) : Option FramePatch :=
  if vars = [] then none else some { action := .update, vars := vars }

theorem updateOf_snoc (vars : List FrameVariable) (v : FrameVariable) :
    updateOf (vars ++ [v])
      = some { action := .update, vars := ((updateOf vars).map FramePatch.vars).getD [] ++ [v] } := by
  unfold updateOf
  rw [if_neg (by simp)]
  split
  · next h =>
    rw [h]
    rfl
  · rfl

/-- What is held back for a frame is an update with the variables that held-back writes change. -/
theorem Machine.find?_pendingFrames (m : Machine) (label : String) :
    m.pendingFrames.find? label = updateOf (m.heldBack label) := by
  rw [pendingFrames_eq]
  unfold heldBack
  generalize hpick : (fun e : Number × Value => match m.pendingVariable? e.1 e.2 with
    | some (frame, v) => if frame = label then some v else none
    | none => none) = pick
  -- the writes seen so far have been turned into an update
  have hfold : ∀ (writes : Table Number Value) (seen : List FrameVariable)
      (frames : Table String FramePatch), frames.find? label = updateOf seen →
      Table.find? (writes.foldl m.addPending frames) label
        = updateOf (seen ++ writes.filterMap pick) := by
    intro writes
    induction writes with
    | nil =>
      intro seen frames h
      rw [List.filterMap_nil, List.append_nil]
      exact h
    | cons e writes ih =>
      intro seen frames h
      rw [List.foldl_cons, addPending, List.filterMap_cons, ← hpick]
      dsimp only
      cases hv : m.pendingVariable? e.1 e.2 with
      | none =>
        rw [hpick]
        exact ih seen frames h
      | some found =>
        obtain ⟨frame, v⟩ := found
        rw [hpick]
        dsimp only
        by_cases hframe : frame = label
        · subst hframe
          have hput : Table.find? (frames.put frame
              { action := .update, vars := ((frames.find? frame).map FramePatch.vars).getD [] ++ [v] })
              frame = updateOf (seen ++ [v]) := by
            rw [Table.find?_put_of_beq (beq_self_eq_true _), h, updateOf_snoc]
          rw [if_pos rfl, ih (seen ++ [v]) _ hput, List.append_assoc, List.singleton_append]
        · rw [if_neg hframe]
          refine ih seen _ ?_
          rw [Table.find?_put_of_ne (by simpa using hframe)]
          exact h
  exact hfold m.writes [] [] rfl

end Stepwise
