/-
The machine's own operations, side by side.

What a program does comes down to a few operations of the machine: it is asked
something, it is changed without a step, it reserves room, or it shows a step. Where
those are alike under two setups with the same settings, so are the functions of the
library, declarations, and calls that are entered and left; so programs are played
alike as soon as expressions are evaluated alike.
-/
import Stepwise.Proofs.Sequence

set_option autoImplicit false

namespace Stepwise

/-- A change of a machine leaves the steps it has shown alone, and adds to the journal without looking
at it. -/
def Machine.Unrecording (f : Machine → Machine) : Prop :=
  ∀ m, ∃ events, ∀ steps journal,
    f { m with steps := steps, journal := journal }
      = { f m with steps := steps, journal := events ++ journal }

/-- Most changes leave the journal alone, too. -/
theorem Machine.Unrecording.quiet {f : Machine → Machine}
    (h : ∀ m steps journal, f { m with steps := steps, journal := journal }
      = { f m with steps := steps, journal := journal }) : Unrecording f :=
  fun m => ⟨[], h m⟩

/-- The operations that everything else is made of do alike under both setups. -/
structure Likeness.Operates (L : Likeness Machine) (S T : Setup) : Prop where
  kindred : S.Kindred T
  settings : T.settings = S.settings
  ask : ∀ {α : Type} (f : Machine → α), Machine.Unrecorded f → L.rel (Run.ask f) (Run.ask f)
  query : ∀ {α : Type} (f : Machine → Except Fault α), (∀ m, Usual (f m)) → Machine.Unrecorded f →
    L.rel (Run.query f) (Run.query f)
  change : ∀ f, Machine.Unrecording f → L.rel (Run.change f) (Run.change f)
  write : ∀ address value, L.rel (Run.write address value) (Run.write address value)
  allocateStack : ∀ size, L.rel (Run.allocateStack size) (Run.allocateStack size)
  allocateHeap : ∀ size, L.rel (Run.allocateHeap size) (Run.allocateHeap size)
  emitDelta : ∀ kind line description delta,
    L.rel (Run.emitDelta S kind line description delta)
      (Run.emitDelta T kind line description delta)
  objectCells : ∀ name type address value,
    L.rel (Eval.lift (objectCells S.analysis.spare S.analysis.layouts name type address value))
      (Eval.lift (objectCells T.analysis.spare T.analysis.layouts name type address value))

namespace Operations

variable {L : Likeness Machine} {S T : Setup} (hL : L.Operates S T)

include hL

/-! ## Library functions -/

theorem note_alike (text : String) : L.rel (Run.note text) (Run.note text) :=
  hL.change _ (.quiet fun _ _ _ => rfl)

namespace Library

open Stepwise.Library

omit hL in
theorem argument_alike (arguments : List Typed) (index : Nat) :
    L.rel (argument arguments index) (argument arguments index) := by
  unfold argument
  split
  · exact L.pure _
  · exact L.fail _ (by simp)

theorem textArgument_alike (arguments : List Typed) (index : Nat) :
    L.rel (textArgument arguments index) (textArgument arguments index) := by
  unfold textArgument
  split
  · exact hL.query _ (fun m => by simp) fun _ _ _ => rfl
  · exact L.fail _ (by simp)

theorem formatted_alike (arguments : List Typed) :
    L.rel (formatted arguments) (formatted arguments) := by
  unfold formatted
  split
  · exact hL.query _ (fun m => printf_usual m.textReader_usual _ _) fun _ _ _ => rfl
  · exact L.fail _ (by simp)

theorem output_alike (via text : String) : L.rel (output via text) (output via text) :=
  L.bind (hL.change _ fun _ => ⟨[.printed text], fun _ _ => rfl⟩) fun _ => note_alike hL _

omit hL in
theorem keyboardValue_usual (settings : Settings) (conversion : Char) (type : CType) :
    Usual (keyboardValue settings conversion type) := by
  unfold keyboardValue
  split
  · simp
  · split
    · simp
    · simp

omit hL in
theorem purpose_usual (mode : String) : Usual (purpose mode) := by
  unfold purpose
  split <;> simp

omit hL in
theorem readEnd_usual (stop position : Nat) (limit : Value) :
    Usual (readEnd stop position limit) := by
  unfold readEnd
  split
  · simp
  · dsimp only
    split
    · simp
    · split <;> simp
  · simp

theorem writeFile_alike (handle : Typed) (text via : String) :
    L.rel (writeFile handle text via) (writeFile handle text via) := by
  refine L.bind (hL.query _ (fun m => by simp) fun _ _ _ => rfl) fun found => ?_
  exact L.ite (fun _ => L.fail _ (by simp)) fun _ =>
    L.bind (hL.change _ (.quiet fun _ _ _ => rfl)) fun _ => note_alike hL _

theorem fopen_alike (arguments : List Typed) : L.rel (fopen arguments) (fopen arguments) := by
  refine L.bind (textArgument_alike hL _ _) fun name =>
    L.bind (textArgument_alike hL _ _) fun mode => L.bind (hL.ask _ fun _ _ _ => rfl) fun known => ?_
  refine L.ite (fun _ => ?_) fun _ => L.ite (fun _ => ?_) fun _ => ?_
  · exact L.bind (note_alike hL _) fun _ => L.pure _
  case' refine_2 => refine L.bind (hL.change _ (.quiet fun _ _ _ => rfl)) fun _ => ?_
  all_goals
    exact L.bind (hL.allocateHeap _) fun address =>
      L.bind (hL.change _ (.quiet fun _ _ _ => rfl)) fun _ =>
      L.bind (L.lift (purpose_usual mode)) fun _ => L.bind (note_alike hL _) fun _ => L.pure _

theorem fgets_alike (arguments : List Typed) : L.rel (fgets arguments) (fgets arguments) := by
  unfold fgets
  split
  · refine L.bind (hL.query _ (fun m => by simp) fun _ _ _ => rfl) fun found =>
      L.bind (hL.ask _ fun _ _ _ => rfl) fun content => ?_
    refine L.ite (fun _ => ?_) fun _ => ?_
    · exact L.bind (note_alike hL _) fun _ => L.pure _
    · exact L.bind (L.lift (readEnd_usual _ _ _)) fun stop =>
        L.bind (hL.change _ (.quiet fun _ _ _ => rfl)) fun _ => L.bind (hL.write _ _) fun _ =>
          L.bind (note_alike hL _) fun _ => L.pure _
  · exact L.fail _ (by simp)

/-- **Library functions do alike**, under the same settings. -/
theorem run_alike (settings : Settings) (f : LibraryFunction) (arguments : List Typed) :
    L.rel (f.run settings arguments) (f.run settings arguments) := by
  cases f with
  | printf =>
    exact L.bind (formatted_alike hL _) fun _ => L.bind (output_alike hL _ _) fun _ => L.pure _
  | puts =>
    exact L.bind (argument_alike _ _) fun _ =>
      L.bind (hL.query _ (fun m => by simp) fun _ _ _ => rfl) fun _ =>
        L.bind (output_alike hL _ _) fun _ => L.pure _
  | putchar =>
    refine L.bind (argument_alike _ _) fun a => ?_
    split
    · exact L.bind (L.lift (by simp)) fun _ => L.bind (output_alike hL _ _) fun _ => L.pure _
    · exact L.fail _ (by simp)
  | scanf =>
    refine L.bind (textArgument_alike hL _ _) fun format => L.bind ?_ fun _ => L.pure _
    -- each target is written and noted before the next one is read
    refine L.forM fun target _ => ?_
    exact L.bind (L.lift (by simp)) fun _ => L.bind (L.lift (keyboardValue_usual _ _ _)) fun _ =>
      L.bind (hL.write _ _) fun _ => L.bind (hL.ask _ fun _ _ _ => rfl) fun _ => note_alike hL _
  | strcpy =>
    exact L.bind (textArgument_alike hL _ _) fun _ => L.bind (argument_alike _ _) fun _ =>
      L.bind (hL.write _ _) fun _ => L.bind (hL.ask _ fun _ _ _ => rfl) fun _ =>
        L.bind (note_alike hL _) fun _ => L.pure _
  | strcat =>
    exact L.bind (textArgument_alike hL _ _) fun _ => L.bind (textArgument_alike hL _ _) fun _ =>
      L.bind (argument_alike _ _) fun _ => L.bind (hL.write _ _) fun _ =>
        L.bind (hL.ask _ fun _ _ _ => rfl) fun _ => L.bind (note_alike hL _) fun _ => L.pure _
  | strlen => exact L.bind (textArgument_alike hL _ _) fun _ => L.pure _
  | strcmp =>
    exact L.bind (textArgument_alike hL _ _) fun _ => L.bind (textArgument_alike hL _ _) fun _ =>
      L.pure _
  | fopen => exact fopen_alike hL arguments
  | fclose =>
    exact L.bind (argument_alike _ _) fun _ =>
      L.bind (hL.query _ (fun m => by simp) fun _ _ _ => rfl) fun _ =>
        L.bind (hL.change _ (.quiet fun _ _ _ => rfl)) fun _ =>
          L.bind (note_alike hL _) fun _ => L.pure _
  | fprintf =>
    exact L.bind (formatted_alike hL _) fun _ => L.bind (argument_alike _ _) fun _ =>
      L.bind (writeFile_alike hL _ _ _) fun _ => L.pure _
  | fputs =>
    exact L.bind (argument_alike _ _) fun _ => L.bind (textArgument_alike hL _ _) fun _ =>
      L.bind (writeFile_alike hL _ _ _) fun _ => L.pure _
  | fgets => exact fgets_alike hL arguments

end Library

/-! ## Execution -/

theorem acts : L.Acts S T where
  kindred := hL.kindred
  ask := hL.ask
  query := hL.query
  emit kind line description _ := hL.emitDelta kind line description {}
  write := hL.write
  library f arguments := by
    rw [hL.settings]
    exact Library.run_alike hL S.settings f arguments

theorem own_alike (type : CType) (address : Int) (frame name : String) :
    L.rel (own type address frame name) (own type address frame name) := by
  refine hL.change _ (.quiet fun m steps journal => ?_)
  unfold Machine.own
  split <;> rfl

theorem declareAt_alike (frame name : String) (type : CType) (line : Int) (value : Value)
    (description : String) (address : Int) :
    L.rel (declareAt S frame name type line value description address)
      (declareAt T frame name type line value description address) :=
  L.bind (hL.objectCells _ _ _ _) fun _ => L.bind (own_alike hL _ _ _ _) fun _ =>
    hL.emitDelta _ _ _ _

theorem declare_alike (frame name : String) (type : CType) (line : Int) (value : Value)
    (description : String) :
    L.rel (declare S frame name type line value description)
      (declare T frame name type line value description) := by
  unfold declare
  rw [hL.kindred.sizes]
  exact L.bind (L.lift (by simp)) fun _ => L.bind (hL.allocateStack _) fun _ =>
    L.bind (declareAt_alike hL _ _ _ _ _ _ _) fun _ => L.pure _

theorem executes : L.Executes S T where
  toActs := acts hL
  declare _ _ _ _ _ := L.bind (hL.ask _ fun _ _ _ => rfl) fun _ => declare_alike hL _ _ _ _ _ _
  loop {line check check' body body' update update'} hcheck hbody hupdate := by
    have hzero : L.rel (Loop.iterate S ⟨line, check, body, update⟩ 0)
        (Loop.iterate T ⟨line, check', body', update'⟩ 0) := by
      rw [Loop.iterate, Loop.iterate, hL.settings]
      exact L.bind (hL.emitDelta _ _ _ _) fun _ => L.pure _
    unfold Loop.runUnchecked
    rw [hL.settings]
    exact Parallel.iterate_alike hcheck hbody hupdate hzero S.settings.iterations

/-- The arguments of a call take the same cells. -/
theorem place_alike (frame : String) (arguments : List (Parameter × Typed))
    (cells : Table Number CellPatch) (vars : List FrameVariable) :
    L.rel (Invocation.place S frame arguments cells vars)
      (Invocation.place T frame arguments cells vars) := by
  induction arguments generalizing cells vars with
  | nil => exact L.pure _
  | cons argument arguments ih =>
    refine L.bind ?_ fun value => L.bind ?_ fun size => L.bind (hL.allocateStack _) fun address =>
      L.bind (hL.objectCells _ _ _ _) fun _ => L.bind (own_alike hL _ _ _ _) fun _ => ih _ _
    · rw [hL.kindred.layouts]
      exact Parallel.copyValue_alike (executes hL) _ _ _
    · rw [hL.kindred.sizes]
      exact L.lift (by simp)

theorem plays : L.Plays S T where
  toExecutes := executes hL
  emitDelta := hL.emitDelta
  activate _ := hL.change _ (.quiet fun _ _ _ => rfl)
  declareAt := declareAt_alike hL
  declareGlobal := declare_alike hL globalFrame
  enter _ _ _ _ :=
    L.bind (place_alike hL _ _ _ _) fun _ => L.bind (hL.emitDelta _ _ _ _) fun _ =>
      hL.change _ (.quiet fun _ _ _ => rfl)
  leave f _ flow := by
    have hresult : Usual (Invocation.result f flow.value?) := by
      unfold Invocation.result
      split <;> simp
    exact L.bind (hL.change _ (.quiet fun _ _ _ => rfl)) fun _ => L.bind (L.lift hresult) fun _ =>
      L.bind (hL.emitDelta _ _ _ _) fun _ => L.bind (hL.change _ (.quiet fun _ _ _ => rfl)) fun _ =>
        L.pure _

end Operations

end Stepwise
