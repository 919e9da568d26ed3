/-
The scripts that do not execute the program, side by side.

An outline is only shown, and the sequence of an allocation evaluates nothing but
the calls that print an element. Both are put together here, for any likeness,
from the steps they show and from the expressions they evaluate. What those come
to is left to those who use it: the sequence counts its elements out up to the
limit of a loop, so it can observe the settings.
-/
import Stepwise.Proofs.Parallel

set_option autoImplicit false

namespace Stepwise

/-- The stage of a sequence that is played under another setup. -/
def Allocation.Stage.under (s : Stage) (T : Setup) : Stage :=
  { s with setup := T }

namespace Setup.Kindred

variable {S T : Setup}

theorem returnLine (h : S.Kindred T) (statements : List Stmt) :
    T.analysis.returnLine statements = S.analysis.returnLine statements := by
  unfold Analysis.returnLine
  rw [h.lastLine]

end Setup.Kindred

namespace Parallel

variable {L : Likeness Machine} {S T : Setup}

theorem outline_alike (hST : S.Kindred T)
    (hemit : ∀ kind line description delta,
      L.rel (Run.emitDelta S kind line description delta)
        (Run.emitDelta T kind line description delta)) :
    L.rel (Outline.run S) (Outline.run T) := by
  unfold Outline.run Outline.ofFunction
  rw [hST.main?]
  simp only [hST.returnLine]
  split
  · exact L.bind (hemit _ _ _ _) fun _ => L.bind (L.forM fun _ _ => hemit _ _ _ _) fun _ =>
      hemit _ _ _ _
  · exact hemit _ _ _ _

/-! ## The sequence of an allocation -/

theorem blockSize_usual (p : Allocation.Plan) (elementSize : Int) :
    Usual (Allocation.blockSize p elementSize) := by
  unfold Allocation.blockSize
  rw [usual_bind]
  refine ⟨by simp, fun v _ => ?_⟩
  split <;> simp

open Allocation

section Stage

variable {s : Stage}

theorem printElement_alike
    (houtput : ∀ kind line description output,
      L.rel (Run.emitDelta s.setup kind line description { output := output })
        (Run.emitDelta T kind line description { output := output }))
    (heval : ∀ scope e, L.rel (evaluateWith s.setup (callAt s.setup noCommentary 1) scope e)
      (evaluateWith T (callAt T noCommentary 1) scope e))
    (i : Nat) (value : Value) :
    L.rel (s.printElement i value) ((s.under T).printElement i value) := by
  have hprinter : (s.under T).plan.printer? = s.plan.printer? := rfl
  unfold Stage.printElement
  rw [hprinter]
  split
  · exact houtput _ _ _ _
  · exact L.bind (heval _ _) fun _ => houtput _ _ _ _

theorem fillElement_alike {i : Nat}
    (hvalue : L.rel (Eval.lift (s.plan.elementValue s.setup.analysis i))
      (Eval.lift (s.plan.elementValue T.analysis i)))
    (helement : ∀ kind line description cell,
      L.rel (Run.emitDelta s.setup kind line description
          { memory := [(.int (s.block + i * s.elementSize), cell)] })
        (Run.emitDelta T kind line description
          { memory := [(.int (s.block + i * s.elementSize), cell)] })) :
    L.rel (s.fillElement i) ((s.under T).fillElement i) :=
  L.bind hvalue fun _ => L.bind (helement _ _ _ _) fun _ => L.pure _

/-- The elements are filled and printed alike, if they are counted and warned of alike. -/
theorem fillAndPrint_alike
    (hcount : L.rel (Eval.lift (s.plan.shownCount s.setup.settings.maxLoopIterations))
      (Eval.lift (s.plan.shownCount T.settings.maxLoopIterations)))
    (hfill : ∀ i, L.rel (s.fillElement i) ((s.under T).fillElement i))
    (hprint : ∀ i value,
      L.rel (s.printElement i value) ((s.under T).printElement i value))
    (hwarn : ∀ loop other,
      L.rel (s.warnOfLimit loop other) ((s.under T).warnOfLimit loop other)) :
    L.rel s.fillAndPrint (s.under T).fillAndPrint :=
  L.bind hcount fun _ => L.bind (L.mapM fun i _ => hfill i) fun _ => L.bind (hwarn _ _) fun _ =>
    L.bind (L.forM fun _ _ => hprint _ _) fun _ => hwarn _ _

theorem clear_alike
    (hemit : ∀ kind line description delta,
      L.rel (Run.emitDelta s.setup kind line description delta)
        (Run.emitDelta T kind line description delta)) :
    L.rel s.clear (s.under T).clear := by
  have hfind : (assignments (s.under T).plan.main.exprs).find?
      (s.under T).clears = (assignments s.plan.main.exprs).find? s.clears := rfl
  unfold Stage.clear
  rw [hfind]
  split
  · exact L.pure _
  · exact hemit _ _ _ _

/-- From the reservation on, the sequence does alike if elements are filled and printed alike. -/
theorem rest_alike (hST : s.setup.Kindred T)
    (hemit : ∀ kind line description delta,
      L.rel (Run.emitDelta s.setup kind line description delta)
        (Run.emitDelta T kind line description delta))
    (hactivate : ∀ f : List String → List String,
      L.rel (Run.change fun m => { m with active := f m.active })
        (Run.change fun m => { m with active := f m.active }))
    (hfillAndPrint : L.rel s.fillAndPrint (s.under T).fillAndPrint) :
    L.rel (do s.reserve; s.check; s.fillAndPrint; s.free; s.clear; s.leave)
      (do
        (s.under T).reserve
        (s.under T).check
        (s.under T).fillAndPrint
        (s.under T).free
        (s.under T).clear
        (s.under T).leave) := by
  refine L.bind (hemit _ _ _ _) fun _ => L.bind (hemit _ _ _ _) fun _ =>
    L.bind hfillAndPrint fun _ => L.bind ?_ fun _ => L.bind (clear_alike hemit) fun _ => ?_
  · exact L.bind (hemit _ _ _ _) fun _ => hemit _ _ _ _
  · unfold Stage.leave
    rw [show (s.under T).setup.analysis.returnLine = s.setup.analysis.returnLine from
      funext hST.returnLine]
    exact L.bind (hemit _ _ _ _) fun _ => hactivate List.tail

end Stage

/-- The plan is read off alike: what comes after it does alike if it does for the plan that is read
off. -/
def PlansAlike (L : Likeness Machine) (S T : Setup) : Prop :=
  ∀ main {k l : Plan → Run Unit},
    (∀ p, plan S.analysis main = .ok p → L.rel (k p) (l p)) →
      L.rel (Eval.lift (plan S.analysis main) >>= k) (Eval.lift (plan T.analysis main) >>= l)

/-- The lines that the sequence of the main function finds are the same. -/
def LinesAlike (a a' : Analysis) : Prop :=
  ∀ main, a.main? = some main → ∀ p, plan a main = .ok p → lines a' p = lines a p

/-- A plan that is the same is read off alike, unless the fault is not. -/
theorem plans_alike (h : ∀ main, plan T.analysis main = plan S.analysis main)
    (herror : ∀ main fault, plan S.analysis main = .error fault →
      L.rel (Eval.fail fault : Run Unit) (Eval.fail fault)) : PlansAlike L S T := by
  intro main k l hk
  rw [h]
  cases hplan : plan S.analysis main with
  | error fault => exact herror main fault hplan
  | ok p => exact hk p hplan

/-- The sequence does alike, if the plan is read off alike, its variables are declared alike, and
elements are filled and printed alike. -/
theorem allocation_alike
    (hST : S.Kindred T)
    (hemit : ∀ kind line description delta,
      L.rel (Run.emitDelta S kind line description delta)
        (Run.emitDelta T kind line description delta))
    (hactivate : ∀ f : List String → List String,
      L.rel (Run.change fun m => { m with active := f m.active })
        (Run.change fun m => { m with active := f m.active }))
    (hdeclare : ∀ frame name type line value description address,
      L.rel (declareAt S frame name type line value description address)
        (declareAt T frame name type line value description address))
    (hstack : T.settings.stackBase = S.settings.stackBase)
    (hheap : T.settings.heapBase = S.settings.heapBase)
    (hplan : PlansAlike L S T) (hlines : LinesAlike S.analysis T.analysis)
    (hfillAndPrint : ∀ s : Stage, s.setup = S →
      L.rel s.fillAndPrint (s.under T).fillAndPrint) :
    L.rel (Allocation.run S) (Allocation.run T) := by
  have hpointer : ∀ p : Plan,
      L.rel (declarePointer S p) (declarePointer T p) := by
    intro p
    unfold declarePointer
    rw [hstack, hheap]
    exact L.bind (L.lift (by simp)) fun _ => L.bind (hdeclare _ _ _ _ _ _ _) fun _ => L.pure _
  have hcounter : ∀ cursor c,
      L.rel (declareCounter S cursor c) (declareCounter T cursor c) :=
    fun _ _ => L.bind (L.lift (by simp)) fun _ => hdeclare _ _ _ _ _ _ _
  unfold Allocation.run
  rw [hST.main?]
  split
  · exact L.fail _ (by simp)
  · next main hmain =>
    unfold play
    rw [hST.sizes, hheap]
    -- the plan, the call, the two declarations and the size, in the order of the sequence
    refine hplan main fun p hp => L.bind (L.lift (by simp)) fun elementSize =>
      L.bind (hactivate ("main" :: ·)) fun _ => L.bind (hpointer p) fun placed =>
        L.bind (L.forM_option fun c _ => hcounter _ c) fun _ =>
          L.bind (L.lift (blockSize_usual p elementSize)) fun size => ?_
    rw [hlines main hmain p hp]
    exact rest_alike
      (s := ⟨S, p, lines S.analysis p, elementSize, size, placed.1, S.settings.heapBase⟩)
      hST hemit hactivate (hfillAndPrint _ rfl)

/-! ## Every script -/

/-- Every script does alike, if the program's functions are invoked alike, and the sequence of an
allocation is planned and its elements are shown alike. -/
theorem script_alike (hL : L.Plays S T)
    (heval : ∀ (category : Category) e,
      L.rel (evaluateWith S (callAt S category.commentary 0) [] e)
        (evaluateWith T (callAt T category.commentary 0) [] e))
    (hinvoke : ∀ (category : Category) f, S.analysis.program.function? f.name = some f →
      ∀ arguments line, L.rel (invoke S category.commentary S.settings.calls f [] arguments line)
        (invoke T category.commentary T.settings.calls f [] arguments line))
    (hkeyboard : T.settings.keyboard = S.settings.keyboard)
    (hstack : T.settings.stackBase = S.settings.stackBase)
    (hheap : T.settings.heapBase = S.settings.heapBase)
    (hdirectives : L.rel (Stepwise.Remark.directives S) (Stepwise.Remark.directives T))
    (hplan : PlansAlike L S T)
    (hfillAndPrint : ∀ s : Stage, s.setup = S → L.rel s.fillAndPrint (s.under T).fillAndPrint)
    {category : Category} (hlines : category = .dynamicAllocation → LinesAlike S.analysis T.analysis) :
    L.rel (category.play S) (category.play T) := by
  by_cases hexec : category.executes = true
  · refine play_alike hL.toExecutes hkeyboard hexec hdirectives
      (fun line description => hL.emitDelta .warning line description {}) ?_
    exact runMain_alike hL.toExecutes hL.declareGlobal (heval category) (hinvoke category)
  · cases category with
    | generic => exact outline_alike hL.kindred hL.emitDelta
    | dynamicAllocation =>
      exact allocation_alike hL.kindred hL.emitDelta hL.activate hL.declareAt hstack hheap hplan
        (hlines rfl) hfillAndPrint
    | _ => exact absurd rfl hexec

end Parallel

end Stepwise
