/-
One program under two bounds on nestings.

Two executions of a program are held against each other here that differ at most in
how many macros may be expanded inside each other, and how many structs may be nested.
They *agree* if they do the same in every state, and if the fault is tolerated that
they stop with. The usual faults are always tolerated. Which others are depends on
what is to be shown: that no nesting meets its bound, or, of an execution that is held
against itself, which faults it can stop with at all.

Little depends on the bounds: what is behind the macros of an expression, and which
cells an object has. Where these agree, so do all scripts of the program, if besides
the directives are tolerated that stand where a statement is needed.
-/
import Stepwise.Proofs.Operations
import Stepwise.Trace

set_option autoImplicit false

namespace Stepwise

/-- Faults that are tolerated, the usual ones among them. -/
structure Tolerance where
  /-- The fault is tolerated. -/
  allows : Fault → Prop
  usual : ∀ fault, fault.IsUsual → allows fault

/-- Only a nesting that has no end is not tolerated. -/
def Tolerance.finite : Tolerance where
  allows fault := fault ≠ .endless
  usual _ h := h.1

/-! ## Results -/

section Results

variable {F : Tolerance} {α β : Type}

/-- The two results are the same, and a fault is tolerated. -/
def Agrees (F : Tolerance) (r r' : Except Fault α) : Prop :=
  r = r' ∧ ∀ fault, r = .error fault → F.allows fault

namespace Agrees

theorem refl {r : Except Fault α} (h : Usual r) : Agrees F r r :=
  ⟨rfl, fun fault hr => F.usual fault (h fault hr)⟩

theorem error {fault : Fault} (h : F.allows fault) :
    Agrees F (.error fault : Except Fault α) (.error fault) := by
  refine ⟨rfl, ?_⟩
  rintro _ ⟨⟩
  exact h

theorem bind {r r' : Except Fault α} {k k' : α → Except Fault β} (h : Agrees F r r')
    (hk : ∀ a, r = .ok a → Agrees F (k a) (k' a)) : Agrees F (r >>= k) (r' >>= k') := by
  obtain ⟨rfl, hallowed⟩ := h
  cases r with
  | error fault => exact .error (hallowed fault rfl)
  | ok a => exact hk a rfl

theorem foldlM {items : List α} {f g : β → α → Except Fault β}
    (h : ∀ acc, ∀ x ∈ items, Agrees F (f acc x) (g acc x)) (acc : β) :
    Agrees F (items.foldlM f acc) (items.foldlM g acc) := by
  induction items generalizing acc with
  | nil => exact .refl (usual_pure acc)
  | cons x items ih =>
    rw [List.foldlM_cons, List.foldlM_cons]
    exact (h acc x List.mem_cons_self).bind fun acc' _ =>
      ih (fun acc y hy => h acc y (List.mem_cons_of_mem x hy)) acc'

theorem mapM {items : List α} {f g : α → Except Fault β}
    (h : ∀ x ∈ items, Agrees F (f x) (g x)) : Agrees F (items.mapM f) (items.mapM g) := by
  induction items with
  | nil => exact .refl (usual_pure _)
  | cons x items ih =>
    rw [List.mapM_cons, List.mapM_cons]
    exact (h x List.mem_cons_self).bind fun _ _ =>
      (ih fun y hy => h y (List.mem_cons_of_mem x hy)).bind fun _ _ => .refl (usual_pure _)

end Agrees

end Results

/-- The two computations do the same in every state, and their faults are tolerated. -/
def Likeness.agreeing (F : Tolerance) (σ : Type) : Likeness σ where
  rel c d := ∀ s, Agrees F (c s) (d s)
  pure _ _ := .refl (usual_ok _)
  fail _ hfault _ := .refl (usual_error.2 hfault)
  bind hc hk s := (hc s).bind fun p _ => hk p.1 p.2

section Computations

variable {F : Tolerance} {σ α : Type}

theorem lift_agrees {r r' : Except Fault α} (h : Agrees F r r') :
    (Likeness.agreeing F σ).rel (Eval.lift r) (Eval.lift r') := by
  obtain ⟨rfl, hallowed⟩ := h
  cases r with
  | error fault => exact fun _ => .error (hallowed fault rfl)
  | ok a => exact (Likeness.agreeing F σ).pure a

theorem fail_agrees {fault : Fault} (h : F.allows fault) :
    (Likeness.agreeing F σ).rel (Eval.fail fault : Eval σ α) (Eval.fail fault) :=
  lift_agrees (.error h)

end Computations

/-! ## Constant expressions -/

/-- Expressions are evaluated alike under both bounds, whatever they are evaluated with. -/
def Macros.Agree (F : Tolerance) (macros : Macros) (spare spare' : Nat) : Prop :=
  ∀ {σ : Type} {h g : Host σ}, h.macros = macros → h.Alike (.agreeing F σ) g → ∀ scope e,
    (Likeness.agreeing F σ).rel (evaluate h spare scope e) (evaluate g spare' scope e)

/-- Under one and the same bound they are, if it is tolerated that the bound is met. -/
theorem Macros.agree_self {F : Tolerance} (hendless : F.allows .endless) (macros : Macros)
    (spare : Nat) : macros.Agree F spare spare :=
  fun _ hhost scope e => evaluate_alike (fail_agrees hendless) hhost spare scope e

section Constants

variable {F : Tolerance} {macros : Macros} {spare spare' : Nat}
  (hmacros : macros.Agree F spare spare')

include hmacros

theorem evalConstant_agrees (sizes : StructSizes) (bound : Scope) (e : Expr) :
    Agrees F (evalConstant macros sizes bound e spare)
      (evalConstant macros sizes bound e spare') := by
  let L := Likeness.agreeing F Unit
  have hhost : (constantHost macros sizes).Alike L (constantHost macros sizes) :=
    { members := fun _ => L.lift (usual_ok _)
      sizes := rfl
      macros := rfl
      find := fun _ => L.pure _
      read := fun _ => L.fail _ (by simp)
      write := fun _ _ => L.fail _ (by simp)
      call := fun _ _ _ _ _ => L.fail _ (by simp)
      noteMacro := fun _ _ _ _ => L.pure _ }
  obtain ⟨hsame, hallowed⟩ := hmacros rfl hhost bound.apart e ()
  unfold evalConstant
  rw [← hsame]
  split
  · exact .refl (usual_ok _)
  · next fault heq => exact .error (hallowed fault heq)

theorem constantValue_agrees (sizes : StructSizes) (e : Expr) :
    Agrees F (constantValue macros sizes e spare) (constantValue macros sizes e spare') :=
  (evalConstant_agrees hmacros sizes [] e).bind fun _ _ => .refl (usual_pure _)

/-- The layouts of structs do not depend on what there is to spare. -/
theorem layouts_agree (p : Program) :
    Agrees F (p.layouts spare macros) (p.layouts spare' macros) := by
  have htype : ∀ (sizes : StructSizes) (declared : CType) (v : Variable),
      Agrees F (v.fullType declared fun e => constantValue macros sizes e spare)
        (v.fullType declared fun e => constantValue macros sizes e spare') := by
    intro sizes declared v
    unfold Variable.fullType
    dsimp only
    split
    · exact .refl (usual_pure _)
    · exact .refl (usual_pure _)
    · exact (constantValue_agrees hmacros sizes _).bind fun _ _ => .refl (usual_pure _)
  have hplace : ∀ (placed : Layout.Partial) (sizes : StructSizes) (name : String) (type : CType),
      Usual (placed.place sizes name type) := by
    intro placed sizes name type
    simp [Layout.Partial.place]
  refine .foldlM (fun layouts s _ => ?_) []
  refine .bind ?_ fun _ _ => .refl (usual_pure _)
  refine .bind ?_ fun _ _ => .refl (usual_pure _)
  exact .foldlM (fun placed field _ => (htype _ _ _).bind fun type _ => .refl (hplace _ _ _ _)) {}

end Constants

/-! ## Cells of objects -/

/-- Objects have the same cells under both bounds. -/
def Layouts.Agree (F : Tolerance) (layouts : Layouts) (spare spare' : Nat) : Prop :=
  ∀ name type address value, Agrees F (objectCells spare layouts name type address value)
    (objectCells spare' layouts name type address value)

/-- Under one and the same bound they have, if it is tolerated that the bound is met. The induction
is on the bound. -/
theorem cellsWithin_self {F : Tolerance} (hendless : F.allows .endless) (layouts : Layouts)
    (depth : Nat) (name : String) (type : CType) (address : Int) (value : Value) :
    Agrees F (cellsWithin layouts depth name type address value)
      (cellsWithin layouts depth name type address value) := by
  induction depth generalizing name type address value with
  | zero => exact .error hendless
  | succ depth ih =>
    rw [cellsWithin]
    split
    · refine .bind (.refl (by simp)) fun members _ => .foldlM (fun cells member _ => ?_) []
      exact .bind (ih _ _ _ _) fun _ _ => .refl (usual_pure _)
    · split
      · refine .bind (.refl (by simp)) fun element _ => .bind (.refl (by simp)) fun isText _ => ?_
        split
        · exact .refl (by simp)
        · refine .bind (.refl (by simp)) fun size _ => .bind (.refl (by simp)) fun length _ => ?_
          refine .foldlM (fun cells i _ => .bind (.refl (by simp)) fun item _ => ?_) []
          exact .bind (ih _ _ _ _) fun _ _ => .refl (usual_pure _)
      · exact .refl (by simp)

theorem Layouts.agree_self {F : Tolerance} (hendless : F.allows .endless) (layouts : Layouts)
    (spare : Nat) : layouts.Agree F spare spare :=
  fun name type address value => cellsWithin_self hendless layouts _ name type address value

/-! ## The machine -/

/-- Computations of the machine that do the same, and whose faults are tolerated. -/
abbrev steady (F : Tolerance) : Likeness Machine :=
  .agreeing F Machine

namespace Run

variable {F : Tolerance} {α : Type}

theorem ask_agrees (f : Machine → α) : (steady F).rel (ask f) (ask f) :=
  fun _ => .refl (usual_ok _)

theorem change_agrees (f : Machine → Machine) : (steady F).rel (change f) (change f) :=
  fun _ => .refl (usual_ok _)

theorem query_agrees {f : Machine → Except Fault α} (h : ∀ m, Usual (f m)) :
    (steady F).rel (query f) (query f) := by
  refine fun m => .refl fun fault hfault => h m fault ?_
  unfold query at hfault
  split at hfault
  · cases hfault
  · next heq => rw [heq, Except.error.inj hfault]

theorem attempt_agrees {f : Machine → Except Fault Machine} (h : ∀ m, Usual (f m)) :
    (steady F).rel (attempt f) (attempt f) := by
  refine fun m => .refl fun fault hfault => h m fault ?_
  unfold attempt at hfault
  split at hfault
  · cases hfault
  · next heq => rw [heq, Except.error.inj hfault]

theorem allocateStack_agrees (size : Int) :
    (steady F).rel (allocateStack size) (allocateStack size) := by
  refine fun m => .refl fun fault hfault => m.cursor.stack_usual size fault ?_
  unfold allocateStack at hfault
  split at hfault
  · cases hfault
  · next heq => rw [heq, Except.error.inj hfault]

theorem allocateHeap_agrees (size : Int) :
    (steady F).rel (allocateHeap size) (allocateHeap size) :=
  fun _ => .refl (usual_ok _)

theorem write_agrees (address value : Value) :
    (steady F).rel (write address value) (write address value) :=
  attempt_agrees fun m => m.write_usual address value

theorem emitDelta_agrees (setup : Setup) (kind : StepKind) (line : Int) (description : String)
    (delta : Delta) : (steady F).rel (emitDelta setup kind line description delta)
      (emitDelta setup kind line description delta) :=
  attempt_agrees fun m => m.emit_usual _ _ _ _

end Run

/-! ## Execution -/

/-- What depends on the bounds agrees, and the program may stop at a directive that stands where a
statement is needed. -/
structure Setup.Steady (F : Tolerance) (S : Setup) (spare : Nat) : Prop where
  macros : S.analysis.macros.Agree F S.analysis.spare spare
  layouts : S.analysis.layouts.Agree F S.analysis.spare spare
  strays : ∀ d ∈ S.analysis.program.strays, F.allows (.directiveAsBody d.line)

namespace Setup.Steady

variable {F : Tolerance} {S : Setup} {spare : Nat} (hS : S.Steady F spare)

include hS

theorem operates : (steady F).Operates S (S.revised spare S.settings) where
  kindred := S.kindred_revised spare S.settings
  settings := rfl
  ask f _ := Run.ask_agrees f
  query _ h _ := Run.query_agrees h
  change f _ := Run.change_agrees f
  write := Run.write_agrees
  allocateStack := Run.allocateStack_agrees
  allocateHeap := Run.allocateHeap_agrees
  emitDelta := Run.emitDelta_agrees S
  objectCells _ _ _ _ := lift_agrees (hS.layouts _ _ _ _)

theorem plays : (steady F).Plays S (S.revised spare S.settings) :=
  Operations.plays hS.operates

theorem evaluates : EvaluatesAlike (steady F) S (S.revised spare S.settings) := by
  intro call call' hcall scope e
  exact hS.macros rfl (Parallel.machineHost_alike hS.plays.toActs rfl hcall) scope e

theorem invoke_agrees (category : Category) (budget : Nat) {f : Function}
    (hf : S.analysis.program.function? f.name = some f) (scope : Scope) (arguments : List Typed)
    (line : Nat) :
    (steady F).rel (invoke S category.commentary budget f scope arguments line)
      (invoke (S.revised spare S.settings) category.commentary budget f scope arguments line) := by
  have hzero : ∀ f scope arguments line,
      (steady F).rel (invoke S category.commentary 0 f scope arguments line)
        (invoke (S.revised spare S.settings) category.commentary 0 f scope arguments line) :=
    fun f _ _ _ => (steady F).fail (.callDepth S.settings.maxCallDepth f.name) (by simp)
  exact Parallel.invoke_alike hS.plays (Parallel.commentary_alike hS.plays.toExecutes category)
    hS.evaluates (fun d hd => fail_agrees (hS.strays d hd)) hzero budget hf scope arguments line

theorem call_agrees (category : Category) (active : Nat) (scope : Scope) (name : String)
    (arguments : List Typed) (line : Nat) :
    (steady F).rel (callAt S category.commentary active scope name arguments line)
      (callAt (S.revised spare S.settings) category.commentary active scope name arguments line) :=
  Parallel.callBy_alike hS.plays.toActs fun _ hf =>
    hS.invoke_agrees category _ (Parallel.function?_name hf) _ _ _

end Setup.Steady

/-! ## The sequence of an allocation -/

namespace Allocation

theorem counter?_usual (declared : List Declared) : Usual (counter? declared) := by
  unfold counter?
  split <;> simp

theorem requested_usual (callee : String) (values : List Value) :
    Usual (requested callee values) := by
  unfold requested
  split
  · simp
  · split
    · split <;> simp
    · simp

theorem shownCount_usual (p : Plan) (limit : Int) : Usual (p.shownCount limit) := by
  unfold Plan.shownCount
  split
  · split
    · simp
    · split <;> simp
  · simp

section Plan

variable {F : Tolerance} {a : Analysis} {spare : Nat} (ha : a.macros.Agree F a.spare spare)

include ha

theorem countOf_agrees (bound : Scope) (element : CType) (c : Call) :
    Agrees F (countOf a bound element c) (countOf { a with spare := spare } bound element c) := by
  refine .bind (.mapM fun e _ => ?_) fun values _ => .refl ?_
  · exact (evalConstant_agrees ha _ _ _).bind fun _ _ => .refl (usual_pure _)
  · exact usual_bind.2 ⟨requested_usual _ _, fun total _ => by simp⟩

/-- The plan is the same whatever there is to spare. -/
theorem plan_agrees (main : Function) :
    Agrees F (plan a main) (plan { a with spare := spare } main) := by
  refine .bind (.refl (counter?_usual _)) fun counter _ => ?_
  dsimp only
  split
  · exact .refl (by simp)
  · next c _ =>
    rw [← (countOf_agrees ha _ _ c).1]
    split
    · exact .refl (by simp)
    · next fault hfault =>
      split
      · exact .refl (by simp)
      · exact .error ((countOf_agrees ha _ _ c).2 fault hfault)

theorem elementValue_agrees (p : Plan) (i : Nat) :
    Agrees F (p.elementValue a i) (p.elementValue { a with spare := spare } i) := by
  unfold Plan.elementValue
  dsimp only
  split
  · next fill loop _ _ =>
    have hsizes : ({ a with spare := spare } : Analysis).sizes = a.sizes := rfl
    have hvalue := evalConstant_agrees ha
    rw [hsizes, ← (hvalue _ _ fill.value).1]
    split
    · exact .refl (usual_ok _)
    · next fault hfault =>
      split
      · exact .refl (usual_ok _)
      · exact .error ((hvalue _ _ fill.value).2 fault hfault)
  · exact .refl (usual_ok _)

end Plan

theorem fillAndPrint_agrees {F : Tolerance} {s : Stage} {spare : Nat}
    (hs : s.setup.Steady F spare) :
    (steady F).rel s.fillAndPrint
      (s.under (s.setup.revised spare s.setup.settings)).fillAndPrint := by
  refine Parallel.fillAndPrint_alike ((steady F).lift (shownCount_usual _ _)) (fun i => ?_) ?_
    fun loop other => ?_
  · exact Parallel.fillElement_alike (lift_agrees (elementValue_agrees hs.macros s.plan i))
      fun _ _ _ _ => Run.emitDelta_agrees s.setup _ _ _ _
  · refine Parallel.printElement_alike (fun _ _ _ _ => Run.emitDelta_agrees s.setup _ _ _ _) ?_
    exact hs.evaluates _ _ (hs.call_agrees .dynamicAllocation 1)
  · exact (steady F).ite (fun _ => Run.emitDelta_agrees s.setup _ _ _ _) fun _ => (steady F).pure _

end Allocation

/-! ## Traces -/

theorem script_agrees {F : Tolerance} {S : Setup} {spare : Nat} (hS : S.Steady F spare)
    (category : Category) :
    (steady F).rel (category.play S) (category.play (S.revised spare S.settings)) := by
  refine Parallel.script_alike hS.plays
    (fun category => hS.evaluates _ _ (hS.call_agrees category 0) [])
    (fun category f hf => hS.invoke_agrees category _ hf []) rfl rfl rfl
    (Parallel.Remark.directives_alike hS.plays.toExecutes rfl rfl)
    (Parallel.plans_alike (fun main => (Allocation.plan_agrees hS.macros main).1.symm)
      fun main fault hfault => fail_agrees ((Allocation.plan_agrees hS.macros main).2 fault hfault))
    ?_ fun _ _ _ _ _ => rfl
  rintro s rfl
  exact Allocation.fillAndPrint_agrees hS

/-- The trace of a program that has been analyzed. -/
def Setup.trace (S : Setup) : Trace :=
  match S.analysis.category.play S (Machine.start S.settings) with
  | .error fault =>
    Trace.failed S.settings S.analysis.tokens (some S.analysis.category) fault
  | .ok (_, m) => Trace.completed S.analysis.tokens S.analysis.category m

theorem Setup.trace_agrees {F : Tolerance} {S : Setup} {spare : Nat} (hS : S.Steady F spare) :
    S.trace = (S.revised spare S.settings).trace ∧
      ∀ fault, S.trace.fault = some fault → F.allows fault := by
  obtain ⟨hsame, hallowed⟩ :=
    script_agrees hS S.analysis.category (Machine.start S.settings)
  have hcategory : (S.revised spare S.settings).analysis.category = S.analysis.category := rfl
  have hsettings : (S.revised spare S.settings).settings = S.settings := rfl
  have htokens : (S.revised spare S.settings).analysis.tokens = S.analysis.tokens := rfl
  constructor
  · unfold trace
    rw [hcategory, hsettings, htokens, ← hsame]
  · intro fault hfault
    unfold trace at hfault
    split at hfault
    · next other hother =>
      obtain rfl := Option.some.inj hfault
      exact hallowed other hother
    · cases hfault

/-- A trace is made once the structs are laid out. -/
theorem Program.trace_eq (p : Program) (source : String) (tokens : List Token)
    (settings : Settings) (spare : Nat) :
    p.trace source tokens settings spare =
      match p.layouts spare (p.macros (Text.lines source)) with
      | .error fault => Trace.failed settings tokens none fault
      | .ok layouts =>
        Setup.trace ⟨⟨p, source, tokens, Text.lines source, p.macros (Text.lines source), layouts,
          spare⟩, settings⟩ := by
  unfold Program.trace analyze Setup.trace
  dsimp only
  cases p.layouts spare (p.macros (Text.lines source)) with
  | error fault => rfl
  | ok layouts => rfl

/-- **Traces under two bounds are the same, and their faults are tolerated**, where macros and cells
agree and the directives are tolerated that stand where a statement is needed. -/
theorem Program.trace_agrees {F : Tolerance} {p : Program} {source : String} {spare spare' : Nat}
    (hmacros : (p.macros (Text.lines source)).Agree F spare spare')
    (hlayouts : ∀ layouts, p.layouts spare (p.macros (Text.lines source)) = .ok layouts →
      layouts.Agree F spare spare')
    (hstrays : ∀ d ∈ p.strays, F.allows (.directiveAsBody d.line)) (tokens : List Token)
    (settings : Settings) :
    p.trace source tokens settings spare = p.trace source tokens settings spare' ∧
      ∀ fault, (p.trace source tokens settings spare).fault = some fault → F.allows fault := by
  obtain ⟨hsame, hallowed⟩ := layouts_agree hmacros p
  rw [Program.trace_eq, Program.trace_eq, ← hsame]
  cases hlaid : p.layouts spare (p.macros (Text.lines source)) with
  | error fault =>
    refine ⟨rfl, fun other hother => ?_⟩
    obtain rfl := Option.some.inj hother
    exact hallowed fault hlaid
  | ok layouts => exact Setup.trace_agrees ⟨hmacros, hlayouts layouts hlaid, hstrays⟩

end Stepwise
