/-
The frames against the memory in the sequence of an allocation.

The sequence of a program about dynamic allocation executes nothing but the calls
that print an element. It places its pointer and its counter by a cursor of its
own and leaves the machine's cursor at the base of the stack, so a function of the
program that is called in between puts its arguments over them. As long as no such
call is made, evaluation only acts, and every step of the sequence fits the books
up to the base of the heap: the two variables lie in front of it, and the elements
behind.
-/
import Stepwise.Proofs.Books

set_option autoImplicit false

namespace Stepwise

open Relation (ReflTransGen)

/-! ## Calls show -/

/-- No step puts on a frame other than that of the main function. -/
def CallsNone (steps : List Step) : Prop :=
  ∀ step ∈ steps, ∀ e ∈ step.delta.stack, e.2.action = .add → e.1 = "main"

theorem CallsNone.of_initial {steps more : List Step} (h : CallsNone more) (hinitial : steps <+: more) :
    CallsNone steps := by
  intro step hstep
  exact h step (hinitial.subset hstep)

theorem CallsNone.before_emit {m m' : Machine} {kind : StepKind} {line : Int} {description : String}
    {delta : Delta} (hnone : CallsNone m'.steps.toList)
    (h : m.emit kind line description delta = .ok m') : CallsNone m.steps.toList := by
  obtain ⟨state, _, rfl⟩ := Machine.emit_eq_ok.1 h
  rw [Array.toList_push] at hnone
  exact hnone.of_initial (List.prefix_append _ _)

/-- A call inside the main function has another label. -/
theorem label_ne_main {calls : List String} (hmain : "main" ∈ calls) (name : String) :
    Machine.label name (calls.count name) ≠ "main" := by
  unfold Machine.label
  split
  · next hcount =>
    rintro rfl
    exact List.count_eq_zero.1 hcount hmain
  · intro heq
    have hsign : '#' ∈ "main".toList := by
      rw [← heq]
      simp
    exact absurd hsign (by decide)

/-- The step that enters a function puts on a frame with the label of the call. -/
theorem enter_adds {setup : Setup} {f : Function} {frame : String} {arguments : List Typed}
    {line : Nat} {m m' : Machine} {u : Unit}
    (h : Invocation.enter setup f frame arguments line m = .ok (u, m')) :
    ∃ step ∈ m'.steps.toList, ∃ e ∈ step.delta.stack, e.2.action = .add ∧ e.1 = frame := by
  obtain ⟨cells, vars, m₁, description, m₂, _, hemit, rfl⟩ := Invocation.enter_cases h
  obtain ⟨step, hstep, hmem⟩ := Machine.emitted_patch hemit (List.pairwise_singleton _ _)
    (show (if frame == frame then some _ else none) = some _ from if_pos (beq_self_eq_true _))
  exact ⟨step, hstep, _, hmem, rfl, rfl⟩

/-- So does a whole call. -/
theorem invocation_adds {setup : Setup} {f : Function} {arguments : List Typed} {line : Nat}
    {body : Run Flow} (hbody : Follows (Walks setup) body) {m m' : Machine} {v : Typed}
    (h : Invocation.run setup f arguments line body m = .ok (v, m')) :
    ∃ step ∈ m'.steps.toList, ∃ e ∈ step.delta.stack,
      e.2.action = .add ∧ e.1 = m.nextLabel f.name := by
  unfold Invocation.run at h
  split at h
  · exact absurd h Eval.fail_ne_ok
  · obtain ⟨frame, m₁, h₁, h⟩ := Eval.bind_eq_ok.1 h
    obtain ⟨rfl, rfl⟩ := Run.ask_eq_ok.1 h₁
    obtain ⟨_, m₂, hentered, h⟩ := Eval.bind_eq_ok.1 h
    obtain ⟨flow, m₃, h₃, hleft⟩ := Eval.bind_eq_ok.1 h
    obtain ⟨step, hstep, hadded⟩ := enter_adds hentered
    refine ⟨step, ?_, hadded⟩
    have hbetween := (hbody m₂ flow m₃ h₃).ticks.steps_extend.subset hstep
    obtain ⟨_, _, m₄, hemit, rfl⟩ := Invocation.leave_cases hleft
    obtain ⟨state, _, rfl⟩ := Machine.emit_eq_ok.1 hemit
    show step ∈ (m₃.steps.push _).toList
    rw [Array.toList_push]
    exact List.mem_append_left _ hbetween

/-! ## Evaluation without calls -/

/-- Steps are only added; and in the main function, if no step shows a call, there were only moves
that place no object. -/
def Stays (setup : Setup) (m m' : Machine) : Prop :=
  m.steps.toList <+: m'.steps.toList ∧
    (m.active = ["main"] → m'.active = ["main"] ∧
      (CallsNone m'.steps.toList → ReflTransGen (Act setup) m m'))

instance {setup : Setup} : Acting setup (Stays setup) where
  refl m := ⟨List.prefix_rfl, fun hactive => ⟨hactive, fun _ => .refl⟩⟩
  trans m₁ m₂ m₃ h h' := by
    refine ⟨h.1.trans h'.1, fun hactive => ?_⟩
    obtain ⟨hactive₂, hacts⟩ := h.2 hactive
    obtain ⟨hactive₃, hacts'⟩ := h'.2 hactive₂
    exact ⟨hactive₃, fun hnone => (hacts (hnone.of_initial h'.1)).trans (hacts' hnone)⟩
  act m m' h :=
    ⟨h.ticks.steps_extend, fun hactive => ⟨h.active.trans hactive, fun _ => .single h⟩⟩

theorem invoke_stays {setup : Setup} (category : Category) (budget : Nat) {f : Function}
    (hf : setup.analysis.program.function? f.name = some f) (scope : Scope)
    (arguments : List Typed) (line : Nat) :
    Follows (Stays setup) (invoke setup category.commentary budget f scope arguments line) := by
  intro m v m' h
  have hwalks := invoke_follows category budget hf scope arguments line m v m' h
  refine ⟨hwalks.ticks.steps_extend, fun hactive => ⟨hwalks.2.trans hactive, fun hnone => ?_⟩⟩
  exfalso
  cases budget with
  | zero => exact absurd h Eval.fail_ne_ok
  | succ budget =>
    rw [invoke] at h
    obtain ⟨step, hstep, e, he, hadd, hlabel⟩ := invocation_adds (runBody_follows category
      (callBy_follows fun _ hf => invoke_follows category budget hf) scope f.body) h
    have hmain := hnone step hstep e he hadd
    rw [hlabel, Machine.nextLabel, hactive] at hmain
    exact label_ne_main (List.mem_singleton_self _) f.name hmain

theorem evaluate_stays {setup : Setup} (category : Category) (active : Nat) (scope : Scope)
    (e : Expr) :
    Follows (Stays setup) (evaluateWith setup (callAt setup category.commentary active) scope e) :=
  evaluateWith_follows (callBy_follows fun _ hf => invoke_stays category _ hf) scope e

/-! ## Steps of the sequence -/

/-- A pointer is no object with parts. -/
theorem CType.pointer_isAggregate (t : CType) : t.pointer.isAggregate = false := by
  have hlast : (Text.trimRight t.pointer.text.toList).getLast? = some '*' := by
    rw [Text.getLast?_trimRight]
    show ((t.text ++ "*").toList.reverse.find? _) = _
    rw [String.toList_append, List.reverse_append]
    rfl
  have hpointer : t.pointer.isPointer = true := by
    rw [isPointer, endsIn, hlast]
    rfl
  have harray : t.pointer.isArray = false := by
    rw [isArray, endsIn, hlast]
    rfl
  rw [isAggregate, isStruct, harray, hpointer]
  simp

namespace Allocation.Stage

variable {s : Stage}

/-- The machine in the middle of the sequence: only the main function is active, and the pointer
owns its cell. -/
structure Good (s : Stage) (m : Machine) : Prop where
  viewed : m.Viewed s.setup.settings s.setup.settings.heapBase
  active : m.active = ["main"]
  pointer : m.owners.find? (.int s.pointerAddress) = some ⟨"main", s.plan.pointer⟩

theorem Good.emit {m m' : Machine} {kind : StepKind} {line : Int} {description : String}
    {delta : Delta} (hm : s.Good m) (hfits : m.Fits delta)
    (h : m.emit kind line description delta = .ok m') : s.Good m' := by
  refine ⟨hm.viewed.emit hfits h, ?_, ?_⟩
  · obtain ⟨state, _, rfl⟩ := Machine.emit_eq_ok.1 h
    exact hm.active
  · obtain ⟨state, _, rfl⟩ := Machine.emit_eq_ok.1 h
    exact hm.pointer

theorem Good.act {m m' : Machine} (hm : s.Good m) (h : Act s.setup m m') : s.Good m' := by
  refine ⟨h.viewed hm.viewed, h.active.trans hm.active, ?_⟩
  rw [h.beside.2.1]
  exact hm.pointer

/-- An element lies behind the base of the heap, where nothing is owned. -/
theorem Good.fits_element {m : Machine} (hm : s.Good m) {address : Int}
    (haddress : s.setup.settings.heapBase ≤ address) (patch : CellPatch) :
    m.Fits { memory := [(.int address, patch)] } := by
  refine ⟨List.pairwise_singleton _ _, List.Pairwise.nil, ?_, ?_, ?_⟩
  · intro a o ho _
    obtain ⟨n, hn, hlt⟩ := hm.viewed.booked.below a o ho
    show (if Number.int address == a then some patch else none) = none
    rw [if_neg]
    intro heq
    have hsame := Number.int_unique hn heq
    omega
  · intro label patch hpatch
    cases hpatch
  · intro label patch hpatch
    cases hpatch

/-- The pointer may get another value, when nothing is held back. -/
theorem Good.fits_pointer {m : Machine} (hm : s.Good m) (hwrites : m.writes = []) (value : Int)
    (heap : Table Number BlockPatch) : m.Fits { s.pointerDelta value with heap := heap } := by
  have hself : (Number.int s.pointerAddress == Number.int s.pointerAddress) = true := by
    rw [Number.int_beq_int, decide_eq_true_eq]
  have hfind : ∀ label patch, Table.find? (s.pointerDelta value).stack label = some patch →
      label = "main" ∧ patch = { action := .update, vars :=
        [⟨s.plan.pointer, .int value, .int s.pointerAddress, s.plan.pointerType⟩] } := by
    intro label patch hpatch
    unfold pointerDelta at hpatch
    rw [Table.find?_cons] at hpatch
    split at hpatch
    · next heq => exact ⟨(eq_of_beq heq).symm, (Option.some.inj hpatch).symm⟩
    · cases hpatch
  refine ⟨List.pairwise_singleton _ _, List.pairwise_singleton _ _, ?_, ?_, ?_⟩
  · intro a o ho hnot
    show (if Number.int s.pointerAddress == a then _ else none) = none
    rw [if_neg]
    intro heq
    rw [← Table.find?_congr heq, hm.pointer] at ho
    obtain rfl := Option.some.inj ho
    exact hnot _ (if_pos (beq_self_eq_true _)) (List.mem_singleton_self _)
  · intro label patch hpatch v hv _
    obtain ⟨rfl, rfl⟩ := hfind label patch hpatch
    obtain rfl := List.mem_singleton.1 hv
    exact ⟨hm.pointer, _, if_pos hself, rfl, rfl⟩
  · intro _ _ _ _
    exact hwrites

/-- The sequence so far, as long as no step shows a call. -/
def Played (s : Stage) (m : Machine) : Prop :=
  CallsNone m.steps.toList → s.Good m

theorem emit_played {kind : StepKind} {line : Int} {description : String} {delta : Delta}
    (hfits : ∀ m, s.Good m → m.Fits delta) :
    Follows (Keeps s.Played) (Run.emitDelta s.setup kind line description delta) := by
  refine Run.attempt_follows ?_
  intro m m' h hm hnone
  have hgood := hm (hnone.before_emit h)
  exact hgood.emit (hfits m hgood) h

theorem evaluate_played (scope : Scope) (e : Expr) :
    Follows (Keeps s.Played)
      (evaluateWith s.setup (callAt s.setup noCommentary 1) scope e) := by
  intro m v m' h hm hnone
  obtain ⟨hinitial, hstays⟩ := evaluate_stays .dynamicAllocation 1 scope e m v m' h
  have hgood := hm (hnone.of_initial hinitial)
  have hacts := (hstays hgood.active).2 hnone
  clear hstays hinitial hm hnone h
  induction hacts with
  | refl => exact hgood
  | tail _ hact ih => exact ih.act hact

theorem output_played {kind : StepKind} {line : Int} {description output : String} :
    Follows (Keeps s.Played)
      (Run.emitDelta s.setup kind line description { output := output }) :=
  emit_played fun m _ => m.fits_of_output output

theorem heap_played {kind : StepKind} {line : Int} {description : String} {freed : Bool} :
    Follows (Keeps s.Played)
      (Run.emitDelta s.setup kind line description (s.blockDelta freed)) :=
  emit_played fun m _ => m.fits_of_no_objects rfl List.Pairwise.nil fun e he => by cases he

theorem fillAndPrint_played (hblock : s.block = s.setup.settings.heapBase)
    (hsize : 0 ≤ s.elementSize) : Follows (Keeps s.Played) s.fillAndPrint := by
  refine fillAndPrint_follows (fun _ _ _ _ => output_played) ?_ evaluate_played
  intro i kind line description cell
  refine emit_played fun m hm => ?_
  have hoffset : 0 ≤ (i : Int) * s.elementSize := Int.mul_nonneg (Int.natCast_nonneg i) hsize
  exact hm.fits_element (by omega) _

/-- Right after a step nothing is held back, so the pointer may be set. -/
theorem free_clear_played : Follows (Keeps s.Played) (do s.free; s.clear) := by
  intro m u m' h hm hnone
  obtain ⟨_, m₁, hfree, hclear⟩ := Eval.bind_eq_ok.1 h
  have hm₁ : s.Played m₁ := (heap_played.bind fun _ => output_played) m _ m₁ hfree hm
  have hwrites : m₁.writes = [] := by
    obtain ⟨_, m₂, _, hwarn⟩ := Eval.bind_eq_ok.1 hfree
    unfold Run.emit Run.emitDelta at hwarn
    obtain ⟨state, _, rfl⟩ := Machine.emit_eq_ok.1 (Run.attempt_eq_ok.1 hwarn)
    rfl
  cases hfound : (assignments s.plan.main.exprs).find? s.clears with
  | none =>
    rw [clear, hfound] at hclear
    obtain ⟨_, rfl⟩ := Eval.pure_eq_ok.1 hclear
    exact hm₁ hnone
  | some a =>
    rw [clear, hfound] at hclear
    have hemit := Run.attempt_eq_ok.1 hclear
    have hgood := hm₁ (hnone.before_emit hemit)
    exact hgood.emit (hgood.fits_pointer hwrites 0 []) hemit

end Allocation.Stage

/-! ## The sequence -/

namespace Allocation

variable {setup : Setup}

/-- A variable of the sequence is placed behind those before it. -/
theorem declareAt_viewed (hlayouts : setup.analysis.layouts.Sound) {settings : Settings}
    {name : String} {type : CType} {line : Int} {value : Value} {description : String}
    {address size : Int} {m m' : Machine} {u : Unit} (hm : m.Viewed settings address)
    (hsize : type.size [] = .ok size)
    (h : declareAt setup "main" name type line value description address m = .ok (u, m')) :
    m'.Viewed settings (address + size) := by
  have hnonneg : 0 ≤ size := CType.size_nonneg (fun e he => by cases he) hsize
  have hpos : type.isAggregate = false → 0 < size := by
    intro hscalar
    rw [CType.isAggregate, Bool.or_eq_false_iff] at hscalar
    exact CType.size_pos_of_not_isArray (fun e he => by cases he) hscalar.1 hsize
  obtain ⟨cells, hcells, hemit⟩ := declareAt_cases h
  have hplacing := (Placing.nothing hm.booked "main").add hlayouts hnonneg hpos hcells
    (cellsWithin_apart hcells) (fun a => (Option.or_none).symm)
  exact hplacing.emit hm rfl rfl rfl rfl hemit

theorem declareAt_beside {name : String} {type : CType} {line : Int} {value : Value}
    {description : String} {address : Int} {m m' : Machine} {u : Unit}
    (h : declareAt setup "main" name type line value description address m = .ok (u, m')) :
    m'.active = m.active ∧ m'.writes = [] ∧
      m'.owners = (m.own type address "main" name).owners := by
  obtain ⟨cells, _, hemit⟩ := declareAt_cases h
  obtain ⟨state, _, rfl⟩ := Machine.emit_eq_ok.1 hemit
  exact ⟨m.own_active type address "main" name, rfl, rfl⟩

/-- The pointer is declared at the base of the stack, and the cursor of the sequence moves on. -/
theorem declarePointer_cases {p : Plan} {m m' : Machine} {address : Int} {cursor : Cursor}
    (h : declarePointer setup p m = .ok ((address, cursor), m')) :
    ∃ size, p.pointerType.size [] = .ok size ∧ 0 < size ∧
      setup.settings.stackBase + size ≤ setup.settings.heapBase ∧
      address = setup.settings.stackBase ∧ cursor.nextStack = setup.settings.stackBase + size ∧
      cursor.heapBase = setup.settings.heapBase ∧
      declareAt setup "main" p.pointer p.pointerType p.pointerLine .uninit
        s!"Declaration of pointer {p.pointer} (uninitialized)" address m = .ok ((), m') := by
  obtain ⟨found, m₁, h₁, h⟩ := Eval.bind_eq_ok.1 h
  obtain ⟨hfound, rfl⟩ := Eval.lift_eq_ok.1 h₁
  obtain ⟨size, hsize, hstack⟩ := bind_eq_ok.1 hfound
  obtain ⟨a, c⟩ := found
  obtain ⟨hroom, ha, hc⟩ := Cursor.stack_eq_ok.1 hstack
  dsimp only at h
  obtain ⟨_, m₂, h₂, h⟩ := Eval.bind_eq_ok.1 h
  obtain ⟨heq, rfl⟩ := Eval.pure_eq_ok.1 h
  obtain ⟨rfl, rfl⟩ := Prod.mk.injEq .. ▸ heq
  have harray : p.pointerType.isArray = false := by
    have hscalar := CType.pointer_isAggregate p.element
    rw [CType.isAggregate, Bool.or_eq_false_iff] at hscalar
    exact hscalar.1
  have hpos : 0 < size := CType.size_pos_of_not_isArray (fun e he => by cases he) harray hsize
  refine ⟨size, hsize, hpos, hroom, ha, ?_, ?_, h₂⟩
  · rw [hc]
    rfl
  · rw [hc]
    rfl

/-- The counter is declared where the cursor of the sequence stands. -/
theorem declareCounter_cases {cursor : Cursor} {c : Counter} {m m' : Machine} {u : Unit}
    (h : declareCounter setup cursor c m = .ok (u, m')) :
    ∃ size, c.type.size [] = .ok size ∧ cursor.nextStack + size ≤ cursor.heapBase ∧
      declareAt setup "main" c.var.name c.type c.var.line c.value
        (s!"Declaration of variable {c.var.name} with value " ++ c.value.print) cursor.nextStack m
        = .ok ((), m') := by
  obtain ⟨found, m₁, h₁, h⟩ := Eval.bind_eq_ok.1 h
  obtain ⟨hfound, rfl⟩ := Eval.lift_eq_ok.1 h₁
  obtain ⟨size, hsize, hstack⟩ := bind_eq_ok.1 hfound
  obtain ⟨a, next⟩ := found
  obtain ⟨hroom, rfl, _⟩ := Cursor.stack_eq_ok.1 hstack
  exact ⟨size, hsize, hroom, h⟩

/-- The pointer owns its cell. -/
theorem declarePointer_viewed (hlayouts : setup.analysis.layouts.Sound) {p : Plan} {m m' : Machine}
    {address : Int} {cursor : Cursor}
    (hm : m.Viewed setup.settings setup.settings.stackBase)
    (h : declarePointer setup p m = .ok ((address, cursor), m')) :
    m'.Viewed setup.settings cursor.nextStack ∧ m'.active = m.active ∧ m'.writes = [] ∧
      m'.owners.find? (.int address) = some ⟨"main", p.pointer⟩ ∧
      address < cursor.nextStack ∧ cursor.nextStack ≤ setup.settings.heapBase ∧
      cursor.heapBase = setup.settings.heapBase := by
  obtain ⟨size, hsize, hpos, hroom, rfl, hnext, hbase, hdeclared⟩ := declarePointer_cases h
  obtain ⟨hactive, hwrites, howners⟩ := declareAt_beside hdeclared
  refine ⟨?_, hactive, hwrites, ?_, by omega, by omega, hbase⟩
  · rw [hnext]
    exact declareAt_viewed hlayouts hm hsize hdeclared
  · rw [howners, Placing.find?_own]
    exact if_pos ⟨CType.pointer_isAggregate _, by simp⟩

/-- The counter is placed behind the pointer. -/
theorem declareCounter_viewed (hlayouts : setup.analysis.layouts.Sound) {cursor : Cursor}
    {c : Counter} {m m' : Machine} {u : Unit} {address : Int} {name : String}
    (hm : m.Viewed setup.settings cursor.nextStack) (hbehind : address < cursor.nextStack)
    (hbase : cursor.heapBase = setup.settings.heapBase)
    (howner : m.owners.find? (.int address) = some ⟨"main", name⟩)
    (h : declareCounter setup cursor c m = .ok (u, m')) :
    m'.Viewed setup.settings setup.settings.heapBase ∧ m'.active = m.active ∧ m'.writes = [] ∧
      m'.owners.find? (.int address) = some ⟨"main", name⟩ := by
  obtain ⟨size, hsize, hroom, hdeclared⟩ := declareCounter_cases h
  obtain ⟨hactive, hwrites, howners⟩ := declareAt_beside hdeclared
  have hviewed := declareAt_viewed hlayouts hm hsize hdeclared
  refine ⟨⟨hviewed.booked.mono (by omega), hviewed.along⟩, hactive, hwrites, ?_⟩
  rw [howners, Placing.find?_own, if_neg]
  · exact howner
  · rintro ⟨_, heq⟩
    rw [Number.int_beq_int, decide_eq_true_eq] at heq
    omega

/-- The last thing in the sequence is that the main function is left. -/
theorem Stage.rest_cases {s : Stage} {m m' : Machine} {u : Unit}
    (h : (do s.reserve; s.check; s.fillAndPrint; s.free; s.clear; s.leave : Run Unit) m
      = .ok (u, m')) :
    ∃ m₁ m₂ line,
      (do s.reserve; s.check; s.fillAndPrint; s.free; s.clear : Run Unit) m = .ok ((), m₁) ∧
      m₁.emit .ret line "Return from main with value 0"
        { stack := [("main", { action := .remove })] } = .ok m₂ ∧
      m' = { m₂ with active := m₂.active.tail } := by
  have hsplit : (do s.reserve; s.check; s.fillAndPrint; s.free; s.clear; s.leave : Run Unit)
      = (do s.reserve; s.check; s.fillAndPrint; s.free; s.clear : Run Unit) >>= fun _ => s.leave := by
    simp only [bind_assoc]
  rw [hsplit] at h
  obtain ⟨_, m₁, hplayed, hleave⟩ := Eval.bind_eq_ok.1 h
  obtain ⟨_, m₂, hret, hchange⟩ := Eval.bind_eq_ok.1 hleave
  exact ⟨m₁, m₂, _, hplayed, Run.attempt_eq_ok.1 hret, (Run.change_eq_ok.1 hchange).symm⟩

/-- From the reservation on, as long as no step shows a call. -/
theorem Stage.rest_viewed {s : Stage} (hblock : s.block = s.setup.settings.heapBase)
    (hsize : 0 ≤ s.elementSize) {m m' : Machine} {u : Unit} (hm : s.Good m) (hwrites : m.writes = [])
    (h : (do s.reserve; s.check; s.fillAndPrint; s.free; s.clear; s.leave : Run Unit) m
      = .ok (u, m')) (hnone : CallsNone m'.steps.toList) :
    m'.Viewed s.setup.settings s.setup.settings.heapBase := by
  obtain ⟨m₂, m₃, line, hrest, hret, rfl⟩ := rest_cases h
  obtain ⟨_, m₁, hreserve, hplayed⟩ := Eval.bind_eq_ok.1 hrest
  unfold reserve Run.emitDelta at hreserve
  have hm₁ : s.Good m₁ := hm.emit (hm.fits_pointer hwrites _ _) (Run.attempt_eq_ok.1 hreserve)
  have hmiddle : Follows (Keeps s.Played) (do s.check; s.fillAndPrint; s.free; s.clear) :=
    output_played.bind fun _ => (fillAndPrint_played hblock hsize).bind fun _ => free_clear_played
  have hnone₃ : CallsNone m₃.steps.toList := hnone
  have hm₂ : s.Good m₂ := hmiddle m₁ _ m₂ hplayed (fun _ => hm₁) (hnone₃.before_emit hret)
  have hm₃ := hm₂.viewed.emit (m₂.fits_of_frame "main" (by decide)) hret
  exact hm₃.congr rfl rfl rfl rfl

/-- The stage is set with what is read off the main function. -/
structure Stage.SetFor (setup : Setup) (main : Function) (s : Stage) : Prop where
  under : s.setup = setup
  plan : Allocation.plan setup.analysis main = .ok s.plan
  element : s.plan.element.size setup.analysis.sizes = .ok s.elementSize
  size : blockSize s.plan s.elementSize = .ok s.size
  block : s.block = setup.settings.heapBase

/-- The sequence declares its variables and then plays the stage that is set for the program. -/
theorem run_setFor {m m' : Machine} {u : Unit} (h : run setup m = .ok (u, m')) :
    ∃ main, ∃ s : Stage, ∃ cursor m₁ m₂,
      setup.analysis.main? = some main ∧ s.SetFor setup main ∧
      declarePointer setup s.plan { m with active := "main" :: m.active }
        = .ok ((s.pointerAddress, cursor), m₁) ∧
      s.plan.counter.forM (declareCounter setup cursor) m₁ = .ok ((), m₂) ∧
      (do s.reserve; s.check; s.fillAndPrint; s.free; s.clear; s.leave : Run Unit) m₂
        = .ok (u, m') := by
  unfold run at h
  cases hmain : setup.analysis.main? with
  | none =>
    rw [hmain] at h
    exact absurd h Eval.fail_ne_ok
  | some main =>
    rw [hmain] at h
    obtain ⟨p, m₁, h₁, h⟩ := Eval.bind_eq_ok.1 h
    obtain ⟨hplan, rfl⟩ := Eval.lift_eq_ok.1 h₁
    obtain ⟨elementSize, m₂, h₂, h⟩ := Eval.bind_eq_ok.1 h
    obtain ⟨helement, rfl⟩ := Eval.lift_eq_ok.1 h₂
    obtain ⟨_, m₃, h₃, h⟩ := Eval.bind_eq_ok.1 h
    obtain rfl := Run.change_eq_ok.1 h₃
    obtain ⟨⟨address, cursor⟩, m₄, hpointer, h⟩ := Eval.bind_eq_ok.1 h
    dsimp only at h
    obtain ⟨_, m₅, hcounter, h⟩ := Eval.bind_eq_ok.1 h
    obtain ⟨size, m₆, h₆, h⟩ := Eval.bind_eq_ok.1 h
    obtain ⟨hblock, rfl⟩ := Eval.lift_eq_ok.1 h₆
    let stage : Stage :=
      { setup := setup
        plan := p
        lines := lines setup.analysis p
        elementSize := elementSize
        size := size
        pointerAddress := address
        block := setup.settings.heapBase }
    exact ⟨main, stage, cursor, m₄, m₅, rfl, ⟨rfl, hplan, helement, hblock, rfl⟩, hpointer,
      hcounter, h⟩

theorem run_cases {m m' : Machine} {u : Unit} (h : run setup m = .ok (u, m')) :
    ∃ s : Stage, ∃ cursor m₁ m₂,
      s.setup = setup ∧ s.block = setup.settings.heapBase ∧
      s.plan.element.size setup.analysis.sizes = .ok s.elementSize ∧
      declarePointer setup s.plan { m with active := "main" :: m.active }
        = .ok ((s.pointerAddress, cursor), m₁) ∧
      s.plan.counter.forM (declareCounter setup cursor) m₁ = .ok ((), m₂) ∧
      (do s.reserve; s.check; s.fillAndPrint; s.free; s.clear; s.leave : Run Unit) m₂
        = .ok (u, m') := by
  obtain ⟨_, s, cursor, m₁, m₂, _, hset, hpointer, hcounter, hrest⟩ := run_setFor h
  exact ⟨s, cursor, m₁, m₂, hset.under, hset.block, hset.element, hpointer, hcounter, hrest⟩

/-- **The books of the sequence are kept, as long as no step shows a call.** -/
theorem run_viewed (hlayouts : setup.analysis.layouts.Sound) {m : Machine} {u : Unit}
    (h : run setup (Machine.start setup.settings) = .ok (u, m)) (hnone : CallsNone m.steps.toList) :
    m.Viewed setup.settings setup.settings.heapBase := by
  obtain ⟨s, cursor, m₁, m₂, rfl, hblock, helement, hpointer, hcounter, hrest⟩ := run_cases h
  have hstart : ({ Machine.start s.setup.settings with active := ["main"] }).Viewed
      s.setup.settings s.setup.settings.stackBase :=
    (Machine.viewed_start s.setup.settings _).congr rfl rfl rfl rfl
  obtain ⟨hm₁, hactive₁, hwrites₁, howner₁, hlt, hle, hbase⟩ :=
    declarePointer_viewed hlayouts hstart hpointer
  have hm₂ : m₂.Viewed s.setup.settings s.setup.settings.heapBase ∧ m₂.active = m₁.active ∧
      m₂.writes = [] ∧
      m₂.owners.find? (.int s.pointerAddress) = some ⟨"main", s.plan.pointer⟩ := by
    cases hc : s.plan.counter with
    | none =>
      rw [hc] at hcounter
      obtain ⟨_, rfl⟩ := Eval.pure_eq_ok.1 hcounter
      exact ⟨⟨hm₁.booked.mono hle, hm₁.along⟩, rfl, hwrites₁, howner₁⟩
    | some c =>
      rw [hc] at hcounter
      exact declareCounter_viewed hlayouts hm₁ hlt hbase howner₁ hcounter
  obtain ⟨hviewed, hactive, hwrites, howner⟩ := hm₂
  have hsize : 0 ≤ s.elementSize := CType.size_nonneg hlayouts.sizes_nonneg helement
  exact Stage.rest_viewed hblock hsize ⟨hviewed, hactive.trans hactive₁, howner⟩ hwrites hrest hnone

end Allocation

end Stepwise
