/-
What a machine records.

Of a machine's parts, five make up its record: the state, the steps that made
it, the writes and the output that are held back, and the journal. Only three
operations touch them: emitting a step, writing a value and printing a text.
Everything else is quiet. A sequence of these is a sequence of *ticks*, the
finest view of a run that is taken here, and every run is one.

A tick is counted with a condition on the changes that steps show of their own.
Where a program is executed those changes write nothing to the console and have
no address twice; the fixed scripts make no such promise.
-/
import Stepwise.Proofs.Cells
import Stepwise.Proofs.Execution
import Stepwise.Proofs.Sequence

set_option autoImplicit false

namespace Stepwise

open Relation (ReflTransGen)

/-- The machine has the same record. -/
def Machine.Quiet (m m' : Machine) : Prop :=
  m'.state = m.state ∧ m'.steps = m.steps ∧ m'.writes = m.writes ∧ m'.output = m.output ∧
    m'.journal = m.journal

theorem Machine.Quiet.trans {m₁ m₂ m₃ : Machine} (h : m₁.Quiet m₂) (h' : m₂.Quiet m₃) :
    m₁.Quiet m₃ := by
  obtain ⟨h₁, h₂, h₃, h₄, h₅⟩ := h
  obtain ⟨g₁, g₂, g₃, g₄, g₅⟩ := h'
  exact ⟨g₁.trans h₁, g₂.trans h₂, g₃.trans h₃, g₄.trans h₄, g₅.trans h₅⟩

/-- An elementary change of a machine; steps show changes that satisfy a condition. -/
inductive Tick (P : Delta → Prop) : Machine → Machine → Prop
  /-- A step is emitted. -/
  | emit {m m' : Machine} (kind : StepKind) (line : Int) (description : String) {delta : Delta}
      (hdelta : P delta) (h : m.emit kind line description delta = .ok m') : Tick P m m'
  /-- A value is written. -/
  | write {m m' : Machine} (address value : Value) (h : m.write address value = .ok m') :
      Tick P m m'
  /-- A text is printed. -/
  | print (m : Machine) (text : String) : Tick P m (m.print text)
  /-- Nothing is recorded. -/
  | quiet {m m' : Machine} (h : m.Quiet m') : Tick P m m'

/-- Elementary changes one after the other. -/
abbrev Ticks (P : Delta → Prop) : Machine → Machine → Prop :=
  ReflTransGen (Tick P)

theorem Tick.mono {P Q : Delta → Prop} (hPQ : ∀ d, P d → Q d) {m m' : Machine} (h : Tick P m m') :
    Tick Q m m' := by
  cases h with
  | emit kind line description hdelta h => exact .emit kind line description (hPQ _ hdelta) h
  | write address value h => exact .write address value h
  | print text => exact .print m text
  | quiet h => exact .quiet h

theorem Ticks.mono {P Q : Delta → Prop} (hPQ : ∀ d, P d → Q d) {m m' : Machine} (h : Ticks P m m') :
    Ticks Q m m' :=
  ReflTransGen.mono (fun _ _ htick => htick.mono hPQ) m m' h

/-! ## Steps are only added -/

theorem Tick.steps_extend {P : Delta → Prop} {m m' : Machine} (h : Tick P m m') :
    m.steps.toList <+: m'.steps.toList := by
  cases h with
  | emit kind line description _ h =>
    obtain ⟨state, _, rfl⟩ := Machine.emit_eq_ok.1 h
    rw [Array.toList_push]
    exact List.prefix_append _ _
  | write address value h =>
    obtain ⟨a, _, _, rfl⟩ := Machine.write_eq_ok.1 h
    exact List.prefix_rfl
  | print text => exact List.prefix_rfl
  | quiet h =>
    have hsteps : m'.steps = m.steps := h.2.1
    exact hsteps ▸ List.prefix_rfl

theorem Ticks.steps_extend {P : Delta → Prop} {m m' : Machine} (h : Ticks P m m') :
    m.steps.toList <+: m'.steps.toList := by
  induction h with
  | refl => exact List.prefix_rfl
  | tail _ htick ih => exact ih.trans htick.steps_extend

/-! ## Changes of executed programs -/

/-- The change writes nothing to the console and has no address twice. -/
structure Delta.Plain (d : Delta) : Prop where
  output : d.output = ""
  memory : d.memory.Apart

theorem Delta.plain_of_no_memory {d : Delta} (ho : d.output = "") (hm : d.memory = []) :
    d.Plain := by
  refine ⟨ho, ?_⟩
  rw [hm]
  exact List.Pairwise.nil

theorem Act.ticks {setup : Setup} {m m' : Machine} (h : Act setup m m') :
    Ticks Delta.Plain m m' := by
  cases h with
  | emit kind line description h =>
    exact .single (.emit kind _ description (Delta.plain_of_no_memory rfl rfl) h)
  | write address value h => exact .single (.write address value h)
  | print text => exact .single (.print m text)
  | _ => exact .single (.quiet ⟨rfl, rfl, rfl, rfl, rfl⟩)

theorem Machine.quiet_own (m : Machine) (type : CType) (address : Int) (frame name : String) :
    m.Quiet (m.own type address frame name) := by
  unfold Machine.own
  split <;> exact ⟨rfl, rfl, rfl, rfl, rfl⟩

theorem declarationDelta_plain {spare : Nat} {layouts : Layouts} {frame name : String} {type : CType}
    {address : Int} {value : Value} {cells : Table Number CellPatch}
    (h : objectCells spare layouts name type address value = .ok cells) :
    (declarationDelta frame name type address value cells).Plain :=
  ⟨rfl, cellsWithin_apart h⟩

theorem declareAt_ticks {setup : Setup} {frame name : String} {type : CType} {line : Int}
    {value : Value} {description : String} {address : Int} {m m' : Machine} {u : Unit}
    (h : declareAt setup frame name type line value description address m = .ok (u, m')) :
    Ticks Delta.Plain m m' := by
  obtain ⟨cells, hcells, hemit⟩ := declareAt_cases h
  refine ReflTransGen.tail (.single (.quiet (m.quiet_own type address frame name))) ?_
  exact .emit .declaration _ description (declarationDelta_plain hcells) hemit

namespace Invocation

/-- Placing arguments records nothing, and gathers cells at different addresses. -/
theorem place_quiet {setup : Setup} {frame : String} {arguments : List (Parameter × Typed)}
    {cells cells' : Table Number CellPatch} {vars vars' : List FrameVariable} {m m' : Machine}
    (hcells : cells.Apart)
    (h : place setup frame arguments cells vars m = .ok ((cells', vars'), m')) :
    m.Quiet m' ∧ cells'.Apart := by
  induction arguments generalizing cells vars m with
  | nil =>
    obtain ⟨heq, rfl⟩ := Eval.pure_eq_ok.1 h
    obtain ⟨rfl, rfl⟩ := Prod.mk.injEq .. ▸ heq
    exact ⟨⟨rfl, rfl, rfl, rfl, rfl⟩, hcells⟩
  | cons head rest ih =>
    obtain ⟨value, size, address, cursor, more, _, _, _, _, hrest⟩ := place_cons_cases h
    obtain ⟨hrest, hcells'⟩ := ih (Table.apart_putAll more hcells) hrest
    have hown : m.Quiet _ := Machine.quiet_own { m with cursor := cursor }
      head.1.fullType address frame head.1.name
    exact ⟨hown.trans hrest, hcells'⟩

theorem enter_ticks {setup : Setup} {f : Function} {frame : String} {arguments : List Typed}
    {line : Nat} {m m' : Machine} {u : Unit}
    (h : enter setup f frame arguments line m = .ok (u, m')) : Ticks Delta.Plain m m' := by
  obtain ⟨cells, vars, m₁, description, m₂, hplace, hemit, rfl⟩ := enter_cases h
  obtain ⟨hquiet, hcells⟩ := place_quiet List.Pairwise.nil hplace
  have hemitted : Tick Delta.Plain m₁ m₂ := .emit .call _ description ⟨rfl, hcells⟩ hemit
  exact ((ReflTransGen.single (.quiet hquiet)).tail hemitted).tail
    (.quiet ⟨rfl, rfl, rfl, rfl, rfl⟩)

theorem leave_ticks {setup : Setup} {f : Function} {frame : String} {flow : Flow} {m m' : Machine}
    {v : Typed} (h : leave setup f frame flow m = .ok (v, m')) : Ticks Delta.Plain m m' := by
  obtain ⟨line, description, m₁, hemit, rfl⟩ := leave_cases h
  have hemitted : Tick Delta.Plain { m with active := m.active.tail } m₁ :=
    .emit .ret _ description (Delta.plain_of_no_memory rfl rfl) hemit
  exact ((ReflTransGen.single (.quiet ⟨rfl, rfl, rfl, rfl, rfl⟩)).tail hemitted).tail
    (.quiet ⟨rfl, rfl, rfl, rfl, rfl⟩)

end Invocation

theorem declare_ticks {setup : Setup} {frame name : String} {type : CType} {line : Int}
    {value : Value} {description : String} {address : Int} {m m' : Machine}
    (h : declare setup frame name type line value description m = .ok (address, m')) :
    Ticks Delta.Plain m m' := by
  obtain ⟨size, cursor, cells, _, _, hcells, hemit⟩ := declare_cases h
  have hquiet : m.Quiet (({ m with cursor := cursor }).own type address frame name) :=
    Machine.quiet_own { m with cursor := cursor } type address frame name
  exact ReflTransGen.tail (.single (.quiet hquiet))
    (.emit .declaration _ description (declarationDelta_plain hcells) hemit)

theorem Walk.ticks {setup : Setup} {m m' : Machine} (h : Walk setup m m') :
    Ticks Delta.Plain m m' := by
  cases h with
  | act h => exact h.ticks
  | declare name type line value description address h => exact declare_ticks h
  | enter f arguments line hf harity h => exact Invocation.enter_ticks h
  | leave f outer flow hactive h => exact Invocation.leave_ticks h

/-- **Moves are ticks.** -/
theorem Walks.ticks {setup : Setup} {m m' : Machine} (h : Walks setup m m') :
    Ticks Delta.Plain m m' := by
  have hwalk := h.1
  clear h
  induction hwalk with
  | refl => exact .refl
  | tail _ hstep ih => exact ih.trans hstep.ticks

/-! ## Scripts -/

section Scripts

variable {setup : Setup}

/-- Changes without a condition. -/
def anyChange : Delta → Prop := fun _ => True

theorem emitDelta_ticks (kind : StepKind) (line : Int) (description : String) (delta : Delta) :
    Follows (Ticks anyChange) (Run.emitDelta setup kind line description delta) :=
  Run.attempt_follows fun _ _ h => .single (.emit kind _ description trivial h)

theorem Follows.ticks {α : Type} {c : Run α} (h : Follows (Walks setup) c) :
    Follows (Ticks anyChange) c :=
  h.mono fun _ _ hm => hm.ticks.mono fun _ _ => trivial

theorem outline_ticks : Follows (Ticks anyChange) (Outline.run setup) := by
  show (Likeness.following (Ticks anyChange)).rel (Outline.run setup) (Outline.run setup)
  exact Parallel.outline_alike (.refl setup) emitDelta_ticks

/-- Filling and printing the elements follows what their steps follow, and what the calls that print
them do. -/
theorem Allocation.Stage.fillAndPrint_follows {R : Machine → Machine → Prop} [IsPreorder Machine R]
    {s : Stage}
    (houtput : ∀ kind line description output,
      Follows R (Run.emitDelta s.setup kind line description { output := output }))
    (helement : ∀ (i : Nat) kind line description cell, Follows R (Run.emitDelta s.setup kind line
      description { memory := [(.int (s.block + i * s.elementSize), cell)] }))
    (heval : ∀ scope e, Follows R (evaluateWith s.setup (callAt s.setup noCommentary 1) scope e)) :
    Follows R s.fillAndPrint := by
  have hwarn : ∀ loop other, Follows R (s.warnOfLimit loop other) :=
    fun _ _ => Follows.ite (fun _ => houtput _ _ _ _) fun _ => Follows.pure _
  show (Likeness.following R).rel s.fillAndPrint (s.under s.setup).fillAndPrint
  exact Parallel.fillAndPrint_alike (Follows.lift _)
    (fun i => Parallel.fillElement_alike (Follows.lift _) (helement i))
    (Parallel.printElement_alike houtput heval) hwarn

theorem allocation_ticks : Follows (Ticks anyChange) (Allocation.run setup) := by
  show (Likeness.following (Ticks anyChange)).rel (Allocation.run setup) (Allocation.run setup)
  refine Parallel.allocation_alike (.refl setup) emitDelta_ticks ?_ ?_ rfl rfl
    (Parallel.plans_alike (fun _ => rfl) fun _ fault _ => Follows.fail fault)
    (fun _ _ _ _ => rfl) ?_
  · exact fun _ => Run.change_follows fun _ => .single (.quiet ⟨rfl, rfl, rfl, rfl, rfl⟩)
  · intro frame name type line value description address m u m' h
    exact (declareAt_ticks h).mono fun _ _ => trivial
  · rintro s rfl
    exact s.fillAndPrint_follows (fun _ _ _ _ => emitDelta_ticks _ _ _ _)
      (fun _ _ _ _ _ => emitDelta_ticks _ _ _ _)
      fun _ _ => (evaluateWith_follows (callAt_follows .dynamicAllocation 1) _ _).ticks

/-- **Every script is a sequence of ticks from the start of the machine on.** -/
theorem play_ticks {category : Category} {settings : Settings} {u : Unit} {m : Machine}
    (h : category.play setup (Machine.start settings) = .ok (u, m)) :
    Ticks anyChange (Machine.start settings) m := by
  by_cases hexec : category.executes = true
  · exact ((play_follows hexec h rfl).ticks).mono fun _ _ => trivial
  · cases category with
    | generic => exact outline_ticks _ _ _ h
    | dynamicAllocation => exact allocation_ticks _ _ _ h
    | _ => exact absurd rfl hexec

end Scripts

end Stepwise
