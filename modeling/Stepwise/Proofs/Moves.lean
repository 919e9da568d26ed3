/-
The moves of a machine.

Executing a program changes the machine in few ways. Most are *acts*, which put
no object anywhere: something is written or printed, a note is taken, a file is
used, and now and then a step shows what was held back. The other moves place or
take away objects: a variable is declared in the innermost call, a call is
entered, a call is left.

Each operation is opened up here once, by an equivalence or by a lemma that says
everything it can have done; nothing later unfolds it.
-/
import Stepwise.Proofs.Effect
import Stepwise.Script.Remark
import Mathlib.Logic.Relation

set_option autoImplicit false

namespace Stepwise

open Relation (ReflTransGen)

/-! ## Single operations -/

theorem Machine.emit_eq_ok {m m' : Machine} {kind : StepKind} {line : Int} {description : String}
    {delta : Delta} :
    m.emit kind line description delta = .ok m' ↔
      ∃ state, m.state.apply (m.nextStep kind line description delta) = .ok state ∧
        m' = { m.flushed with
          state := state
          steps := m.steps.push (m.nextStep kind line description delta)
          journal := .emitted delta state :: m.journal } := by
  unfold Machine.emit
  dsimp only
  cases h : m.state.apply (m.nextStep kind line description delta) with
  | error e => simp
  | ok state =>
    constructor
    · intro he
      exact ⟨state, rfl, (Except.ok.inj he).symm⟩
    · rintro ⟨_, hs, rfl⟩
      rw [Except.ok.inj hs]

theorem Machine.write_eq_ok {m m' : Machine} {address value : Value} :
    m.write address value = .ok m' ↔
      ∃ a, address = .num a ∧ m.state.memory.has a = true ∧
        m' = { m with writes := m.writes.put a value, journal := .wrote a value :: m.journal } := by
  unfold Machine.write
  cases address with
  | num a =>
    simp only [Machine.addressOf, bind, Except.bind]
    split
    · next h =>
      constructor
      · intro he
        exact ⟨a, rfl, h, (Except.ok.inj he).symm⟩
      · rintro ⟨_, ha, _, rfl⟩
        rw [← Value.num.inj ha]
        rfl
    · next h =>
      constructor
      · intro he
        cases he
      · rintro ⟨_, ha, hmapped, _⟩
        rw [← Value.num.inj ha] at hmapped
        exact absurd hmapped h
  | _ => simp [Machine.addressOf, bind, Except.bind]

namespace Run

variable {α : Type}

theorem change_eq_ok {f : Machine → Machine} {u : Unit} {m m' : Machine} :
    change f m = .ok (u, m') ↔ f m = m' := by
  simp [change]

theorem attempt_eq_ok {f : Machine → Except Fault Machine} {u : Unit} {m m' : Machine} :
    attempt f m = .ok (u, m') ↔ f m = .ok m' := by
  unfold attempt
  cases f m <;> simp

theorem emit_eq_ok {setup : Setup} {kind : StepKind} {line : Int} {description : String} {u : Unit}
    {m m' : Machine} :
    emit setup kind line description m = .ok (u, m') ↔
      m.emit kind (setup.analysis.clamp line) description {} = .ok m' := by
  unfold emit emitDelta
  exact attempt_eq_ok

theorem ask_eq_ok {f : Machine → α} {a : α} {m m' : Machine} :
    ask f m = .ok (a, m') ↔ f m = a ∧ m = m' := by
  simp [ask]

theorem query_eq_ok {f : Machine → Except Fault α} {a : α} {m m' : Machine} :
    query f m = .ok (a, m') ↔ f m = .ok a ∧ m = m' := by
  unfold query
  cases f m <;> simp

variable {R : Machine → Machine → Prop}

theorem change_follows {f : Machine → Machine} (h : ∀ m, R m (f m)) : Follows R (change f) := by
  intro m u m' hm
  rw [← change_eq_ok.1 hm]
  exact h m

theorem attempt_follows {f : Machine → Except Fault Machine} (h : ∀ m m', f m = .ok m' → R m m') :
    Follows R (attempt f) := by
  intro m u m' hm
  exact h m m' (attempt_eq_ok.1 hm)

variable [IsPreorder Machine R]

theorem ask_follows (f : Machine → α) : Follows R (ask f) := by
  refine Follows.of_eq ?_
  intro m a m' hm
  exact (ask_eq_ok.1 hm).2.symm

theorem query_follows (f : Machine → Except Fault α) : Follows R (query f) := by
  refine Follows.of_eq ?_
  intro m a m' hm
  exact (query_eq_ok.1 hm).2.symm

end Run

/-! ## Moves -/

/-- The machine with a new open file, whose handle is the address of a new heap block. -/
def Machine.opened (m : Machine) (file : OpenFile) : Machine :=
  let address := (m.cursor.heap Library.fileSize).1
  { m with
    cursor := (m.cursor.heap Library.fileSize).2
    blocks := m.blocks.put (.int address) { address := .int address, size := .int Library.fileSize }
    files := m.files.put (.int address) file }

/-- The machine with a file closed and its heap block freed. -/
def Machine.closed (m : Machine) (key : Number) : Machine :=
  { m with
    files := m.files.drop key
    blocks := m.blocks.put key { address := key, size := .int Library.fileSize, freed := true } }

/-- A move that puts no object anywhere. -/
inductive Act (setup : Setup) : Machine → Machine → Prop
  /-- A step shows what was held back. -/
  | emit {m m' : Machine} (kind : StepKind) (line : Int) (description : String)
      (h : m.emit kind (setup.analysis.clamp line) description {} = .ok m') : Act setup m m'
  /-- A value is written to an address. -/
  | write {m m' : Machine} (address value : Value) (h : m.write address value = .ok m') :
      Act setup m m'
  /-- A text is written to the console. -/
  | print (m : Machine) (text : String) : Act setup m (m.print text)
  /-- A note is taken. -/
  | note (m : Machine) (text : String) : Act setup m { m with notes := m.notes ++ [text] }
  /-- Files get new contents. -/
  | store (m : Machine) (disk : Table String String) : Act setup m { m with disk := disk }
  /-- An open file is read further. -/
  | seek {m : Machine} {key : Number} {file : OpenFile} (position : Nat)
      (h : m.files.find? key = some file) :
      Act setup m { m with files := m.files.put key { file with position := position } }
  /-- A file is opened. -/
  | open (m : Machine) (file : OpenFile) : Act setup m (m.opened file)
  /-- A file is closed. -/
  | close {m : Machine} {key : Number} {file : OpenFile} (h : m.files.find? key = some file) :
      Act setup m (m.closed key)

/-- A move. -/
inductive Walk (setup : Setup) : Machine → Machine → Prop
  /-- No object is placed. -/
  | act {m m' : Machine} (h : Act setup m m') : Walk setup m m'
  /-- A variable is declared in the innermost call. -/
  | declare {m m' : Machine} (name : String) (type : CType) (line : Int) (value : Value)
      (description : String) (address : Int)
      (h : declare setup m.currentFrame name type line value description m = .ok (address, m')) :
      Walk setup m m'
  /-- A call of one of the program's functions is entered under the next label of that function. -/
  | enter {m m' : Machine} (f : Function) (arguments : List Typed) (line : Nat)
      (hf : setup.analysis.program.function? f.name = some f)
      (harity : arguments.length = f.named.length)
      (h : Invocation.enter setup f (m.nextLabel f.name) arguments line m = .ok ((), m')) :
      Walk setup m m'
  /-- The innermost call is left under the label it has. -/
  | leave {m m' : Machine} {result : Typed} (f : Function) (outer : List String) (flow : Flow)
      (hactive : m.active = f.name :: outer)
      (h : Invocation.leave setup f (Machine.label f.name (outer.count f.name)) flow m
        = .ok (result, m')) :
      Walk setup m m'

/-- Moves after which the active calls are those there were. -/
def Walks (setup : Setup) (m m' : Machine) : Prop :=
  ReflTransGen (Walk setup) m m' ∧ m'.active = m.active

/-- A move between machines that have no more than so many active calls. -/
structure WalkUpTo (setup : Setup) (top : Nat) (m m' : Machine) : Prop where
  walk : Walk setup m m'
  before : m.active.length ≤ top
  after : m'.active.length ≤ top

/-- From the given active calls there were moves that came back to them, with room for so many more
active calls in between. -/
def Returns (setup : Setup) (room : Nat) (calls : List String) (m m' : Machine) : Prop :=
  m.active = calls →
    m'.active = calls ∧ ReflTransGen (WalkUpTo setup (calls.length + room)) m m'

variable {setup : Setup} {room : Nat} {calls : List String}

instance : IsPreorder Machine (Walks setup) where
  refl _ := ⟨.refl, rfl⟩
  trans _ _ _ h h' := ⟨h.1.trans h'.1, h'.2.trans h.2⟩

instance : IsPreorder Machine (Returns setup room calls) where
  refl _ h := ⟨h, .refl⟩
  trans _ _ _ h h' hactive :=
    ⟨(h' (h hactive).1).1, (h hactive).2.trans (h' (h hactive).1).2⟩

theorem Returns.walks {m m' : Machine} (h : Returns setup room calls m m')
    (hactive : m.active = calls) : Walks setup m m' :=
  ⟨ReflTransGen.mono (fun _ _ hmove => hmove.walk) m m' (h hactive).2,
    (h hactive).1.trans hactive.symm⟩

/-- A computation that returns to whatever calls were active has made moves. -/
theorem Follows.walks {α : Type} {c : Run α}
    (h : ∀ calls, Follows (Returns setup room calls) c) : Follows (Walks setup) c :=
  fun m a m' hm => (h m.active m a m' hm).walks rfl

/-- A move that changes no active call can be made anywhere. -/
theorem Walk.returns {m m' : Machine} (h : Walk setup m m') (hsame : m'.active = m.active) :
    Returns setup room calls m m' := by
  intro hactive
  refine ⟨hsame.trans hactive, .single ⟨h, ?_, ?_⟩⟩
  · rw [hactive]
    omega
  · rw [hsame, hactive]
    omega

/-- A move that puts no object anywhere leaves the active calls, the owners and the end of the stack
as they are. -/
theorem Act.beside {m m' : Machine} (h : Act setup m m') :
    m'.active = m.active ∧ m'.owners = m.owners ∧
      m'.cursor.nextStack = m.cursor.nextStack := by
  cases h with
  | emit kind line description h =>
    obtain ⟨s, _, rfl⟩ := Machine.emit_eq_ok.1 h
    exact ⟨rfl, rfl, rfl⟩
  | write address value h =>
    obtain ⟨a, _, _, rfl⟩ := Machine.write_eq_ok.1 h
    exact ⟨rfl, rfl, rfl⟩
  | _ => exact ⟨rfl, rfl, rfl⟩

theorem Act.active {m m' : Machine} (h : Act setup m m') : m'.active = m.active :=
  h.beside.1

/-- A relation that every move without objects follows, one after the other. -/
class Acting (setup : outParam Setup) (R : Machine → Machine → Prop) : Prop
    extends IsPreorder Machine R where
  act : ∀ m m', Act setup m m' → R m m'

theorem Act.follows {R : Machine → Machine → Prop} [Acting setup R] {m m' : Machine}
    (h : Act setup m m') : R m m' :=
  Acting.act m m' h

/-- A relation that every move follows that neither places an object, nor shows a step, nor prints. -/
class Silent (R : Machine → Machine → Prop) : Prop extends IsPreorder Machine R where
  write : ∀ m m' address value, m.write address value = .ok m' → R m m'
  note : ∀ (m : Machine) text, R m { m with notes := m.notes ++ [text] }
  store : ∀ (m : Machine) disk, R m { m with disk := disk }
  seek : ∀ (m : Machine) key file position, m.files.find? key = some file →
    R m { m with files := m.files.put key { file with position := position } }
  opened : ∀ (m : Machine) file, R m (m.opened file)
  closed : ∀ (m : Machine) key file, m.files.find? key = some file → R m (m.closed key)

/-- A relation that printing follows, too. -/
class Quiet (R : Machine → Machine → Prop) : Prop extends Silent R where
  print : ∀ (m : Machine) text, R m (m.print text)

instance {R : Machine → Machine → Prop} [Acting setup R] : Quiet R where
  write _ _ address value h := (Act.write address value h).follows
  print m text := (Act.print m text).follows
  note m text := (Act.note m text).follows
  store m disk := (Act.store m disk).follows
  seek _ _ _ position h := (Act.seek position h).follows
  opened m file := (Act.open m file).follows
  closed _ _ _ h := (Act.close h).follows

instance : Acting setup (Walks setup) where
  act _ _ h := ⟨.single (.act h), h.active⟩

instance : Acting setup (Returns setup room calls) where
  act _ _ h := (Walk.act h).returns h.active

/-! ## Declarations and calls -/

theorem Machine.own_active (m : Machine) (type : CType) (address : Int) (frame name : String) :
    (m.own type address frame name).active = m.active := by
  unfold Machine.own
  split <;> rfl

theorem allocateStack_eq_ok {size address : Int} {m m' : Machine} :
    Run.allocateStack size m = .ok (address, m') ↔
      ∃ cursor, m.cursor.stack size = .ok (address, cursor) ∧ m' = { m with cursor := cursor } := by
  unfold Run.allocateStack
  cases m.cursor.stack size with
  | error fault => simp
  | ok p =>
    obtain ⟨a, c⟩ := p
    constructor
    · intro h
      obtain ⟨rfl, rfl⟩ := Prod.mk.injEq .. ▸ Except.ok.inj h
      exact ⟨c, rfl, rfl⟩
    · rintro ⟨_, h, rfl⟩
      obtain ⟨rfl, rfl⟩ := Prod.mk.injEq .. ▸ Except.ok.inj h
      rfl

theorem Cursor.stack_eq_ok {c c' : Cursor} {size address : Int} :
    c.stack size = .ok (address, c') ↔
      c.nextStack + size ≤ c.heapBase ∧ address = c.nextStack ∧
        c' = { c with nextStack := c.nextStack + size } := by
  unfold Cursor.stack
  split
  · next hfull =>
    constructor
    · intro h
      cases h
    · rintro ⟨hroom, _⟩
      omega
  · next hroom =>
    constructor
    · intro h
      obtain ⟨rfl, rfl⟩ := Prod.mk.injEq .. ▸ Except.ok.inj h
      exact ⟨by omega, rfl, rfl⟩
    · rintro ⟨_, rfl, rfl⟩
      rfl

/-- The change that a declaration shows. -/
def declarationDelta (frame name : String) (type : CType) (address : Int) (value : Value)
    (cells : Table Number CellPatch) : Delta :=
  { memory := cells
    stack := [(frame, { action := .add, vars := [frameVariable name type address value] })] }

/-- A declaration at an address takes note of the owner and emits a step with the object's cells. -/
theorem declareAt_cases {frame name : String} {type : CType} {line : Int} {value : Value}
    {description : String} {m m' : Machine} {address : Int} {u : Unit}
    (h : declareAt setup frame name type line value description address m = .ok (u, m')) :
    ∃ cells,
      objectCells setup.analysis.spare setup.analysis.layouts name type address value = .ok cells ∧
      (m.own type address frame name).emit .declaration (setup.analysis.clamp line) description
        (declarationDelta frame name type address value cells) = .ok m' := by
  obtain ⟨cells, m₁, h₁, h⟩ := Eval.bind_eq_ok.1 h
  obtain ⟨hcells, rfl⟩ := Eval.lift_eq_ok.1 h₁
  obtain ⟨_, m₂, h₂, h⟩ := Eval.bind_eq_ok.1 h
  refine ⟨cells, hcells, ?_⟩
  rw [Run.change_eq_ok.1 h₂]
  exact Run.attempt_eq_ok.1 h

/-- A declaration reserves the space that its type takes, and is one at the address it got. -/
theorem declare_cases {frame name : String} {type : CType} {line : Int} {value : Value}
    {description : String} {m m' : Machine} {address : Int}
    (h : declare setup frame name type line value description m = .ok (address, m')) :
    ∃ size cursor cells,
      type.size setup.analysis.sizes = .ok size ∧ m.cursor.stack size = .ok (address, cursor) ∧
      objectCells setup.analysis.spare setup.analysis.layouts name type address value = .ok cells ∧
      (({ m with cursor := cursor }).own type address frame name).emit .declaration
        (setup.analysis.clamp line) description
        (declarationDelta frame name type address value cells) = .ok m' := by
  obtain ⟨size, m₁, h₁, h⟩ := Eval.bind_eq_ok.1 h
  obtain ⟨hsize, rfl⟩ := Eval.lift_eq_ok.1 h₁
  obtain ⟨a, m₂, h₂, h⟩ := Eval.bind_eq_ok.1 h
  obtain ⟨cursor, hcursor, rfl⟩ := allocateStack_eq_ok.1 h₂
  obtain ⟨_, m₃, h₃, h⟩ := Eval.bind_eq_ok.1 h
  obtain ⟨rfl, rfl⟩ := Eval.pure_eq_ok.1 h
  obtain ⟨cells, hcells, hemit⟩ := declareAt_cases h₃
  exact ⟨size, cursor, cells, hsize, hcursor, hcells, hemit⟩

theorem declare_active {frame name : String} {type : CType} {line : Int} {value : Value}
    {description : String} {m m' : Machine} {address : Int}
    (h : declare setup frame name type line value description m = .ok (address, m')) :
    m'.active = m.active := by
  obtain ⟨size, cursor, cells, _, _, _, hemit⟩ := declare_cases h
  obtain ⟨state, _, rfl⟩ := Machine.emit_eq_ok.1 hemit
  exact Machine.own_active _ _ _ _ _

/-- A relation that declarations in the innermost call follow, too. -/
class Executing (setup : outParam Setup) (R : Machine → Machine → Prop) : Prop
    extends Acting setup R where
  declare : ∀ (m : Machine) (name : String) (type : CType) (line : Int) (value : Value)
    (description : String) (address : Int) (m' : Machine),
    declare setup m.currentFrame name type line value description m = .ok (address, m') → R m m'

instance : Executing setup (Walks setup) where
  declare _ _ _ _ _ _ _ _ h := ⟨.single (.declare _ _ _ _ _ _ h), declare_active h⟩

instance : Executing setup (Returns setup room calls) where
  declare _ _ _ _ _ _ _ _ h := (Walk.declare _ _ _ _ _ _ h).returns (declare_active h)

theorem readStruct_follows {R : Machine → Machine → Prop} [IsPreorder Machine R] (layouts : Layouts)
    (type : CType) (address : Value) : Follows R (readStruct layouts type address) := by
  refine (Follows.lift _).bind fun members => Follows.bind (Follows.mapM fun _ _ => ?_) fun _ =>
    Follows.pure _
  exact (Follows.lift _).bind fun _ => (Run.query_follows _).bind fun _ => Follows.pure _

/-- Copying a value changes nothing. -/
theorem copyValue_follows {R : Machine → Machine → Prop} [IsPreorder Machine R] (layouts : Layouts)
    (type : CType) (value : Value) : Follows R (copyValue layouts type value) :=
  Follows.ite (fun _ => readStruct_follows layouts type value) fun _ => Follows.lift _

namespace Invocation

/-- The change that a call shows. -/
def enterDelta (frame : String) (cells : Table Number CellPatch) (vars : List FrameVariable)
    (line : Nat) : Delta :=
  { memory := cells
    stack := [(frame, { action := .add, vars := vars, returnAddress := .int line })] }

/-- Entering a function places the arguments, emits a step with all of them, and then counts as an
active call. -/
theorem enter_cases {f : Function} {frame : String} {arguments : List Typed} {line : Nat}
    {m m' : Machine} {u : Unit} (h : enter setup f frame arguments line m = .ok (u, m')) :
    ∃ cells vars m₁ description m₂,
      place setup frame (f.named.zip arguments) [] [] m = .ok ((cells, vars), m₁) ∧
      m₁.emit .call (setup.analysis.clamp line) description (enterDelta frame cells vars line)
        = .ok m₂ ∧
      m' = { m₂ with active := f.name :: m₂.active } := by
  obtain ⟨⟨cells, vars⟩, m₁, h₁, h⟩ := Eval.bind_eq_ok.1 h
  obtain ⟨_, m₂, h₂, h⟩ := Eval.bind_eq_ok.1 h
  exact ⟨cells, vars, m₁, _, m₂, h₁, Run.attempt_eq_ok.1 h₂, (Run.change_eq_ok.1 h).symm⟩

/-- Leaving a function emits a step that takes the frame away, and forgets what its variables
own. -/
theorem leave_cases {f : Function} {frame : String} {flow : Flow} {m m' : Machine} {v : Typed}
    (h : leave setup f frame flow m = .ok (v, m')) :
    ∃ line description m₁,
      ({ m with active := m.active.tail }).emit .ret (setup.analysis.clamp line) description
        { stack := [(frame, { action := .remove })] } = .ok m₁ ∧
      m' = { m₁ with owners := m₁.owners.filter fun entry => entry.2.frame != frame } := by
  obtain ⟨_, m₁, h₁, h⟩ := Eval.bind_eq_ok.1 h
  rw [← Run.change_eq_ok.1 h₁] at h
  obtain ⟨value, m₂, h₂, h⟩ := Eval.bind_eq_ok.1 h
  obtain ⟨_, rfl⟩ := Eval.lift_eq_ok.1 h₂
  obtain ⟨_, m₃, h₃, h⟩ := Eval.bind_eq_ok.1 h
  obtain ⟨_, m₄, h₄, h⟩ := Eval.bind_eq_ok.1 h
  obtain ⟨_, rfl⟩ := Eval.pure_eq_ok.1 h
  exact ⟨_, _, m₃, Run.attempt_eq_ok.1 h₃, (Run.change_eq_ok.1 h₄).symm⟩

/-- Placing an argument copies its value, leaves the machine with space reserved for it and its owner
known, and goes on to the next one with its cells and its variable added. -/
theorem place_cons_cases {frame : String} {parameter : Parameter} {argument : Typed}
    {rest : List (Parameter × Typed)} {cells : Table Number CellPatch} {vars : List FrameVariable}
    {m m' : Machine} {placed : Table Number CellPatch × List FrameVariable}
    (h : place setup frame ((parameter, argument) :: rest) cells vars m = .ok (placed, m')) :
    ∃ value size address cursor more,
      copyValue setup.analysis.layouts parameter.fullType argument.value m = .ok (value, m) ∧
      parameter.fullType.size setup.analysis.sizes = .ok size ∧
      m.cursor.stack size = .ok (address, cursor) ∧
      objectCells setup.analysis.spare setup.analysis.layouts parameter.name parameter.fullType
        address value = .ok more ∧
      place setup frame rest (cells.putAll more)
        (vars ++ [frameVariable parameter.name parameter.fullType address value])
        (({ m with cursor := cursor }).own parameter.fullType address frame parameter.name)
        = .ok (placed, m') := by
  obtain ⟨value, m₁, h₁, h⟩ := Eval.bind_eq_ok.1 h
  obtain rfl : m = m₁ := copyValue_follows _ _ _ _ _ _ h₁
  obtain ⟨size, m₂, h₂, h⟩ := Eval.bind_eq_ok.1 h
  obtain ⟨hsize, rfl⟩ := Eval.lift_eq_ok.1 h₂
  obtain ⟨address, m₃, h₃, h⟩ := Eval.bind_eq_ok.1 h
  obtain ⟨cursor, hcursor, rfl⟩ := allocateStack_eq_ok.1 h₃
  obtain ⟨more, m₄, h₄, h⟩ := Eval.bind_eq_ok.1 h
  obtain ⟨hmore, rfl⟩ := Eval.lift_eq_ok.1 h₄
  obtain ⟨_, m₅, h₅, h⟩ := Eval.bind_eq_ok.1 h
  rw [← Run.change_eq_ok.1 h₅] at h
  exact ⟨value, size, address, cursor, more, h₁, hsize, hcursor, hmore, h⟩

theorem place_active {frame : String} {arguments : List (Parameter × Typed)}
    {cells : Table Number CellPatch} {vars : List FrameVariable} {m m' : Machine}
    {placed : Table Number CellPatch × List FrameVariable}
    (h : place setup frame arguments cells vars m = .ok (placed, m')) : m'.active = m.active := by
  induction arguments generalizing cells vars m with
  | nil =>
    obtain ⟨_, rfl⟩ := Eval.pure_eq_ok.1 h
    rfl
  | cons head rest ih =>
    obtain ⟨value, size, address, cursor, more, _, _, _, _, hrest⟩ := place_cons_cases h
    rw [ih hrest]
    exact Machine.own_active _ _ _ _ _

/-- A call that was entered is the innermost one. -/
theorem enter_active {f : Function} {frame : String} {arguments : List Typed} {line : Nat}
    {m m' : Machine} {u : Unit} {active : List String}
    (h : enter setup f frame arguments line m = .ok (u, m')) (hactive : m.active = active) :
    m'.active = f.name :: active := by
  obtain ⟨cells, vars, m₁, _, m₂, hplace, hemit, rfl⟩ := enter_cases h
  obtain ⟨state, _, rfl⟩ := Machine.emit_eq_ok.1 hemit
  show f.name :: m₁.active = f.name :: active
  rw [place_active hplace, hactive]

/-- Once the innermost call is left, the others are active. -/
theorem leave_active {f : Function} {frame name : String} {flow : Flow} {m m' : Machine} {v : Typed}
    {active : List String} (h : leave setup f frame flow m = .ok (v, m'))
    (hactive : m.active = name :: active) : m'.active = active := by
  obtain ⟨_, _, m₁, hemit, rfl⟩ := leave_cases h
  obtain ⟨state, _, rfl⟩ := Machine.emit_eq_ok.1 hemit
  show m.active.tail = active
  rw [hactive]
  rfl

end Invocation

end Stepwise
