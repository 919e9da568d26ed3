/-
Copies of structs.

A new object is made of a struct by reading the members of the struct, one value for
each, and by laying the object behind all others with these values. A member in one cell
is copied by its value. A member with parts, an array or a struct in the struct, has more
leaves than one value can fill: the value that is read for it hands nothing on to them,
and they are left without one. What was there before has not changed, because the new
object lies behind it.

An argument of a call is laid like that among the others, so its cells have to last until
a step shows all of them; that they do is again a matter of where they lie.
-/
import Stepwise.Proofs.Handles
import Stepwise.Proofs.Leaves
import Stepwise.Proofs.Regions

set_option autoImplicit false

namespace Stepwise

/-! ## Values -/

/-- The number without its origin. -/
def Number.bare : Number → Number
  | float x _ => float x
  | n => n

theorem Number.bare_withOrigin (origin : Origin) (n : Number) :
    (n.withOrigin origin).bare = n.bare := by
  cases n with
  | int _ => rfl
  | float x known =>
    cases known with
    | some _ => rfl
    | none =>
      rw [withOrigin]
      split <;> rfl

namespace Value

mutual

/-- The value itself: origins only tell apart what is not a number. -/
def bare : Value → Value
  | num n => num n.bare
  | list items => list (bareItems items)
  | record members => record (bareMembers members)
  | v => v

/-- Items without origins. -/
def bareItems : List Value → List Value
  | [] => []
  | v :: rest => v.bare :: bareItems rest

/-- Members without origins. -/
def bareMembers : List (String × Value) → List (String × Value)
  | [] => []
  | (name, v) :: rest => (name, v.bare) :: bareMembers rest

end

mutual

/-- Origins are no part of a value. -/
theorem bare_withOrigins (source : Int) (path : List Nat) :
    (v : Value) → (v.withOrigins source path).bare = v.bare
  | num n => congrArg num (n.bare_withOrigin _)
  | list items => congrArg list (bareItems_withOrigins source path 0 items)
  | record members => congrArg record (bareMembers_withOrigins source path 0 members)
  | uninit => rfl
  | text _ => rfl

theorem bareItems_withOrigins (source : Int) (path : List Nat) (position : Nat) :
    (items : List Value) → bareItems (itemsWithOrigins source path position items) = bareItems items
  | [] => rfl
  | v :: rest => congrArg₂ List.cons (bare_withOrigins source _ v)
      (bareItems_withOrigins source path (position + 1) rest)

theorem bareMembers_withOrigins (source : Int) (path : List Nat) (position : Nat) :
    (members : List (String × Value)) →
      bareMembers (membersWithOrigins source path position members) = bareMembers members
  | [] => rfl
  | (name, v) :: rest => congrArg₂ List.cons (congrArg (Prod.mk name) (bare_withOrigins source _ v))
      (bareMembers_withOrigins source path (position + 1) rest)

end

theorem eq_int_of_bare {v : Value} {n : Int} (h : v.bare = .int n) : v = .int n := by
  cases v with
  | num k =>
    cases k with
    | int m => exact h
    | float x origin => cases h
  | _ => cases h

end Value

/-! ## Reading -/

section Reading

variable {setup : Setup} {m m' : Machine} {limit : Int}

theorem Machine.Quiet.read_eq (h : m.Quiet m') (address : Value) :
    m'.read address = m.read address := by
  obtain ⟨hstate, _, hwrites, _, _⟩ := h
  unfold Machine.read
  rw [hstate, hwrites]

/-- After a step, every address holds what the step's own change says, else what it held. -/
theorem Machine.Faithful.read_emitted {kind : StepKind} {line : Int} {description : String}
    {delta : Delta} (hm : m.Faithful) (hdelta : delta.Plain)
    (h : m.emit kind line description delta = .ok m') {a : Number} {v : Value} :
    m'.read (.num a) = .ok v ↔
      ((delta.memory.find? a).map CellPatch.value).or (m.lastStored a) = some v := by
  obtain ⟨state, _, hm'⟩ := Machine.emit_eq_ok.1 h
  have hjournal : m'.journal = .emitted delta state :: m.journal := by rw [hm']
  rw [(hm.emit hdelta h).read_eq_ok, lastStored_of_journal hjournal, Event.stored?]

/-- What can be read is there. -/
theorem Machine.Faithful.has_of_read (hm : m.Faithful) {a : Number} {v : Value}
    (h : m.read (.num a) = .ok v) : m.state.memory.has a = true := by
  have hstored := hm.read_eq_ok.1 h
  rw [← hm.stored, Option.or_eq_some_iff] at hstored
  rw [Table.has_eq_true_iff]
  rcases hstored with hwrite | ⟨_, hcell⟩
  · exact hm.mapped _ _ hwrite
  · obtain ⟨cell, hcell, _⟩ := Option.map_eq_some_iff.1 hcell
    exact ⟨cell, hcell⟩

/-- It lies in front of the limit of a housed machine. -/
theorem Machine.Housed.lt_of_read (hm : m.Housed setup limit) (hfaithful : m.Faithful) {a : Int}
    {v : Value} (h : m.read (.int a) = .ok v) : a < limit := by
  by_contra hbehind
  obtain ⟨cell, hcell⟩ := Table.has_eq_true_iff.1 (hfaithful.has_of_read h)
  rw [hm.packed.unmapped (by omega)] at hcell
  cases hcell

/-- After a write, the address holds what was written, and every other what it held. -/
theorem Machine.read_write {address c : Int} {value : Value}
    (h : m.write (.int address) value = .ok m') :
    m'.read (.int c) = if c = address then .ok value else m.read (.int c) := by
  obtain ⟨a, ha, _, rfl⟩ := Machine.write_eq_ok.1 h
  obtain rfl : Number.int address = a := Value.num.inj ha
  simp only [Machine.read, Machine.addressOf, bind, Except.bind, Table.find?_put,
    Number.int_beq_int, decide_eq_true_eq]
  by_cases heq : c = address
  · rw [if_pos heq.symm, if_pos heq]
    rfl
  · rw [if_neg fun h => heq h.symm, if_neg heq]

end Reading

/-- The members of a struct as a copy of the struct at an address takes them along. -/
def TakesAlong (layouts : Layouts) (type : CType) (a : Int) (m : Machine) (value : Value) : Prop :=
  ∃ members values, layouts.membersOf type = .ok members ∧ value = .record values ∧
    List.Forall₂ (fun (e : String × Int × CType) (x : String × Value) =>
      x.1 = e.1 ∧ m.read (.int (a + e.2.1)) = .ok x.2) members values

theorem readStruct_eq_ok {layouts : Layouts} {type : CType} {a : Int} {v : Value} {m m' : Machine}
    (h : readStruct layouts type (.int a) m = .ok (v, m')) :
    m' = m ∧ TakesAlong layouts type a m v := by
  obtain ⟨members, m₁, h₁, h⟩ := Eval.bind_eq_ok.1 h
  obtain ⟨hmembers, rfl⟩ := Eval.lift_eq_ok.1 h₁
  obtain ⟨values, m₂, h₂, h⟩ := Eval.bind_eq_ok.1 h
  obtain ⟨rfl, rfl⟩ := Eval.pure_eq_ok.1 h
  have hvalues : ∀ (members : Members) (values : List (String × Value)),
      members.mapM (m := Run) (fun e => do
        let v ← Run.read (← Eval.lift ((Value.int a).add (.int e.2.1)))
        return (e.1, v)) m = .ok (values, m₂) →
      m₂ = m ∧ List.Forall₂ (fun (e : String × Int × CType) (x : String × Value) =>
        x.1 = e.1 ∧ m.read (.int (a + e.2.1)) = .ok x.2) members values := by
    intro members
    induction members with
    | nil =>
      intro values h
      rw [List.mapM_nil] at h
      obtain ⟨rfl, rfl⟩ := Eval.pure_eq_ok.1 h
      exact ⟨rfl, .nil⟩
    | cons e members ih =>
      intro values h
      rw [List.mapM_cons] at h
      obtain ⟨x, m₁, h₁, h⟩ := Eval.bind_eq_ok.1 h
      obtain ⟨address, m₃, h₃, h₁⟩ := Eval.bind_eq_ok.1 h₁
      obtain ⟨haddress, rfl⟩ := Eval.lift_eq_ok.1 h₃
      obtain ⟨w, m₄, h₄, h₁⟩ := Eval.bind_eq_ok.1 h₁
      obtain ⟨hread, rfl⟩ := Run.query_eq_ok.1 h₄
      obtain ⟨rfl, rfl⟩ := Eval.pure_eq_ok.1 h₁
      obtain rfl : Value.int (a + e.2.1) = address := Except.ok.inj haddress
      obtain ⟨rest, m₅, h₅, h⟩ := Eval.bind_eq_ok.1 h
      obtain ⟨rfl, rfl⟩ := Eval.pure_eq_ok.1 h
      obtain ⟨rfl, hrest⟩ := ih rest h₅
      exact ⟨rfl, .cons ⟨rfl, hread⟩ hrest⟩
  obtain ⟨hsame, hforall⟩ := hvalues members values h₂
  exact ⟨hsame, members, values, hmembers, rfl, hforall⟩

/-- Each member of a struct that is taken along has the value that was read. -/
theorem TakesAlong.memberOf {layouts : Layouts} {type : CType} {a : Int} {m : Machine}
    {value : Value} (h : TakesAlong layouts type a m value) {members : Members}
    (hmembers : layouts.membersOf type = .ok members) (hapart : members.Apart)
    {e : String × Int × CType} (he : e ∈ members) :
    m.read (.int (a + e.2.1)) = .ok (value.memberOf e.1) := by
  obtain ⟨members', values, hmembers', rfl, hvalues⟩ := h
  obtain rfl := Except.ok.inj (hmembers.symm.trans hmembers')
  clear hmembers hmembers'
  show m.read _ = .ok ((values.lookup e.1).getD .uninit)
  induction hvalues with
  | nil => cases he
  | @cons f x members values hx _ ih =>
    obtain ⟨hhead, htail⟩ := List.pairwise_cons.1 hapart
    obtain ⟨name, v⟩ := x
    obtain ⟨rfl, hread⟩ : name = f.1 ∧ m.read (.int (a + f.2.1)) = .ok v := hx
    rw [List.lookup_cons]
    rcases List.mem_cons.1 he with rfl | he
    · rw [beq_self_eq_true]
      exact hread
    · have hne : (e.1 == f.1) = false := by
        rw [beq_eq_false_iff_ne]
        exact fun heq => absurd (hhead e he) (by simp [heq])
      rw [hne]
      exact ih htail he

theorem TakesAlong.of_quiet {layouts : Layouts} {type : CType} {a : Int} {m n : Machine}
    {value : Value} (h : TakesAlong layouts type a m value) (hquiet : n.Quiet m) :
    TakesAlong layouts type a n value := by
  obtain ⟨members, values, hmembers, hvalue, hforall⟩ := h
  refine ⟨members, values, hmembers, hvalue, hforall.imp ?_⟩
  rintro e x ⟨hname, hread⟩
  exact ⟨hname, (hquiet.read_eq _).symm.trans hread⟩

/-- How the object at `b` stands to the struct at `a` that it was made from: members in one cell have
the values of the struct, members with parts have no values, and nothing else has changed. -/
structure Copies (layouts : Layouts) (type : CType) (a b : Int) (m m' : Machine) : Prop where
  /-- Where every member is in one cell, every leaf has the value of the leaf that it copies. -/
  whole : (∀ members, layouts.membersOf type = .ok members → ∀ e ∈ members, e.2.2.IsCell) →
    ∀ offset leaf, Leaf layouts type offset leaf →
      ∃ v w, m.read (.int (a + offset)) = .ok v ∧ m'.read (.int (b + offset)) = .ok w ∧
        w.bare = v.bare
  /-- A member in one cell has its value whatever the others are. -/
  cell : ∀ members, layouts.membersOf type = .ok members → ∀ e ∈ members, e.2.2.IsCell →
    ∃ v w, m.read (.int (a + e.2.1)) = .ok v ∧ m'.read (.int (b + e.2.1)) = .ok w ∧ w.bare = v.bare
  /-- The leaves of a member with parts are left without a value. -/
  part : ∀ members, layouts.membersOf type = .ok members → ∀ e ∈ members, ¬ e.2.2.IsCell →
    (∀ v, m.read (.int (a + e.2.1)) = .ok v → v.NoParts) →
    ∀ offset leaf, Leaf layouts e.2.2 offset leaf →
      m'.read (.int (b + (e.2.1 + offset))) = .ok .uninit
  /-- What could be read before is still there. -/
  kept : ∀ c v, m.read (.int c) = .ok v → m'.read (.int c) = .ok v

theorem Copies.of_cells {layouts : Layouts} (hlayouts : layouts.Settled)
    (hnames : ∀ e ∈ layouts, e.2.members.Apart) {type : CType} (hstruct : type.isStruct = true)
    {spare : Nat} {name : String} {a b size : Int} {value : Value} {cells : Table Number CellPatch}
    {m m' : Machine} (htakes : TakesAlong layouts type a m value)
    (hsize : type.size layouts.sizes = .ok size)
    (hcells : objectCells spare layouts name type b value = .ok cells)
    (hstored : ∀ c k, cells.find? (.int c) = some k → m'.read (.int c) = .ok k.value)
    (hkept : ∀ c v, m.read (.int c) = .ok v → m'.read (.int c) = .ok v) :
    Copies layouts type a b m m' := by
  -- the name of a member tells which one it is
  have hapart : ∀ members, layouts.membersOf type = .ok members → members.Apart := by
    intro members hmembers
    obtain ⟨l, hl, rfl⟩ := Layouts.membersOf_eq_ok hmembers
    obtain ⟨key, hkey, _⟩ := Table.mem_of_find? hl
    exact hnames _ hkey
  -- a member that is one cell is copied with its value, origins of its parts aside
  have hcell : ∀ members, layouts.membersOf type = .ok members → ∀ e ∈ members, e.2.2.IsCell →
      ∃ v w, m.read (.int (a + e.2.1)) = .ok v ∧ m'.read (.int (b + e.2.1)) = .ok w ∧
        w.bare = v.bare := by
    intro members hmembers e he hcell
    obtain ⟨inner, part, hpart, hincluded⟩ :=
      hlayouts.cells_of_member hstruct hsize hmembers he hcells
    obtain ⟨w, rfl, hw⟩ := cellsWithin_of_isCell hcell hpart
    refine ⟨_, w, htakes.memberOf hmembers (hapart members hmembers) he, ?_, ?_⟩
    · refine hstored _ ⟨w, name ++ "." ++ e.1, e.2.2⟩ (hincluded _ _ ?_)
      rw [Table.find?_cons, if_pos (by simp)]
    · rcases hw with rfl | rfl
      · rfl
      · exact Value.bare_withOrigins _ _ _
  refine ⟨?_, hcell, ?_, hkept⟩
  · intro hflat offset leaf hleaf
    cases hleaf with
    | cell h =>
      rw [h.1] at hstruct
      cases hstruct
    | member _ hmembers he h =>
      have hoffset := h.offset_of_isCell (hflat _ hmembers _ he)
      rw [hoffset, Int.add_zero]
      exact hcell _ hmembers _ he (hflat _ hmembers _ he)
    | element hnot =>
      rw [hstruct] at hnot
      cases hnot
  · intro members hmembers e he hparts hvalue offset leaf hleaf
    obtain ⟨inner, part, hpart, hincluded⟩ :=
      hlayouts.cells_of_member hstruct hsize hmembers he hcells
    have hread := htakes.memberOf hmembers (hapart members hmembers) he
    obtain ⟨k, hk⟩ := Option.ne_none_iff_exists'.1 (hleaf.mapped hpart)
    have hmem := (cellsWithin_whole hpart).mem_of_find? hk
    have huninit := cellsWithin_uninit (hvalue _ hread) (fun hcell => absurd hcell hparts) hpart _ hmem
    rw [← huninit, ← Int.add_assoc]
    exact hstored _ k (hincluded _ _ hk)

/-! ## Machines that execution passes through -/

namespace Setup.Passes

variable {setup : Setup} {m : Machine}

theorem faithful (h : setup.Passes m) : m.Faithful := by
  induction h with
  | refl => exact Machine.faithful_start setup.settings
  | tail _ hstep ih => exact hstep.ticks.faithful ih

theorem viewed (hlayouts : setup.analysis.layouts.Settled) (h : setup.Passes m) :
    m.Viewed setup.settings m.cursor.nextStack :=
  (Walk.housed_along hlayouts h (Machine.viewed_start _ _) (Machine.housed_start setup)).1

theorem housed (hlayouts : setup.analysis.layouts.Settled) (h : setup.Passes m)
    (hfilled : AllFilled m.steps.toList) : m.Housed setup m.cursor.nextStack :=
  (Walk.housed_along hlayouts h (Machine.viewed_start _ _) (Machine.housed_start setup)).2 hfilled

end Setup.Passes

/-! ## New objects -/

namespace Placing

variable {setup : Setup} {m n m' : Machine} {start stop : Int} {frame : String}
  {cells : Table Number CellPatch} {vars : List FrameVariable} {kind : StepKind} {line : Int}
  {description : String} {delta : Delta}

/-- Once a step shows the placed objects, their cells can be read. -/
theorem reads (h : Placing m start frame cells vars n stop) (hm : m.Faithful)
    (hmemory : delta.memory = cells) (houtput : delta.output = "")
    (hemit : n.emit kind line description delta = .ok m') {c : Int} {k : CellPatch}
    (hk : cells.find? (.int c) = some k) : m'.read (.int c) = .ok k.value := by
  have hplain : delta.Plain := ⟨houtput, hmemory ▸ h.apart⟩
  refine ((hm.quiet h.quiet).read_emitted hplain hemit).2 ?_
  rw [hmemory, hk]
  rfl

/-- What could be read before still can. -/
theorem keeps_reads (h : Placing m start frame cells vars n stop) (hm : m.Faithful)
    (hhoused : m.Housed setup start) (hmemory : delta.memory = cells) (houtput : delta.output = "")
    (hemit : n.emit kind line description delta = .ok m') {c : Int} {v : Value}
    (hv : m.read (.int c) = .ok v) : m'.read (.int c) = .ok v := by
  have hplain : delta.Plain := ⟨houtput, hmemory ▸ h.apart⟩
  have hn := hm.quiet h.quiet
  refine (hn.read_emitted hplain hemit).2 ?_
  -- it lies in front of the placed objects
  have hnone : cells.find? (.int c) = none := by
    cases hk : cells.find? (.int c) with
    | none => rfl
    | some k =>
      obtain ⟨d, hd, hle⟩ := h.behind _ k hk
      have hlt := hhoused.lt_of_read hm hv
      rw [Number.int_beq_int, decide_eq_true_eq] at hd
      omega
  rw [hmemory, hnone]
  exact hn.read_eq_ok.1 ((h.quiet.read_eq _).trans hv)

/-- The frame shows them. -/
theorem shows (h : Placing m start frame cells vars n stop) {patch : FramePatch}
    (hstack : delta.stack = [(frame, patch)]) (haction : patch.action = .add)
    (hvars : patch.vars = vars) (hnodup : (vars.map FrameVariable.name).Nodup)
    (hemit : n.emit kind line description delta = .ok m') {v : FrameVariable} (hv : v ∈ vars) :
    m'.state.shown? frame v.name = some (State.variableCell v) := by
  obtain ⟨state, happly, rfl⟩ := Machine.emit_eq_ok.1 hemit
  have hapart : delta.stack.Apart := by
    rw [hstack]
    exact List.pairwise_singleton _ _
  have hpatch : (n.nextStep kind line description delta).delta.stack.find? frame = some patch := by
    rw [Machine.Booked.find?_stack n hapart, hstack, Table.find?_cons,
      if_pos (beq_self_eq_true frame)]
    rfl
  subst hvars
  exact h.booked.tidy.shown?_added (Machine.Booked.stack_apart n) happly hpatch haction hv hnodup

end Placing

/-- A variable that the innermost call shows is what its name stands for. -/
theorem Machine.lookup_of_shown {m : Machine} {name : String} {c : Cell}
    (h : m.state.shown? m.currentFrame name = some c) :
    m.lookup name = some ⟨.num c.address, c.type⟩ := by
  obtain ⟨f, hf, hc⟩ := Option.bind_eq_some_iff.1 h
  unfold lookup
  simp only [hf, hc, Option.bind_eq_bind, Option.bind_some, Option.pure_def, Option.some_or]

/-- **A declaration with a struct as its initializer copies the struct.** -/
theorem declare_copies {setup : Setup} (hlayouts : setup.analysis.layouts.Settled)
    (hnames : ∀ e ∈ setup.analysis.layouts, e.2.members.Apart) {m m' : Machine}
    (hm : setup.Passes m) (hfilled : AllFilled m.steps.toList) {frame name : String} {type : CType}
    (hstruct : type.isStruct = true) {line : Int} {value : Value} {description : String} {a b : Int}
    (htakes : TakesAlong setup.analysis.layouts type a m value)
    (h : declare setup frame name type line value description m = .ok (b, m')) :
    Copies setup.analysis.layouts type a b m m' ∧
      ∃ c, m'.state.shown? frame name = some c ∧ c.address = .int b ∧ c.type = type := by
  obtain ⟨size, cells, n, rfl, hsize, hcells, hplacing, hemit⟩ :=
    declare_placing hlayouts.solid (hm.viewed hlayouts).booked h
  refine ⟨.of_cells hlayouts hnames hstruct htakes hsize hcells ?_ ?_, ?_⟩
  · intro c k hk
    exact hplacing.reads hm.faithful rfl rfl hemit hk
  · intro c v hv
    exact hplacing.keeps_reads hm.faithful (hm.housed hlayouts hfilled) rfl rfl hemit hv
  · have hshown := hplacing.shows rfl rfl rfl (List.nodup_singleton _) hemit
      (List.mem_singleton_self _)
    exact ⟨_, hshown, rfl, rfl⟩

/-! ## Arguments -/

namespace Invocation

variable {setup : Setup} {frame : String} {arguments : List (Parameter × Typed)}
  {cells : Table Number CellPatch} {vars : List FrameVariable} {m n m' : Machine}
  {placed : Table Number CellPatch × List FrameVariable}

/-- The variables of the new frame have the names of the parameters. -/
theorem place_names (h : place setup frame arguments cells vars m = .ok (placed, m')) :
    placed.2.map FrameVariable.name
      = vars.map FrameVariable.name ++ arguments.map fun e => e.1.name := by
  induction arguments generalizing cells vars m with
  | nil =>
    obtain ⟨rfl, rfl⟩ := Eval.pure_eq_ok.1 h
    exact (List.append_nil _).symm
  | cons head rest ih =>
    obtain ⟨value, size, address, cursor, more, _, _, _, _, hrest⟩ := place_cons_cases h
    rw [ih hrest, List.map_append, List.append_assoc]
    rfl

/-- Placing goes on behind what has been placed. -/
theorem place_keeps (hlayouts : setup.analysis.layouts.Solid)
    (h : place setup frame arguments cells vars m = .ok (placed, m')) {c : Int} {k : CellPatch}
    (hc : c < m.cursor.nextStack) (hk : cells.find? (.int c) = some k) :
    placed.1.find? (.int c) = some k := by
  induction arguments generalizing cells vars m with
  | nil =>
    obtain ⟨rfl, rfl⟩ := Eval.pure_eq_ok.1 h
    exact hk
  | cons head rest ih =>
    obtain ⟨value, size, address, cursor, more, _, hsize, hcursor, hmore, hrest⟩ :=
      place_cons_cases h
    obtain ⟨_, rfl, rfl⟩ := Cursor.stack_eq_ok.1 hcursor
    have hforward := hlayouts.size_nonneg hsize
    refine ih hrest ?_ ?_
    · rw [Machine.own_cursor]
      show c < m.cursor.nextStack + size
      omega
    · have hnone : more.find? (.int c) = none := by
        rw [Table.find?_eq_none_iff]
        intro e he
        obtain ⟨d, hd, hle⟩ := cellsWithin_behind hlayouts.sound hmore he
        rw [hd, Number.int_beq_int, decide_eq_false_iff_not]
        omega
      rw [Table.find?_putAll (cellsWithin_apart hmore), hnone]
      exact hk

/-- Each struct among the arguments is placed with its members taken along. -/
theorem place_takes (hlayouts : setup.analysis.layouts.Settled) (hquiet : n.Quiet m)
    (h : place setup frame arguments cells vars m = .ok (placed, m')) {parameter : Parameter}
    {t : CType} {a : Int} (hmem : (parameter, ⟨.int a, t⟩) ∈ arguments)
    (hstruct : parameter.fullType.isStruct = true) :
    ∃ b size value more, TakesAlong setup.analysis.layouts parameter.fullType a n value ∧
      parameter.fullType.size setup.analysis.sizes = .ok size ∧
      objectCells setup.analysis.spare setup.analysis.layouts parameter.name parameter.fullType b
        value = .ok more ∧
      (∀ c k, more.find? (.int c) = some k → placed.1.find? (.int c) = some k) ∧
      frameVariable parameter.name parameter.fullType b value ∈ placed.2 := by
  induction arguments generalizing cells vars m with
  | nil => cases hmem
  | cons head rest ih =>
    obtain ⟨value, size, address, cursor, more, hcopy, hsize, hcursor, hmore, hrest⟩ :=
      place_cons_cases h
    rcases List.mem_cons.1 hmem with rfl | hmem
    · have hfilled : parameter.fullType.Filled := by
        refine .single ?_
        rw [CType.isStruct, Bool.and_eq_true, Bool.not_eq_true'] at hstruct
        exact hstruct.2
      obtain ⟨_, rfl, rfl⟩ := Cursor.stack_eq_ok.1 hcursor
      rw [copyValue, if_pos hstruct] at hcopy
      refine ⟨m.cursor.nextStack, size, value, more,
        (readStruct_eq_ok hcopy).2.of_quiet hquiet, hsize, hmore, ?_, ?_⟩
      · intro c k hk
        -- the cells end where placing goes on
        have htiled := cellsWithin_tiled hlayouts hfilled hsize hmore
        have hat : cellTypeAt more c = some k.type := by
          rw [cellTypeAt, hk]
          rfl
        obtain ⟨_, _, _, _, hlt⟩ := htiled.inside c _ hat
        refine place_keeps hlayouts.solid hrest ?_ ?_
        · rw [Machine.own_cursor]
          show c < m.cursor.nextStack + size
          omega
        · rw [Table.find?_putAll (cellsWithin_apart hmore), hk]
          rfl
      · exact place_subset hrest (List.mem_append_right _ (List.mem_singleton_self _))
    · refine ih ?_ hrest hmem
      exact hquiet.trans (Machine.quiet_own _ _ _ _ _)

/-- **Passing a struct copies it.** -/
theorem enter_copies (hlayouts : setup.analysis.layouts.Settled)
    (hnames : ∀ e ∈ setup.analysis.layouts, e.2.members.Apart) (hm : setup.Passes m)
    (hfilled : AllFilled m.steps.toList) {f : Function} {arguments : List Typed} {line : Nat}
    (harity : arguments.length = f.named.length)
    (hparameters : (f.named.map Parameter.name).Nodup)
    (h : enter setup f (m.nextLabel f.name) arguments line m = .ok ((), m')) {parameter : Parameter}
    {t : CType} {a : Int} (hmem : (parameter, ⟨.int a, t⟩) ∈ f.named.zip arguments)
    (hstruct : parameter.fullType.isStruct = true) :
    ∃ b, Copies setup.analysis.layouts parameter.fullType a b m m' ∧
      m'.lookup parameter.name = some ⟨.int b, parameter.fullType⟩ := by
  obtain ⟨cells, vars, m₁, description, m₂, hplace, hemit, rfl⟩ := enter_cases h
  have hplacing := place_placing hlayouts.solid
    (Placing.nothing (hm.viewed hlayouts).booked (m.nextLabel f.name)) hplace
  obtain ⟨b, size, value, more, htakes, hsize, hmore, hincluded, hvar⟩ :=
    place_takes hlayouts ⟨rfl, rfl, rfl, rfl, rfl⟩ hplace hmem hstruct
  -- the variables of the frame have the names of the parameters
  have hnodup : (vars.map FrameVariable.name).Nodup := by
    have hfirst : (f.named.zip arguments).map Prod.fst = f.named :=
      List.map_fst_zip (Nat.le_of_eq harity.symm)
    have hvars : vars.map FrameVariable.name
        = ((f.named.zip arguments).map Prod.fst).map Parameter.name := by
      rw [List.map_map]
      exact place_names hplace
    rw [hvars, hfirst]
    exact hparameters
  refine ⟨b, .of_cells hlayouts hnames hstruct htakes hsize hmore ?_ ?_, ?_⟩
  · intro c k hk
    exact hplacing.reads hm.faithful rfl rfl hemit (hincluded c k hk)
  · intro c v hv
    exact hplacing.keeps_reads hm.faithful (hm.housed hlayouts hfilled) rfl rfl hemit hv
  · have hshown := hplacing.shows rfl rfl rfl hnodup hemit hvar
    -- the label was counted before the call, as that of the new frame is
    have hframe : Machine.currentFrame { m₂ with active := f.name :: m₂.active }
        = m.nextLabel f.name := by
      obtain ⟨state, _, rfl⟩ := Machine.emit_eq_ok.1 hemit
      show Machine.label f.name (m₁.active.count f.name) = _
      rw [place_active hplace]
      rfl
    refine Machine.lookup_of_shown
      (c := State.variableCell (frameVariable parameter.name parameter.fullType b value)) ?_
    rw [hframe]
    exact hshown

end Invocation

end Stepwise
