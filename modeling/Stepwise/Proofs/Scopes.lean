/-
What a name stands for across a statement.

A name is looked for in the frame of the innermost call, then among the variables
outside functions. Blocks do not enter into it: a frame has one variable for each
name, so a declaration in a block replaces the variable of that name for the rest of
the call. And a variable that was replaced still owns its cell: a write to the cell is
shown as a change of the variable with the name, which is thereby moved back.

These are the only two ways in which a name comes to stand for something else. The
calls that a statement makes have frames of their own, which come and go above the one
of the call they are made from (`StaysInside`), and what is held back for a frame is
shown where the owner of the cell is (`Machine.Accounted`).
-/
import Stepwise.Proofs.Calls
import Stepwise.Proofs.Copies
import Stepwise.Syntax.Equality

set_option autoImplicit false

namespace Stepwise

open Relation (ReflTransGen)

/-! ## Staying inside a call -/

/-- A move between machines in which the given calls are active, and perhaps others above them. -/
structure WalkInside (setup : Setup) (calls : List String) (m m' : Machine) : Prop where
  walk : Walk setup m m'
  before : calls <:+ m.active
  after : calls <:+ m'.active

/-- From the given active calls there were moves that came back to them and left none of them in
between. -/
def StaysInside (setup : Setup) (calls : List String) (m m' : Machine) : Prop :=
  m.active = calls → m'.active = calls ∧ ReflTransGen (WalkInside setup calls) m m'

section Inside

variable {setup : Setup} {calls : List String}

instance : IsPreorder Machine (StaysInside setup calls) where
  refl _ h := ⟨h, .refl⟩
  trans _ _ _ h h' hactive :=
    ⟨(h' (h hactive).1).1, (h hactive).2.trans (h' (h hactive).1).2⟩

/-- A move that changes no active call stays inside. -/
theorem Walk.staysInside {m m' : Machine} (h : Walk setup m m') (hsame : m'.active = m.active) :
    StaysInside setup calls m m' := by
  intro hactive
  refine ⟨hsame.trans hactive, .single ⟨h, ?_, ?_⟩⟩
  · rw [hactive]
  · rw [hsame, hactive]

instance : Acting setup (StaysInside setup calls) where
  act _ _ h := (Walk.act h).staysInside h.active

instance : Executing setup (StaysInside setup calls) where
  declare _ _ _ _ _ _ _ _ h := (Walk.declare _ _ _ _ _ _ h).staysInside (declare_active h)

/-- A call is entered and left above the calls it was made from. -/
theorem invocation_staysInside {f : Function}
    (hf : setup.analysis.program.function? f.name = some f) (arguments : List Typed) (line : Nat)
    {body : Run Flow} (hbody : Follows (StaysInside setup (f.name :: calls)) body) :
    Follows (StaysInside setup calls) (Invocation.run setup f arguments line body) := by
  unfold Invocation.run
  refine Follows.ite (fun _ => Follows.fail _) fun harity => ?_
  intro m v m' hm hactive
  obtain ⟨frame, m₁, h₁, hm₁⟩ := Eval.bind_eq_ok.1 hm
  obtain ⟨rfl, rfl⟩ := Run.ask_eq_ok.1 h₁
  obtain ⟨_, m₂, hentered, hm₂⟩ := Eval.bind_eq_ok.1 hm₁
  obtain ⟨flow, m₃, h₃, hleft⟩ := Eval.bind_eq_ok.1 hm₂
  have hentry : m₂.active = f.name :: calls := Invocation.enter_active hentered hactive
  obtain ⟨hexit, hbetween⟩ := hbody m₂ flow m₃ h₃ hentry
  have hback : m'.active = calls := Invocation.leave_active hleft hexit
  have henter : Walk setup m m₂ := .enter f arguments line hf (Decidable.not_not.1 harity) hentered
  have hleave : Walk setup m₃ m' := by
    rw [Machine.nextLabel, hactive] at hleft
    exact .leave f calls flow hexit hleft
  have hinside : ∀ {n : Machine}, n.active = calls ∨ n.active = f.name :: calls →
      calls <:+ n.active := by
    rintro n (h | h) <;> rw [h]
    exact List.suffix_cons _ _
  have hwithin : ReflTransGen (WalkInside setup calls) m₂ m₃ :=
    ReflTransGen.mono (fun _ _ hmove => ⟨hmove.walk, (List.suffix_cons _ _).trans hmove.before,
      (List.suffix_cons _ _).trans hmove.after⟩) m₂ m₃ hbetween
  exact ⟨hback, (ReflTransGen.head ⟨henter, hinside (.inl hactive), hinside (.inr hentry)⟩
    hwithin).tail ⟨hleave, hinside (.inr hexit), hinside (.inl hback)⟩⟩

/-- Calls of the program's functions stay inside the calls they are made from. The induction is on
the budget. -/
theorem invoke_staysInside (category : Category) (budget : Nat) (calls : List String) {f : Function}
    (hf : setup.analysis.program.function? f.name = some f) (scope : Scope) (arguments : List Typed)
    (line : Nat) :
    Follows (StaysInside setup calls)
      (invoke setup category.commentary budget f scope arguments line) := by
  induction budget generalizing calls f scope arguments line with
  | zero => exact Follows.fail _
  | succ budget ih =>
    rw [invoke]
    refine invocation_staysInside hf arguments line ?_
    exact runBody_follows category (callBy_follows fun f hf => ih _ hf) scope f.body

/-- **Statements stay inside the calls that they are executed in.** -/
theorem run_staysInside (category : Category) (count : Nat) (calls : List String) (scope : Scope)
    (s : Stmt) :
    Follows (StaysInside setup calls)
      ((walker setup category.commentary (callAt setup category.commentary count) scope).run s) := by
  have hcall : ∀ scope name arguments line, Follows (StaysInside setup calls)
      (callAt setup category.commentary count scope name arguments line) :=
    callBy_follows fun _ hf => invoke_staysInside category _ calls hf
  show (Likeness.following (StaysInside setup calls)).rel _
    ((walker setup category.commentary (callAt setup category.commentary count) scope).run s)
  exact Parallel.run_alike following_executes
    (Parallel.commentary_alike following_executes category _ _)
    (fun e _ => evaluateWith_follows hcall scope e) fun _ _ => Follows.fail _

end Inside

/-! ## Variables that stay -/

/-- A variable that a frame has is there after more were set, and so is one that was set. -/
theorem Frame.exists_find?_setAll {f : Frame} {vars : List FrameVariable} {name : String}
    (h : (∃ c, f.vars.find? name = some c) ∨ name ∈ vars.map FrameVariable.name) :
    ∃ c, (f.setAll vars).vars.find? name = some c := by
  induction vars generalizing f with
  | nil => exact h.resolve_right List.not_mem_nil
  | cons v vars ih =>
    rw [setAll_cons]
    refine ih ?_
    by_cases hv : v.name = name
    · exact Or.inl ⟨_, Table.find?_put_of_beq (beq_iff_eq.2 hv)⟩
    · rcases h with ⟨c, hc⟩ | hmem
      · refine Or.inl ⟨c, ?_⟩
        rw [Table.find?_put_of_ne (beq_eq_false_iff_ne.2 hv)]
        exact hc
      · rw [List.map_cons, List.mem_cons] at hmem
        exact Or.inr (hmem.resolve_left fun heq => hv heq.symm)

namespace State.Tidy

variable {s s' : State} {step : Step} {label name : String}

/-- A frame goes on showing a variable unless the step takes the frame away. -/
theorem exists_shown? (hs : s.Tidy) (hpatches : step.delta.stack.Apart) (h : s.apply step = .ok s')
    (hkept : ∀ patch, step.delta.stack.find? label = some patch → patch.action ≠ .remove) {c : Cell}
    (hc : s.shown? label name = some c) : ∃ d, s'.shown? label name = some d := by
  obtain ⟨_, hframes⟩ := apply_frames hs.labels hpatches h
  obtain ⟨f, hf, hfind⟩ := Option.bind_eq_some_iff.1 hc
  have hfound := hframes label
  rw [hf] at hfound
  cases hpatch : step.delta.stack.find? label with
  | none =>
    rw [hpatch] at hfound
    exact ⟨c, by rw [shown?, hfound]; exact hfind⟩
  | some patch =>
    have hset : ∃ d, (f.setAll patch.vars).vars.find? name = some d :=
      Frame.exists_find?_setAll (Or.inl ⟨c, hfind⟩)
    rw [hpatch] at hfound
    dsimp only at hfound
    rw [shown?, hfound, patched]
    cases haction : patch.action with
    | remove => exact absurd haction (hkept patch hpatch)
    | update => exact hset
    | add => exact hset

/-- A frame shows the variables that a step adds to it. -/
theorem exists_shown?_added (hs : s.Tidy) (hpatches : step.delta.stack.Apart)
    (h : s.apply step = .ok s') {patch : FramePatch}
    (hpatch : step.delta.stack.find? label = some patch) (hadd : patch.action = .add)
    (hname : name ∈ patch.vars.map FrameVariable.name) : ∃ d, s'.shown? label name = some d := by
  obtain ⟨_, hframes⟩ := apply_frames hs.labels hpatches h
  have hfound := hframes label
  rw [hpatch] at hfound
  dsimp only at hfound
  rw [shown?, hfound, patched, hadd]
  exact Frame.exists_find?_setAll (Or.inr hname)

end State.Tidy

/-! ## What a move announces -/

/-- What a step says of a frame is of its own, or it is an update with what was held back. -/
theorem Machine.patch_cases {m : Machine} {kind : StepKind} {line : Int} {description : String}
    {delta : Delta} {label : String} {patch : FramePatch} (hstack : delta.stack.Apart)
    (h : (m.nextStep kind line description delta).delta.stack.find? label = some patch) :
    delta.stack.find? label = some patch ∨
      delta.stack.find? label = none ∧ patch = { action := .update, vars := m.heldBack label } := by
  rw [Booked.find?_stack m hstack, Option.or_eq_some_iff] at h
  refine h.imp id fun ⟨hnone, hheld⟩ => ⟨hnone, ?_⟩
  unfold updateOf at hheld
  split at hheld
  · cases hheld
  · exact (Option.some.inj hheld).symm

/-- A move comes to a step with a change of its own, shown by a machine that has perhaps placed
objects before: their owners are new, and the change adds them to their frame. -/
structure Announces (m n : Machine) (delta : Delta) (step : Step) (m' : Machine) : Prop where
  quiet : m.Quiet n
  booked : ∃ limit, n.Booked limit
  fits : n.Fits delta
  placed : ∀ a o, n.owners.find? a = some o → m.owners.find? a = some o ∨
    ∃ patch, delta.stack.find? o.frame = some patch ∧ patch.action = .add ∧
      o.name ∈ patch.vars.map FrameVariable.name
  shows : ∃ kind line description, step = n.nextStep kind line description delta
  applies : n.state.apply step = .ok m'.state
  steps : m'.steps = n.steps.push step
  /-- With a frame, the owners in it go. -/
  kept : ∀ a o, m'.owners.find? a = some o → n.owners.find? a = some o ∧
    ∀ patch, delta.stack.find? o.frame = some patch → patch.action ≠ .remove

/-- The frame that a move changes by itself: none, that of the innermost call by adding to it, or that
of the call that is entered or left. -/
inductive Walk.Change (m m' : Machine) : Table String FramePatch → Prop
  | nothing : Change m m' []
  | declare {patch : FramePatch} (hadd : patch.action = .add) :
      Change m m' [(m.currentFrame, patch)]
  | enter {name : String} {patch : FramePatch} (hactive : m'.active = name :: m.active) :
      Change m m' [(Machine.label name (m.active.count name), patch)]
  | leave {name : String} {outer : List String} {patch : FramePatch}
      (hbefore : m.active = name :: outer) (hafter : m'.active = outer) :
      Change m m' [(Machine.label name (outer.count name), patch)]

section Moves

variable {setup : Setup} {settings : Settings} {m n m' : Machine} {delta : Delta}

/-- Objects that were placed for a frame are announced by a step that adds them to it. -/
theorem Placing.announces {start stop : Int} {frame : String} {cells : Table Number CellPatch}
    {vars : List FrameVariable} (hm : m.Viewed settings start)
    (h : Placing m start frame cells vars n stop) (hmemory : delta.memory = cells)
    {patch : FramePatch} (hstack : delta.stack = [(frame, patch)]) (haction : patch.action = .add)
    (hvars : patch.vars = vars) {kind : StepKind} {line : Int} {description : String}
    {m₁ : Machine} (hemit : n.emit kind line description delta = .ok m₁)
    (hstate : m'.state = m₁.state) (hsteps : m'.steps = m₁.steps) (howners : m'.owners = m₁.owners) :
    Announces m n delta (n.nextStep kind line description delta) m' := by
  obtain ⟨state, happly, rfl⟩ := Machine.emit_eq_ok.1 hemit
  have hfound : delta.stack.find? frame = some patch := by
    rw [hstack]
    exact if_pos (beq_self_eq_true _)
  refine ⟨h.quiet, ⟨stop, h.booked⟩, h.fits hm.booked hmemory hstack haction hvars, ?_,
    ⟨kind, line, description, rfl⟩, hstate ▸ happly, hsteps, ?_⟩
  · intro a o ho
    refine (h.owners a o ho).imp id fun ⟨hframe, hname⟩ => ⟨patch, ?_, haction, hvars ▸ hname⟩
    rw [hframe]
    exact hfound
  · intro a o ho
    rw [howners] at ho
    refine ⟨ho, fun found hfound' => ?_⟩
    rw [hstack, Table.find?_cons] at hfound'
    split at hfound'
    · rw [← Option.some.inj hfound', haction]
      decide
    · cases hfound'

/-- **A move changes neither frames nor owners, or it announces a step.** -/
theorem Walk.announces (hlayouts : setup.analysis.layouts.Solid) (h : Walk setup m m')
    (hm : m.Viewed settings m.cursor.nextStack) (hapart : m.owners.Apart) :
    (m'.state = m.state ∧ m'.steps = m.steps ∧ m'.owners = m.owners) ∨
      ∃ n delta step, Announces m n delta step m' ∧ Walk.Change m m' delta.stack := by
  cases h with
  | act h =>
    have howners := h.beside.2.1
    cases h with
    | emit kind line description h =>
      obtain ⟨state, happly, rfl⟩ := Machine.emit_eq_ok.1 h
      refine Or.inr ⟨m, {}, _, ⟨⟨rfl, rfl, rfl, rfl, rfl⟩, ⟨_, hm.booked⟩, m.fits_of_output "",
        fun _ _ => Or.inl, ⟨kind, _, description, rfl⟩, happly, rfl, ?_⟩, .nothing⟩
      exact fun a o ho => ⟨ho, fun patch hpatch => by cases hpatch⟩
    | write address value h =>
      obtain ⟨a, _, _, rfl⟩ := Machine.write_eq_ok.1 h
      exact Or.inl ⟨rfl, rfl, rfl⟩
    | _ => exact Or.inl ⟨rfl, rfl, rfl⟩
  | declare name type line value description address h =>
    obtain ⟨size, cells, n, rfl, _, _, hplacing, hemit⟩ := declare_placing hlayouts hm.booked h
    exact Or.inr ⟨n, _, _, hplacing.announces hm rfl rfl rfl rfl hemit rfl rfl rfl, .declare rfl⟩
  | enter f arguments line hf harity h =>
    have hactive := Invocation.enter_active h rfl
    obtain ⟨cells, vars, m₁, description, m₂, hplace, hemit, rfl⟩ := Invocation.enter_cases h
    have hplacing := Invocation.place_placing hlayouts
      (Placing.nothing hm.booked (m.nextLabel f.name)) hplace
    exact Or.inr ⟨m₁, _, _, hplacing.announces hm rfl rfl rfl rfl hemit rfl rfl rfl, .enter hactive⟩
  | leave f outer flow hactive h =>
    have hafter := Invocation.leave_active h hactive
    obtain ⟨line, description, m₁, hemit, rfl⟩ := Invocation.leave_cases h
    obtain ⟨state, happly, rfl⟩ := Machine.emit_eq_ok.1 hemit
    -- the step is shown by a machine on which the call is no longer active
    have hbefore : ({ m with active := m.active.tail }).Viewed settings m.cursor.nextStack :=
      hm.congr rfl rfl rfl rfl
    refine Or.inr ⟨{ m with active := m.active.tail }, _, _, ⟨⟨rfl, rfl, rfl, rfl, rfl⟩,
      ⟨_, hbefore.booked⟩, Machine.fits_of_frame _ _ (show FrameAction.remove ≠ .update by decide),
      fun _ _ => Or.inl, ⟨_, _, _, rfl⟩, happly, rfl, ?_⟩, .leave hactive hafter⟩
    intro a o ho
    obtain ⟨key, hkey, heq⟩ := Table.mem_of_find? ho
    obtain ⟨hmem, hframe⟩ := List.mem_filter.1 hkey
    refine ⟨?_, fun patch hpatch => ?_⟩
    · have hself : (key == key) = true := PartialEquivBEq.trans heq (BEq.symm heq)
      rw [← Table.find?_congr heq]
      exact Table.find?_of_mem hapart hself hmem
    · rw [Table.find?_cons, if_neg] at hpatch
      · cases hpatch
      · rw [bne_iff_ne] at hframe
        simpa using hframe.symm

theorem Machine.own_owners_apart (hm : m.owners.Apart) (type : CType) (address : Int)
    (frame name : String) : (m.own type address frame name).owners.Apart := by
  unfold own
  split
  · exact hm
  · exact Table.apart_put _ _ hm

theorem Invocation.place_owners_apart {frame : String} {arguments : List (Parameter × Typed)}
    {cells : Table Number CellPatch} {vars : List FrameVariable}
    {placed : Table Number CellPatch × List FrameVariable} (hm : m.owners.Apart)
    (h : place setup frame arguments cells vars m = .ok (placed, m')) : m'.owners.Apart := by
  induction arguments generalizing cells vars m with
  | nil =>
    obtain ⟨_, rfl⟩ := Eval.pure_eq_ok.1 h
    exact hm
  | cons head rest ih =>
    obtain ⟨value, size, address, cursor, more, _, _, _, _, hrest⟩ := place_cons_cases h
    have hcursor : ({ m with cursor := cursor } : Machine).owners.Apart := hm
    exact ih (Machine.own_owners_apart hcursor _ _ _ _) hrest

/-- No address gets two owners. -/
theorem Walk.owners_apart (h : Walk setup m m') (hm : m.owners.Apart) : m'.owners.Apart := by
  cases h with
  | act h =>
    rw [h.beside.2.1]
    exact hm
  | declare name type line value description address h =>
    obtain ⟨size, cursor, cells, _, _, _, hemit⟩ := declare_cases h
    obtain ⟨state, _, rfl⟩ := Machine.emit_eq_ok.1 hemit
    have hcursor : ({ m with cursor := cursor } : Machine).owners.Apart := hm
    exact Machine.own_owners_apart hcursor _ _ _ _
  | enter f arguments line hf harity h =>
    obtain ⟨cells, vars, m₁, description, m₂, hplace, hemit, rfl⟩ := Invocation.enter_cases h
    obtain ⟨state, _, rfl⟩ := Machine.emit_eq_ok.1 hemit
    have hplaced : m₁.owners.Apart := Invocation.place_owners_apart hm hplace
    exact hplaced
  | leave f outer flow hactive h =>
    obtain ⟨line, description, m₁, hemit, rfl⟩ := Invocation.leave_cases h
    obtain ⟨state, _, rfl⟩ := Machine.emit_eq_ok.1 hemit
    exact hm.sublist List.filter_sublist

end Moves

/-! ## Owners and types -/

/-- The machine accounts for its variables: an address has one owner, which its frame shows, and a
scalar that a frame shows is in a cell of its type. -/
structure Machine.Accounted (m : Machine) : Prop where
  apart : m.owners.Apart
  shown : ∀ a o, m.owners.find? a = some o → ∃ c, m.state.shown? o.frame o.name = some c
  typed : ∀ label name c, m.state.shown? label name = some c → c.type.isAggregate = false →
    (m.state.memory.find? c.address).map Cell.type = some c.type

theorem Machine.accounted_start (settings : Settings) : (Machine.start settings).Accounted where
  apart := List.Pairwise.nil
  shown a o ho := by cases ho
  typed label name c hc := by cases hc

/-- A step that shows no cell of its own at an address keeps the type that is there. -/
theorem Machine.type_emitted {m : Machine} {kind : StepKind} {line : Int} {description : String}
    {delta : Delta} {state : State} (hwrites : m.writes.Apart) (hmemory : delta.memory.Apart)
    (happly : m.state.apply (m.nextStep kind line description delta) = .ok state) {a : Number}
    (hfresh : delta.memory.find? a = none) :
    (state.memory.find? a).map Cell.type = (m.state.memory.find? a).map Cell.type := by
  have hcontents : ∀ cell : Option Cell,
      cell.map Cell.type = (cell.map Cell.contents).map CellPatch.type := by
    intro cell
    rw [Option.map_map]
    rfl
  rw [hcontents, find?_emitted hwrites hmemory happly, hfresh, Option.none_or, find?_pendingCells]
  -- a write that was held back shows the type of the cell that is there
  cases m.state.memory.find? a with
  | none => cases m.writes.find? a <;> rfl
  | some cell => cases m.writes.find? a <;> rfl

section Accounts

variable {setup : Setup} {settings : Settings} {m n m' : Machine} {delta : Delta} {step : Step}

theorem Announces.accounted (h : Announces m n delta step m') (hm : m.Accounted)
    (hapart : m'.owners.Apart) : m'.Accounted := by
  obtain ⟨limit, hbooked⟩ := h.booked
  obtain ⟨kind, line, description, rfl⟩ := h.shows
  have happly := h.applies
  have hstate : n.state = m.state := h.quiet.1
  have hpatches : (n.nextStep kind line description delta).delta.stack.Apart :=
    Machine.Booked.stack_apart n
  refine ⟨hapart, fun a o ho => ?_, fun label name c hc hscalar => ?_⟩
  · obtain ⟨howner, hkept⟩ := h.kept a o ho
    rcases h.placed a o howner with hold | ⟨patch, hpatch, hadd, hname⟩
    · obtain ⟨c, hc⟩ := hm.shown a o hold
      rw [← hstate] at hc
      refine hbooked.tidy.exists_shown? hpatches happly (fun patch hpatch => ?_) hc
      rcases Machine.patch_cases h.fits.stack hpatch with hown | ⟨_, rfl⟩
      · exact hkept patch hown
      · exact fun haction => by cases haction
    · refine hbooked.tidy.exists_shown?_added hpatches happly ?_ hadd hname
      rw [Machine.Booked.find?_stack n h.fits.stack, hpatch]
      rfl
  · rcases hbooked.shown_cases h.fits happly hc hscalar with
      ⟨hold, hfresh, _⟩ | ⟨_, cell, hcell, htype, _⟩
    · rw [Machine.type_emitted hbooked.apart h.fits.memory happly hfresh, hstate]
      exact hm.typed label name c (hstate ▸ hold) hscalar
    · rw [hcell, Option.map_some, htype]

/-- **Every move keeps the machine accounting for its variables.** -/
theorem Walk.accounted (hlayouts : setup.analysis.layouts.Solid) (h : Walk setup m m')
    (hviewed : m.Viewed settings m.cursor.nextStack) (hm : m.Accounted) : m'.Accounted := by
  have hapart := h.owners_apart hm.apart
  rcases h.announces hlayouts hviewed hm.apart with ⟨hstate, _, howners⟩ | ⟨n, delta, step, hann, _⟩
  · refine ⟨hapart, ?_, ?_⟩
    · rw [hstate, howners]
      exact hm.shown
    · rw [hstate]
      exact hm.typed
  · exact hann.accounted hm hapart

/-- A machine in order, as execution passes through it. -/
structure Machine.InOrder (settings : Settings) (m : Machine) : Prop where
  viewed : m.Viewed settings m.cursor.nextStack
  accounted : m.Accounted
  stacked : m.Stacked

theorem Setup.Passes.inOrder (hlayouts : setup.analysis.layouts.Solid)
    (hnames : ∀ f, setup.analysis.program.function? f.name = some f → Callable f.name)
    (h : setup.Passes m) : m.InOrder setup.settings := by
  induction h with
  | refl =>
    exact ⟨Machine.viewed_start _ _, Machine.accounted_start _, Machine.stacked_start _⟩
  | tail _ hstep ih =>
    exact ⟨hstep.viewed hlayouts ih.viewed, hstep.accounted hlayouts ih.viewed ih.accounted,
      (hstep.stacked hnames ih.stacked).1⟩

end Accounts

/-! ## What names stand for -/

/-- The same object: the type is the same, and so is the address or it is equal as a number. -/
def Place.SameAs (p q : Place) : Prop :=
  q.type = p.type ∧ (q.address = p.address ∨ (p.address == q.address) = true)

/-- Where the variable of a cell is. -/
def Cell.place (c : Cell) : Place :=
  ⟨.num c.address, c.type⟩

/-- The cell that a name stands for, and the frame that shows it: that of the innermost call, or the
one of the variables outside functions if the innermost call has no variable of the name. -/
structure Machine.Finds (m : Machine) (name frame : String) (c : Cell) : Prop where
  shown : m.state.shown? frame name = some c
  inner : frame = m.currentFrame ∨
    frame = globalFrame ∧ m.state.shown? m.currentFrame name = none

/-- The address belongs to a scalar of the name that another variable has replaced in its frame. -/
def Machine.Replaced (m : Machine) (name : String) (a : Number) : Prop :=
  ∃ frame c, m.Finds name frame c ∧ m.owners.find? a = some ⟨frame, name⟩ ∧
    ¬(c.type.isAggregate = false ∧ (c.address == a) = true)

/-- The step declares a variable of the name in the frame. -/
def Step.Redeclares (step : Step) (frame name : String) : Prop :=
  ∃ patch, step.delta.stack.find? frame = some patch ∧ patch.action = .add ∧
    name ∈ patch.vars.map FrameVariable.name

/-- The step leaves alone what a name stands for: it declares no variable of the name in the innermost
call and writes to none that was replaced. -/
structure Step.Spares (step : Step) (m : Machine) (name : String) : Prop where
  declares : ¬step.Redeclares m.currentFrame name
  writes : ∀ a, m.Replaced name a → step.delta.memory.find? a = none

theorem Machine.lookup_eq (m : Machine) (name : String) :
    m.lookup name
      = ((m.state.shown? m.currentFrame name).or (m.state.shown? globalFrame name)).map Cell.place := by
  have hfind : ∀ frame, (do
      let cell ← (← m.state.frame? frame).vars.find? name
      return (⟨.num cell.address, cell.type⟩ : Place))
        = (m.state.shown? frame name).map Cell.place := by
    intro frame
    rw [State.shown?]
    cases m.state.frame? frame with
    | none => rfl
    | some f =>
      show (f.vars.find? name).bind _ = (f.vars.find? name).map Cell.place
      cases f.vars.find? name <;> rfl
  unfold lookup
  dsimp only
  rw [hfind, hfind]
  cases m.state.shown? m.currentFrame name <;> rfl

theorem Machine.lookup_eq_some_iff {m : Machine} {name : String} {place : Place} :
    m.lookup name = some place ↔ ∃ frame c, m.Finds name frame c ∧ c.place = place := by
  rw [lookup_eq, Option.map_eq_some_iff]
  constructor
  · rintro ⟨c, hc, hplace⟩
    rcases Option.or_eq_some_iff.1 hc with hinner | ⟨hnone, houter⟩
    · exact ⟨_, c, ⟨hinner, Or.inl rfl⟩, hplace⟩
    · exact ⟨_, c, ⟨houter, Or.inr ⟨rfl, hnone⟩⟩, hplace⟩
  · rintro ⟨frame, c, ⟨hshown, rfl | ⟨rfl, hnone⟩⟩, hplace⟩
    · exact ⟨c, Option.or_eq_some_iff.2 (Or.inl hshown), hplace⟩
    · exact ⟨c, Option.or_eq_some_iff.2 (Or.inr ⟨hnone, hshown⟩), hplace⟩

/-! ## Labels in view -/

theorem callLabels_mem_of_suffix {outer calls : List String} (h : outer <:+ calls) {label : String}
    (hlabel : label ∈ callLabels outer) : label ∈ callLabels calls := by
  obtain ⟨inner, rfl⟩ := h
  induction inner with
  | nil => exact hlabel
  | cons name inner ih => exact List.mem_append_left _ ih

/-- The innermost frame is that of the variables outside functions or belongs to an active call. -/
theorem Machine.currentFrame_cases (m : Machine) :
    m.currentFrame = globalFrame ∨ m.currentFrame ∈ callLabels m.active := by
  unfold currentFrame
  cases m.active with
  | nil => exact Or.inl rfl
  | cons name outer => exact Or.inr (List.mem_append_right _ (List.mem_singleton_self _))

theorem Machine.Stacked.active_eq_nil {m : Machine} (hm : m.Stacked)
    (h : m.currentFrame = globalFrame) : m.active = [] := by
  unfold currentFrame at h
  cases hactive : m.active with
  | nil => rfl
  | cons name outer =>
    rw [hactive] at h
    exact absurd h (label_ne_globalFrame (hm.callable name (by simp [hactive])) _)

/-- A frame that names are looked for in. -/
def Machine.InView (m : Machine) (frame : String) : Prop :=
  frame = m.currentFrame ∨ frame = globalFrame

/-- The label of a call that comes on top of others is none of the frames in view from one of them. -/
theorem Machine.label_not_inView {m : Machine} {calls : List String} {name : String}
    (hname : Callable name) (hcalls : ∀ other ∈ calls, Callable other) (h : m.active <:+ calls) :
    ¬m.InView (label name (calls.count name)) := by
  have hglobal : label name (calls.count name) ≠ globalFrame := label_ne_globalFrame hname _
  rintro (hcurrent | heq)
  · rcases m.currentFrame_cases with hframe | hframe
    · exact hglobal (hcurrent.trans hframe)
    · refine nextLabel_not_mem hname hcalls ?_
      rw [hcurrent]
      exact callLabels_mem_of_suffix h hframe
  · exact hglobal heq

section Names

variable {setup : Setup} {settings : Settings} {m₀ m n m' : Machine} {delta : Delta} {step : Step}
  {name frame : String} {c : Cell}

/-- Inside a call, a move changes a frame in view at most by adding to that of the call itself. -/
theorem Walk.Change.inView {stack : Table String FramePatch} (h : Walk.Change m m' stack)
    (hm : m.Stacked) (hm' : m'.Stacked) (hbefore : m₀.active <:+ m.active)
    (hafter : m₀.active <:+ m'.active) {frame : String} (hview : m₀.InView frame)
    {patch : FramePatch} (hpatch : stack.find? frame = some patch) :
    frame = m₀.currentFrame ∧ patch.action = .add := by
  cases h with
  | nothing => cases hpatch
  | declare hadd =>
    rw [Table.find?_cons] at hpatch
    split at hpatch
    · next heq =>
      obtain rfl := Option.some.inj hpatch
      refine ⟨?_, hadd⟩
      rcases hview with hcurrent | hglobal
      · exact hcurrent
      · -- no call is active, so none was before
        have hnone := hm.active_eq_nil ((beq_iff_eq.1 heq).trans hglobal)
        rw [hnone, List.suffix_nil] at hbefore
        rw [hglobal, Machine.currentFrame, hbefore]
    · cases hpatch
  | enter hactive =>
    rw [Table.find?_cons] at hpatch
    split at hpatch
    · next heq =>
      rw [← beq_iff_eq.1 heq] at hview
      have hcallable := hm'.callable
      rw [hactive, List.forall_mem_cons] at hcallable
      -- the new call is further in than the one whose view is asked for
      exact absurd hview (Machine.label_not_inView hcallable.1 hcallable.2 hbefore)
    · cases hpatch
  | leave houter hinner =>
    rw [Table.find?_cons] at hpatch
    split at hpatch
    · next heq =>
      rw [← beq_iff_eq.1 heq] at hview
      have hcallable := hm.callable
      rw [houter, List.forall_mem_cons] at hcallable
      -- the call that is left was further in, since the other goes on behind it
      exact absurd hview (Machine.label_not_inView hcallable.1 hcallable.2 (hinner ▸ hafter))
    · cases hpatch

/-- A cell of the same type in the same place. -/
def Cell.SameSpot (c d : Cell) : Prop :=
  d.type = c.type ∧ (d.address = c.address ∨ (c.address == d.address) = true)

/-- What a name stood for in one machine it still stands for in another: the frame shows the variable
in the same spot, nothing hides it, and no cell has come to it. -/
structure Machine.Holds (m₀ : Machine) (name frame : String) (c : Cell) (m : Machine) : Prop where
  shown : ∃ d, m.state.shown? frame name = some d ∧ c.SameSpot d
  inner : frame ≠ m₀.currentFrame → m.state.shown? m₀.currentFrame name = none
  owners : ∀ a, m.owners.find? a = some ⟨frame, name⟩ → m₀.owners.find? a = some ⟨frame, name⟩

theorem Cell.SameSpot.place {d : Cell} (h : c.SameSpot d) : c.place.SameAs d.place := by
  refine ⟨h.1, h.2.imp (fun heq => ?_) id⟩
  rw [Cell.place, heq]
  rfl

theorem Machine.Finds.holds (h : m₀.Finds name frame c) : m₀.Holds name frame c m₀ := by
  refine ⟨⟨c, h.shown, rfl, Or.inl rfl⟩, fun hne => ?_, fun _ => id⟩
  exact (h.inner.resolve_left hne).2

theorem Machine.Finds.inView (h : m₀.Finds name frame c) : m₀.InView frame :=
  h.inner.imp id And.left

/-- A name stands for the same object where it is held. -/
theorem Machine.Holds.lookup (h : m₀.Holds name frame c m) (hactive : m.active = m₀.active)
    (hview : m₀.InView frame) : ∃ place, m.lookup name = some place ∧ c.place.SameAs place := by
  obtain ⟨d, hd, hsame⟩ := h.shown
  have hcurrent : m.currentFrame = m₀.currentFrame := by
    rw [currentFrame, hactive, currentFrame]
  refine ⟨d.place, lookup_eq_some_iff.2 ⟨frame, d, ⟨hd, ?_⟩, rfl⟩, hsame.place⟩
  rw [hcurrent]
  by_cases hframe : frame = m₀.currentFrame
  · exact Or.inl hframe
  · exact Or.inr ⟨hview.resolve_left hframe, h.inner hframe⟩

/-- A variable that was held back has the type of the cell that it owns, and the step writes there. -/
theorem Announces.heldBack (h : Announces m n delta step m') (hnone : delta.stack.find? frame = none)
    {v : FrameVariable} (hv : v ∈ n.heldBack frame) :
    m.owners.find? v.address = some ⟨frame, v.name⟩ ∧
      (m.state.memory.find? v.address).map Cell.type = some v.type ∧
      step.delta.memory.find? v.address ≠ none := by
  obtain ⟨limit, hbooked⟩ := h.booked
  obtain ⟨kind, line, description, rfl⟩ := h.shows
  obtain ⟨a, value, hmem, hpending⟩ := Machine.mem_heldBack.1 hv
  obtain ⟨cell, name, f, hcell, howner, _, rfl⟩ := Machine.pendingVariable?_eq_some.1 hpending
  have hself : (a == a) = true := by
    obtain ⟨k, hk, _⟩ := hbooked.below a _ howner
    exact PartialEquivBEq.trans (BEq.symm hk) hk
  refine ⟨?_, ?_, ?_⟩
  · refine (h.placed a _ howner).resolve_right ?_
    rintro ⟨patch, hpatch, _⟩
    rw [hnone] at hpatch
    cases hpatch
  · rw [← h.quiet.1, hcell]
    rfl
  · have hwrite : n.writes.find? a = some value := Table.find?_of_mem hbooked.apart hself hmem
    have hpatch : n.pendingCells.find? a ≠ none := by
      rw [n.find?_pendingCells, hwrite, hcell]
      exact Option.some_ne_none _
    show (n.pendingCells.putAll delta.memory).find? a ≠ none
    rw [Table.find?_putAll h.fits.memory]
    cases delta.memory.find? a with
    | none => exact hpatch
    | some k => exact Option.some_ne_none _

/-- What a frame in view shows of a name after a step was shown before, or it was held back, if the
step does not declare the name. -/
theorem Announces.shown_cases (h : Announces m n delta step m')
    (hown : ∀ patch, delta.stack.find? frame = some patch →
      frame = m₀.currentFrame ∧ patch.action = .add)
    (hdeclares : ¬step.Redeclares m₀.currentFrame name) {d : Cell}
    (hd : m'.state.shown? frame name = some d) :
    m.state.shown? frame name = some d ∨ delta.stack.find? frame = none ∧
      ∃ v ∈ n.heldBack frame, v.name = name ∧ d = State.variableCell v := by
  obtain ⟨limit, hbooked⟩ := h.booked
  obtain ⟨kind, line, description, rfl⟩ := h.shows
  rw [← h.quiet.1]
  rcases hbooked.tidy.shown?_apply (Machine.Booked.stack_apart n) h.applies hd with
    ⟨_, hold⟩ | ⟨patch, hpatch, _, ⟨v, hv, hname, rfl⟩ | ⟨_, hold⟩⟩
  · exact Or.inl hold
  · refine Or.inr ?_
    rcases Machine.patch_cases h.fits.stack hpatch with hfound | ⟨hnone, rfl⟩
    · obtain ⟨rfl, hadd⟩ := hown patch hfound
      exact absurd ⟨patch, hpatch, hadd, hname ▸ List.mem_map_of_mem hv⟩ hdeclares
    · exact ⟨hnone, v, hv, hname, rfl⟩
  · exact Or.inl hold

/-- **A step that spares a name leaves it with what it stands for.** -/
theorem Announces.holds (h : Announces m n delta step m') (hm : m.Accounted)
    (hfinds : m₀.Finds name frame c) (hheld : m₀.Holds name frame c m)
    (hview : ∀ label, m₀.InView label → ∀ patch, delta.stack.find? label = some patch →
      label = m₀.currentFrame ∧ patch.action = .add)
    (hspares : step.Spares m₀ name) : m₀.Holds name frame c m' := by
  obtain ⟨limit, hbooked⟩ := h.booked
  -- the cell that is shown, the frames further in, and the addresses that are owned
  refine ⟨?_, fun hne => ?_, fun a ha => ?_⟩
  · obtain ⟨d, hd, hsame⟩ := hheld.shown
    obtain ⟨d', hd'⟩ : ∃ d', m'.state.shown? frame name = some d' := by
      rw [← h.quiet.1] at hd
      obtain ⟨kind, line, description, rfl⟩ := h.shows
      refine hbooked.tidy.exists_shown? (Machine.Booked.stack_apart n) h.applies
        (fun patch hpatch => ?_) hd
      rcases Machine.patch_cases h.fits.stack hpatch with hown | ⟨_, rfl⟩
      · rw [(hview frame hfinds.inView patch hown).2]
        decide
      · exact fun haction => by cases haction
    refine ⟨d', hd', ?_⟩
    rcases h.shown_cases (hview frame hfinds.inView) hspares.declares hd' with
      hold | ⟨hnone, v, hv, rfl, rfl⟩
    · obtain rfl := Option.some.inj (hd.symm.trans hold)
      exact hsame
    · -- the cell that was written to is the one the name stands for
      obtain ⟨howner, htype, hwritten⟩ := h.heldBack hnone hv
      have hspot : c.type.isAggregate = false ∧ (c.address == v.address) = true := by
        by_contra hother
        exact hwritten (hspares.writes _ ⟨frame, c, hfinds, hheld.owners _ howner, hother⟩)
      have haddress : (d.address == v.address) = true := by
        rcases hsame.2 with heq | heq
        · rw [heq]
          exact hspot.2
        · exact PartialEquivBEq.trans (BEq.symm heq) hspot.2
      have hd'type := hm.typed frame _ d hd (hsame.1 ▸ hspot.1)
      rw [Table.find?_congr haddress, htype, Option.some.injEq] at hd'type
      exact ⟨hd'type.trans hsame.1, Or.inr hspot.2⟩
  · have hhidden := hheld.inner hne
    rw [Option.eq_none_iff_forall_ne_some]
    intro d hd
    rcases h.shown_cases (hview _ (Or.inl rfl)) hspares.declares hd with
      hold | ⟨hnone, v, hv, rfl, rfl⟩
    · rw [hhidden] at hold
      cases hold
    · obtain ⟨e, he⟩ := hm.shown _ _ (h.heldBack hnone hv).1
      rw [hhidden] at he
      cases he
  · refine hheld.owners a ((h.placed a _ (h.kept a _ ha).1).resolve_right ?_)
    rintro ⟨patch, hpatch, hadd, hname⟩
    obtain ⟨rfl, _⟩ := hview frame hfinds.inView patch hpatch
    refine hspares.declares ⟨patch, ?_, hadd, hname⟩
    obtain ⟨kind, line, description, rfl⟩ := h.shows
    rw [Machine.Booked.find?_stack n h.fits.stack, hpatch]
    rfl

/-- Inside a call, a move shows no step and leaves names alone, or it shows one, and the names that
the step spares are left alone. -/
theorem WalkInside.holds (hlayouts : setup.analysis.layouts.Solid)
    (h : WalkInside setup m₀.active m m') (hm : m.InOrder settings) (hm' : m'.Stacked) :
    ∃ shown, m'.steps.toList = m.steps.toList ++ shown ∧
      ∀ name frame c, m₀.Finds name frame c → m₀.Holds name frame c m →
        (∀ step ∈ shown, step.Spares m₀ name) → m₀.Holds name frame c m' := by
  rcases h.walk.announces hlayouts hm.viewed hm.accounted.apart with
    ⟨hstate, hsteps, howners⟩ | ⟨n, delta, step, hann, hchange⟩
  · refine ⟨[], by rw [hsteps, List.append_nil], fun name frame c _ hheld _ => ⟨?_, ?_, ?_⟩⟩
    · rw [hstate]
      exact hheld.shown
    · rw [hstate]
      exact hheld.inner
    · rw [howners]
      exact hheld.owners
  · refine ⟨[step], ?_, fun name frame c hfinds hheld hspares => ?_⟩
    · rw [hann.steps, hann.quiet.2.1, Array.toList_push]
    · refine hann.holds hm.accounted hfinds hheld ?_ (hspares step (List.mem_singleton_self _))
      exact fun label hlabel patch hpatch =>
        hchange.inView hm.stacked hm' h.before h.after hlabel hpatch

/-- **As long as calls are not left, the names that every step spares are left alone.** -/
theorem holds_along (hlayouts : setup.analysis.layouts.Solid)
    (hnames : ∀ f, setup.analysis.program.function? f.name = some f → Callable f.name)
    (hpasses : setup.Passes m₀) (h : ReflTransGen (WalkInside setup m₀.active) m₀ m) :
    setup.Passes m ∧ ∃ shown, m.steps.toList = m₀.steps.toList ++ shown ∧
      ∀ name frame c, m₀.Finds name frame c → (∀ step ∈ shown, step.Spares m₀ name) →
        m₀.Holds name frame c m := by
  induction h with
  | refl => exact ⟨hpasses, [], (List.append_nil _).symm, fun _ _ _ hfinds _ => hfinds.holds⟩
  | tail _ hmove ih =>
    obtain ⟨hpassed, shown, hshown, hheld⟩ := ih
    have hpasses' : setup.Passes _ := hpassed.tail hmove.walk
    obtain ⟨more, hmore, hkept⟩ := hmove.holds hlayouts (hpassed.inOrder hlayouts hnames)
      (hpasses'.inOrder hlayouts hnames).stacked
    refine ⟨hpasses', shown ++ more, by rw [hmore, hshown, List.append_assoc], ?_⟩
    intro name frame c hfinds hspares
    rw [List.forall_mem_append] at hspares
    exact hkept name frame c hfinds (hheld name frame c hfinds hspares.1) hspares.2

end Names

/-! ## The main result -/

/-- **A name stands for the same object after a statement as before it, unless the statement declares
the name in the call it is executed in, or writes to a variable of the name that was replaced
there.** Blocks make no difference, and neither do the calls in between, the declarations of other
names, or writes to anything else. No function of the program may have the name of the frame outside
functions, and every struct has to take some space. -/
theorem names_outlive_statements {source : String} {p : Program} {analysis : Analysis}
    {settings : Settings} (hparse : parse (tokenize source) = .ok p)
    (hglobal : p.function? globalFrame = none)
    (ha : analyze p source (tokenize source) = .ok analysis)
    (hsizes : ∀ e ∈ analysis.layouts, 0 < e.2.size) {m m' : Machine}
    (hm : Setup.Passes ⟨analysis, settings⟩ m) {category : Category} {count : Nat} {scope : Scope}
    {s : Stmt} {flow : Flow}
    (hrun : (walker ⟨analysis, settings⟩ category.commentary
      (callAt ⟨analysis, settings⟩ category.commentary count) scope).run s m = .ok (flow, m')) :
    ∃ shown, m'.steps.toList = m.steps.toList ++ shown ∧
      ∀ name place, m.lookup name = some place → (∀ step ∈ shown, step.Spares m name) →
        ∃ place', m'.lookup name = some place' ∧ place.SameAs place' := by
  have hlayouts := analyze_layouts ha
  have hnames : ∀ f, analysis.program.function? f.name = some f → Callable f.name := by
    intro f hf
    rw [hlayouts.2] at hf
    refine ⟨parse_function_name hparse (List.mem_of_find?_eq_some hf), fun heq => ?_⟩
    rw [heq, hglobal] at hf
    cases hf
  obtain ⟨hactive, hwalks⟩ :=
    run_staysInside category count m.active scope s m flow m' hrun rfl
  obtain ⟨_, shown, hshown, hholds⟩ :=
    holds_along (layouts_solid hlayouts.1 hsizes) hnames hm hwalks
  refine ⟨shown, hshown, fun name place hlookup hspares => ?_⟩
  obtain ⟨frame, c, hfinds, rfl⟩ := Machine.lookup_eq_some_iff.1 hlookup
  exact (hholds name frame c hfinds hspares).lookup hactive hfinds.inView

/-! ## Three blocks -/

namespace ThreeBlocks

/-- A program with a pointer to its first variable and three blocks. -/
def source : String :=
  "int main()\x7bint x=1;int*p=&x;\x7bint y=2;x=y;\x7d\x7bint x=3;\x7d\x7b*p=4;\x7d\x7d\n"

/-- Its tokens. -/
def tokens : List Token :=
  [⟨.keyword, "int", 1, 1⟩, ⟨.identifier, "main", 1, 5⟩, ⟨.punctuation, "(", 1, 9⟩,
    ⟨.punctuation, ")", 1, 10⟩, ⟨.punctuation, "\x7b", 1, 11⟩, ⟨.keyword, "int", 1, 12⟩,
    ⟨.identifier, "x", 1, 16⟩, ⟨.operator, "=", 1, 17⟩, ⟨.literal, "1", 1, 18⟩,
    ⟨.punctuation, ";", 1, 19⟩, ⟨.keyword, "int", 1, 20⟩, ⟨.operator, "*", 1, 23⟩,
    ⟨.identifier, "p", 1, 24⟩, ⟨.operator, "=", 1, 25⟩, ⟨.operator, "&", 1, 26⟩,
    ⟨.identifier, "x", 1, 27⟩, ⟨.punctuation, ";", 1, 28⟩, ⟨.punctuation, "\x7b", 1, 29⟩,
    ⟨.keyword, "int", 1, 30⟩, ⟨.identifier, "y", 1, 34⟩, ⟨.operator, "=", 1, 35⟩,
    ⟨.literal, "2", 1, 36⟩, ⟨.punctuation, ";", 1, 37⟩, ⟨.identifier, "x", 1, 38⟩,
    ⟨.operator, "=", 1, 39⟩, ⟨.identifier, "y", 1, 40⟩, ⟨.punctuation, ";", 1, 41⟩,
    ⟨.punctuation, "\x7d", 1, 42⟩, ⟨.punctuation, "\x7b", 1, 43⟩, ⟨.keyword, "int", 1, 44⟩,
    ⟨.identifier, "x", 1, 48⟩, ⟨.operator, "=", 1, 49⟩, ⟨.literal, "3", 1, 50⟩,
    ⟨.punctuation, ";", 1, 51⟩, ⟨.punctuation, "\x7d", 1, 52⟩, ⟨.punctuation, "\x7b", 1, 53⟩,
    ⟨.operator, "*", 1, 54⟩, ⟨.identifier, "p", 1, 55⟩, ⟨.operator, "=", 1, 56⟩,
    ⟨.literal, "4", 1, 57⟩, ⟨.punctuation, ";", 1, 58⟩, ⟨.punctuation, "\x7d", 1, 59⟩,
    ⟨.punctuation, "\x7d", 1, 60⟩]

/-- The block that declares another variable and assigns it to the first one. -/
def assigning : Stmt :=
  .block 1
    [.decl ⟨1, .int, [⟨1, "y", 0, .none, some (.expr (.literal 1 "2"))⟩]⟩,
      .expr 1 (.assign 1 none (.name 1 "x") (.name 1 "y"))]

/-- The block that declares the name of the first variable. -/
def declaring : Stmt :=
  .block 1 [.decl ⟨1, .int, [⟨1, "x", 0, .none, some (.expr (.literal 1 "3"))⟩]⟩]

/-- The block that writes where the pointer points to. -/
def writing : Stmt :=
  .block 1 [.expr 1 (.assign 1 none (.unary 1 .deref (.name 1 "p")) (.literal 1 "4"))]

/-- Its main function. -/
def main : Function where
  line := 1
  name := "main"
  returnType := .int
  parameters := []
  bodyLine := 1
  body :=
    [.decl ⟨1, .int, [⟨1, "x", 0, .none, some (.expr (.literal 1 "1"))⟩]⟩,
      .decl ⟨1, .int, [⟨1, "p", 1, .none, some (.expr (.unary 1 .addressOf (.name 1 "x")))⟩]⟩,
      assigning, declaring, writing]

/-- The program. -/
def program : Program :=
  ⟨[.function main]⟩

/-- What is known about it. -/
def analysis : Analysis where
  program := program
  source := source
  tokens := tokens
  lines := Text.lines source
  macros := []
  layouts := []

theorem tokenize_source : tokenize source = tokens :=
  Token.tokenize_of_chars rfl (by decide +kernel) (by decide)

theorem parse_tokens : parse tokens = .ok program := by
  decide +kernel

theorem analyze_program : analyze program source tokens = .ok analysis := rfl

/-- What it is executed under. -/
def setup : Setup := ⟨analysis, {}⟩

/-- The machine with the variable and the pointer declared. -/
def declared : Except Fault Machine := do
  let (_, m) ← Invocation.enter setup main "main" [] 1 (Machine.start {})
  let (_, m) ← declare setup "main" "x" .int 1 (.int 1) "Declaration of variable x with value 1" m
  let (_, m) ← declare setup "main" "p" ⟨"int*"⟩ 1 (.int 4096)
    "Declaration of pointer p pointing to x" m
  return m

/-- How statements of the main function are executed. -/
def execute (s : Stmt) : Run Flow :=
  (walker setup noCommentary (callAt setup noCommentary 1) []).run s

/-- The name stands for an integer at the address. -/
def isAt (m : Machine) (address : Int) : Bool :=
  match m.lookup "x" with
  | some ⟨.num (.int a), t⟩ => a == address && t == .int
  | _ => false

theorem lookup_of_isAt {m : Machine} {address : Int} (h : isAt m address = true) :
    m.lookup "x" = some ⟨.int address, .int⟩ := by
  unfold isAt at h
  split at h
  · next a t hlookup =>
    rw [Bool.and_eq_true, beq_iff_eq, beq_iff_eq] at h
    rw [hlookup, h.1, h.2]
  · cases h

/-- The name has one owner, and no step between the machines declares it. -/
def isSpared (m m' : Machine) : Bool :=
  m.owners.all (fun e => e.2.name != "x" || e.1 == .int 4096) &&
  (m'.steps.toList.drop m.steps.toList.length).all fun step =>
    match step.delta.stack.find? "main" with
    | some patch => patch.action != .add || patch.vars.all fun v => v.name != "x"
    | none => true

/-- The first block goes on from the declarations, and it spares the name. -/
def spares (m : Machine) : Bool :=
  match execute assigning m with
  | .ok (_, m') => isAt m 4096 && isSpared m m'
  | .error _ => false

/-- The second block moves the name to its own variable, and the third one moves it back. -/
def moves (m : Machine) : Bool :=
  match execute declaring m with
  | .ok (_, m₁) =>
    match execute writing m₁ with
    | .ok (_, m₂) => isAt m 4096 && isAt m₁ 4108 && isAt m₂ 4096
    | .error _ => false
  | .error _ => false

/-- Execution passes through the machine with the declarations. -/
theorem exists_declared {check : Machine → Bool}
    (h : (match declared with
      | .ok m => check m
      | .error _ => false) = true) :
    ∃ m, setup.Passes m ∧ m.currentFrame = "main" ∧ check m = true := by
  unfold declared at h
  cases hentered : Invocation.enter setup main "main" [] 1 (Machine.start {}) with
  | error fault =>
    rw [hentered] at h
    cases h
  | ok entered =>
    obtain ⟨⟨⟩, m₁⟩ := entered
    rw [hentered] at h
    dsimp only [bind, Except.bind] at h
    have hactive : m₁.active = [main.name] := Invocation.enter_active hentered rfl
    -- a declaration enters and leaves no call, so the current frame stays
    have hframe : ∀ {m : Machine}, m.active = m₁.active → m.currentFrame = "main" := by
      intro m hm
      rw [Machine.currentFrame, hm, hactive]
      rfl
    cases hx : declare setup "main" "x" .int 1 (.int 1) "Declaration of variable x with value 1" m₁ with
    | error fault =>
      rw [hx] at h
      cases h
    | ok first =>
      obtain ⟨a, m₂⟩ := first
      rw [hx] at h
      dsimp only [bind, Except.bind] at h
      cases hp : declare setup "main" "p" ⟨"int*"⟩ 1 (.int 4096)
          "Declaration of pointer p pointing to x" m₂ with
      | error fault =>
        rw [hp] at h
        cases h
      | ok second =>
        obtain ⟨b, m₃⟩ := second
        rw [hp] at h
        have hx' := hx
        have hp' := hp
        rw [← hframe rfl] at hx'
        rw [← hframe (declare_active hx)] at hp'
        -- the call of the main function and the two declarations are one move each
        have henter : Walk setup (Machine.start {}) m₁ := .enter main [] 1 rfl rfl hentered
        have hpasses : setup.Passes m₃ :=
          ((Relation.ReflTransGen.single henter).tail (.declare _ _ _ _ _ _ hx')).tail
            (.declare _ _ _ _ _ _ hp')
        exact ⟨m₃, hpasses, hframe ((declare_active hp).trans (declare_active hx)), h⟩

theorem declared_spares :
    (match declared with
      | .ok m => spares m
      | .error _ => false) = true := by
  -- statements are unfolded by their equations; the rest is computed
  simp only [spares, execute, assigning, Walker.items, Walker.run]
  decide +kernel

theorem declared_moves :
    (match declared with
      | .ok m => moves m
      | .error _ => false) = true := by
  simp only [moves, execute, declaring, writing, Walker.items, Walker.run]
  decide +kernel

/-- A step that does so spares the name. -/
theorem spares_of_isSpared {m m' : Machine} (hframe : m.currentFrame = "main")
    (hat : isAt m 4096 = true) (h : isSpared m m' = true) {shown : List Step}
    (hshown : m'.steps.toList = m.steps.toList ++ shown) : ∀ step ∈ shown, step.Spares m "x" := by
  unfold isSpared at h
  rw [Bool.and_eq_true, hshown, List.drop_left] at h
  obtain ⟨howners, hsteps⟩ := h
  intro step hstep
  refine ⟨?_, fun a hreplaced => ?_⟩
  · rintro ⟨patch, hpatch, hadd, hname⟩
    have hdeclares := List.all_eq_true.1 hsteps step hstep
    rw [hframe] at hpatch
    rw [hpatch] at hdeclares
    dsimp only at hdeclares
    obtain ⟨v, hv, hx⟩ := List.mem_map.1 hname
    rw [hadd, show (FrameAction.add != FrameAction.add) = false from rfl, Bool.false_or,
      List.all_eq_true] at hdeclares
    have hne := hdeclares v hv
    rw [hx] at hne
    cases hne
  · -- the one cell that the name owns is the one it stands for
    obtain ⟨frame, c, hfinds, howner, hother⟩ := hreplaced
    obtain ⟨key, hkey, heq⟩ := Table.mem_of_find? howner
    have hone := List.all_eq_true.1 howners _ hkey
    rw [show ("x" != "x") = false from rfl, Bool.false_or] at hone
    have hplace := Machine.lookup_eq_some_iff.2 ⟨frame, c, hfinds, rfl⟩
    rw [lookup_of_isAt hat] at hplace
    obtain ⟨haddress, htype⟩ := Place.mk.inj (Option.some.inj hplace)
    refine absurd ⟨htype ▸ (by decide : CType.int.isAggregate = false), ?_⟩ hother
    rw [← Value.num.inj haddress]
    exact PartialEquivBEq.trans (BEq.symm hone) heq

end ThreeBlocks

/-- The name stands for the same object after the block that assigns to it. -/
theorem assigned_name_stays :
    ∃ m m' flow, ThreeBlocks.setup.Passes m ∧
      ThreeBlocks.execute ThreeBlocks.assigning m = .ok (flow, m') ∧
      ∃ place, m'.lookup "x" = some place ∧ Place.SameAs ⟨.int 4096, .int⟩ place := by
  obtain ⟨m, hpasses, hframe, h⟩ := ThreeBlocks.exists_declared ThreeBlocks.declared_spares
  unfold ThreeBlocks.spares at h
  split at h
  · next flow m' hrun =>
    rw [Bool.and_eq_true] at h
    obtain ⟨hat, hspared⟩ := h
    have hparse : parse (tokenize ThreeBlocks.source) = .ok ThreeBlocks.program := by
      rw [ThreeBlocks.tokenize_source, ThreeBlocks.parse_tokens]
    have hanalyze : analyze ThreeBlocks.program ThreeBlocks.source (tokenize ThreeBlocks.source)
        = .ok ThreeBlocks.analysis := by
      rw [ThreeBlocks.tokenize_source, ThreeBlocks.analyze_program]
    have hbasic : (walker ThreeBlocks.setup Category.basic.commentary
        (callAt ThreeBlocks.setup Category.basic.commentary 1) []).run ThreeBlocks.assigning m
          = .ok (flow, m') := hrun
    obtain ⟨shown, hshown, hkept⟩ := names_outlive_statements hparse (by decide) hanalyze
      (fun e he => by cases he) hpasses hbasic
    exact ⟨m, m', flow, hpasses, hrun, hkept "x" _ (ThreeBlocks.lookup_of_isAt hat)
      (ThreeBlocks.spares_of_isSpared hframe hat hspared hshown)⟩
  · cases h

/-- After the block that declares the name again, it stands for the variable of the block. And after
the next block, which only writes through the pointer to the first variable, it stands for that one
again. -/
theorem blocks_move_name :
    ∃ m m₁ m₂ flow₁ flow₂, ThreeBlocks.setup.Passes m ∧
      m.lookup "x" = some ⟨.int 4096, .int⟩ ∧
      ThreeBlocks.execute ThreeBlocks.declaring m = .ok (flow₁, m₁) ∧
      m₁.lookup "x" = some ⟨.int 4108, .int⟩ ∧
      ThreeBlocks.execute ThreeBlocks.writing m₁ = .ok (flow₂, m₂) ∧
      m₂.lookup "x" = some ⟨.int 4096, .int⟩ := by
  obtain ⟨m, hpasses, _, h⟩ := ThreeBlocks.exists_declared ThreeBlocks.declared_moves
  unfold ThreeBlocks.moves at h
  split at h
  · next flow₁ m₁ hfirst =>
    split at h
    · next flow₂ m₂ hsecond =>
      rw [Bool.and_eq_true, Bool.and_eq_true] at h
      obtain ⟨⟨hbefore, hbetween⟩, hafter⟩ := h
      exact ⟨m, m₁, m₂, flow₁, flow₂, hpasses, ThreeBlocks.lookup_of_isAt hbefore, hfirst,
        ThreeBlocks.lookup_of_isAt hbetween, hsecond, ThreeBlocks.lookup_of_isAt hafter⟩
    · cases h
  · cases h

end Stepwise
