/-
Every run is a sequence of moves.

Library functions are traced back to the moves of the machine here; expressions,
statements and the remarks of scripts are gone through elsewhere, for any likeness,
and following a relation is one. So what each single move keeps is kept by every
run.

A call is left under the label under which it was entered because everything in
between has left the active calls as it found them. That is a part of `Returns`,
which counts the calls besides.
-/
import Stepwise.Proofs.Moves
import Stepwise.Proofs.Parallel

set_option autoImplicit false

namespace Stepwise

open Relation (ReflTransGen)

variable {setup : Setup}

/-! ## Library functions -/

section Library

variable {R : Machine → Machine → Prop}

theorem read_follows [IsPreorder Machine R] (address : Value) : Follows R (Run.read address) :=
  Run.query_follows _

theorem note_follows [Silent R] (text : String) : Follows R (Run.note text) :=
  Run.change_follows fun m => Silent.note m text

theorem write_follows [Silent R] (address value : Value) : Follows R (Run.write address value) :=
  Run.attempt_follows fun m m' h => Silent.write m m' address value h

theorem print_follows [Quiet R] (text : String) : Follows R (Run.print text) :=
  Run.change_follows fun m => Quiet.print m text

namespace Library

section Arguments

variable [IsPreorder Machine R]

theorem argument_follows (arguments : List Typed) (index : Nat) :
    Follows R (argument arguments index) := by
  unfold argument
  split
  · exact Follows.pure _
  · exact Follows.fail _

theorem textArgument_follows (arguments : List Typed) (index : Nat) :
    Follows R (textArgument arguments index) := by
  unfold textArgument
  split
  · exact Run.query_follows _
  · exact Follows.fail _

theorem formatted_follows (arguments : List Typed) :
    Follows R (formatted arguments) := by
  unfold formatted
  split
  · exact Run.query_follows _
  · exact Follows.fail _

theorem noteName_follows (address : Value) : Follows R (noteName address) :=
  Run.ask_follows _

end Arguments

section Silent

variable [Silent R]

theorem scanInto_follows (settings : Settings) (conversion : Char) (target : Typed) :
    Follows R (scanInto settings conversion target) :=
  (Follows.lift _).bind fun _ => (Follows.lift _).bind fun _ => (write_follows _ _).bind fun _ =>
    (Run.ask_follows _).bind fun _ => note_follows _

theorem scanf_follows (settings : Settings) (arguments : List Typed) :
    Follows R (scanf settings arguments) :=
  (textArgument_follows arguments 0).bind fun _ =>
    (Follows.forM fun _ _ => scanInto_follows _ _ _).bind fun _ => Follows.pure _

theorem strcpy_follows (arguments : List Typed) : Follows R (strcpy arguments) :=
  (textArgument_follows arguments 1).bind fun _ => (argument_follows arguments 0).bind fun _ =>
    (write_follows _ _).bind fun _ => (noteName_follows _).bind fun _ =>
      (note_follows _).bind fun _ => Follows.pure _

theorem strcat_follows (arguments : List Typed) : Follows R (strcat arguments) :=
  (textArgument_follows arguments 0).bind fun _ => (textArgument_follows arguments 1).bind fun _ =>
    (argument_follows arguments 0).bind fun _ => (write_follows _ _).bind fun _ =>
      (noteName_follows _).bind fun _ => (note_follows _).bind fun _ => Follows.pure _

theorem strlen_follows (arguments : List Typed) : Follows R (strlen arguments) :=
  (textArgument_follows arguments 0).bind fun _ => Follows.pure _

theorem strcmp_follows (arguments : List Typed) : Follows R (strcmp arguments) :=
  (textArgument_follows arguments 0).bind fun _ => (textArgument_follows arguments 1).bind fun _ =>
    Follows.pure _

/-- Reserving the block of a file and recording the file is one move. -/
theorem opening_follows {α : Type} (file : OpenFile) {rest : Int → Run α}
    (hrest : ∀ address, Follows R (rest address)) :
    Follows R (do
      let address ← Run.allocateHeap fileSize
      Run.change fun m =>
        { m with
          blocks := m.blocks.put (.int address) { address := .int address, size := .int fileSize }
          files := m.files.put (.int address) file }
      rest address) := by
  intro m a m' hm
  obtain ⟨address, m₁, h₁, hm⟩ := Eval.bind_eq_ok.1 hm
  obtain ⟨_, m₂, h₂, hm⟩ := Eval.bind_eq_ok.1 hm
  have hopen : m₂ = m.opened file := by
    rw [← Run.change_eq_ok.1 h₂]
    obtain ⟨rfl, rfl⟩ := Prod.mk.injEq .. ▸ Except.ok.inj h₁
    rfl
  have hwalks : R m m₂ := by
    rw [hopen]
    exact Silent.opened m file
  exact IsTrans.trans _ _ _ hwalks (hrest address m₂ a m' hm)

theorem fopen_follows (arguments : List Typed) : Follows R (fopen arguments) := by
  refine (textArgument_follows arguments 0).bind fun name =>
    (textArgument_follows arguments 1).bind fun mode => (Run.ask_follows _).bind fun known => ?_
  refine Follows.ite (fun _ => (note_follows _).bind fun _ => Follows.pure _) fun _ => ?_
  -- with or without a new entry on the disk, what follows is the same
  refine Follows.ite (fun _ => ?_) fun _ => ?_
  case' refine_1 => refine (Run.change_follows fun m => Silent.store m _).bind fun _ => ?_
  all_goals
    exact opening_follows _ fun address =>
      (Follows.lift _).bind fun _ => (note_follows _).bind fun _ => Follows.pure _

omit [Silent R] in
theorem openFile_eq_ok {m : Machine} {handle : Value} {key : Number} {file : OpenFile}
    (h : m.openFile handle = .ok (key, file)) : m.files.find? key = some file := by
  unfold Machine.openFile at h
  cases hk : Machine.handleKey handle with
  | error fault =>
    rw [hk] at h
    cases h
  | ok found =>
    rw [hk] at h
    cases found with
    | none => cases h
    | some k =>
      simp only [bind, Except.bind] at h
      split at h
      · next f hf =>
        obtain ⟨rfl, rfl⟩ := Prod.mk.injEq .. ▸ Except.ok.inj h
        exact hf
      · cases h

theorem fclose_follows (arguments : List Typed) : Follows R (fclose arguments) := by
  refine (argument_follows arguments 0).bind fun handle => ?_
  intro m a m' hm
  obtain ⟨⟨key, file⟩, m₁, h₁, hm₁⟩ := Eval.bind_eq_ok.1 hm
  obtain ⟨hfound, rfl⟩ := Run.query_eq_ok.1 h₁
  obtain ⟨_, m₂, h₂, hm₂⟩ := Eval.bind_eq_ok.1 hm₁
  rw [← Run.change_eq_ok.1 h₂] at hm₂
  have hclose : R m (m.closed key) := Silent.closed m key file (openFile_eq_ok hfound)
  exact IsTrans.trans _ _ _ hclose
    (((note_follows _).bind fun _ => Follows.pure _) _ _ _ hm₂)

theorem writeFile_follows (handle : Typed) (text via : String) :
    Follows R (writeFile handle text via) := by
  refine (Run.query_follows _).bind fun found => ?_
  refine Follows.ite (fun _ => Follows.fail _) fun _ => ?_
  exact (Run.change_follows fun m => Silent.store m _).bind fun _ => note_follows _

theorem fprintf_follows (arguments : List Typed) : Follows R (fprintf arguments) :=
  (formatted_follows _).bind fun _ => (argument_follows arguments 0).bind fun _ =>
    (writeFile_follows _ _ _).bind fun _ => Follows.pure _

theorem fputs_follows (arguments : List Typed) : Follows R (fputs arguments) :=
  (argument_follows arguments 1).bind fun _ => (textArgument_follows arguments 0).bind fun _ =>
    (writeFile_follows _ _ _).bind fun _ => Follows.pure _

theorem fgets_follows (arguments : List Typed) : Follows R (fgets arguments) := by
  unfold fgets
  split
  · next buffer limit handle =>
    intro m a m' hm
    obtain ⟨⟨key, file⟩, m₁, h₁, hm₁⟩ := Eval.bind_eq_ok.1 hm
    obtain ⟨hfound, rfl⟩ := Run.query_eq_ok.1 h₁
    obtain ⟨content, m₂, h₂, hm₂⟩ := Eval.bind_eq_ok.1 hm₁
    obtain ⟨_, rfl⟩ := Run.ask_eq_ok.1 h₂
    revert hm₂
    split
    · intro hm
      exact ((note_follows _).bind fun _ => Follows.pure _) _ _ _ hm
    · intro hm
      obtain ⟨stop, m₃, h₃, hm₃⟩ := Eval.bind_eq_ok.1 hm
      obtain ⟨_, rfl⟩ := Eval.lift_eq_ok.1 h₃
      obtain ⟨_, m₄, h₄, hm₄⟩ := Eval.bind_eq_ok.1 hm₃
      rw [← Run.change_eq_ok.1 h₄] at hm₄
      have hseek : R m
          { m with files := m.files.put key { file with position := stop } } :=
        Silent.seek m key file stop (openFile_eq_ok hfound)
      exact IsTrans.trans _ _ _ hseek
        (((write_follows _ _).bind fun _ => (note_follows _).bind fun _ => Follows.pure _)
          _ _ _ hm₄)
  · exact Follows.fail _

end Silent

section Printing

variable [Quiet R]

theorem output_follows (via text : String) : Follows R (output via text) :=
  (print_follows text).bind fun _ => note_follows _

theorem printf_follows (arguments : List Typed) : Follows R (printf arguments) :=
  (formatted_follows arguments).bind fun _ => (output_follows _ _).bind fun _ => Follows.pure _

theorem puts_follows (arguments : List Typed) : Follows R (puts arguments) :=
  (argument_follows arguments 0).bind fun _ => (Run.query_follows _).bind fun _ =>
    (output_follows _ _).bind fun _ => Follows.pure _

theorem putchar_follows (arguments : List Typed) : Follows R (putchar arguments) := by
  refine (argument_follows arguments 0).bind fun a => ?_
  split
  · exact (Follows.lift _).bind fun _ => (output_follows _ _).bind fun _ => Follows.pure _
  · exact Follows.fail _

end Printing

end Library

/-- **Library functions only act**, and show no step. -/
theorem library_follows [Quiet R] (settings : Settings) (f : LibraryFunction)
    (arguments : List Typed) : Follows R (f.run settings arguments) := by
  cases f with
  | printf => exact Library.printf_follows arguments
  | puts => exact Library.puts_follows arguments
  | putchar => exact Library.putchar_follows arguments
  | scanf => exact Library.scanf_follows settings arguments
  | strcpy => exact Library.strcpy_follows arguments
  | strcat => exact Library.strcat_follows arguments
  | strlen => exact Library.strlen_follows arguments
  | strcmp => exact Library.strcmp_follows arguments
  | fopen => exact Library.fopen_follows arguments
  | fclose => exact Library.fclose_follows arguments
  | fprintf => exact Library.fprintf_follows arguments
  | fputs => exact Library.fputs_follows arguments
  | fgets => exact Library.fgets_follows arguments

end Library

/-! ## Objects that are placed -/

section Unseen

variable {R : Machine → Machine → Prop}

/-- A relation that every move follows that neither shows a step nor prints, whether objects are placed
or calls are entered and left. -/
class Unseen (R : Machine → Machine → Prop) : Prop extends Silent R where
  cursor : ∀ (m : Machine) cursor, R m { m with cursor := cursor }
  owners : ∀ (m : Machine) owners, R m { m with owners := owners }
  active : ∀ (m : Machine) active, R m { m with active := active }

variable [Unseen R]

theorem allocateStack_follows (size : Int) : Follows R (Run.allocateStack size) := by
  intro m address m' h
  obtain ⟨cursor, _, rfl⟩ := allocateStack_eq_ok.1 h
  exact Unseen.cursor m cursor

theorem own_follows (type : CType) (address : Int) (frame name : String) :
    Follows R (own type address frame name) := by
  refine Run.change_follows fun m => ?_
  unfold Machine.own
  split
  · exact Std.Refl.refl m
  · exact Unseen.owners m _

theorem place_follows (frame : String) (arguments : List (Parameter × Typed))
    (cells : Table Number CellPatch) (vars : List FrameVariable) :
    Follows R (Invocation.place setup frame arguments cells vars) := by
  induction arguments generalizing cells vars with
  | nil => exact Follows.pure _
  | cons argument rest ih =>
    exact (copyValue_follows _ _ _).bind fun _ => (Follows.lift _).bind fun _ =>
      (allocateStack_follows _).bind fun _ => (Follows.lift _).bind fun _ =>
        (own_follows _ _ _ _).bind fun _ => ih _ _

end Unseen

/-! ## The steps that are shown -/

section Described

variable {P : Step → Prop}

/-- Every step so far is as described. -/
def Machine.Described (P : Step → Prop) (m : Machine) : Prop :=
  ∀ s ∈ m.steps, P s

instance : Unseen (Keeps (Machine.Described P)) where
  write m m' address value h := by
    obtain ⟨a, _, _, rfl⟩ := Machine.write_eq_ok.1 h
    exact fun hm => hm
  note _ _ hm := hm
  store _ _ hm := hm
  seek _ _ _ _ _ hm := hm
  opened _ _ hm := hm
  closed _ _ _ _ hm := hm
  cursor _ _ hm := hm
  owners _ _ hm := hm
  active _ _ hm := hm

instance : Quiet (Keeps (Machine.Described P)) where
  print _ _ hm := hm

theorem emitDelta_described {kind : StepKind} {line : Int} {description : String} {delta : Delta}
    (h : ∀ m : Machine, P (m.nextStep kind (setup.analysis.clamp line) description delta)) :
    Follows (Keeps (Machine.Described P)) (Run.emitDelta setup kind line description delta) := by
  refine Run.attempt_follows fun m m' hm hsteps => ?_
  obtain ⟨state, _, rfl⟩ := Machine.emit_eq_ok.1 hm
  intro s hs
  rcases Array.mem_push.1 hs with hs | rfl
  · exact hsteps s hs
  · exact h m

end Described

/-! ## Programs -/

section Programs

variable {R : Machine → Machine → Prop} {call : Caller}

section Likeness

variable [IsPreorder Machine R]

theorem Likeness.Acts.evaluateWith_follows (hR : (Likeness.following R).Acts setup setup)
    (hc : ∀ scope name arguments line, Follows R (call scope name arguments line))
    (scope : Scope) (e : Expr) : Follows R (evaluateWith setup call scope e) := by
  have hhost : (machineHost setup call).Alike (.following R) (machineHost setup call) :=
    Parallel.machineHost_alike hR rfl hc
  exact evaluate_alike (Follows.fail _) hhost _ scope e

/-- A function is called by name as one of the library or one of the program. -/
theorem Likeness.Acts.callBy_follows (hR : (Likeness.following R).Acts setup setup)
    {invoke : Invoker}
    (hi : ∀ f, setup.analysis.program.function? f.name = some f → ∀ scope arguments line,
      Follows R (invoke f scope arguments line))
    (scope : Scope) (name : String) (arguments : List Typed) (line : Nat) :
    Follows R (callBy setup invoke scope name arguments line) := by
  show (Likeness.following R).rel _ (callBy setup invoke scope name arguments line)
  exact Parallel.callBy_alike hR fun f hf => hi f (Parallel.function?_name hf) _ _ _

/-- The body of a called function follows what calls follow. -/
theorem Likeness.Executes.runBody_follows (hR : (Likeness.following R).Executes setup setup)
    (category : Category)
    (hc : ∀ scope name arguments line, Follows R (call scope name arguments line))
    (scope : Scope) (body : List Stmt) :
    Follows R ((walker setup category.commentary call scope).runBody body) := by
  show (Likeness.following R).rel _ ((walker setup category.commentary call scope).runBody body)
  exact Parallel.runBody_alike hR (Parallel.commentary_alike hR category)
    (fun e _ => hR.toActs.evaluateWith_follows hc scope e) fun _ _ => Follows.fail _

/-- A loop follows what its parts and its warning follow. -/
theorem loop_follows {line : Nat} {check check' : Run Bool} {body body' : Run Flow}
    {update update' : Run Unit} (hcheck : (Likeness.following R).rel check check')
    (hbody : (Likeness.following R).rel body body')
    (hupdate : (Likeness.following R).rel update update')
    (hwarn : ∀ line, Follows R (Run.emit setup .warning line (loopWarning setup.settings))) :
    (Likeness.following R).rel (Loop.runUnchecked setup ⟨line, check, body, update⟩)
      (Loop.runUnchecked setup ⟨line, check', body', update'⟩) := by
  show (Likeness.following R).rel
    (Loop.iterate setup ⟨line, check, body, update⟩ setup.settings.iterations)
    (Loop.iterate setup ⟨line, check', body', update'⟩ (setup.settings.iterations + 0))
  exact Parallel.iterate_alike hcheck hbody hupdate ((hwarn _).bind fun _ => Follows.pure _) _

end Likeness

theorem emit_follows [Acting setup R] (kind : StepKind) (line : Int) (description : String) :
    Follows R (Run.emit setup kind line description) :=
  Run.attempt_follows fun _ _ h => (Act.emit kind line description h).follows

/-- The operations that place no object follow what acts follow. -/
theorem following_acts [Acting setup R] : (Likeness.following R).Acts setup setup where
  kindred := .refl setup
  ask f _ := Run.ask_follows f
  query f _ _ := Run.query_follows f
  emit kind line description _ := emit_follows kind line description
  write := write_follows
  library f arguments := library_follows setup.settings f arguments

theorem evaluateWith_follows [Acting setup R]
    (hc : ∀ scope name arguments line, Follows R (call scope name arguments line))
    (scope : Scope) (e : Expr) : Follows R (evaluateWith setup call scope e) :=
  following_acts.evaluateWith_follows hc scope e

theorem callBy_follows [Acting setup R] {invoke : Invoker}
    (hi : ∀ f, setup.analysis.program.function? f.name = some f → ∀ scope arguments line,
      Follows R (invoke f scope arguments line))
    (scope : Scope) (name : String) (arguments : List Typed) (line : Nat) :
    Follows R (callBy setup invoke scope name arguments line) :=
  following_acts.callBy_follows hi scope name arguments line

/-- So does execution, where declarations in the innermost call follow the relation, too. -/
theorem following_executes [Executing setup R] : (Likeness.following R).Executes setup setup where
  toActs := following_acts
  declare name type line value description := by
    intro m address m' hm
    obtain ⟨frame, m₁, h₁, hm₁⟩ := Eval.bind_eq_ok.1 hm
    obtain ⟨rfl, rfl⟩ := Run.ask_eq_ok.1 h₁
    exact Executing.declare m name type line value description address m' hm₁
  loop hcheck hbody hupdate :=
    loop_follows hcheck hbody hupdate fun line => emit_follows .warning line _

theorem runBody_follows [Executing setup R] (category : Category)
    (hc : ∀ scope name arguments line, Follows R (call scope name arguments line))
    (scope : Scope) (body : List Stmt) :
    Follows R ((walker setup category.commentary call scope).runBody body) :=
  following_executes.runBody_follows category hc scope body

end Programs

/-! ## Calls -/

/-- A call is entered, its body is executed, and it is left under the label it was entered under:
the body has left the active calls as it found them. -/
theorem invocation_returns {room : Nat} {active : List String} {f : Function}
    (hf : setup.analysis.program.function? f.name = some f) (arguments : List Typed) (line : Nat)
    {body : Run Flow} (hbody : Follows (Returns setup room (f.name :: active)) body) :
    Follows (Returns setup (room + 1) active) (Invocation.run setup f arguments line body) := by
  unfold Invocation.run
  refine Follows.ite (fun _ => Follows.fail _) fun harity => ?_
  intro m v m' hm hactive
  obtain ⟨frame, m₁, h₁, hm₁⟩ := Eval.bind_eq_ok.1 hm
  obtain ⟨rfl, rfl⟩ := Run.ask_eq_ok.1 h₁
  obtain ⟨_, m₂, hentered, hm₂⟩ := Eval.bind_eq_ok.1 hm₁
  obtain ⟨flow, m₃, h₃, hleft⟩ := Eval.bind_eq_ok.1 hm₂
  have hentry : m₂.active = f.name :: active := Invocation.enter_active hentered hactive
  obtain ⟨hexit, hbetween⟩ := hbody m₂ flow m₃ h₃ hentry
  have hback : m'.active = active := Invocation.leave_active hleft hexit
  have hroom : (f.name :: active).length + room = active.length + (room + 1) := by
    rw [List.length_cons]
    omega
  rw [hroom] at hbetween
  have henter : Walk setup m m₂ := .enter f arguments line hf (Decidable.not_not.1 harity) hentered
  have hleave : Walk setup m₃ m' := by
    rw [Machine.nextLabel, hactive] at hleft
    exact .leave f active flow hexit hleft
  have htop : ∀ {n : Machine}, n.active = active ∨ n.active = f.name :: active →
      n.active.length ≤ active.length + (room + 1) := by
    rintro n (h | h)
    · rw [h]
      omega
    · rw [h, List.length_cons]
      omega
  exact ⟨hback, (ReflTransGen.head ⟨henter, htop (.inl hactive), htop (.inr hentry)⟩ hbetween).tail
    ⟨hleave, htop (.inr hexit), htop (.inl hback)⟩⟩

/-- Calls of the program's functions come back to the active calls they were made from, and have no
more calls active in between than their budget allows. The induction is on the budget. -/
theorem invoke_returns (category : Category) (budget : Nat) (active : List String) {f : Function}
    (hf : setup.analysis.program.function? f.name = some f) (scope : Scope) (arguments : List Typed)
    (line : Nat) :
    Follows (Returns setup budget active)
      (invoke setup category.commentary budget f scope arguments line) := by
  induction budget generalizing active f scope arguments line with
  | zero => exact Follows.fail _
  | succ budget ih =>
    rw [invoke]
    refine invocation_returns hf arguments line ?_
    exact runBody_follows category (callBy_follows fun f hf => ih _ hf) scope f.body

theorem invoke_follows (category : Category) (budget : Nat) {f : Function}
    (hf : setup.analysis.program.function? f.name = some f) (scope : Scope) (arguments : List Typed)
    (line : Nat) :
    Follows (Walks setup) (invoke setup category.commentary budget f scope arguments line) :=
  Follows.walks fun active => invoke_returns category budget active hf scope arguments line

theorem callAt_returns (category : Category) (count : Nat) (active : List String) (scope : Scope)
    (name : String) (arguments : List Typed) (line : Nat) :
    Follows (Returns setup (setup.settings.calls - count) active)
      (callAt setup category.commentary count scope name arguments line) :=
  callBy_follows (fun _ hf => invoke_returns category _ active hf) scope name arguments line

theorem callAt_follows (category : Category) (count : Nat) (scope : Scope) (name : String)
    (arguments : List Typed) (line : Nat) :
    Follows (Walks setup) (callAt setup category.commentary count scope name arguments line) :=
  Follows.walks fun active => callAt_returns category count active scope name arguments line

/-- **Executing a program is a sequence of moves**, and the settings bound the calls that are active
at any time. -/
theorem runMain_returns (category : Category) :
    Follows (Returns setup setup.settings.calls []) (runMain setup category.commentary) := by
  refine Parallel.runMain_alike following_executes (fun name type line value description => ?_)
    (fun e => evaluateWith_follows (callAt_returns category 0 []) [] e)
    fun _ hf => invoke_returns category _ [] hf []
  -- outside functions the innermost frame is the one of the variables outside functions
  intro m address m' hm hactive
  have hframe : m.currentFrame = globalFrame := by
    rw [Machine.currentFrame, hactive]
  rw [← hframe] at hm
  exact (Walk.declare name type line value description address hm).returns (declare_active hm)
    hactive

/-- **The scripts that execute the program are sequences of moves.** -/
theorem play_returns {category : Category} (h : category.executes = true) :
    Follows (Returns setup setup.settings.calls []) (category.play setup) :=
  Parallel.play_alike following_executes rfl h
    (Parallel.Remark.directives_alike following_executes rfl rfl) (emit_follows .warning)
    (runMain_returns category)

theorem play_follows {category : Category} (h : category.executes = true) {u : Unit}
    {m m' : Machine} (hm : category.play setup m = .ok (u, m')) (hactive : m.active = []) :
    Walks setup m m' :=
  Returns.walks (play_returns h m u m' hm) hactive

/-! ## Executions that are watched

Some relations know nothing of moves: they look at the steps that are shown, or at the texts that are
printed. Besides placing objects an execution calls library functions and shows steps, among them the
warning of a loop that is cut short. -/

/-- A relation that all of this follows. -/
class Watching (setup : outParam Setup) (R : Machine → Machine → Prop) : Prop
    extends Unseen R where
  library : ∀ (f : LibraryFunction) arguments, Follows R (f.run setup.settings arguments)
  step : ∀ kind line description delta, kind ≠ .warning →
    Follows R (Run.emitDelta setup kind line description delta)
  warn : ∀ line, Follows R (Run.emit setup .warning line (loopWarning setup.settings))

namespace Watching

variable {R : Machine → Machine → Prop} [Watching setup R]

theorem declare_follows (frame name : String) (type : CType) (line : Int) (value : Value)
    (description : String) :
    Follows R (declare setup frame name type line value description) := by
  refine (Follows.lift _).bind fun _ => (allocateStack_follows _).bind fun _ =>
    Follows.bind ?_ fun _ => Follows.pure _
  exact (Follows.lift _).bind fun _ => (own_follows _ _ _ _).bind fun _ =>
    Watching.step _ _ _ _ (by decide)

theorem enter_follows (f : Function) (frame : String) (arguments : List Typed) (line : Nat) :
    Follows R (Invocation.enter setup f frame arguments line) :=
  (place_follows _ _ _ _).bind fun _ => (Watching.step _ _ _ _ (by decide)).bind fun _ =>
    Run.change_follows fun m => Unseen.active m _

theorem leave_follows (f : Function) (frame : String) (flow : Flow) :
    Follows R (Invocation.leave setup f frame flow) :=
  (Run.change_follows fun m => Unseen.active m _).bind fun _ => (Follows.lift _).bind fun _ =>
    (Watching.step _ _ _ _ (by decide)).bind fun _ =>
      (Run.change_follows fun m => Unseen.owners m _).bind fun _ => Follows.pure _

theorem executes : (Likeness.following R).Executes setup setup where
  kindred := .refl setup
  ask f _ := Run.ask_follows f
  query f _ _ := Run.query_follows f
  emit kind line description hkind := Watching.step kind line description {} hkind
  write := write_follows
  library := Watching.library
  declare name type line value description :=
    (Run.ask_follows _).bind fun frame => declare_follows frame name type line value description
  loop hcheck hbody hupdate := loop_follows hcheck hbody hupdate fun line => Watching.warn line

theorem callBy_follows {invoke : Invoker}
    (hinvoke : ∀ f scope arguments line, Follows R (invoke f scope arguments line))
    (scope : Scope) (name : String) (arguments : List Typed) (line : Nat) :
    Follows R (callBy setup invoke scope name arguments line) :=
  executes.callBy_follows (fun f _ => hinvoke f) scope name arguments line

/-- A call follows the relation. The induction is on the budget for calls inside calls. -/
theorem invoke_follows (category : Category) (budget : Nat) (f : Function) (scope : Scope)
    (arguments : List Typed) (line : Nat) :
    Follows R (invoke setup category.commentary budget f scope arguments line) := by
  induction budget generalizing f scope arguments line with
  | zero => exact Follows.fail _
  | succ budget ih =>
    rw [invoke]
    exact Follows.ite (fun _ => Follows.fail _) fun _ => (Run.ask_follows _).bind fun frame =>
      (enter_follows f frame arguments line).bind fun _ =>
        (executes.runBody_follows category (callBy_follows ih) scope f.body).bind fun flow =>
          leave_follows f frame flow

/-- **So does the execution of a program.** -/
theorem runMain_follows (category : Category) :
    Follows R (runMain setup category.commentary) := by
  refine Parallel.runMain_alike executes (declare_follows globalFrame) (fun e => ?_)
    fun f _ => invoke_follows category _ f []
  exact executes.evaluateWith_follows (callBy_follows (invoke_follows category _)) [] e

end Watching

end Stepwise
