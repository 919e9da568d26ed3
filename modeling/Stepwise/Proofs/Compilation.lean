/-
Conditional compilation in a program.

A block with groups does what its compiled statements do, wherever the block stands in
a function: as the body, as a statement of another block, or below a choice, a loop or
a switch. A place for a block is a list of statements with a hole; only the statements
of a switch itself are no such place, since a switch looks for its labels among all of
them and does not see groups.
-/
import Stepwise.Proofs.Sections

set_option autoImplicit false

namespace Stepwise

/-! ## Places for a block -/

mutual

/-- A list of statements with a hole for the statements of a block. -/
inductive BlockContext where
  /-- The block itself. -/
  | hole
  /-- The hole is in one of the statements. -/
  | inside (before : List Stmt) (s : StmtContext) (after : List Stmt)

/-- A statement with a hole for the statements of a block. -/
inductive StmtContext where
  /-- In a block. -/
  | block (line : Nat) (body : BlockContext)
  /-- In what a choice does if its condition holds. -/
  | whenTrue (line : Nat) (condition : Expr) (s : StmtContext) (whenFalse : Option Stmt)
  /-- In its alternative. -/
  | whenFalse (line : Nat) (condition : Expr) (whenTrue : Stmt) (s : StmtContext)
  /-- In the body of a loop with three clauses. -/
  | forLoop (line : Nat) (init : ForInit) (condition update : Option Expr) (body : StmtContext)
  /-- In the body of a loop that checks first. -/
  | whileLoop (line : Nat) (condition : Expr) (body : StmtContext)
  /-- In the body of a loop that checks last. -/
  | doLoop (line : Nat) (body : StmtContext) (condition : Expr)
  /-- In a statement of a switch's body. -/
  | switch (line : Nat) (subject : Expr) (bodyLine : Nat) (before : List Stmt) (s : StmtContext)
      (after : List Stmt)

end

mutual

/-- The statements with those of a block in the place of the hole. -/
def BlockContext.fill (body : List Stmt) : BlockContext → List Stmt
  | .hole => body
  | .inside before s after => before ++ StmtContext.fill body s :: after

/-- The statement with those of a block in the place of the hole. -/
def StmtContext.fill (body : List Stmt) : StmtContext → Stmt
  | .block line c => .block line (BlockContext.fill body c)
  | .whenTrue line condition s whenFalse => .cond line condition (StmtContext.fill body s) whenFalse
  | .whenFalse line condition whenTrue s =>
    .cond line condition whenTrue (some (StmtContext.fill body s))
  | .forLoop line init condition update s =>
    .forLoop line init condition update (StmtContext.fill body s)
  | .whileLoop line condition s => .whileLoop line condition (StmtContext.fill body s)
  | .doLoop line s condition => .doLoop line (StmtContext.fill body s) condition
  | .switch line subject bodyLine before s after =>
    .switch line subject (.block bodyLine (before ++ StmtContext.fill body s :: after))

end

/-! ## Labels -/

/-- Can a switch jump to the statement? -/
def Stmt.isLabel : Stmt → Bool
  | .caseLabel .. | .defaultLabel _ => true
  | _ => false

theorem StmtContext.isLabel_fill (s : StmtContext) (body : List Stmt) :
    (s.fill body).isLabel = false := by
  cases s <;> rfl

theorem StmtContext.fill_ne_directive (s : StmtContext) (body : List Stmt) (d : Directive) :
    s.fill body ≠ .directive d := by
  cases s <;> simp [fill]

theorem StmtContext.line_fill (s : StmtContext) (body body' : List Stmt) :
    (s.fill body).line = (s.fill body').line := by
  cases s <;> rfl

namespace Walker

variable {w : Walker}

theorem matchingCase_cons {s : Stmt} (hs : ∀ line label, s ≠ .caseLabel line label)
    (subject : Value) (index : Nat) (rest : List Stmt) :
    w.matchingCase subject index (s :: rest) = w.matchingCase subject (index + 1) rest := by
  cases s with
  | caseLabel line label => exact absurd rfl (hs line label)
  | _ =>
    rw [matchingCase]
    simp

theorem ne_caseLabel_of_not_isLabel {s : Stmt} (hs : s.isLabel = false) (line : Nat) (label : Expr) :
    s ≠ .caseLabel line label := by
  rintro rfl
  cases hs

theorem isDefault_of_not_isLabel {s : Stmt} (hs : s.isLabel = false) : isDefault s = false := by
  cases s with
  | defaultLabel => cases hs
  | _ => rfl

/-- The search for a label passes over every other statement. -/
theorem target?_replaced {s s' : Stmt} (hs : s.isLabel = false) (hs' : s'.isLabel = false)
    (subject : Value) (before after : List Stmt) :
    w.target? subject (before ++ s :: after) = w.target? subject (before ++ s' :: after) := by
  have hcase : ∀ index, w.matchingCase subject index (before ++ s :: after)
      = w.matchingCase subject index (before ++ s' :: after) := by
    induction before with
    | nil =>
      intro index
      rw [List.nil_append, List.nil_append, matchingCase_cons (ne_caseLabel_of_not_isLabel hs),
        matchingCase_cons (ne_caseLabel_of_not_isLabel hs')]
    | cons b before ih =>
      intro index
      rw [List.cons_append, List.cons_append]
      cases b with
      | caseLabel line label => simp only [matchingCase, ih]
      | _ => rw [matchingCase_cons (by simp), matchingCase_cons (by simp), ih]
  have hdefault : (before ++ s :: after).findIdx? isDefault
      = (before ++ s' :: after).findIdx? isDefault := by
    simp [List.findIdx?_append, List.findIdx?_cons, isDefault_of_not_isLabel hs,
      isDefault_of_not_isLabel hs']
  simp only [target?, hcase, hdefault]

/-- Jumps to the same place do the same, whatever they say of the label. -/
theorem jump_sameEffects (hw : w.Settled) (line : Nat) (subject : Expr) {body body' : Stmt}
    (htarget : ∀ v, effects.rel (w.target? v (switchBody body)) (w.target? v (switchBody body'))) :
    effects.rel (w.jump line subject body) (w.jump line subject body') := by
  refine effects.bind (Parallel.value_alike (hw.evaluate subject)) fun v =>
    effects.bind (htarget v) fun target => ?_
  have hemit : ∀ line line' text text', effects.rel
      (Run.emit w.setup .conditional line text >>= fun _ => pure target)
      (Run.emit w.setup .conditional line' text' >>= fun _ => pure target) :=
    fun _ _ _ _ => effects.bind Run.emitDelta_sameEffects fun _ => effects.pure _
  dsimp only
  split <;> split <;> exact hemit _ _ _ _

theorem target?_sameEffects (hw : w.Settled) (subject : Value) (statements : List Stmt) :
    effects.rel (w.target? subject statements) (w.target? subject statements) := by
  refine effects.bind (Parallel.matchingCase_alike subject 0 fun e _ => hw.evaluate e) fun found => ?_
  split
  · exact effects.pure _
  · exact effects.pure _

theorem items_append (a b : List Stmt) : w.items (a ++ b) = w.items a ++ w.items b := by
  induction a with
  | nil => rw [List.nil_append, items, List.nil_append]
  | cons s a ih =>
    rw [List.cons_append]
    by_cases hs : ∃ d, s = .directive d
    · obtain ⟨d, rfl⟩ := hs
      rw [items, items, ih, List.cons_append]
    · rw [not_exists] at hs
      rw [items_stmt hs, items_stmt hs, ih, List.cons_append]

end Walker

/-! ## Replacing a block -/

section Replacing

variable {w : Walker} {body body' : List Stmt}

theorem items_replaced (hw : w.Settled) (before after : List Stmt) {s : StmtContext}
    (h : Settling Flow.Stays (w.run (s.fill body)) (w.run (s.fill body'))) :
    List.Forall₂ ItemSettles (w.items (before ++ s.fill body :: after))
      (w.items (before ++ s.fill body' :: after)) := by
  rw [Walker.items_append, Walker.items_append, Walker.items_stmt (s.fill_ne_directive body),
    Walker.items_stmt (s.fill_ne_directive body'), s.line_fill body body']
  exact List.rel_append (hw.items_settle before) (.cons (.stmt _ h) (hw.items_settle after))

mutual

/-- Blocks that settle may stand for each other in a list of statements. -/
theorem BlockContext.settling (hw : w.Settled) (c : BlockContext)
    (h : Settling Flow.Stays (runBlock w.setup (w.items body)) (runBlock w.setup (w.items body'))) :
    Settling Flow.Stays (runBlock w.setup (w.items (c.fill body)))
      (runBlock w.setup (w.items (c.fill body'))) := by
  match c with
  | .hole => exact h
  | .inside before s after =>
    rw [BlockContext.fill, BlockContext.fill]
    exact runItems_settling (items_replaced hw before after (StmtContext.settling hw s h)) [] 0

/-- They may stand for each other in a statement. The induction is on the way to the hole. -/
theorem StmtContext.settling (hw : w.Settled) (s : StmtContext)
    (h : Settling Flow.Stays (runBlock w.setup (w.items body)) (runBlock w.setup (w.items body'))) :
    Settling Flow.Stays (w.run (s.fill body)) (w.run (s.fill body')) := by
  match s with
  | .block line c =>
    rw [StmtContext.fill, StmtContext.fill, Walker.run, Walker.run]
    exact BlockContext.settling hw c h
  | .whenTrue line condition s whenFalse =>
    exact hw.cond_settling line condition (StmtContext.settling hw s h)
      (hw.runOption_settling line whenFalse)
  | .whenFalse line condition whenTrue s =>
    refine hw.cond_settling line condition (hw.run_settling whenTrue) ?_
    rw [Walker.runOption, Walker.runOption]
    exact StmtContext.settling hw s h
  | .forLoop line init condition update s =>
    exact hw.forLoop_settling line init condition update (StmtContext.settling hw s h)
  | .whileLoop line condition s =>
    exact hw.whileLoop_settling line condition (StmtContext.settling hw s h)
  | .doLoop line s condition =>
    exact hw.doLoop_settling line condition (StmtContext.settling hw s h)
  | .switch line subject bodyLine before s after =>
    refine Walker.Settled.switch_settling (w.jump_sameEffects hw line subject fun v => ?_)
      (items_replaced hw before after (StmtContext.settling hw s h))
    have hsame : w.target? v (Walker.switchBody (.block bodyLine (before ++ s.fill body' :: after)))
        = w.target? v (before ++ s.fill body :: after) :=
      Walker.target?_replaced (s.isLabel_fill body') (s.isLabel_fill body) v before after
    rw [hsame]
    exact w.target?_sameEffects hw v _

end

end Replacing

/-! ## Calls -/

theorem Flushes.enter {setup : Setup} {f : Function} {frame : String} {arguments : List Typed}
    {line : Nat} : Flushes (Invocation.enter setup f frame arguments line) := by
  refine Flushes.bind fun placed => ?_
  intro m u m₂ h
  obtain ⟨_, m₁, hemit, h⟩ := Eval.bind_eq_ok.1 h
  obtain rfl := Run.change_eq_ok.1 h
  exact Flushes.emitDelta m _ m₁ hemit

/-- The same value and machines with the same effects, or faults that differ at most in their
wording. -/
abbrev SameOutcome {α : Type} (r r' : Except Fault (α × Machine)) : Prop :=
  Resembles (fun p q => p.1 = q.1 ∧ p.2.SameEffects q.2) r r'

/-- A call may be executed with another body that settles as its own does: entering it leaves nothing
held back. -/
theorem invocation_sameEffects (setup : Setup) (f : Function) (arguments : List Typed) (line : Nat)
    {body body' : Run Flow} (h : Settling Flow.Stays body body') :
    effects.rel (Invocation.run setup f arguments line body)
      (Invocation.run setup f arguments line body') := by
  have hplays := effects_plays setup
  refine effects.ite (fun _ => effects.fail _ (by simp)) fun _ =>
    effects.bind (hplays.ask _ fun _ _ _ => rfl) fun frame => ?_
  intro m m' hsame
  have henter := (hplays.enter f frame arguments line m m' hsame).imp fun p q hp hpq =>
    And.intro hpq (Flushes.enter m p.1 p.2 hp)
  refine Resembles.bind henter ?_
  rintro ⟨u, m₁⟩ ⟨u', m₁'⟩ ⟨⟨_, hsame₁⟩, hm₁⟩
  refine Resembles.bind (h.resembles hm₁ hsame₁) ?_
  rintro ⟨flow, m₂⟩ ⟨flow', m₂'⟩ ⟨hflow, hsame₂⟩
  dsimp only at hflow hsame₂
  subst hflow
  exact hplays.leave f frame flow m₂ m₂' hsame₂

/-! ## The main result -/

/-- **A block with groups does what its compiled statements do**: from every machine with nothing held
back, as is the case wherever a block is executed, and so in every call of every function that has
the block somewhere in its body, from every machine. -/
theorem groups_are_compiled (setup : Setup) (category : Category) (budget : Nat) (scope : Scope)
    (sections : Sections) (heval : sections.Evaluates setup.analysis.macros) :
    let w := walker setup category.commentary
      (callBy setup (invoke setup category.commentary budget)) scope
    let compiled := sections.selected setup.analysis.macros
    (∀ m : Machine, m.hasPending = false →
      SameOutcome (runBlock setup (w.items sections.flatten) m)
        (runBlock setup (w.items compiled) m)) ∧
    ∀ (place : BlockContext) (f : Function) (arguments : List Typed) (line : Nat) (m : Machine),
      SameOutcome
        (Invocation.run setup f arguments line (w.runBody (place.fill sections.flatten)) m)
        (Invocation.run setup f arguments line (w.runBody (place.fill compiled)) m) := by
  intro w compiled
  have hw : w.Settled := walker_settled setup category budget scope
  have hblock : Settling Flow.Stays (runBlock setup (w.items sections.flatten))
      (runBlock setup (w.items compiled)) := by
    have hnil : ∀ last, Settling Flow.Stays (runItems w.setup [] last (w.items []))
        (runItems w.setup [] last (w.items [])) := by
      intro last
      rw [Walker.items]
      exact .pure _
    have h := Sections.compile hw sections heval rfl hnil 0
    rwa [List.append_nil, List.append_nil] at h
  refine ⟨fun m hm => hblock.resembles hm (.refl m), ?_⟩
  intro place f arguments line m
  exact invocation_sameEffects setup f arguments line (place.settling hw hblock) m m (.refl m)

namespace NestedGroups

/-- An assignment to `x`. -/
def assign (line : Nat) (value : String) : Stmt :=
  .expr line (.assign line none (.name line "x") (.literal line value))

/-- A group whose second branch has a condition that holds, and a group of its own. -/
def sections : Sections :=
  .group .defined ⟨4, ["A"]⟩ (.stmt (assign 5 "1") trivial .nil)
    (.elif ⟨6, ["1"]⟩
      (.group .undefined ⟨7, ["B"]⟩ (.stmt (assign 8 "2") trivial .nil) (.close ⟨9, []⟩) .nil)
      (.otherwise ⟨10, []⟩ (.stmt (assign 11 "3") trivial .nil) ⟨12, []⟩))
    .nil

/-- The declaration of `x`, which is one in the beginning. -/
def declaration : Decl :=
  ⟨2, .int, [⟨2, "x", 0, .none, some (.expr (.literal 2 "1"))⟩]⟩

/-- A loop that goes on while `x` is one. -/
def loop (body : StmtContext) : StmtContext :=
  .whileLoop 3 (.binary 3 (.rel .eq) (.name 3 "x") (.literal 3 "1")) body

/-- Where the groups stand in the function: in the loop. -/
def place : BlockContext :=
  .inside [.decl declaration] (loop (.block 3 .hole)) [.ret 14 (some (.name 14 "x"))]

/-- A function that has the groups in a loop, and returns `x`. -/
def main : Function where
  line := 1
  name := "main"
  returnType := .int
  parameters := []
  bodyLine := 1
  body := place.fill sections.flatten

/-- What it is executed under: nothing is defined. -/
def setup : Setup :=
  ⟨{ program := ⟨[.function main]⟩, source := "", tokens := [], lines := [], macros := [],
     layouts := [] }, {}⟩

/-- What its statements are executed with. -/
def inMain : Walker :=
  walker setup noCommentary (callAt setup noCommentary 1) []

theorem sections_evaluates : sections.Evaluates setup.analysis.macros := by
  have hmark : Mark.Evaluates ⟨6, ["1"]⟩ setup.analysis.macros := ⟨1, rfl⟩
  have hinner : Sections.Evaluates setup.analysis.macros
      (.group .undefined ⟨7, ["B"]⟩ (.stmt (assign 8 "2") trivial .nil) (.close ⟨9, []⟩) .nil) :=
    ⟨(fun hvalue => by cases hvalue), trivial, trivial, trivial⟩
  exact ⟨(fun hvalue => by cases hvalue), trivial, ⟨hmark, hinner, trivial⟩, trivial⟩

theorem sections_selected : sections.selected setup.analysis.macros = [assign 8 "2"] := by
  have hholds : Mark.holds ⟨6, ["1"]⟩ setup.analysis.macros = true := by decide +kernel
  simp only [sections, Sections.selected, Alternatives.selected, hholds, if_true]
  rfl

/-- The machine in front of the loop. -/
def beforeLoop : Except Fault Machine := do
  let (_, m) ← Invocation.enter setup main "main" [] 1 (Machine.start {})
  let (_, m) ← inMain.runDecl declaration m
  return m

/-- The block with these statements. -/
def block (body : List Stmt) : Run Flow :=
  runBlock setup (inMain.items body)

/-- A call of the function with these statements in the block. -/
def call (body : List Stmt) : Run Typed :=
  Invocation.run setup main [] 1 (inMain.runBody (place.fill body))

/-- In front of the loop nothing is held back, and behind the block `x` is two. -/
def leavesTwo (body : List Stmt) : Bool :=
  match beforeLoop with
  | .ok m =>
    !m.hasPending &&
      match block body m with
      | .ok (.next _, m) =>
        match m.read (.int 4096) with
        | .ok (.num (.int n)) => n == 2
        | _ => false
      | _ => false
  | .error _ => false

/-- The call returns two. -/
def returnsTwo (body : List Stmt) : Bool :=
  match call body (Machine.start {}) with
  | .ok (⟨.num (.int n), _⟩, _) => n == 2
  | _ => false

theorem of_leavesTwo {body : List Stmt} (h : leavesTwo body = true) :
    ∃ m line m', beforeLoop = .ok m ∧ m.hasPending = false ∧ block body m = .ok (.next line, m') ∧
      m'.read (.int 4096) = .ok (.int 2) := by
  unfold leavesTwo at h
  split at h
  · next m hm =>
    rw [Bool.and_eq_true, Bool.not_eq_true'] at h
    obtain ⟨hidle, h⟩ := h
    split at h
    · next line m' hrun =>
      split at h
      · next n hread => exact ⟨m, line, m', hm, hidle, hrun, by rw [hread, eq_of_beq h]⟩
      · cases h
    · cases h
  · cases h

theorem of_returnsTwo {body : List Stmt} (h : returnsTwo body = true) :
    ∃ type m, call body (Machine.start {}) = .ok (⟨.int 2, type⟩, m) := by
  unfold returnsTwo at h
  split at h
  · next n type m hrun => exact ⟨type, m, by rw [hrun, eq_of_beq h]⟩
  · cases h

/-- With the groups and with the one assignment `x` ends up as two. -/
theorem both_leaveTwo : leavesTwo sections.flatten = true ∧ leavesTwo [assign 8 "2"] = true := by
  simp only [leavesTwo, block, sections, Sections.flatten, Alternatives.flatten, List.cons_append,
    List.nil_append, assign, Walker.items, Walker.run]
  decide +kernel

/-- It does so at the end of the function as well. -/
theorem both_returnTwo : returnsTwo sections.flatten = true ∧ returnsTwo [assign 8 "2"] = true := by
  simp only [returnsTwo, call, sections, Sections.flatten, Alternatives.flatten, List.cons_append,
    List.nil_append, place, loop, BlockContext.fill, StmtContext.fill, assign, Walker.runBody,
    Walker.items, Walker.run]
  decide +kernel

end NestedGroups

/-- Of these groups only one assignment is compiled: it alone does what the groups do, in the block
and in a call of the function, and with either `x` ends up as two. -/
theorem one_assignment_is_compiled :
    NestedGroups.sections.Evaluates NestedGroups.setup.analysis.macros ∧
    NestedGroups.sections.selected NestedGroups.setup.analysis.macros
      = [NestedGroups.assign 8 "2"] ∧
    (∃ m line m₁ line' m₂, NestedGroups.beforeLoop = .ok m ∧ m.hasPending = false ∧
      SameOutcome (NestedGroups.block NestedGroups.sections.flatten m)
        (NestedGroups.block [NestedGroups.assign 8 "2"] m) ∧
      NestedGroups.block NestedGroups.sections.flatten m = .ok (.next line, m₁) ∧
      m₁.read (.int 4096) = .ok (.int 2) ∧
      NestedGroups.block [NestedGroups.assign 8 "2"] m = .ok (.next line', m₂) ∧
      m₂.read (.int 4096) = .ok (.int 2)) ∧
    SameOutcome (NestedGroups.call NestedGroups.sections.flatten (Machine.start {}))
      (NestedGroups.call [NestedGroups.assign 8 "2"] (Machine.start {})) ∧
    ∃ type m type' m',
      NestedGroups.call NestedGroups.sections.flatten (Machine.start {})
        = .ok (⟨.int 2, type⟩, m) ∧
      NestedGroups.call [NestedGroups.assign 8 "2"] (Machine.start {})
        = .ok (⟨.int 2, type'⟩, m') := by
  obtain ⟨hblock, hcall⟩ := groups_are_compiled NestedGroups.setup .basic (Settings.calls {} - 1) []
    NestedGroups.sections NestedGroups.sections_evaluates
  rw [NestedGroups.sections_selected] at hblock hcall
  obtain ⟨hflat, hcompiled⟩ := NestedGroups.both_leaveTwo
  obtain ⟨m, line, m₁, hm, hidle, hrun, hread⟩ := NestedGroups.of_leavesTwo hflat
  obtain ⟨m', line', m₂, hm', _, hrun', hread'⟩ := NestedGroups.of_leavesTwo hcompiled
  -- both blocks are run on the one machine in front of the loop
  obtain rfl := Except.ok.inj (hm.symm.trans hm')
  obtain ⟨hflat, hcompiled⟩ := NestedGroups.both_returnTwo
  obtain ⟨type, mend, hreturns⟩ := NestedGroups.of_returnsTwo hflat
  obtain ⟨type', mend', hreturns'⟩ := NestedGroups.of_returnsTwo hcompiled
  exact ⟨NestedGroups.sections_evaluates, NestedGroups.sections_selected,
    ⟨m, line, m₁, line', m₂, hm, hidle, hblock m hidle, hrun, hread, hrun', hread'⟩,
    hcall NestedGroups.place NestedGroups.main [] 1 (Machine.start {}),
    type, mend, type', mend', hreturns, hreturns'⟩

end Stepwise
