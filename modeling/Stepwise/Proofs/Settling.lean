/-
Statements leave nothing held back.

What an expression does is held back for the next step, and every statement ends with
a step of its own, or shows that there is nothing to be shown; only a statement that
leaves the function with a value hands on what is held back, to the step of the
return. So where execution goes on from one statement to the next, nothing is held
back, and a step that shows no change of its own changes nothing there.

Two computations are held against each other here from machines with the same effects
and nothing held back. What blocks, choices, loops and switches make of their parts is
said once, for two lists of parts; so it serves for a statement and itself, and for two
statements that differ in one place.
-/
import Stepwise.Proofs.Unrecorded
import Stepwise.Proofs.Moves

set_option autoImplicit false

namespace Stepwise

variable {α β : Type}

/-- Does execution go on in the same function? -/
def Flow.Stays : Flow → Prop
  | .ret .. => False
  | _ => True

/-! ## One computation -/

/-- Wherever the computation succeeds, nothing is held back. -/
abbrev Flushes (c : Run α) : Prop :=
  Follows (fun _ m => m.hasPending = false) c

namespace Flushes

theorem bind {c : Run α} {k : α → Run β} (hk : ∀ a, Flushes (k a)) : Flushes (c >>= k) := by
  intro m b m₂ h
  obtain ⟨a, m₁, _, h⟩ := Eval.bind_eq_ok.1 h
  exact hk a m₁ b m₂ h

theorem pure_after {c : Run α} (hc : Flushes c) (f : α → β) :
    Flushes (c >>= fun a => pure (f a)) := by
  intro m b m₂ h
  obtain ⟨a, m₁, hm₁, h⟩ := Eval.bind_eq_ok.1 h
  obtain ⟨_, rfl⟩ := Eval.pure_eq_ok.1 h
  exact hc m a m₁ hm₁

variable {setup : Setup} {kind : StepKind} {line : Int} {description : String}

/-- A step shows everything that was held back. -/
theorem emitDelta {delta : Delta} :
    Flushes (Run.emitDelta setup kind line description delta) := by
  intro m u m₁ h
  obtain ⟨state, _, rfl⟩ := Machine.emit_eq_ok.1 (Run.attempt_eq_ok.1 h)
  rfl

theorem emit : Flushes (Run.emit setup kind line description) :=
  emitDelta

theorem declareVariable {evaluate : Expr → Run Typed} {declared : CType} {v : Variable} :
    Flushes (declareVariable setup evaluate declared v) := by
  refine bind fun _ => bind fun _ => bind fun _ => pure_after ?_ _
  exact bind fun _ => bind fun _ => pure_after (bind fun _ => bind fun _ => emitDelta) _

end Flushes

/-- What is held back stays nothing. -/
abbrev KeepsFlushed : Machine → Machine → Prop :=
  Keeps fun m => m.hasPending = false

theorem Flushes.keeps {c : Run α} (h : Flushes c) : Follows KeepsFlushed c :=
  h.mono fun _ _ hm _ => hm

theorem directive_keepsFlushed (setup : Setup) (d : Directive) (branches : Branches) :
    Follows KeepsFlushed (d.run setup branches) := by
  have hshow : ∀ {p : Prop} [Decidable p] {line : Int} {text : String} {next : Branches},
      Follows KeepsFlushed
        (do
          if p then Run.emit setup .preprocessing line text
          return next) := by
    intro p _ line text next
    exact Follows.ite (fun _ => (Flushes.pure_after .emit _).keeps) fun _ => Follows.pure _
  have halternative : Follows KeepsFlushed (d.runAlternative setup branches) := by
    unfold Directive.runAlternative
    split
    · exact Follows.fail _
    · refine Follows.ite (fun _ => Follows.bind (Follows.pure _) fun _ => hshow) fun _ =>
        Follows.ite (fun _ => ?_) fun _ => Follows.bind (Follows.pure _) fun _ => hshow
      exact (Follows.lift _).bind fun _ => Follows.bind (Follows.pure _) fun _ => hshow
  unfold Directive.run
  split
  · exact (Follows.lift _).bind fun _ => hshow
  · split
    · exact halternative
    · exact halternative
    · split
      · exact Follows.fail _
      · exact Follows.pure _
    · exact hshow

/-! ## Two computations -/

/-- From machines with the same effects and nothing held back, the two computations have results that
resemble each other: the same values, machines with the same effects, and again nothing held back if
the value is of the given kind. -/
def Settling (P : α → Prop) (c d : Run α) : Prop :=
  ∀ m m', m.hasPending = false → m.SameEffects m' →
    Resembles
      (fun p q => p.1 = q.1 ∧ p.2.SameEffects q.2 ∧ (P p.1 → p.2.hasPending = false)) (c m) (d m')

/-- The same, whatever the value is. -/
abbrev AlwaysSettles (c d : Run α) : Prop :=
  Settling (fun _ => True) c d

namespace Settling

variable {P : α → Prop} {Q : β → Prop}

theorem of_alike {c d : Run α} (h : effects.rel c d)
    (hc : ∀ m a m₁, m.hasPending = false → c m = .ok (a, m₁) → P a → m₁.hasPending = false) :
    Settling P c d := by
  intro m m' hm hsame
  refine (h m m' hsame).imp fun p q hp hpq => ?_
  exact ⟨hpq.1, hpq.2, hc m p.1 p.2 hm hp⟩

theorem of_keeps {c d : Run α} (h : effects.rel c d) (hc : Follows KeepsFlushed c) :
    Settling P c d :=
  of_alike h fun m a m₁ hm hcm _ => hc m a m₁ hcm hm

theorem pure (a : α) : Settling P (Pure.pure a : Run α) (Pure.pure a) :=
  of_keeps (effects.pure a) (Follows.pure a)

theorem bind {c d : Run α} {k l : α → Run β} (hc : AlwaysSettles c d)
    (hk : ∀ a, Settling Q (k a) (l a)) : Settling Q (c >>= k) (d >>= l) := by
  intro m m' hm hsame
  refine Resembles.bind (hc m m' hm hsame) ?_
  rintro ⟨a, m₁⟩ ⟨b, m₁'⟩ ⟨hab, hsame₁, hm₁⟩
  dsimp only at hab hsame₁ hm₁
  subst hab
  exact hk a m₁ m₁' (hm₁ trivial) hsame₁

/-- Where the function is not left, execution goes on with nothing held back. -/
theorem bind_flow {c d : Run Flow} {k l : Flow → Run Flow} (hc : Settling Flow.Stays c d)
    (hk : ∀ flow, flow.Stays → Settling Flow.Stays (k flow) (l flow))
    (hret : ∀ value line, k (.ret value line) = Pure.pure (.ret value line) ∧
      l (.ret value line) = Pure.pure (.ret value line)) :
    Settling Flow.Stays (c >>= k) (d >>= l) := by
  intro m m' hm hsame
  refine Resembles.bind (hc m m' hm hsame) ?_
  rintro ⟨flow, m₁⟩ ⟨flow', m₁'⟩ ⟨hflow, hsame₁, hm₁⟩
  dsimp only at hflow hsame₁ hm₁
  subst hflow
  show Resembles _ (k flow m₁) (l flow m₁')
  cases flow with
  | ret value line =>
    rw [(hret value line).1, (hret value line).2]
    exact .ok ⟨rfl, hsame₁, fun hstays => absurd hstays id⟩
  | next line => exact hk (.next line) trivial m₁ m₁' (hm₁ trivial) hsame₁
  | breakOut line => exact hk (.breakOut line) trivial m₁ m₁' (hm₁ trivial) hsame₁
  | continueOn line => exact hk (.continueOn line) trivial m₁ m₁' (hm₁ trivial) hsame₁

theorem ite {p : Prop} [Decidable p] {c d c' d' : Run α} (h : p → Settling P c d)
    (h' : ¬p → Settling P c' d') : Settling P (if p then c else c') (if p then d else d') := by
  split
  · exact h ‹_›
  · exact h' ‹_›

/-- The results of two computations that settle resemble each other. -/
theorem resembles {c d : Run α} (h : Settling P c d) {m m' : Machine} (hm : m.hasPending = false)
    (hsame : m.SameEffects m') :
    Resembles (fun p q => p.1 = q.1 ∧ p.2.SameEffects q.2) (c m) (d m') :=
  (h m m' hm hsame).imp fun _ _ _ hpq => ⟨hpq.1, hpq.2.1⟩

end Settling

/-- A step with nothing to show changes nothing but the record. -/
theorem Machine.emit_nothing {m : Machine} (hm : m.hasPending = false) (kind : StepKind) (line : Int)
    (description : String) :
    ∃ m₁, m.emit kind line description {} = .ok m₁ ∧ m.SameEffects m₁ := by
  simp only [hasPending, Bool.or_eq_false_iff, Bool.not_eq_false', List.isEmpty_iff,
    String.isEmpty_iff] at hm
  obtain ⟨⟨⟨hwrites, hblocks⟩, houtput⟩, hnotes⟩ := hm
  have happly : m.state.apply (m.nextStep kind line description {}) = .ok m.state := by
    unfold nextStep pendingCells pendingFrames
    rw [hwrites, hblocks, houtput]
    show Except.ok { m.state with console := m.state.console ++ ("" ++ "") } = _
    rw [String.append_empty, String.append_empty]
  refine ⟨_, Machine.emit_eq_ok.2 ⟨m.state, happly, rfl⟩,
    m.steps.push (m.nextStep kind line description {}), .emitted {} m.state :: m.journal, ?_⟩
  rw [flushed, ← hwrites, ← hblocks, ← houtput, ← hnotes]

/-- Where nothing is held back, a step that only one of two computations shows makes no difference. -/
theorem Settling.emit_left {P : α → Prop} {setup : Setup} {kind : StepKind} {line : Int}
    {description : String} {c d : Run α} (h : Settling P c d) :
    Settling P (Run.emit setup kind line description >>= fun _ => c) d := by
  intro m m' hm hsame
  obtain ⟨m₁, hm₁, hsame₁⟩ :=
    Machine.emit_nothing hm kind (setup.analysis.clamp line) description
  have hemit : Run.emit setup kind line description m = .ok ((), m₁) := Run.emit_eq_ok.2 hm₁
  have hleft : (Run.emit setup kind line description >>= fun _ => c) m = c m₁ := by
    show Except.bind (Run.emit setup kind line description m) _ = _
    rw [hemit]
    rfl
  rw [hleft]
  exact h m₁ m' (hsame₁.hasPending.trans hm) (hsame₁.symm.trans hsame)

/-! ## Blocks and loops -/

section Parts

variable {setup : Setup}

/-- Two items of a block that are the same directive, or statements that settle. -/
inductive ItemSettles : BlockItem → BlockItem → Prop
  | directive (d : Directive) : ItemSettles (.directive d) (.directive d)
  | stmt (line : Nat) {c d : Run Flow} (h : Settling Flow.Stays c d) :
      ItemSettles (.stmt line c) (.stmt line d)

theorem directive_settles (setup : Setup) (d : Directive) (branches : Branches) :
    AlwaysSettles (d.run setup branches) (d.run setup branches) :=
  .of_keeps (Parallel.directive_alike (effects_plays setup).toExecutes d branches)
    (directive_keepsFlushed setup d branches)

/-- A statement of a block and what follows it. -/
theorem runItems_stmt_settling {branches branches' : Branches} {last last' line : Nat}
    {c d : Run Flow} {rest rest' : List BlockItem} (hactive : branches.active = true)
    (hactive' : branches'.active = true) (hc : Settling Flow.Stays c d)
    (hrest : ∀ last, Settling Flow.Stays (runItems setup branches last rest)
      (runItems setup branches' last rest')) :
    Settling Flow.Stays (runItems setup branches last (.stmt line c :: rest))
      (runItems setup branches' last' (.stmt line d :: rest')) := by
  rw [runItems, runItems, if_pos hactive, if_pos hactive']
  refine hc.bind_flow (fun flow hflow => ?_) fun _ _ => ⟨rfl, rfl⟩
  cases flow with
  | next reached => exact hrest _
  | breakOut _ | continueOn _ => exact .pure _
  | ret => exact absurd hflow id

theorem runItems_settling {items items' : List BlockItem}
    (hitems : List.Forall₂ ItemSettles items items') (branches : Branches) (last : Nat) :
    Settling Flow.Stays (runItems setup branches last items)
      (runItems setup branches last items') := by
  induction hitems generalizing branches last with
  | nil => exact .pure _
  | cons hitem _ ih =>
    cases hitem with
    | directive d => exact (directive_settles setup d branches).bind fun _ => ih _ _
    | stmt line h =>
      by_cases hactive : branches.active = true
      · exact runItems_stmt_settling hactive hactive h fun _ => ih _ _
      · rw [runItems, runItems, if_neg hactive, if_neg hactive]
        exact ih _ _

theorem iterate_settling {line : Nat} {check : Run Bool} {body body' : Run Flow}
    {update : Run Unit} (hcheck : AlwaysSettles check check)
    (hbody : Settling Flow.Stays body body') (hupdate : AlwaysSettles update update) (left : Nat) :
    Settling Flow.Stays (Loop.iterate setup ⟨line, check, body, update⟩ left)
      (Loop.iterate setup ⟨line, check, body', update⟩ left) := by
  induction left with
  | zero =>
    rw [Loop.iterate, Loop.iterate]
    refine .of_keeps ?_ (Flushes.pure_after .emit _).keeps
    exact effects.bind Run.emitDelta_sameEffects fun _ => effects.pure _
  | succ left ih =>
    rw [Loop.iterate, Loop.iterate]
    refine hbody.bind_flow (fun flow hflow => ?_) fun _ _ => ⟨rfl, rfl⟩
    have hmore : Settling Flow.Stays
        (update >>= fun _ => check >>= fun holds =>
          if holds then Loop.iterate setup ⟨line, check, body, update⟩ left
          else pure (.next line))
        (update >>= fun _ => check >>= fun holds =>
          if holds then Loop.iterate setup ⟨line, check, body', update⟩ left
          else pure (.next line)) :=
      hupdate.bind fun _ => hcheck.bind fun _ => .ite (fun _ => ih) fun _ => .pure _
    cases flow with
    | next _ | continueOn _ => exact hmore
    | breakOut _ => exact .pure _
    | ret => exact absurd hflow id

theorem loop_settling {line : Nat} {check : Run Bool} {body body' : Run Flow} {update : Run Unit}
    (hcheck : AlwaysSettles check check) (hbody : Settling Flow.Stays body body')
    (hupdate : AlwaysSettles update update) :
    Settling Flow.Stays (Loop.run setup ⟨line, check, body, update⟩)
      (Loop.run setup ⟨line, check, body', update⟩) :=
  hcheck.bind fun _ => .ite (fun _ => iterate_settling hcheck hbody hupdate _) fun _ => .pure _

end Parts

/-! ## Statements -/

/-- What statements are executed with does not depend on the record, and a remark on a declaration
leaves nothing held back. -/
structure Walker.Settled (w : Walker) : Prop where
  evaluate : ∀ e, effects.rel (w.evaluate e) (w.evaluate e)
  remark : ∀ v type address,
    effects.rel (w.afterDeclaration v type address) (w.afterDeclaration v type address)
  keeps : ∀ v type address, Follows KeepsFlushed (w.afterDeclaration v type address)

theorem commentary_keepsFlushed (setup : Setup) (evaluate : Expr → Run Typed) (category : Category)
    (v : Variable) (type : CType) (address : Int) :
    Follows KeepsFlushed (category.commentary setup evaluate v type address) := by
  have hbits : Follows KeepsFlushed (Remark.bits setup evaluate v type address) := by
    unfold Remark.bits
    split
    · split
      · exact Follows.pure _
      · exact (Flushes.bind fun _ => Flushes.bind fun _ => Flushes.emit).keeps
    · exact Follows.pure _
  have hroom : Follows KeepsFlushed (Remark.room setup evaluate v type address) :=
    Follows.ite (fun _ => (Flushes.bind fun _ => Flushes.emit).keeps) fun _ => Follows.pure _
  cases category with
  | bitwise => exact hbits
  | arrays => exact hroom
  | _ => exact Follows.pure _

theorem walker_settled (setup : Setup) (category : Category) (budget : Nat) (scope : Scope) :
    (walker setup category.commentary (callBy setup (invoke setup category.commentary budget))
      scope).Settled where
  evaluate := effects_evaluateWith setup category budget scope
  remark v type address :=
    Parallel.commentary_alike (effects_plays setup).toExecutes category _ _ v type address
      fun e _ => effects_evaluateWith setup category budget scope e
  keeps := commentary_keepsFlushed setup _ category

namespace Walker.Settled

variable {w : Walker}

section Parts

variable (hw : w.Settled)

include hw

theorem remarksAlike : Parallel.RemarksAlike effects w.evaluate w.evaluate w.afterDeclaration
    w.afterDeclaration :=
  fun v type address _ => hw.remark v type address

theorem runExpr_settles (line : Nat) (e : Expr) :
    AlwaysSettles (w.runExpr line e) (w.runExpr line e) := by
  refine .of_alike (Parallel.runExpr_alike (effects_plays w.setup).toExecutes line (hw.evaluate e)) ?_
  intro m u m₂ _ h _
  obtain ⟨result, m₁, _, h⟩ := Eval.bind_eq_ok.1 h
  obtain ⟨pending, m₁', hask, h⟩ := Eval.bind_eq_ok.1 h
  obtain ⟨hpending, rfl⟩ := Run.ask_eq_ok.1 hask
  by_cases hreturns : (w.callsProgram e && !pending) = true
  · -- the call has shown itself, and nothing was held back for it
    rw [if_pos hreturns] at h
    obtain ⟨_, rfl⟩ := Eval.pure_eq_ok.1 h
    simp only [Bool.and_eq_true, Bool.not_eq_true'] at hreturns
    rw [hpending, hreturns.2]
  · rw [if_neg hreturns] at h
    exact Flushes.bind (fun _ => Flushes.emit) m₁ u m₂ h

theorem runDecl_settles (d : Decl) : AlwaysSettles (w.runDecl d) (w.runDecl d) := by
  refine .of_keeps (Parallel.runDecl_alike (effects_plays w.setup).toExecutes hw.remarksAlike
    fun e _ => hw.evaluate e) (Follows.forM fun v _ => ?_)
  exact Flushes.declareVariable.keeps.bind fun _ => hw.keeps _ _ _

theorem runInit_settles (line : Nat) (init : ForInit) :
    AlwaysSettles (w.runInit line init) (w.runInit line init) := by
  cases init with
  | none => exact .pure _
  | decl d => exact hw.runDecl_settles d
  | expr e => exact hw.runExpr_settles line e

theorem decide_settles (line : Nat) (what : String) (condition : Expr) :
    AlwaysSettles (w.decide line what condition) (w.decide line what condition) :=
  .of_keeps (Parallel.decide_alike (effects_plays w.setup).toExecutes line what
      (hw.evaluate condition))
    (Flushes.bind fun _ => Flushes.bind fun _ => Flushes.pure_after .emit _).keeps

theorem loopCheck_settles (line : Nat) (condition : Option Expr) :
    AlwaysSettles (w.loopCheck line condition) (w.loopCheck line condition) := by
  cases condition with
  | none => exact .pure _
  | some e => exact hw.decide_settles line _ e

theorem update_settles (line : Nat) (update : Option Expr) :
    AlwaysSettles (update.forM (w.runExpr line)) (update.forM (w.runExpr line)) := by
  cases update with
  | none => exact .pure _
  | some e => exact hw.runExpr_settles line e

omit hw in
/-- A jump shows a step, to a label or to none. -/
theorem jump_flushes (line : Nat) (subject : Expr) (body : Stmt) :
    Flushes (w.jump line subject body) := by
  refine Flushes.bind fun v => Flushes.bind fun target => ?_
  split
  · exact Flushes.pure_after .emit _
  · exact Flushes.pure_after .emit _

theorem jump_alike (line : Nat) (subject : Expr) (body : Stmt) :
    effects.rel (w.jump line subject body) (w.jump line subject body) :=
  Parallel.jump_alike (effects_plays w.setup).toExecutes line (hw.evaluate subject)
    fun e _ => hw.evaluate e

/-! ### What statements make of their parts -/

theorem cond_settling (line : Nat) (condition : Expr) {whenTrue whenTrue' : Stmt}
    {whenFalse whenFalse' : Option Stmt}
    (htrue : Settling Flow.Stays (w.run whenTrue) (w.run whenTrue'))
    (hfalse : Settling Flow.Stays (w.runOption line whenFalse) (w.runOption line whenFalse')) :
    Settling Flow.Stays (w.run (.cond line condition whenTrue whenFalse))
      (w.run (.cond line condition whenTrue' whenFalse')) := by
  rw [Walker.run, Walker.run]
  exact (hw.decide_settles line _ condition).bind fun _ => .ite (fun _ => htrue) fun _ => hfalse

theorem forLoop_settling (line : Nat) (init : ForInit) (condition update : Option Expr)
    {body body' : Stmt} (hbody : Settling Flow.Stays (w.run body) (w.run body')) :
    Settling Flow.Stays (w.run (.forLoop line init condition update body))
      (w.run (.forLoop line init condition update body')) := by
  rw [Walker.run, Walker.run]
  exact (hw.runInit_settles line init).bind fun _ =>
    loop_settling (hw.loopCheck_settles line condition) hbody (hw.update_settles line update)

theorem whileLoop_settling (line : Nat) (condition : Expr) {body body' : Stmt}
    (hbody : Settling Flow.Stays (w.run body) (w.run body')) :
    Settling Flow.Stays (w.run (.whileLoop line condition body))
      (w.run (.whileLoop line condition body')) := by
  rw [Walker.run, Walker.run]
  exact loop_settling (hw.loopCheck_settles line _) hbody (.pure _)

theorem doLoop_settling (line : Nat) (condition : Expr) {body body' : Stmt}
    (hbody : Settling Flow.Stays (w.run body) (w.run body')) :
    Settling Flow.Stays (w.run (.doLoop line body condition))
      (w.run (.doLoop line body' condition)) := by
  rw [Walker.run, Walker.run]
  exact iterate_settling (hw.loopCheck_settles line _) hbody (.pure _) _

omit hw in
/-- Two switches that jump to the same label of bodies whose statements settle. -/
theorem switch_settling {line : Nat} {subject : Expr} {body body' : Stmt}
    (hjump : effects.rel (w.jump line subject body) (w.jump line subject body'))
    (hitems : List.Forall₂ ItemSettles (w.itemsOfBody body) (w.itemsOfBody body')) :
    Settling Flow.Stays (w.run (.switch line subject body)) (w.run (.switch line subject body')) := by
  rw [Walker.run_switch, Walker.run_switch]
  refine (Settling.of_keeps hjump (jump_flushes line subject body).keeps).bind fun target => ?_
  cases target with
  | none => exact .pure _
  | some skipped =>
    refine (runItems_settling (List.forall₂_drop skipped hitems) [] 0).bind_flow
      (fun _ _ => .pure _) fun _ _ => ⟨rfl, rfl⟩

end Parts

mutual

/-- **A statement leaves nothing held back** unless it leaves the function. The induction is on the
statement. -/
theorem run_settling (hw : w.Settled) (s : Stmt) : Settling Flow.Stays (w.run s) (w.run s) := by
  match s with
  | .directive d =>
    rw [Walker.run]
    exact .of_keeps (fun _ _ _ => .error rfl) (Follows.fail _)
  | .block _ body =>
    rw [Walker.run]
    exact runItems_settling (items_settle hw body) [] 0
  | .empty line | .caseLabel line _ | .defaultLabel line | .breakOut line | .continueOn line
  | .ret line none =>
    rw [Walker.run]
    exact .pure _
  | .decl d =>
    rw [Walker.run]
    exact (hw.runDecl_settles d).bind fun _ => .pure _
  | .expr line e =>
    rw [Walker.run]
    exact (hw.runExpr_settles line e).bind fun _ => .pure _
  | .cond line condition whenTrue whenFalse =>
    exact hw.cond_settling line condition (run_settling hw whenTrue)
      (runOption_settling hw line whenFalse)
  | .forLoop line init condition update body =>
    exact hw.forLoop_settling line init condition update (run_settling hw body)
  | .whileLoop line condition body => exact hw.whileLoop_settling line condition (run_settling hw body)
  | .doLoop line body condition => exact hw.doLoop_settling line condition (run_settling hw body)
  | .switch line subject body =>
    exact switch_settling (hw.jump_alike line subject body) (itemsOfBody_settle hw body)
  | .ret line (some e) =>
    rw [Walker.run]
    refine .of_alike (effects.bind (hw.evaluate e) fun _ => effects.pure _) ?_
    intro m flow m₁ _ h hstays
    obtain ⟨v, m₂, _, h⟩ := Eval.bind_eq_ok.1 h
    obtain ⟨rfl, _⟩ := Eval.pure_eq_ok.1 h
    exact absurd hstays id
termination_by 2 * sizeOf s
decreasing_by
  all_goals simp
  all_goals omega

theorem runOption_settling (hw : w.Settled) (line : Nat) (s : Option Stmt) :
    Settling Flow.Stays (w.runOption line s) (w.runOption line s) := by
  match s with
  | none =>
    rw [Walker.runOption]
    exact .pure _
  | some s =>
    rw [Walker.runOption]
    exact run_settling hw s
termination_by 2 * sizeOf s
decreasing_by simp

theorem items_settle (hw : w.Settled) (body : List Stmt) :
    List.Forall₂ ItemSettles (w.items body) (w.items body) := by
  match body with
  | [] =>
    rw [Walker.items]
    exact .nil
  | s :: rest =>
    have hrun := run_settling hw s
    have hrest := items_settle hw rest
    cases s with
    | directive d =>
      rw [Walker.items]
      exact .cons (.directive d) hrest
    | _ =>
      rw [Walker.items]
      · exact .cons (.stmt _ hrun) hrest
      all_goals simp
termination_by 2 * sizeOf body
decreasing_by
  all_goals simp
  all_goals omega

theorem itemsOfBody_settle (hw : w.Settled) (body : Stmt) :
    List.Forall₂ ItemSettles (w.itemsOfBody body) (w.itemsOfBody body) := by
  have hrun := run_settling hw body
  match body with
  | .block _ statements => exact items_settle hw statements
  | .empty .. | .caseLabel .. | .defaultLabel .. | .directive .. | .decl .. | .expr .. | .cond ..
  | .forLoop .. | .whileLoop .. | .doLoop .. | .switch .. | .breakOut .. | .continueOn ..
  | .ret .. => exact .cons (.stmt _ hrun) .nil
termination_by 2 * sizeOf body + 1
decreasing_by
  · omega
  · simp only [Stmt.block.sizeOf_spec]
    omega

end

end Walker.Settled

end Stepwise
