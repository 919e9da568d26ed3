/-
The steps that a script shows.

No script shows a step of the kinds that begin and end a trace, and every line it shows
is a line of the source text, since lines are moved to the nearest one there is. The
lines that are shown come out of the tree of the program, out of the bodies of macros,
and out of the flow of statements, which hands on the line that was executed last. So a
bound on the lines in the tree is a bound on the lines that are shown.

One run of the machine is gone through from the inside out: expressions, objects, blocks
and loops, statements, calls. The sequence of a program about dynamic allocation searches
the source text for its lines; there, all lines of the text are within the bound.
-/
import Stepwise.Proofs.Execution
import Stepwise.Proofs.Lines

set_option autoImplicit false

namespace Stepwise

/-! ## Results of computations -/

section Results

variable {σ α β : Type} {R : σ → σ → Prop} {P : α → Prop} {Q : β → Prop}

/-- Wherever the computation succeeds, the state it leaves is related to the one it met, and its
result is as described. -/
def Arrives (R : σ → σ → Prop) (Q : α → Prop) (c : Eval σ α) : Prop :=
  ∀ s a s', c s = .ok (a, s') → R s s' ∧ Q a

theorem Arrives.fail (fault : Fault) : Arrives R P (Eval.fail fault : Eval σ α) := by
  intro s a s' hs
  exact absurd hs Eval.fail_ne_ok

theorem Arrives.ite {p : Prop} [Decidable p] {c d : Eval σ α} (hc : p → Arrives R P c)
    (hd : ¬p → Arrives R P d) : Arrives R P (if p then c else d) := by
  split
  · exact hc ‹_›
  · exact hd ‹_›

variable [IsPreorder σ R]

theorem Arrives.pure {a : α} (h : P a) : Arrives R P (Pure.pure a : Eval σ α) := by
  intro s b s' hs
  obtain ⟨rfl, rfl⟩ := Eval.pure_eq_ok.1 hs
  exact ⟨Std.Refl.refl s, h⟩

theorem Arrives.bind {c : Eval σ α} {k : α → Eval σ β} (hc : Arrives R P c)
    (hk : ∀ a, P a → Arrives R Q (k a)) : Arrives R Q (c >>= k) := by
  intro s b s'' hs
  obtain ⟨a, s', h, h'⟩ := Eval.bind_eq_ok.1 hs
  obtain ⟨hfirst, ha⟩ := hc s a s' h
  obtain ⟨hsecond, hb⟩ := hk a ha s' b s'' h'
  exact ⟨IsTrans.trans _ _ _ hfirst hsecond, hb⟩

theorem Follows.arrives {c : Eval σ α} {k : α → Eval σ β} (hc : Follows R c)
    (hk : ∀ a, Arrives R Q (k a)) : Arrives R Q (c >>= k) :=
  Arrives.bind (P := fun _ => True) (fun s a s' hs => ⟨hc s a s' hs, trivial⟩) fun a _ => hk a

theorem Arrives.follows {c : Eval σ α} {k : α → Eval σ β} (hc : Arrives R P c)
    (hk : ∀ a, P a → Follows R (k a)) : Follows R (c >>= k) := by
  intro s b s'' hs
  obtain ⟨a, s', h, h'⟩ := Eval.bind_eq_ok.1 hs
  obtain ⟨hfirst, ha⟩ := hc s a s' h
  exact IsTrans.trans _ _ _ hfirst (hk a ha s' b s'' h')

end Results

/-! ## Steps of a script -/

/-- Is it a kind of step that a script shows? The others begin and end a trace. -/
def StepKind.isInner : StepKind → Bool
  | initialization | finalization => false
  | _ => true

/-- A step of a script, on a line up to `top`. -/
structure Step.Inner (top : Int) (s : Step) : Prop where
  kind : s.kind.isInner = true
  first : 1 ≤ s.line
  last : s.line ≤ top

/-- Every step so far is one of a script, on a line up to `top`. -/
abbrev Machine.Inner (top : Int) : Machine → Prop :=
  Machine.Described (Step.Inner top)

/-- If every step so far is such a step, then every step that is there afterwards. -/
abbrev Showing (top : Int) : Machine → Machine → Prop :=
  Keeps (Machine.Inner top)

/-- The nearest line that exists is no later than `top`. -/
def Setup.Reaches (setup : Setup) (top line : Int) : Prop :=
  setup.analysis.clamp line ≤ top

/-- The lines of a tree that are within reach. -/
abbrev Setup.reached (setup : Setup) (top : Int) (line : Nat) : Prop :=
  setup.Reaches top line

variable {setup : Setup} {top : Int}

theorem emitDelta_shows {kind : StepKind} {line : Int} (hkind : kind.isInner = true)
    (hline : setup.Reaches top line) (description : String) (delta : Delta) :
    Follows (Showing top) (Run.emitDelta setup kind line description delta) :=
  emitDelta_described fun _ => ⟨hkind, Int.le_max_left _ _, hline⟩

theorem emit_shows {kind : StepKind} {line : Int} (hkind : kind.isInner = true)
    (hline : setup.Reaches top line) (description : String) :
    Follows (Showing top) (Run.emit setup kind line description) :=
  emitDelta_shows hkind hline description {}

/-- The program, its macros and its last line are within reach. -/
structure Setup.Bounded (setup : Setup) (top : Int) : Prop where
  program : setup.analysis.program.Lined (setup.reached top)
  macros : ∀ name m body, setup.analysis.macros.find? name = some m → m.expression = .ok body →
    body.Lined (setup.reached top)
  first : setup.Reaches top 1
  last : setup.Reaches top setup.analysis.lastLine

/-! ## Expressions and objects -/

/-- Calls from lines within reach show only such lines. -/
def Caller.Shows (setup : Setup) (top : Int) (call : Caller) : Prop :=
  ∀ scope name arguments line, setup.reached top line →
    Follows (Showing top) (call scope name arguments line)

theorem evaluateWith_shows (hs : setup.Bounded top) {call : Caller}
    (hcall : Caller.Shows setup top call) (scope : Scope) {e : Expr}
    (he : e.Lined (setup.reached top)) :
    Follows (Showing top) (evaluateWith setup call scope e) := by
  have hhost : (machineHost setup call).AlikeOn (.following (Showing top)) (setup.reached top)
      (machineHost setup call) :=
    { members := fun _ => Follows.lift _
      sizes := rfl
      macros := rfl
      find := fun _ => Run.ask_follows _
      read := read_follows
      write := write_follows
      call := hcall
      noteMacro := fun _ _ _ hline => emit_shows rfl hline _ }
  exact evaluate_alikeOn (Follows.fail _) hhost hs.macros _ scope he

/-- Expressions on lines within reach show only such lines when they are evaluated. -/
def Evaluates (setup : Setup) (top : Int) (evaluate : Expr → Run Typed) : Prop :=
  ∀ e : Expr, e.Lined (setup.reached top) → Follows (Showing top) (evaluate e)

section Objects

variable {evaluate : Expr → Run Typed}

mutual

theorem initialValue_shows (he : Evaluates setup top evaluate) (layouts : Layouts) (type : CType)
    {i : Init} (hi : i.Lined (setup.reached top)) :
    Follows (Showing top) (initialValue layouts evaluate type i) := by
  match i with
  | .expr e =>
    rw [initialValue]
    exact (he e hi).bind fun _ => copyValue_follows _ _ _
  | .list _ items =>
    rw [initialValue]
    refine Follows.ite (fun _ => ?_) fun _ => Follows.ite (fun _ => ?_) fun _ => Follows.fail _
    · exact (Follows.lift _).bind fun members =>
        (initialMembers_shows he layouts members hi.2).bind fun _ => Follows.pure _
    · exact (Follows.lift _).bind fun element =>
        (initialItems_shows he layouts element hi.2).bind fun _ => Follows.pure _

theorem initialItems_shows (he : Evaluates setup top evaluate) (layouts : Layouts)
    (element : CType) {items : List Init} (hi : Init.LinedAll (setup.reached top) items) :
    Follows (Showing top) (initialItems layouts evaluate element items) := by
  match items with
  | [] =>
    rw [initialItems]
    exact Follows.pure _
  | i :: rest =>
    rw [initialItems]
    exact (initialValue_shows he layouts element hi.1).bind fun _ =>
      (initialItems_shows he layouts element hi.2).bind fun _ => Follows.pure _

theorem initialMembers_shows (he : Evaluates setup top evaluate) (layouts : Layouts)
    (members : Members) {items : List Init} (hi : Init.LinedAll (setup.reached top) items) :
    Follows (Showing top) (initialMembers layouts evaluate members items) := by
  match items, members with
  | [], _ =>
    rw [initialMembers]
    exact Follows.pure _
  | _ :: _, [] =>
    rw [initialMembers]
    exact Follows.pure _
  | i :: rest, (name, offset, type) :: members =>
    rw [initialMembers]
    exact (initialValue_shows he layouts type hi.1).bind fun _ =>
      (initialMembers_shows he layouts members hi.2).bind fun _ => Follows.pure _

end

theorem typeAndValue_shows (he : Evaluates setup top evaluate) (declared : CType) {v : Variable}
    (hv : v.Lined (setup.reached top)) :
    Follows (Showing top) (typeAndValue setup evaluate declared v) := by
  have htype : Follows (Showing top)
      (v.fullType declared fun e => do return (← evaluate e).value) := by
    unfold Variable.fullType
    split
    · exact Follows.pure _
    · exact Follows.pure _
    · next size hsize =>
      exact Follows.bind ((he _ (hv.size _ hsize)).bind fun _ => Follows.pure _) fun _ =>
        Follows.pure _
  refine htype.bind fun type => ?_
  cases hinit : v.init with
  | none => exact (Follows.pure _).bind fun _ => Follows.pure _
  | some i =>
    exact (initialValue_shows he _ _ (hv.init i hinit)).bind fun _ => Follows.pure _

theorem declareAt_shows {line : Int} (hline : setup.Reaches top line) (frame name : String)
    (type : CType) (value : Value) (description : String) (address : Int) :
    Follows (Showing top) (declareAt setup frame name type line value description address) :=
  (Follows.lift _).bind fun _ => (own_follows _ _ _ _).bind fun _ => emitDelta_shows rfl hline _ _

theorem declare_shows {line : Int} (hline : setup.Reaches top line) (frame name : String)
    (type : CType) (value : Value) (description : String) :
    Follows (Showing top) (declare setup frame name type line value description) :=
  (Follows.lift _).bind fun _ => (allocateStack_follows _).bind fun _ =>
    (declareAt_shows hline _ _ _ _ _ _).bind fun _ => Follows.pure _

theorem declareVariable_shows (he : Evaluates setup top evaluate) (declared : CType)
    {v : Variable} (hv : v.Lined (setup.reached top)) :
    Follows (Showing top) (declareVariable setup evaluate declared v) :=
  (typeAndValue_shows he declared hv).bind fun _ => (Run.query_follows _).bind fun _ =>
    (Run.ask_follows _).bind fun _ => (declare_shows hv.line _ _ _ _ _).bind fun _ =>
      Follows.pure _

theorem declareGlobals_shows (hs : setup.Bounded top) (he : Evaluates setup top evaluate) :
    Follows (Showing top) (declareGlobals setup evaluate) := by
  refine Follows.forM fun item hitem => ?_
  have hlined := hs.program item hitem
  split
  · refine Follows.forM fun v hv => ?_
    have hv := Decl.Lined.vars hlined v hv
    exact (typeAndValue_shows he _ hv).bind fun _ => (Run.query_follows _).bind fun _ =>
      (declare_shows hv.line _ _ _ _ _).bind fun _ => Follows.pure _
  · exact Follows.pure _

end Objects

/-! ## Blocks and loops -/

/-- The line that was executed last is within reach, if there was one. -/
def Flow.Reached (setup : Setup) (top : Int) (flow : Flow) : Prop :=
  flow.line = 0 ∨ setup.reached top flow.line

/-- A computation that shows only lines within reach, and ends on one. -/
abbrev Flows (setup : Setup) (top : Int) : Run Flow → Prop :=
  Arrives (Showing top) (Flow.Reached setup top)

theorem reached_lineOr {line other : Nat} (hline : line = 0 ∨ setup.reached top line)
    (hother : setup.reached top other) : setup.reached top (lineOr line other) := by
  unfold lineOr
  by_cases hzero : line = 0
  · rw [if_pos hzero]
    exact hother
  · rw [if_neg hzero]
    exact hline.resolve_left hzero

theorem directive_shows {d : Directive} (hd : setup.reached top d.line) (branches : Branches) :
    Follows (Showing top) (d.run setup branches) := by
  have hshow : ∀ (p : Prop) [Decidable p] (text : String) (after : Branches),
      Follows (Showing top) (do
        if p then Run.emit setup .preprocessing d.line text
        return after) := fun p _ text after =>
    Follows.ite (fun _ => (emit_shows rfl hd _).bind fun _ => Follows.pure _) fun _ =>
      Follows.pure _
  have halternative : Follows (Showing top) (d.runAlternative setup branches) := by
    unfold Directive.runAlternative
    split
    · exact Follows.fail _
    · refine Follows.ite (fun _ => (Follows.pure _).bind fun _ => hshow _ _ _) fun _ =>
        Follows.ite (fun _ => ?_) fun _ => (Follows.pure _).bind fun _ => hshow _ _ _
      exact (Follows.lift _).bind fun _ => (Follows.pure _).bind fun _ => hshow _ _ _
  unfold Directive.run
  split
  · exact (Follows.lift _).bind fun _ => hshow _ _ _
  · split
    · exact halternative
    · exact halternative
    · split
      · exact Follows.fail _
      · exact Follows.pure _
    · exact hshow _ _ _

/-- An item of a block that stands within reach and shows only lines within reach. -/
def BlockItem.Shows (setup : Setup) (top : Int) : BlockItem → Prop
  | .directive d => setup.reached top d.line
  | .stmt line run => setup.reached top line ∧ Flows setup top run

theorem runItems_shows {items : List BlockItem} (hitems : ∀ item ∈ items, item.Shows setup top)
    (branches : Branches) {last : Nat} (hlast : last = 0 ∨ setup.reached top last) :
    Flows setup top (runItems setup branches last items) := by
  induction items generalizing branches last with
  | nil => exact Arrives.pure hlast
  | cons item items ih =>
    rw [List.forall_mem_cons] at hitems
    obtain ⟨hitem, hrest⟩ := hitems
    cases item with
    | directive d => exact (directive_shows hitem branches).arrives fun _ => ih hrest _ hlast
    | stmt line run =>
      rw [runItems]
      refine Arrives.ite (fun _ => ?_) fun _ => ih hrest _ hlast
      refine hitem.2.bind fun flow hflow => ?_
      cases flow with
      | next reached => exact ih hrest _ (Or.inr (reached_lineOr hflow hitem.1))
      | _ => exact Arrives.pure hflow

theorem runBlock_shows {items : List BlockItem} (hitems : ∀ item ∈ items, item.Shows setup top) :
    Flows setup top (runBlock setup items) :=
  runItems_shows hitems [] (Or.inl rfl)

/-- A loop ends on its own line, or on the line of a return in it. The induction is on the
iterations that are left. -/
theorem iterate_shows {loop : Loop} (hline : setup.reached top loop.line)
    (hcheck : Follows (Showing top) loop.check) (hbody : Flows setup top loop.body)
    (hupdate : Follows (Showing top) loop.update) (left : Nat) :
    Flows setup top (loop.iterate setup left) := by
  have hend : Flows setup top (return .next loop.line) := Arrives.pure (Or.inr hline)
  induction left with
  | zero => exact (emit_shows rfl hline _).arrives fun _ => hend
  | succ left ih =>
    rw [Loop.iterate]
    refine hbody.bind fun flow hflow => ?_
    cases flow with
    | breakOut _ => exact hend
    | ret value line => exact Arrives.pure hflow
    | _ =>
      refine hupdate.arrives fun _ => hcheck.arrives fun _ => ?_
      exact Arrives.ite (fun _ => ih) fun _ => hend

theorem runUnchecked_shows {loop : Loop} (hline : setup.reached top loop.line)
    (hcheck : Follows (Showing top) loop.check) (hbody : Flows setup top loop.body)
    (hupdate : Follows (Showing top) loop.update) : Flows setup top (loop.runUnchecked setup) :=
  iterate_shows hline hcheck hbody hupdate _

theorem loop_shows {loop : Loop} (hline : setup.reached top loop.line)
    (hcheck : Follows (Showing top) loop.check) (hbody : Flows setup top loop.body)
    (hupdate : Follows (Showing top) loop.update) : Flows setup top (loop.run setup) :=
  hcheck.arrives fun _ =>
    Arrives.ite (fun _ => runUnchecked_shows hline hcheck hbody hupdate) fun _ =>
      Arrives.pure (Or.inr hline)

/-! ## Statements -/

/-- What statements are executed with shows only lines within reach. -/
structure Walker.Shows (setup : Setup) (top : Int) (w : Walker) : Prop where
  same : w.setup = setup
  evaluate : Evaluates setup top w.evaluate
  comment : ∀ v type address, v.Lined (setup.reached top) →
    Follows (Showing top) (w.afterDeclaration v type address)

section Statements

variable {w : Walker}

theorem describe_isInner {m : Machine} {e : Expr} {result : Typed} {kind : StepKind}
    {text : String} (h : Walker.describe m e result = .ok (kind, text)) :
    kind.isInner = true := by
  unfold Walker.describe at h
  split at h
  · obtain ⟨rfl, _⟩ := Prod.mk.injEq .. ▸ Except.ok.inj h
    rfl
  · obtain ⟨_, _, h⟩ := bind_eq_ok.1 h
    obtain ⟨rfl, _⟩ := Prod.mk.injEq .. ▸ Except.ok.inj h
    rfl
  · obtain ⟨_, _, h⟩ := bind_eq_ok.1 h
    obtain ⟨rfl, _⟩ := Prod.mk.injEq .. ▸ Except.ok.inj h
    rfl
  · obtain ⟨_, _, h⟩ := bind_eq_ok.1 h
    obtain ⟨rfl, _⟩ := Prod.mk.injEq .. ▸ Except.ok.inj h
    rfl
  · obtain ⟨rfl, _⟩ := Prod.mk.injEq .. ▸ Except.ok.inj h
    rfl
  · obtain ⟨rfl, _⟩ := Prod.mk.injEq .. ▸ Except.ok.inj h
    rfl

theorem value_shows (hw : w.Shows setup top) {e : Expr} (he : e.Lined (setup.reached top)) :
    Follows (Showing top) (w.value e) :=
  (hw.evaluate e he).bind fun _ => Follows.pure _

theorem runExpr_shows (hw : w.Shows setup top) {line : Nat} (hline : setup.reached top line)
    {e : Expr} (he : e.Lined (setup.reached top)) :
    Follows (Showing top) (w.runExpr line e) := by
  refine (hw.evaluate e he).bind fun result => (Run.ask_follows _).bind fun pending => ?_
  refine Follows.ite (fun _ => Follows.pure _) fun _ => ?_
  rw [hw.same]
  refine Arrives.follows (P := fun described => described.1.isInner = true) ?_ ?_
  · intro m described m' hm
    obtain ⟨hdescribe, rfl⟩ := Run.query_eq_ok.1 hm
    exact ⟨fun hm => hm, describe_isInner hdescribe⟩
  · exact fun described hkind => emit_shows hkind hline _

theorem runDecl_shows (hw : w.Shows setup top) {d : Decl} (hd : d.Lined (setup.reached top)) :
    Follows (Showing top) (w.runDecl d) := by
  refine Follows.forM fun v hv => ?_
  have hv := hd.vars v hv
  rw [hw.same]
  exact (declareVariable_shows hw.evaluate d.type hv).bind fun _ => hw.comment _ _ _ hv

theorem decide_shows (hw : w.Shows setup top) {line : Nat} (hline : setup.reached top line)
    (what : String) {e : Expr} (he : e.Lined (setup.reached top)) :
    Follows (Showing top) (w.decide line what e) := by
  refine (value_shows hw he).bind fun _ => (Follows.lift _).bind fun _ => ?_
  rw [hw.same]
  exact (emit_shows rfl hline _).bind fun _ => Follows.pure _

theorem loopCheck_shows (hw : w.Shows setup top) {line : Nat} (hline : setup.reached top line)
    {condition : Option Expr} (he : ∀ e ∈ condition, e.Lined (setup.reached top)) :
    Follows (Showing top) (w.loopCheck line condition) := by
  cases condition with
  | none => exact Follows.pure _
  | some e => exact decide_shows hw hline _ (he e rfl)

theorem matchingCase_shows (hw : w.Shows setup top) (subject : Value) (index : Nat)
    {body : List Stmt} (hbody : Stmt.LinedAll (setup.reached top) body) :
    Follows (Showing top) (w.matchingCase subject index body) := by
  induction body generalizing index with
  | nil => exact Follows.pure _
  | cons s body ih =>
    cases s with
    | caseLabel _ label =>
      rw [Walker.matchingCase]
      exact (value_shows hw hbody.1.2).bind fun _ =>
        Follows.ite (fun _ => Follows.pure _) fun _ => ih _ hbody.2
    | _ =>
      rw [Walker.matchingCase]
      · exact ih _ hbody.2
      all_goals simp

theorem switchBody_lined {body : Stmt} (h : body.Lined (setup.reached top)) :
    Stmt.LinedAll (setup.reached top) (Walker.switchBody body) := by
  cases body with
  | block => exact h.2
  | _ => exact ⟨h, trivial⟩

theorem jump_shows (hw : w.Shows setup top) {line : Nat} (hline : setup.reached top line)
    {subject : Expr} (hsubject : subject.Lined (setup.reached top)) {body : Stmt}
    (hbody : body.Lined (setup.reached top)) :
    Follows (Showing top) (w.jump line subject body) := by
  have hlabels := switchBody_lined hbody
  refine (value_shows hw hsubject).bind fun v => Follows.bind ?_ fun target => ?_
  · refine (matchingCase_shows hw v 0 hlabels).bind fun found => ?_
    split
    · exact Follows.pure _
    · exact Follows.pure _
  · rw [hw.same]
    split
    · next label hlabel =>
      obtain ⟨index, _, hindex⟩ := Option.bind_eq_some_iff.1 hlabel
      have hlined := Stmt.linedAll_iff.1 hlabels label (List.mem_of_getElem? hindex)
      exact (emit_shows rfl hlined.line _).bind fun _ => Follows.pure _
    · exact (emit_shows rfl hline _).bind fun _ => Follows.pure _

mutual

/-- **Statements show only lines within reach**, and end on one. The induction is on the
statement. -/
theorem run_shows (hw : w.Shows setup top) {s : Stmt} (h : s.Lined (setup.reached top)) :
    Flows setup top (w.run s) := by
  match s with
  | .directive d =>
    rw [Walker.run]
    exact Arrives.fail _
  | .block _ body =>
    rw [Walker.run, hw.same]
    exact runBlock_shows (items_shows hw h.2)
  | .empty line | .defaultLabel line | .breakOut line | .continueOn line =>
    rw [Walker.run]
    exact Arrives.pure (Or.inr h)
  | .caseLabel line _ | .ret line none =>
    rw [Walker.run]
    exact Arrives.pure (Or.inr h.1)
  | .decl d =>
    rw [Walker.run]
    exact (runDecl_shows hw h).arrives fun _ => Arrives.pure (Or.inr h.line)
  | .expr line e =>
    rw [Walker.run]
    exact (runExpr_shows hw h.1 h.2).arrives fun _ => Arrives.pure (Or.inr h.1)
  | .cond line condition whenTrue whenFalse =>
    rw [Walker.run]
    refine (decide_shows hw h.1 _ h.2.1).arrives fun _ => ?_
    exact Arrives.ite (fun _ => run_shows hw h.2.2.1) fun _ => runOption_shows hw h.1 h.2.2.2
  | .forLoop line init condition update body =>
    obtain ⟨hline, hinit, hcondition, hupdate, hbody⟩ := h
    rw [Walker.run, hw.same]
    -- the first clause runs once, and the loop ends on its own line
    refine Follows.arrives ?_ fun _ => loop_shows hline (loopCheck_shows hw hline hcondition)
      (run_shows hw hbody) (Follows.forM_option fun e he => runExpr_shows hw hline (hupdate e he))
    cases init with
    | none => exact Follows.pure _
    | decl d => exact runDecl_shows hw hinit
    | expr e => exact runExpr_shows hw hline hinit
  | .whileLoop line condition body =>
    rw [Walker.run, hw.same]
    have hcheck : Follows (Showing top) (w.loopCheck line (some condition)) :=
      decide_shows hw h.1 _ h.2.1
    exact loop_shows h.1 hcheck (run_shows hw h.2.2) (Follows.pure _)
  | .doLoop line body condition =>
    rw [Walker.run, hw.same]
    have hcheck : Follows (Showing top) (w.loopCheck line (some condition)) :=
      decide_shows hw h.1 _ h.2.1
    exact runUnchecked_shows h.1 hcheck (run_shows hw h.2.2) (Follows.pure _)
  | .switch line subject body =>
    rw [Walker.run_switch, hw.same]
    refine (jump_shows hw h.1 h.2.1 h.2.2).arrives fun target => ?_
    cases target with
    | none => exact Arrives.pure (Or.inr h.1)
    | some skipped =>
      refine Arrives.bind (runBlock_shows fun item hitem => ?_) fun flow hflow => ?_
      · -- what runs from the label on are items of the body
        exact itemsOfBody_shows hw h.2.2 item (List.mem_of_mem_drop hitem)
      · refine Arrives.pure ?_
        cases flow with
        | _ => exact hflow
  | .ret line (some e) =>
    rw [Walker.run]
    exact (hw.evaluate e (h.2 e rfl)).arrives fun _ => Arrives.pure (Or.inr h.1)
termination_by 2 * sizeOf s
decreasing_by
  all_goals simp
  all_goals omega

theorem runOption_shows (hw : w.Shows setup top) {line : Nat} (hline : setup.reached top line)
    {s : Option Stmt} (h : Stmt.LinedOption (setup.reached top) s) :
    Flows setup top (w.runOption line s) := by
  match s with
  | none =>
    rw [Walker.runOption]
    exact Arrives.pure (Or.inr hline)
  | some s =>
    rw [Walker.runOption]
    exact run_shows hw h
termination_by 2 * sizeOf s
decreasing_by simp

theorem items_shows (hw : w.Shows setup top) {body : List Stmt}
    (h : Stmt.LinedAll (setup.reached top) body) :
    ∀ item ∈ w.items body, item.Shows setup top := by
  match body with
  | [] =>
    rw [Walker.items]
    intro item hitem
    cases hitem
  | s :: rest =>
    have hrun := run_shows hw h.1
    have hrest := items_shows hw h.2
    have hline := Stmt.Lined.line h.1
    cases s with
    | directive d =>
      rw [Walker.items, List.forall_mem_cons]
      exact ⟨hline, hrest⟩
    | _ =>
      rw [Walker.items, List.forall_mem_cons]
      · exact ⟨⟨hline, hrun⟩, hrest⟩
      all_goals simp
termination_by 2 * sizeOf body
decreasing_by
  all_goals simp
  all_goals omega

theorem itemsOfBody_shows (hw : w.Shows setup top) {body : Stmt}
    (h : body.Lined (setup.reached top)) :
    ∀ item ∈ w.itemsOfBody body, item.Shows setup top := by
  have hrun := run_shows hw h
  match body with
  | .block _ statements => exact items_shows hw h.2
  | .empty .. | .caseLabel .. | .defaultLabel .. | .directive .. | .decl .. | .expr .. | .cond ..
  | .forLoop .. | .whileLoop .. | .doLoop .. | .switch .. | .breakOut .. | .continueOn ..
  | .ret .. =>
    rw [Walker.itemsOfBody, List.forall_mem_singleton]
    · exact ⟨h.line, hrun⟩
    all_goals simp
termination_by 2 * sizeOf body + 1
decreasing_by
  · omega
  · simp only [Stmt.block.sizeOf_spec]
    omega

end

end Statements

/-! ## Calls -/

theorem enter_shows (f : Function) (frame : String) (arguments : List Typed) {line : Nat}
    (hline : setup.reached top line) :
    Follows (Showing top) (Invocation.enter setup f frame arguments line) :=
  (place_follows _ _ _ _).bind fun _ => (emitDelta_shows rfl hline _ _).bind fun _ =>
    Run.change_follows fun _ hm => hm

theorem leave_shows {f : Function} (hf : setup.reached top f.line) (frame : String) {flow : Flow}
    (hflow : flow.Reached setup top) :
    Follows (Showing top) (Invocation.leave setup f frame flow) := by
  refine Follows.bind (Run.change_follows fun _ hm => hm) fun _ => (Follows.lift _).bind fun _ => ?_
  refine (emitDelta_shows rfl (reached_lineOr hflow hf) _ _).bind fun _ => ?_
  exact Follows.bind (Run.change_follows fun _ hm => hm) fun _ => Follows.pure _

theorem invocation_shows {f : Function} (hf : setup.reached top f.line) (arguments : List Typed)
    {line : Nat} (hline : setup.reached top line) {body : Run Flow}
    (hbody : Flows setup top body) :
    Follows (Showing top) (Invocation.run setup f arguments line body) := by
  refine Follows.ite (fun _ => Follows.fail _) fun _ => (Run.ask_follows _).bind fun frame => ?_
  refine (enter_shows f frame arguments hline).bind fun _ => ?_
  exact Arrives.follows hbody fun flow hflow => leave_shows hf frame hflow

/-- The operands of an operation on bits are parts of it. -/
theorem patterns_shows {evaluate : Expr → Run Typed} (he : Evaluates setup top evaluate) {e : Expr}
    (hlined : e.Lined (setup.reached top)) {operation : Remark.BitOperation}
    (hoperation : Remark.bitOperation? e = some operation) (result : Value) :
    Follows (Showing top) (Remark.patterns evaluate operation result) := by
  unfold Remark.bitOperation? at hoperation
  split at hoperation
  · split at hoperation
    · obtain rfl := Option.some.inj hoperation
      exact (he _ hlined.2).bind fun _ => (Follows.lift _).bind fun _ =>
        (Follows.lift _).bind fun _ => Follows.pure _
    · cases hoperation
  · split at hoperation
    · cases hoperation
    · split at hoperation
      · obtain rfl := Option.some.inj hoperation
        exact (he _ hlined.2.1).bind fun _ => (he _ hlined.2.2).bind fun _ =>
          (Follows.lift _).bind fun _ => (Follows.lift _).bind fun _ => Follows.pure _
      · split at hoperation
        · obtain rfl := Option.some.inj hoperation
          exact (he _ hlined.2.1).bind fun _ => (he _ hlined.2.2).bind fun _ =>
            (Follows.lift _).bind fun _ => (Follows.lift _).bind fun _ =>
              (Follows.lift _).bind fun _ => Follows.pure _
        · cases hoperation
  · cases hoperation

/-- What a script adds to declarations shows only lines within reach. -/
theorem commentary_shows (category : Category) {evaluate : Expr → Run Typed}
    (he : Evaluates setup top evaluate) {v : Variable} (hv : v.Lined (setup.reached top))
    (type : CType) (address : Int) :
    Follows (Showing top) (category.commentary setup evaluate v type address) := by
  cases category with
  | bitwise =>
    show Follows (Showing top) (Remark.bits setup evaluate v type address)
    unfold Remark.bits
    split
    · next e hinit =>
      have hlined : e.Lined (setup.reached top) := hv.init _ hinit
      split
      · exact Follows.pure _
      · next operation hoperation =>
        refine (read_follows _).bind fun result => Follows.bind ?_ fun text =>
          emit_shows rfl hv.line _
        exact patterns_shows he hlined hoperation result
    · exact Follows.pure _
  | arrays =>
    show Follows (Showing top) (Remark.room setup evaluate v type address)
    exact Follows.ite (fun _ => (Follows.lift _).bind fun _ => emit_shows rfl hv.line _) fun _ =>
      Follows.pure _
  | _ => exact Follows.pure _

theorem walker_shows (hs : setup.Bounded top) (category : Category) {call : Caller}
    (hcall : Caller.Shows setup top call) (scope : Scope) :
    (walker setup category.commentary call scope).Shows setup top := by
  have he : Evaluates setup top (evaluateWith setup call scope) := fun _ =>
    evaluateWith_shows hs hcall scope
  exact ⟨rfl, he, fun v type address hv => commentary_shows category he hv type address⟩

theorem callBy_shows (hs : setup.Bounded top) {invoke : Invoker}
    (hinvoke : ∀ f scope arguments line, f.Lined (setup.reached top) → setup.reached top line →
      Follows (Showing top) (invoke f scope arguments line)) :
    Caller.Shows setup top (callBy setup invoke) := by
  intro scope name arguments line hline
  unfold callBy
  split
  · exact library_follows _ _ _
  · split
    · next f hf => exact hinvoke f scope arguments line (hs.program.function? hf) hline
    · exact Follows.fail _

/-- **Calls of the program's functions show only lines within reach.** The induction is on the
budget for calls inside calls. -/
theorem invoke_shows (hs : setup.Bounded top) (category : Category) (budget : Nat) {f : Function}
    (hf : f.Lined (setup.reached top)) (scope : Scope) (arguments : List Typed) {line : Nat}
    (hline : setup.reached top line) :
    Follows (Showing top) (invoke setup category.commentary budget f scope arguments line) := by
  induction budget generalizing f scope arguments line with
  | zero => exact Follows.fail _
  | succ budget ih =>
    have hcall := callBy_shows hs fun f scope arguments line hf hline =>
      ih hf scope arguments hline
    have hw := walker_shows hs category hcall scope
    exact invocation_shows hf.line arguments hline (runBlock_shows (items_shows hw hf.body))

theorem callAt_shows (hs : setup.Bounded top) (category : Category) (active : Nat) :
    Caller.Shows setup top (callAt setup category.commentary active) :=
  callBy_shows hs fun _ scope arguments _ hf hline =>
    invoke_shows hs category _ hf scope arguments hline

theorem runMain_shows (hs : setup.Bounded top) (category : Category) :
    Follows (Showing top) (runMain setup category.commentary) := by
  unfold runMain
  split
  · exact Follows.fail _
  · next main hmain =>
    have hlined := hs.program.function? hmain
    have he : Evaluates setup top
        (evaluateWith setup (callAt setup category.commentary 0) []) := fun _ =>
      evaluateWith_shows hs (callAt_shows hs category 0) []
    exact (declareGlobals_shows hs he).bind fun _ =>
      (invoke_shows hs category _ hlined [] [] hlined.line).bind fun _ => Follows.pure _

/-! ## Scripts -/

namespace Remark

theorem directives_shows (hs : setup.Bounded top) :
    Follows (Showing top) (directives setup) := by
  refine Follows.forM fun item hitem => ?_
  have hlined := hs.program item hitem
  split
  · exact emit_shows rfl hlined _
  · exact Follows.pure _

theorem recursiveFunctions_shows (hs : setup.Bounded top) :
    Follows (Showing top) (recursiveFunctions setup) :=
  Follows.forM fun f hf =>
    emit_shows rfl (hs.program.functions f (List.mem_of_mem_filter hf)).line _

theorem layouts_shows (hs : setup.Bounded top) : Follows (Showing top) (layouts setup) := by
  refine Follows.forM fun s hstruct => ?_
  split
  · exact emit_shows rfl (hs.program.structs s hstruct) _
  · exact Follows.pure _

theorem keyboard_shows (hs : setup.Bounded top) : Follows (Showing top) (keyboard setup) := by
  unfold keyboard
  split
  · next c hc => exact emit_shows rfl (hs.program.calls c (List.mem_of_find?_eq_some hc)) _
  · exact Follows.pure _

theorem openFiles_shows (hs : setup.Bounded top) : Follows (Showing top) (openFiles setup) :=
  (Run.ask_follows _).bind fun _ => Follows.forM fun _ _ =>
    (Follows.lift _).bind fun _ => emit_shows rfl hs.last _

theorem contents_shows (hs : setup.Bounded top) : Follows (Showing top) (contents setup) :=
  (Run.ask_follows _).bind fun _ => Follows.forM fun _ _ => emit_shows rfl hs.last _

end Remark

theorem outline_shows (hs : setup.Bounded top) : Follows (Showing top) (Outline.run setup) := by
  unfold Outline.run
  split
  · next main hmain =>
    have hlined := hs.program.function? hmain
    refine (emitDelta_shows rfl hlined.line _ _).bind fun _ => Follows.bind ?_ fun _ =>
      emitDelta_shows rfl ?_ _ _
    · exact Follows.forM fun c hc =>
        emitDelta_shows rfl (hlined.calls c (List.mem_of_mem_filter hc)) _ _
    · unfold Analysis.returnLine
      split
      · next s hreturn =>
        have hmem := List.mem_of_getLast? hreturn
        exact hlined.stmts s (List.mem_of_mem_filter hmem)
      · exact hs.last
  · exact emit_shows rfl hs.first _

namespace Allocation

variable {s : Stage}

/-- The elements are filled and printed on lines of the text, whatever lines were found for it. -/
theorem fillAndPrint_shows (hs : s.setup.Bounded top) (hall : ∀ line, s.setup.Reaches top line) :
    Follows (Showing top) s.fillAndPrint := by
  have hwarn : ∀ loop other, Follows (Showing top) (s.warnOfLimit loop other) := fun _ _ =>
    Follows.ite (fun _ => emit_shows rfl (hall _) _) fun _ => Follows.pure _
  have hprint : ∀ i value, Follows (Showing top) (s.printElement i value) := by
    intro i value
    unfold Stage.printElement
    dsimp only
    split
    · exact emitDelta_shows rfl (hall _) _ _
    · have hcall : Caller.Shows s.setup top (callAt s.setup noCommentary 1) :=
        callAt_shows hs .basic 1
      refine Follows.bind ?_ fun _ => emit_shows rfl (hall _) _
      exact evaluateWith_shows hs hcall _ (Expr.lined_of_forall (fun line => hall line) _)
  refine (Follows.lift _).bind fun count => Follows.bind ?_ fun values => (hwarn _ _).bind fun _ =>
    Follows.bind (Follows.forM fun _ _ => hprint _ _) fun _ => hwarn _ _
  exact Follows.mapM fun i _ => (Follows.lift _).bind fun _ =>
    (emitDelta_shows rfl (hall _) _ _).bind fun _ => Follows.pure _

/-- From the reservation on. -/
theorem rest_shows (hs : s.setup.Bounded top) (hall : ∀ line, s.setup.Reaches top line) :
    Follows (Showing top)
      (do s.reserve; s.check; s.fillAndPrint; s.free; s.clear; s.leave) := by
  have hclear : Follows (Showing top) s.clear := by
    unfold Stage.clear
    split
    · exact Follows.pure _
    · exact emitDelta_shows rfl (hall _) _ _
  refine (emitDelta_shows rfl (hall _) _ _).bind fun _ => (emit_shows rfl (hall _) _).bind fun _ =>
    (fillAndPrint_shows hs hall).bind fun _ => Follows.bind ?_ fun _ => hclear.bind fun _ => ?_
  · exact (emitDelta_shows rfl (hall _) _ _).bind fun _ => emit_shows rfl (hall _) _
  · exact (emitDelta_shows rfl (hall _) _ _).bind fun _ => Run.change_follows fun _ hm => hm

theorem run_shows (hs : setup.Bounded top) (hall : ∀ line, setup.Reaches top line) :
    Follows (Showing top) (Allocation.run setup) := by
  have hpointer : ∀ p, Follows (Showing top) (declarePointer setup p) := fun p =>
    (Follows.lift _).bind fun _ => (declareAt_shows (hall _) _ _ _ _ _ _).bind fun _ =>
      Follows.pure _
  have hcounter : ∀ cursor c, Follows (Showing top) (declareCounter setup cursor c) := fun _ _ =>
    (Follows.lift _).bind fun _ => declareAt_shows (hall _) _ _ _ _ _ _
  unfold Allocation.run
  split
  · exact Follows.fail _
  · refine (Follows.lift _).bind fun p => (Follows.lift _).bind fun elementSize =>
      Follows.bind (Run.change_follows fun _ hm => hm) fun _ => (hpointer p).bind fun placed =>
        Follows.bind (Follows.forM_option fun c _ => hcounter _ c) fun _ =>
          (Follows.lift _).bind fun size => ?_
    exact rest_shows (s := ⟨setup, p, lines setup.analysis p, elementSize, size, placed.1,
      setup.settings.heapBase⟩) hs hall

end Allocation

/-- **Scripts show only lines within reach.** The one for dynamic allocation takes its lines from a
search of the text, so there all lines have to be. -/
theorem play_shows (hs : setup.Bounded top) (category : Category)
    (hall : category = .dynamicAllocation → ∀ line, setup.Reaches top line) :
    Follows (Showing top) (category.play setup) := by
  cases category with
  | dynamicAllocation => exact Allocation.run_shows hs (hall rfl)
  | generic => exact outline_shows hs
  | structures => exact (Remark.layouts_shows hs).bind fun _ => runMain_shows hs .structures
  | fileIo =>
    exact (runMain_shows hs .fileIo).bind fun _ => (Remark.openFiles_shows hs).bind fun _ =>
      Remark.contents_shows hs
  | switchCase => exact (Remark.keyboard_shows hs).bind fun _ => runMain_shows hs .switchCase
  | preprocessor => exact (Remark.directives_shows hs).bind fun _ => runMain_shows hs .preprocessor
  | recursion =>
    exact (Remark.recursiveFunctions_shows hs).bind fun _ => runMain_shows hs .recursion
  | bitwise => exact runMain_shows hs .bitwise
  | arrays => exact runMain_shows hs .arrays
  | basic => exact runMain_shows hs .basic

end Stepwise
