/-
Two executions side by side.

One program is executed twice, perhaps under different settings, or with more room
for nestings. The statements of the program are gone through once, here, for any
likeness: the two executions are alike if the machine's own operations are, if
expressions are evaluated alike where calls are, and if loops are alike where their
parts are.

Whether they are depends on the likeness, and so does how calls inside calls are
counted; that is left to those who use it. Nothing that a machine is asked for here
depends on the steps it has shown or on its journal, so a likeness may overlook those;
and expressions have to be evaluated alike only where a statement asks for them.
-/
import Stepwise.Proofs.Likeness
import Mathlib.Data.List.Forall2

set_option autoImplicit false

namespace Stepwise

/-- The same program under other settings and with other room for nestings. -/
def Setup.revised (setup : Setup) (spare : Nat) (settings : Settings) : Setup :=
  ⟨{ setup.analysis with spare := spare }, settings⟩

/-- Two items outside functions that are the same, or definitions that stand on the same line. -/
inductive Item.Redefines : Item → Item → Prop
  | same (i : Item) : Redefines i i
  | define (line : Nat) (arguments arguments' : List String) :
    Redefines (.directive ⟨line, "#define", arguments⟩)
      (.directive ⟨line, "#define", arguments'⟩)

/-- Two programs that differ at most in what their definitions outside functions say. -/
def Program.Redefines (p q : Program) : Prop :=
  List.Forall₂ Item.Redefines p.items q.items

namespace Program.Redefines

variable {α : Type} {p q : Program}

theorem refl (p : Program) : p.Redefines p :=
  List.forall₂_same.2 fun i _ => .same i

theorem map_eq (h : p.Redefines q) {f : Item → α}
    (hf : ∀ d d', f (.directive d) = f (.directive d')) : q.items.map f = p.items.map f := by
  unfold Redefines at h
  generalize p.items = items, q.items = items' at h ⊢
  induction h with
  | nil => rfl
  | cons hitem _ ih =>
    rw [List.map_cons, List.map_cons, ih]
    cases hitem with
    | same => rfl
    | define => rw [hf]

theorem filterMap_eq (h : p.Redefines q) {f : Item → Option α}
    (hf : ∀ d d', f (.directive d) = f (.directive d')) :
    q.items.filterMap f = p.items.filterMap f := by
  have hmap := congrArg (List.filterMap id) (h.map_eq hf)
  rwa [List.filterMap_map, List.filterMap_map] at hmap

theorem functions (h : p.Redefines q) : q.functions = p.functions :=
  h.filterMap_eq fun _ _ => rfl

theorem function? (h : p.Redefines q) (name : String) : q.function? name = p.function? name := by
  rw [Program.function?, h.functions, Program.function?]

theorem structs (h : p.Redefines q) : q.structs = p.structs :=
  h.filterMap_eq fun _ _ => rfl

theorem exprs (h : p.Redefines q) : q.exprs = p.exprs := by
  rw [Program.exprs, List.flatMap_def, h.map_eq fun _ _ => rfl, ← List.flatMap_def, Program.exprs]

theorem calls (h : p.Redefines q) : q.calls = p.calls := by
  rw [Program.calls, h.exprs, Program.calls]

theorem callGraph (h : p.Redefines q) : q.callGraph = p.callGraph := by
  rw [Program.callGraph, h.functions, Program.callGraph]

end Program.Redefines

/-- Two setups of one program, which its directives and its scripts cannot tell apart. Definitions
outside functions may say something else, as long as no condition notices. -/
structure Setup.Kindred (S T : Setup) : Prop where
  program : S.analysis.program.Redefines T.analysis.program
  lastLine : T.analysis.lastLine = S.analysis.lastLine
  height : T.analysis.lines.length = S.analysis.lines.length
  layouts : T.analysis.layouts = S.analysis.layouts
  condition : ∀ argument, Directive.conditionValue T.analysis.macros argument =
    Directive.conditionValue S.analysis.macros argument
  defined : ∀ name, T.analysis.macros.has name = S.analysis.macros.has name

theorem Setup.Kindred.refl (S : Setup) : S.Kindred S :=
  ⟨.refl _, rfl, rfl, rfl, fun _ => rfl, fun _ => rfl⟩

theorem Setup.kindred_revised (S : Setup) (spare : Nat) (settings : Settings) :
    S.Kindred (S.revised spare settings) :=
  ⟨.refl _, rfl, rfl, rfl, fun _ => rfl, fun _ => rfl⟩

theorem Setup.Kindred.opening? {S T : Setup} (h : S.Kindred T) (d : Directive) :
    d.opening? T.analysis.macros = d.opening? S.analysis.macros := by
  unfold Directive.opening?
  dsimp only
  rw [h.defined, h.condition]

theorem Setup.Kindred.main? {S T : Setup} (h : S.Kindred T) :
    T.analysis.main? = S.analysis.main? :=
  h.program.function? "main"

theorem Setup.Kindred.sizes {S T : Setup} (h : S.Kindred T) :
    T.analysis.sizes = S.analysis.sizes :=
  congrArg Layouts.sizes h.layouts

theorem Setup.Kindred.clamp {S T : Setup} (h : S.Kindred T) (line : Int) :
    T.analysis.clamp line = S.analysis.clamp line := by
  rw [Analysis.clamp, h.height, Analysis.clamp]

/-- Does the category's script execute the program? -/
def Category.executes : Category → Bool
  | dynamicAllocation | generic => false
  | _ => true

/-- What a category's script adds to declarations. -/
def Category.commentary : Category → Commentary
  | bitwise => Remark.bits
  | arrays => Remark.room
  | _ => noCommentary

/-- What is told of a machine does not depend on its record: the steps it has shown and the
journal. -/
def Machine.Unrecorded {α : Type} (f : Machine → α) : Prop :=
  ∀ m steps journal, f { m with steps := steps, journal := journal } = f m

/-- The operations that place no object do alike under both setups. Whether warnings are shown alike is
left to those who show them. -/
structure Likeness.Acts (L : Likeness Machine) (S T : Setup) : Prop where
  kindred : S.Kindred T
  ask : ∀ {α : Type} (f : Machine → α), Machine.Unrecorded f → L.rel (Run.ask f) (Run.ask f)
  query : ∀ {α : Type} (f : Machine → Except Fault α), (∀ m, Usual (f m)) → Machine.Unrecorded f →
    L.rel (Run.query f) (Run.query f)
  emit : ∀ kind line description, kind ≠ .warning →
    L.rel (Run.emit S kind line description) (Run.emit T kind line description)
  write : ∀ address value, L.rel (Run.write address value) (Run.write address value)
  library : ∀ (f : LibraryFunction) arguments,
    L.rel (f.run S.settings arguments) (f.run T.settings arguments)

/-- So do declarations, and loops whose parts do alike. -/
structure Likeness.Executes (L : Likeness Machine) (S T : Setup) : Prop extends L.Acts S T where
  declare : ∀ name type line value description,
    L.rel (do declare S (← Run.ask Machine.currentFrame) name type line value description)
      (do declare T (← Run.ask Machine.currentFrame) name type line value description)
  loop : ∀ {line : Nat} {check check' : Run Bool} {body body' : Run Flow}
    {update update' : Run Unit}, L.rel check check' → L.rel body body' → L.rel update update' →
    L.rel (Loop.runUnchecked S ⟨line, check, body, update⟩)
      (Loop.runUnchecked T ⟨line, check', body', update'⟩)

/-- So do steps with changes of their own, calls that are entered and left, and declarations in any
frame. -/
structure Likeness.Plays (L : Likeness Machine) (S T : Setup) : Prop extends L.Executes S T where
  emitDelta : ∀ kind line description delta,
    L.rel (Run.emitDelta S kind line description delta)
      (Run.emitDelta T kind line description delta)
  activate : ∀ f : List String → List String,
    L.rel (Run.change fun m => { m with active := f m.active })
      (Run.change fun m => { m with active := f m.active })
  declareAt : ∀ frame name type line value description address,
    L.rel (declareAt S frame name type line value description address)
      (declareAt T frame name type line value description address)
  declareGlobal : ∀ name type line value description,
    L.rel (Stepwise.declare S globalFrame name type line value description)
      (Stepwise.declare T globalFrame name type line value description)
  enter : ∀ f frame arguments line,
    L.rel (Invocation.enter S f frame arguments line) (Invocation.enter T f frame arguments line)
  leave : ∀ f frame flow,
    L.rel (Invocation.leave S f frame flow) (Invocation.leave T f frame flow)

/-- Expressions are evaluated alike where calls are made alike. -/
def EvaluatesAlike (L : Likeness Machine) (S T : Setup) : Prop :=
  ∀ call call' : Caller, (∀ scope name arguments line,
      L.rel (call scope name arguments line) (call' scope name arguments line)) →
    ∀ scope e, L.rel (evaluateWith S call scope e) (evaluateWith T call' scope e)

/-! ## The expressions that are asked for -/

/-- The expressions that a declared name asks for: the size in its brackets, and its initializers
with their operands, which a remark may show. -/
def Variable.asked (v : Variable) : List Expr :=
  (match v.brackets with
    | .sized size => [size]
    | .none | .unsized => []) ++ v.exprs.flatMap Expr.parts

/-- The expressions that a declaration asks for. -/
def Decl.asked (d : Decl) : List Expr :=
  d.vars.flatMap Variable.asked

/-- The expressions that a loop's first clause asks for. -/
def ForInit.asked : ForInit → List Expr
  | none => []
  | decl d => d.asked
  | expr e => [e]

namespace Stmt

mutual

/-- The expressions that a statement asks for, whether or not it comes to them. -/
def asked : Stmt → List Expr
  | directive _ | empty _ | defaultLabel _ | breakOut _ | continueOn _ => []
  | block _ body => askedOfAll body
  | decl d => d.asked
  | expr _ e => [e]
  | cond _ condition whenTrue whenFalse =>
    condition :: (asked whenTrue ++ askedOfOption whenFalse)
  | forLoop _ init condition update body =>
    init.asked ++ (condition.toList ++ (update.toList ++ asked body))
  | whileLoop _ condition body | doLoop _ body condition => condition :: asked body
  | switch _ subject body => subject :: asked body
  | caseLabel _ label => [label]
  | ret _ value => value.toList

/-- The expressions that several statements ask for. -/
def askedOfAll : List Stmt → List Expr
  | [] => []
  | s :: rest => asked s ++ askedOfAll rest

/-- The expressions that a statement asks for, if there is one. -/
def askedOfOption : Option Stmt → List Expr
  | none => []
  | some s => asked s

end

end Stmt

/-- The expressions that a function asks for. -/
def Function.asked (f : Function) : List Expr :=
  Stmt.askedOfAll f.body

/-! ## Directives where a statement is needed -/

namespace Stmt

mutual

/-- The directives in a statement that stand where a statement is needed: as the body of a choice, a
loop or a switch that has no braces. -/
def strays : Stmt → List Directive
  | directive d => [d]
  | block _ body => straysOfAll body
  | cond _ _ whenTrue whenFalse => strays whenTrue ++ straysOfOption whenFalse
  | forLoop _ _ _ _ body | whileLoop _ _ body | doLoop _ body _ | switch _ _ body => strays body
  | empty _ | decl _ | expr .. | caseLabel .. | defaultLabel _ | breakOut _ | continueOn _
  | ret .. => []

/-- The same for the statements of a block, which directives may stand between. -/
def straysOfAll : List Stmt → List Directive
  | [] => []
  | directive _ :: rest => straysOfAll rest
  | s :: rest => strays s ++ straysOfAll rest

/-- The same for a statement that may be missing. -/
def straysOfOption : Option Stmt → List Directive
  | none => []
  | some s => strays s

end

end Stmt

/-- The directives that stand where a statement is needed, somewhere in the program. -/
def Program.strays (p : Program) : List Directive :=
  p.functions.flatMap fun f => Stmt.straysOfAll f.body

theorem Program.mem_strays {p : Program} {name : String} {f : Function}
    (hf : p.function? name = some f) {d : Directive} (hd : d ∈ Stmt.straysOfAll f.body) :
    d ∈ p.strays :=
  List.mem_flatMap.2 ⟨f, List.mem_of_find?_eq_some hf, hd⟩

/-- Both executions may stop at the directive, where a statement is needed. -/
def StrayAlike (L : Likeness Machine) (d : Directive) : Prop :=
  L.rel (Eval.fail (.directiveAsBody d.line) : Run Flow) (Eval.fail (.directiveAsBody d.line))

theorem Expr.self_mem_parts (e : Expr) : e ∈ e.parts := by
  cases e <;> exact List.mem_cons_self

theorem Variable.mem_asked_of_part {v : Variable} {e part : Expr} (he : e ∈ v.exprs)
    (hpart : part ∈ e.parts) : part ∈ v.asked :=
  List.mem_append_right _ (List.mem_flatMap.2 ⟨e, he, hpart⟩)

theorem Variable.mem_asked {v : Variable} {e : Expr} (he : e ∈ v.exprs) : e ∈ v.asked :=
  mem_asked_of_part he e.self_mem_parts

/-- The operands of an operation on bits. -/
def Remark.BitOperation.operands : BitOperation → List Expr
  | flip operand => [operand]
  | shift _ operand count => [operand, count]
  | combine _ left right => [left, right]

/-- The kind of step that shows an expression that stands alone. -/
def Expr.shownAs : Expr → StepKind
  | .assign .. | .unary _ (.step _) _ | .stepAfter .. => .assignment
  | .call .. => .call
  | _ => .execution

theorem Expr.shownAs_ne_warning (e : Expr) : e.shownAs ≠ .warning := by
  unfold Expr.shownAs
  split <;> decide

namespace Walker

theorem describe_kind {m : Machine} {e : Expr} {result : Typed} {kind : StepKind} {text : String}
    (h : describe m e result = .ok (kind, text)) : kind = e.shownAs := by
  have hinto : ∀ {r : Except Fault String} {shown : StepKind},
      (do return (shown, ← r)) = Except.ok (kind, text) → kind = shown := by
    intro r shown hr
    cases r with
    | error fault => cases hr
    | ok found => exact (congrArg Prod.fst (Except.ok.inj hr)).symm
  unfold describe at h
  split at h
  · exact (congrArg Prod.fst (Except.ok.inj h)).symm
  · exact hinto h
  · exact hinto h
  · exact hinto h
  · exact (congrArg Prod.fst (Except.ok.inj h)).symm
  · next hassign hstore hstep hafter hcall =>
    rw [Expr.shownAs]
    · exact (congrArg Prod.fst (Except.ok.inj h)).symm
    · rintro line (_ | op) target value rfl
      · exact hstore _ _ _ rfl
      · exact hassign _ _ _ _ rfl
    · exact hstep
    · exact hafter
    · exact hcall

/-- Which kind of step shows an expression does not depend on how it turned out. -/
theorem query_describe (e : Expr) (result : Typed) (k : StepKind × String → Run Unit) :
    (Run.query (fun m => describe m e result) >>= k)
      = (Run.query (fun m => Prod.snd <$> describe m e result) >>= fun text =>
        k (e.shownAs, text)) := by
  funext m
  show Except.bind (Run.query (fun m => describe m e result) m) _
    = Except.bind (Run.query (fun m => Prod.snd <$> describe m e result) m) _
  unfold Run.query
  dsimp only
  cases h : describe m e result with
  | error fault => rfl
  | ok found =>
    obtain ⟨kind, text⟩ := found
    rw [describe_kind h]
    rfl

end Walker

namespace Parallel

variable {L : Likeness Machine} {S T : Setup}

/-- What is done for the items of one program is done alike for those of the other. -/
theorem forM_redefined {p q : Program} (h : p.Redefines q) {f g : Item → Run Unit}
    (hsame : ∀ i, L.rel (f i) (g i))
    (hdefine : ∀ line arguments arguments',
      L.rel (f (.directive ⟨line, "#define", arguments⟩))
        (g (.directive ⟨line, "#define", arguments'⟩))) :
    L.rel (p.items.forM f) (q.items.forM g) := by
  unfold Program.Redefines at h
  generalize p.items = items, q.items = items' at h ⊢
  induction h with
  | nil => exact L.pure ()
  | cons hitem _ ih =>
    refine L.bind ?_ fun _ => ih
    cases hitem with
    | same => exact hsame _
    | define => exact hdefine _ _ _

/-! ## Objects -/

section Objects

variable {evaluate evaluate' : Expr → Run Typed}

theorem copyValue_alike (hL : L.Executes S T) (layouts : Layouts) (type : CType) (value : Value) :
    L.rel (copyValue layouts type value) (copyValue layouts type value) := by
  refine L.ite (fun _ => ?_) fun _ => L.lift (by simp)
  refine L.bind (L.lift (by simp)) fun members => L.bind (L.mapM fun _ _ => ?_) fun _ => L.pure _
  exact L.bind (L.lift (by simp)) fun _ =>
    L.bind (hL.query _ (fun m => by simp) fun _ _ _ => rfl) fun _ => L.pure _

mutual

theorem initialValue_alike (hL : L.Executes S T) (layouts : Layouts) (type : CType) {i : Init}
    (he : ∀ e ∈ i.exprs, L.rel (evaluate e) (evaluate' e)) :
    L.rel (initialValue layouts evaluate type i) (initialValue layouts evaluate' type i) := by
  match i with
  | .expr e =>
    rw [Init.exprs, List.forall_mem_singleton] at he
    rw [initialValue, initialValue]
    exact L.bind he fun _ => copyValue_alike hL _ _ _
  | .list _ items =>
    rw [Init.exprs] at he
    rw [initialValue, initialValue]
    refine L.ite (fun _ => ?_) fun _ => L.ite (fun _ => ?_) fun _ => L.fail _ (by simp)
    · exact L.bind (L.lift (by simp)) fun members =>
        L.bind (initialMembers_alike hL layouts members he) fun _ => L.pure _
    · exact L.bind (L.lift (by simp)) fun element =>
        L.bind (initialItems_alike hL layouts element he) fun _ => L.pure _

theorem initialItems_alike (hL : L.Executes S T) (layouts : Layouts) (element : CType)
    {items : List Init} (he : ∀ e ∈ Init.exprsOfAll items, L.rel (evaluate e) (evaluate' e)) :
    L.rel (initialItems layouts evaluate element items)
      (initialItems layouts evaluate' element items) := by
  match items with
  | [] =>
    rw [initialItems, initialItems]
    exact L.pure _
  | i :: rest =>
    rw [Init.exprsOfAll, List.forall_mem_append] at he
    rw [initialItems, initialItems]
    exact L.bind (initialValue_alike hL layouts element he.1) fun _ =>
      L.bind (initialItems_alike hL layouts element he.2) fun _ => L.pure _

theorem initialMembers_alike (hL : L.Executes S T) (layouts : Layouts) (members : Members)
    {items : List Init} (he : ∀ e ∈ Init.exprsOfAll items, L.rel (evaluate e) (evaluate' e)) :
    L.rel (initialMembers layouts evaluate members items)
      (initialMembers layouts evaluate' members items) := by
  match items with
  | [] =>
    rw [initialMembers, initialMembers]
    exact L.pure _
  | i :: rest =>
    match members with
    | [] =>
      rw [initialMembers, initialMembers]
      exact L.pure _
    | (name, offset, type) :: members =>
      rw [Init.exprsOfAll, List.forall_mem_append] at he
      rw [initialMembers, initialMembers]
      exact L.bind (initialValue_alike hL layouts type he.1) fun _ =>
        L.bind (initialMembers_alike hL layouts members he.2) fun _ => L.pure _

end

theorem typeAndValue_alike (hL : L.Executes S T) (declared : CType) {v : Variable}
    (he : ∀ e ∈ v.asked, L.rel (evaluate e) (evaluate' e)) :
    L.rel (typeAndValue S evaluate declared v) (typeAndValue T evaluate' declared v) := by
  have htype : L.rel (v.fullType declared fun e => do return (← evaluate e).value)
      (v.fullType declared fun e => do return (← evaluate' e).value) := by
    unfold Variable.fullType
    split
    · exact L.pure _
    · exact L.pure _
    · next size hsize =>
      have hasked : size ∈ v.asked := by
        unfold Variable.asked
        rw [hsize]
        exact List.mem_cons_self
      exact L.bind (L.bind (he size hasked) fun _ => L.pure _) fun _ => L.pure _
  unfold typeAndValue
  rw [hL.kindred.layouts]
  refine L.bind htype fun type => ?_
  cases hinit : v.init with
  | none => exact L.bind (L.pure _) fun _ => L.pure _
  | some i =>
    have hexprs : v.exprs = i.exprs := by rw [Variable.exprs, hinit]
    refine L.bind (initialValue_alike hL _ _ fun e hmem => he e ?_) fun _ => L.pure _
    exact Variable.mem_asked (hexprs ▸ hmem)

theorem declareVariable_alike (hL : L.Executes S T) (declared : CType) {v : Variable}
    (he : ∀ e ∈ v.asked, L.rel (evaluate e) (evaluate' e)) :
    L.rel (declareVariable S evaluate declared v) (declareVariable T evaluate' declared v) := by
  refine L.bind (typeAndValue_alike hL declared he) fun typed =>
    L.bind (hL.query _ (fun m => describeDeclaration_usual _ _ _ _) fun _ _ _ => rfl)
      fun description => ?_
  have h := L.bind (hL.declare v.name typed.1 v.line typed.2 description) fun address =>
    L.pure (typed.1, address)
  rw [bind_assoc, bind_assoc] at h
  exact h

/-- Variables outside functions are declared alike if their frame is the innermost one, or else if
the likeness does not mind. -/
theorem declareGlobals_alike (hL : L.Executes S T)
    (hglobal : ∀ name type line value description,
      L.rel (declare S globalFrame name type line value description)
        (declare T globalFrame name type line value description))
    (he : ∀ e, L.rel (evaluate e) (evaluate' e)) :
    L.rel (declareGlobals S evaluate) (declareGlobals T evaluate') := by
  refine forM_redefined hL.kindred.program (fun item => ?_) fun _ _ _ => L.pure _
  split
  · refine L.forM fun v _ => L.bind (typeAndValue_alike hL _ fun e _ => he e) fun typed => ?_
    exact L.bind (hL.query _ (fun m => describeDeclaration_usual _ _ _ _) fun _ _ _ => rfl)
      fun description => L.bind (hglobal _ _ _ _ _) fun _ => L.pure _
  · exact L.pure _

end Objects

/-! ## Blocks -/

theorem directive_alike (hL : L.Executes S T) (d : Directive) (branches : Branches) :
    L.rel (d.run S branches) (d.run T branches) := by
  have halternative : L.rel (d.runAlternative S branches) (d.runAlternative T branches) := by
    unfold Directive.runAlternative
    rw [hL.kindred.condition]
    split
    · exact L.fail _ (by simp)
    · next branch outer =>
      -- what is shown depends on the branches, not on the setup
      have hshow : ∀ compiled : Bool, L.rel
          (do
            if Branches.active outer then
              Run.emit S .preprocessing d.line
                (d.command ++ ": " ++ Directive.verdict compiled ++ " the alternative block")
            return (⟨branch.taken || compiled, compiled⟩ :: outer : Branches))
          (do
            if Branches.active outer then
              Run.emit T .preprocessing d.line
                (d.command ++ ": " ++ Directive.verdict compiled ++ " the alternative block")
            return (⟨branch.taken || compiled, compiled⟩ :: outer : Branches)) := fun compiled =>
        L.ite (fun _ => L.bind (hL.emit _ _ _ (by decide)) fun _ => L.pure _) fun _ => L.pure _
      refine L.ite (fun _ => L.bind (L.pure _) hshow) fun _ =>
        L.ite (fun _ => ?_) fun _ => L.bind (L.pure _) hshow
      exact L.bind (L.lift (by simp)) fun _ => L.bind (L.pure _) hshow
  unfold Directive.run
  rw [hL.kindred.opening?]
  cases hopening : d.opening? S.analysis.macros with
  | some decision =>
    refine L.bind (L.lift (Directive.opening?_usual hopening)) fun decided => ?_
    exact L.ite (fun _ => L.bind (hL.emit _ _ _ (by decide)) fun _ => L.pure _) fun _ => L.pure _
  | none =>
    dsimp only
    split
    · exact halternative
    · exact halternative
    · split
      · exact L.fail _ (by simp)
      · exact L.pure _
    · exact L.ite (fun _ => L.bind (hL.emit _ _ _ (by decide)) fun _ => L.pure _) fun _ => L.pure _

/-- Two items of a block that do alike. -/
inductive ItemAlike (L : Likeness Machine) : BlockItem → BlockItem → Prop
  | directive (d : Directive) : ItemAlike L (.directive d) (.directive d)
  | stmt (line : Nat) {c d : Run Flow} (h : L.rel c d) : ItemAlike L (.stmt line c) (.stmt line d)

theorem runItems_alike (hL : L.Executes S T) {items items' : List BlockItem}
    (hitems : List.Forall₂ (ItemAlike L) items items') (branches : Branches) (last : Nat) :
    L.rel (runItems S branches last items) (runItems T branches last items') := by
  induction hitems generalizing branches last with
  | nil => exact L.pure _
  | cons hitem _ ih =>
    cases hitem with
    | directive d => exact L.bind (directive_alike hL d branches) fun _ => ih _ _
    | stmt line h =>
      rw [runItems, runItems]
      refine L.ite (fun _ => L.bind h fun flow => ?_) fun _ => ih _ _
      cases flow with
      | next reached => exact ih _ _
      | _ => exact L.pure _

/-- A loop does alike, perhaps with more iterations in the second execution, if it does where those
of the first are used up. The induction is on the iterations that are left. -/
theorem iterate_alike {line : Nat} {check check' : Run Bool} {body body' : Run Flow}
    {update update' : Run Unit} (hcheck : L.rel check check') (hbody : L.rel body body')
    (hupdate : L.rel update update') {extra : Nat}
    (hzero : L.rel (Loop.iterate S ⟨line, check, body, update⟩ 0)
      (Loop.iterate T ⟨line, check', body', update'⟩ extra))
    (left : Nat) :
    L.rel (Loop.iterate S ⟨line, check, body, update⟩ left)
      (Loop.iterate T ⟨line, check', body', update'⟩ (left + extra)) := by
  induction left with
  | zero =>
    rw [Nat.zero_add]
    exact hzero
  | succ left ih =>
    rw [Nat.succ_add, Loop.iterate, Loop.iterate]
    refine L.bind hbody fun flow => ?_
    cases flow with
    | breakOut _ => exact L.pure _
    | ret value _ => exact L.pure _
    | _ =>
      exact L.bind hupdate fun _ => L.bind hcheck fun _ => L.ite (fun _ => ih) fun _ => L.pure _

/-! ## Statements -/

section Statements

variable {evaluate evaluate' : Expr → Run Typed}
  {comment comment' : Variable → CType → Int → Run Unit}

theorem value_alike {e : Expr} (he : L.rel (evaluate e) (evaluate' e)) :
    L.rel (Walker.value ⟨S, evaluate, comment⟩ e) (Walker.value ⟨T, evaluate', comment'⟩ e) :=
  L.bind he fun _ => L.pure _

theorem runExpr_alike (hL : L.Executes S T) (line : Nat) {e : Expr}
    (he : L.rel (evaluate e) (evaluate' e)) :
    L.rel (Walker.runExpr ⟨S, evaluate, comment⟩ line e)
      (Walker.runExpr ⟨T, evaluate', comment'⟩ line e) := by
  have hcalls : Walker.callsProgram ⟨T, evaluate', comment'⟩ e
      = Walker.callsProgram ⟨S, evaluate, comment⟩ e := by
    unfold Walker.callsProgram
    dsimp only
    simp only [hL.kindred.program.function?]
  refine L.bind he fun result => L.bind (hL.ask _ fun _ _ _ => rfl) fun pending => ?_
  rw [hcalls]
  refine L.ite (fun _ => L.pure _) fun _ => ?_
  rw [Walker.query_describe, Walker.query_describe]
  refine L.bind (hL.query _ (fun m => ?_) fun _ _ _ => rfl) fun _ =>
    hL.emit _ _ _ e.shownAs_ne_warning
  exact usual_map.2 (Walker.describe_usual _ _ _)

/-- The remarks on a declaration do alike, if the expressions that the declaration asks for are
evaluated alike. -/
def RemarksAlike (L : Likeness Machine) (evaluate evaluate' : Expr → Run Typed)
    (comment comment' : Variable → CType → Int → Run Unit) : Prop :=
  ∀ v type address, (∀ e ∈ v.asked, L.rel (evaluate e) (evaluate' e)) →
    L.rel (comment v type address) (comment' v type address)

theorem runDecl_alike (hL : L.Executes S T)
    (hc : RemarksAlike L evaluate evaluate' comment comment') {d : Decl}
    (he : ∀ e ∈ d.asked, L.rel (evaluate e) (evaluate' e)) :
    L.rel (Walker.runDecl ⟨S, evaluate, comment⟩ d)
      (Walker.runDecl ⟨T, evaluate', comment'⟩ d) := by
  refine L.forM fun v hv => ?_
  have hasked : ∀ e ∈ v.asked, L.rel (evaluate e) (evaluate' e) := fun e hmem =>
    he e (List.mem_flatMap.2 ⟨v, hv, hmem⟩)
  exact L.bind (declareVariable_alike hL d.type hasked) fun _ => hc _ _ _ hasked

theorem decide_alike (hL : L.Executes S T) (line : Nat) (what : String) {condition : Expr}
    (he : L.rel (evaluate condition) (evaluate' condition)) :
    L.rel (Walker.decide ⟨S, evaluate, comment⟩ line what condition)
      (Walker.decide ⟨T, evaluate', comment'⟩ line what condition) :=
  L.bind (value_alike he) fun _ => L.bind (L.lift (by simp)) fun _ =>
    L.bind (hL.emit _ _ _ (by decide)) fun _ => L.pure _

theorem loopCheck_alike (hL : L.Executes S T) (line : Nat) {condition : Option Expr}
    (he : ∀ e ∈ condition.toList, L.rel (evaluate e) (evaluate' e)) :
    L.rel (Walker.loopCheck ⟨S, evaluate, comment⟩ line condition)
      (Walker.loopCheck ⟨T, evaluate', comment'⟩ line condition) := by
  cases condition with
  | none => exact L.pure _
  | some e => exact decide_alike hL line _ (he e List.mem_cons_self)

theorem matchingCase_alike (subject : Value) (index : Nat) {body : List Stmt}
    (he : ∀ e ∈ Stmt.askedOfAll body, L.rel (evaluate e) (evaluate' e)) :
    L.rel (Walker.matchingCase ⟨S, evaluate, comment⟩ subject index body)
      (Walker.matchingCase ⟨T, evaluate', comment'⟩ subject index body) := by
  induction body generalizing index with
  | nil => exact L.pure _
  | cons s body ih =>
    rw [Stmt.askedOfAll, List.forall_mem_append] at he
    cases s with
    | caseLabel _ label =>
      rw [Stmt.asked, List.forall_mem_singleton] at he
      rw [Walker.matchingCase, Walker.matchingCase]
      exact L.bind (value_alike he.1) fun _ => L.ite (fun _ => L.pure _) fun _ => ih _ he.2
    | _ =>
      rw [Walker.matchingCase, Walker.matchingCase]
      · exact ih _ he.2
      all_goals simp

theorem askedOfAll_switchBody (body : Stmt) :
    Stmt.askedOfAll (Walker.switchBody body) = body.asked := by
  unfold Walker.switchBody
  split
  · rw [Stmt.asked]
  · rw [Stmt.askedOfAll, Stmt.askedOfAll, List.append_nil]

theorem jump_alike (hL : L.Executes S T) (line : Nat) {subject : Expr} {body : Stmt}
    (hsubject : L.rel (evaluate subject) (evaluate' subject))
    (he : ∀ e ∈ body.asked, L.rel (evaluate e) (evaluate' e)) :
    L.rel (Walker.jump ⟨S, evaluate, comment⟩ line subject body)
      (Walker.jump ⟨T, evaluate', comment'⟩ line subject body) := by
  rw [← askedOfAll_switchBody] at he
  refine L.bind (value_alike hsubject) fun v => L.bind ?_ fun target => ?_
  · refine L.bind (matchingCase_alike v 0 he) fun found => ?_
    split
    · exact L.pure _
    · exact L.pure _
  · split
    · exact L.bind (hL.emit _ _ _ (by decide)) fun _ => L.pure _
    · exact L.bind (hL.emit _ _ _ (by decide)) fun _ => L.pure _

theorem loop_alike (hL : L.Executes S T) {line : Nat} {check check' : Run Bool}
    {body body' : Run Flow} {update update' : Run Unit} (hcheck : L.rel check check')
    (hbody : L.rel body body') (hupdate : L.rel update update') :
    L.rel (Loop.run S ⟨line, check, body, update⟩) (Loop.run T ⟨line, check', body', update'⟩) :=
  L.bind hcheck fun _ => L.ite (fun _ => hL.loop hcheck hbody hupdate) fun _ => L.pure _

/-- The items of a block are alike if its first statement and the rest of it are. -/
theorem items_cons_alike {s : Stmt} {rest : List Stmt}
    (hs : ∀ d ∈ Stmt.straysOfAll (s :: rest), StrayAlike L d)
    (hrun : (∀ d ∈ s.strays, StrayAlike L d) →
      L.rel (Walker.run ⟨S, evaluate, comment⟩ s) (Walker.run ⟨T, evaluate', comment'⟩ s))
    (hrest : (∀ d ∈ Stmt.straysOfAll rest, StrayAlike L d) →
      List.Forall₂ (ItemAlike L) (Walker.items ⟨S, evaluate, comment⟩ rest)
        (Walker.items ⟨T, evaluate', comment'⟩ rest)) :
    List.Forall₂ (ItemAlike L) (Walker.items ⟨S, evaluate, comment⟩ (s :: rest))
      (Walker.items ⟨T, evaluate', comment'⟩ (s :: rest)) := by
  cases s with
  | directive d =>
    rw [Stmt.straysOfAll] at hs
    rw [Walker.items, Walker.items]
    exact .cons (.directive d) (hrest hs)
  | _ =>
    rw [Stmt.straysOfAll, List.forall_mem_append] at hs
    · rw [Walker.items, Walker.items]
      · exact .cons (.stmt _ (hrun hs.1)) (hrest hs.2)
      all_goals nofun
    nofun

mutual

/-- Statements do alike if the expressions they ask for and the remarks on declarations do, and the
directives that stand where a statement is needed. The induction is on the statement. -/
theorem run_alike (hL : L.Executes S T)
    (hc : RemarksAlike L evaluate evaluate' comment comment') {s : Stmt}
    (he : ∀ e ∈ s.asked, L.rel (evaluate e) (evaluate' e))
    (hs : ∀ d ∈ s.strays, StrayAlike L d) :
    L.rel (Walker.run ⟨S, evaluate, comment⟩ s) (Walker.run ⟨T, evaluate', comment'⟩ s) := by
  match s with
  | .directive d =>
    rw [Walker.run, Walker.run]
    exact hs d List.mem_cons_self
  | .block _ body =>
    rw [Stmt.asked] at he
    rw [Stmt.strays] at hs
    rw [Walker.run, Walker.run]
    exact runItems_alike hL (items_alike hL hc he hs) _ _
  | .empty line | .caseLabel line _ | .defaultLabel line =>
    rw [Walker.run, Walker.run]
    exact L.pure _
  | .decl d =>
    rw [Stmt.asked] at he
    rw [Walker.run, Walker.run]
    exact L.bind (runDecl_alike hL hc he) fun _ => L.pure _
  | .expr line e =>
    rw [Stmt.asked, List.forall_mem_singleton] at he
    rw [Walker.run, Walker.run]
    exact L.bind (runExpr_alike hL line he) fun _ => L.pure _
  | .cond line condition whenTrue whenFalse =>
    rw [Stmt.asked, List.forall_mem_cons, List.forall_mem_append] at he
    rw [Stmt.strays, List.forall_mem_append] at hs
    rw [Walker.run, Walker.run]
    exact L.bind (decide_alike hL line _ he.1) fun _ =>
      L.ite (fun _ => run_alike hL hc he.2.1 hs.1) fun _ => runOption_alike hL hc line he.2.2 hs.2
  | .forLoop line init condition update body =>
    rw [Stmt.asked, List.forall_mem_append, List.forall_mem_append, List.forall_mem_append] at he
    obtain ⟨hinit, hcondition, hupdate, hbody⟩ := he
    rw [Stmt.strays] at hs
    rw [Walker.run, Walker.run]
    -- the first clause runs once; the check, the body and the last clause make the loop
    refine L.bind ?_ fun _ => loop_alike hL (loopCheck_alike hL line hcondition)
      (run_alike hL hc hbody hs) (L.forM_option fun e hmem => runExpr_alike hL line (hupdate e ?_))
    · cases init with
      | none => exact L.pure _
      | decl d => exact runDecl_alike hL hc hinit
      | expr e => exact runExpr_alike hL line (hinit e List.mem_cons_self)
    · exact Option.mem_toList.2 hmem
  | .whileLoop line condition body =>
    rw [Stmt.asked, List.forall_mem_cons] at he
    rw [Stmt.strays] at hs
    rw [Walker.run, Walker.run]
    refine loop_alike hL (loopCheck_alike hL line ?_) (run_alike hL hc he.2 hs) (L.pure _)
    exact List.forall_mem_singleton.2 he.1
  | .doLoop line body condition =>
    rw [Stmt.asked, List.forall_mem_cons] at he
    rw [Stmt.strays] at hs
    rw [Walker.run, Walker.run]
    refine hL.loop (loopCheck_alike hL line ?_) (run_alike hL hc he.2 hs) (L.pure _)
    exact List.forall_mem_singleton.2 he.1
  | .switch line subject body =>
    rw [Stmt.asked, List.forall_mem_cons] at he
    rw [Stmt.strays] at hs
    rw [Walker.run_switch, Walker.run_switch]
    refine L.bind (jump_alike hL line he.1 he.2) fun target => ?_
    cases target with
    | none => exact L.pure _
    | some skipped =>
      -- from the label that is jumped to, both run the same items
      refine L.bind (runItems_alike hL ?_ _ _) fun _ => L.pure _
      exact List.forall₂_drop skipped (itemsOfBody_alike hL hc he.2 hs)
  | .breakOut line | .continueOn line | .ret line none =>
    rw [Walker.run, Walker.run]
    exact L.pure _
  | .ret line (some e) =>
    rw [Stmt.asked] at he
    rw [Walker.run, Walker.run]
    exact L.bind (he e List.mem_cons_self) fun _ => L.pure _
termination_by 2 * sizeOf s
decreasing_by
  all_goals simp
  all_goals omega

theorem runOption_alike (hL : L.Executes S T)
    (hc : RemarksAlike L evaluate evaluate' comment comment') (line : Nat) {s : Option Stmt}
    (he : ∀ e ∈ Stmt.askedOfOption s, L.rel (evaluate e) (evaluate' e))
    (hs : ∀ d ∈ Stmt.straysOfOption s, StrayAlike L d) :
    L.rel (Walker.runOption ⟨S, evaluate, comment⟩ line s)
      (Walker.runOption ⟨T, evaluate', comment'⟩ line s) := by
  match s with
  | none =>
    rw [Walker.runOption, Walker.runOption]
    exact L.pure _
  | some s =>
    rw [Stmt.askedOfOption] at he
    rw [Stmt.straysOfOption] at hs
    rw [Walker.runOption, Walker.runOption]
    exact run_alike hL hc he hs
termination_by 2 * sizeOf s
decreasing_by simp

theorem items_alike (hL : L.Executes S T)
    (hc : RemarksAlike L evaluate evaluate' comment comment') {body : List Stmt}
    (he : ∀ e ∈ Stmt.askedOfAll body, L.rel (evaluate e) (evaluate' e))
    (hs : ∀ d ∈ Stmt.straysOfAll body, StrayAlike L d) :
    List.Forall₂ (ItemAlike L) (Walker.items ⟨S, evaluate, comment⟩ body)
      (Walker.items ⟨T, evaluate', comment'⟩ body) := by
  match body with
  | [] =>
    rw [Walker.items, Walker.items]
    exact .nil
  | s :: rest =>
    rw [Stmt.askedOfAll, List.forall_mem_append] at he
    exact items_cons_alike hs (run_alike hL hc he.1) (items_alike hL hc he.2)
termination_by 2 * sizeOf body
decreasing_by
  all_goals simp
  all_goals omega

theorem itemsOfBody_alike (hL : L.Executes S T)
    (hc : RemarksAlike L evaluate evaluate' comment comment') {body : Stmt}
    (he : ∀ e ∈ body.asked, L.rel (evaluate e) (evaluate' e))
    (hs : ∀ d ∈ body.strays, StrayAlike L d) :
    List.Forall₂ (ItemAlike L) (Walker.itemsOfBody ⟨S, evaluate, comment⟩ body)
      (Walker.itemsOfBody ⟨T, evaluate', comment'⟩ body) := by
  have hrun := run_alike hL hc he hs
  match body with
  | .block _ statements =>
    rw [Stmt.asked] at he
    rw [Stmt.strays] at hs
    exact items_alike hL hc he hs
  | .empty .. | .caseLabel .. | .defaultLabel .. | .directive .. | .decl .. | .expr .. | .cond ..
  | .forLoop .. | .whileLoop .. | .doLoop .. | .switch .. | .breakOut .. | .continueOn ..
  | .ret .. => exact .cons (.stmt _ hrun) .nil
termination_by 2 * sizeOf body + 1
decreasing_by
  · omega
  · simp only [Stmt.block.sizeOf_spec]
    omega

end

end Statements

/-! ## Calls -/

section Calls

variable {call call' : Caller}

theorem machineHost_serves (hL : L.Acts S T) :
    (machineHost S call).Serves L (machineHost T call') where
  members type := by
    show L.rel (Eval.lift (S.analysis.layouts.membersOf type))
      (Eval.lift (T.analysis.layouts.membersOf type))
    rw [hL.kindred.layouts]
    exact L.lift (Layouts.membersOf_usual _ type)
  sizes := hL.kindred.sizes.symm
  find name := hL.ask _ fun _ _ _ => rfl
  read address := hL.query _ (fun m => by simp) fun _ _ _ => rfl
  write := hL.write

theorem machineHost_alike (hL : L.Acts S T) (hmacros : T.analysis.macros = S.analysis.macros)
    (hcall : ∀ scope name arguments line,
      L.rel (call scope name arguments line) (call' scope name arguments line)) :
    (machineHost S call).Alike L (machineHost T call') where
  toServes := machineHost_serves hL
  macros := hmacros.symm
  call scope name arguments line _ := hcall scope name arguments line
  noteMacro _ _ _ _ := hL.emit _ _ _ (by decide)

theorem name_of_function? {p : Program} {name : String} {f : Function}
    (h : p.function? name = some f) : f.name = name := by
  have hname := List.find?_some h
  exact eq_of_beq hname

theorem function?_name {p : Program} {name : String} {f : Function}
    (h : p.function? name = some f) : p.function? f.name = some f := by
  rw [name_of_function? h]
  exact h

/-- A function is called by name alike if the one of the program is invoked alike. -/
theorem callBy_alike (hL : L.Acts S T) {invoke invoke' : Invoker} {scope scope' : Scope}
    {name : String} {arguments : List Typed} {line : Nat}
    (hinvoke : ∀ f, S.analysis.program.function? name = some f →
      L.rel (invoke f scope arguments line) (invoke' f scope' arguments line)) :
    L.rel (callBy S invoke scope name arguments line)
      (callBy T invoke' scope' name arguments line) := by
  unfold callBy
  split
  · exact hL.library _ _
  · rw [hL.kindred.program.function?]
    split
    · next hf => exact hinvoke _ hf
    · exact L.fail _ (by simp)

end Calls

/-- What a script adds to declarations does alike, however expressions are evaluated. -/
def CommentsAlike (L : Likeness Machine) (S T : Setup) (commentary : Commentary) : Prop :=
  ∀ evaluate evaluate' : Expr → Run Typed,
    RemarksAlike L evaluate evaluate' (commentary S evaluate) (commentary T evaluate')

/-- The body of a called function does alike if the expressions it asks for are evaluated alike,
perhaps with other names bound. -/
theorem runBody_alike (hL : L.Executes S T) {commentary : Commentary}
    (hc : CommentsAlike L S T commentary) {call call' : Caller} {scope scope' : Scope}
    {body : List Stmt}
    (he : ∀ e ∈ Stmt.askedOfAll body,
      L.rel (evaluateWith S call scope e) (evaluateWith T call' scope' e))
    (hs : ∀ d ∈ Stmt.straysOfAll body, StrayAlike L d) :
    L.rel ((walker S commentary call scope).runBody body)
      ((walker T commentary call' scope').runBody body) :=
  runItems_alike hL (items_alike hL (hc _ _) he hs) _ _

theorem invocation_alike (hL : L.Plays S T) (f : Function) (arguments : List Typed) (line : Nat)
    {body body' : Run Flow} (hbody : L.rel body body') :
    L.rel (Invocation.run S f arguments line body) (Invocation.run T f arguments line body') := by
  refine L.ite (fun _ => L.fail _ (by simp)) fun _ => L.bind (hL.ask _ fun _ _ _ => rfl) fun frame => ?_
  exact L.bind (hL.enter f frame arguments line) fun _ => L.bind hbody fun flow =>
    hL.leave f frame flow

/-- The program's functions are invoked alike, perhaps with a larger budget in the second execution,
if they are where the budget of the first is used up. The induction is on that budget. -/
theorem invoke_alike (hL : L.Plays S T) {commentary : Commentary}
    (hc : CommentsAlike L S T commentary) (he : EvaluatesAlike L S T)
    (hs : ∀ d ∈ S.analysis.program.strays, StrayAlike L d) {extra : Nat}
    (hzero : ∀ f scope arguments line, L.rel (invoke S commentary 0 f scope arguments line)
      (invoke T commentary extra f scope arguments line))
    (budget : Nat) {f : Function} (hf : S.analysis.program.function? f.name = some f)
    (scope : Scope) (arguments : List Typed) (line : Nat) :
    L.rel (invoke S commentary budget f scope arguments line)
      (invoke T commentary (budget + extra) f scope arguments line) := by
  induction budget generalizing f scope arguments line with
  | zero =>
    rw [Nat.zero_add]
    exact hzero f scope arguments line
  | succ budget ih =>
    rw [Nat.succ_add, invoke, invoke]
    refine invocation_alike hL f arguments line
      (runBody_alike hL.toExecutes hc (fun e _ => ?_) fun d hd => hs d (Program.mem_strays hf hd))
    exact he _ _ (fun _ _ _ _ => callBy_alike hL.toActs fun f hf =>
      ih (function?_name hf) _ _ _) scope e

/-- Programs do alike if their variables outside functions are declared alike, expressions are
evaluated alike, and the main functions are called alike. -/
theorem runMain_alike (hL : L.Executes S T) {commentary : Commentary}
    (hglobal : ∀ name type line value description,
      L.rel (declare S globalFrame name type line value description)
        (declare T globalFrame name type line value description))
    (he : ∀ e, L.rel (evaluateWith S (callAt S commentary 0) [] e)
      (evaluateWith T (callAt T commentary 0) [] e))
    (hinvoke : ∀ f, S.analysis.program.function? f.name = some f → ∀ arguments line,
      L.rel (invoke S commentary S.settings.calls f [] arguments line)
        (invoke T commentary T.settings.calls f [] arguments line)) :
    L.rel (runMain S commentary) (runMain T commentary) := by
  unfold runMain
  rw [hL.kindred.main?]
  split
  · exact L.fail _ (by simp)
  · next hmain =>
    exact L.bind (declareGlobals_alike hL hglobal he) fun _ =>
      L.bind (hinvoke _ (function?_name hmain) _ _) fun _ => L.pure _

/-! ## Scripts -/

theorem noCommentary_alike (L : Likeness Machine) (S T : Setup) :
    CommentsAlike L S T noCommentary :=
  fun _ _ _ _ _ _ => L.pure _

namespace Remark

open Stepwise.Remark

theorem operands_subset {e : Expr} {operation : BitOperation}
    (h : bitOperation? e = some operation) : operation.operands ⊆ e.parts := by
  unfold bitOperation? at h
  split at h
  · next line operand =>
    split at h
    · obtain rfl := Option.some.inj h
      exact List.cons_subset_of_subset_of_mem
        (List.mem_cons_of_mem _ operand.self_mem_parts) (List.nil_subset _)
    · cases h
  · next line op left right =>
    have hboth : [left, right] ⊆ (Expr.binary line (.arith op) left right).parts := by
      refine List.cons_subset.2 ⟨?_, List.cons_subset.2 ⟨?_, List.nil_subset _⟩⟩
      · exact List.mem_cons_of_mem _ (List.mem_append_left _ left.self_mem_parts)
      · exact List.mem_cons_of_mem _ (List.mem_append_right _ right.self_mem_parts)
    split at h
    · cases h
    · split at h
      · obtain rfl := Option.some.inj h
        exact hboth
      · split at h
        · obtain rfl := Option.some.inj h
          exact hboth
        · cases h
  · cases h

theorem bits_alike (hL : L.Executes S T) : CommentsAlike L S T bits := by
  intro evaluate evaluate' v type address he
  have hpatterns : ∀ operation result, (∀ e ∈ operation.operands, L.rel (evaluate e) (evaluate' e)) →
      L.rel (patterns evaluate operation result) (patterns evaluate' operation result) := by
    intro operation result ho
    cases operation with
    | flip operand =>
      rw [BitOperation.operands, List.forall_mem_singleton] at ho
      exact L.bind ho fun _ => L.bind (L.lift (by simp)) fun _ =>
        L.bind (L.lift (by simp)) fun _ => L.pure _
    | shift op operand count =>
      rw [BitOperation.operands, List.forall_mem_cons, List.forall_mem_singleton] at ho
      exact L.bind ho.1 fun _ => L.bind ho.2 fun _ => L.bind (L.lift (by simp)) fun _ =>
        L.bind (L.lift (by simp)) fun _ => L.pure _
    | combine op left right =>
      rw [BitOperation.operands, List.forall_mem_cons, List.forall_mem_singleton] at ho
      exact L.bind ho.1 fun _ => L.bind ho.2 fun _ => L.bind (L.lift (by simp)) fun _ =>
        L.bind (L.lift (by simp)) fun _ => L.bind (L.lift (by simp)) fun _ => L.pure _
  unfold bits
  split
  · next e hinit =>
    split
    · exact L.pure _
    · next operation hoperation =>
      have hexprs : e ∈ v.exprs := by
        rw [Variable.exprs, hinit]
        exact List.mem_cons_self
      refine L.bind (hL.query _ (fun m => by simp) fun _ _ _ => rfl) fun _ =>
        L.bind (hpatterns _ _ fun part hpart => he part ?_) fun _ => hL.emit _ _ _ (by decide)
      exact Variable.mem_asked_of_part hexprs (operands_subset hoperation hpart)
  · exact L.pure _

theorem room_alike (hL : L.Executes S T) : CommentsAlike L S T room := by
  intro evaluate evaluate' v type address _
  unfold room
  rw [hL.kindred.sizes]
  exact L.ite (fun _ => L.bind (L.lift (by simp)) fun _ => hL.emit _ _ _ (by decide)) fun _ => L.pure _

theorem directives_alike (hL : L.Executes S T)
    (hprogram : T.analysis.program = S.analysis.program)
    (hmacros : T.analysis.macros = S.analysis.macros) :
    L.rel (directives S) (directives T) := by
  unfold directives
  rw [hprogram, hmacros]
  refine L.forM fun item _ => ?_
  split
  · exact hL.emit _ _ _ (by decide)
  · exact L.pure _

theorem recursiveFunctions_alike (hL : L.Executes S T) :
    L.rel (recursiveFunctions S) (recursiveFunctions T) := by
  unfold recursiveFunctions
  dsimp only
  rw [hL.kindred.program.callGraph, hL.kindred.program.functions]
  exact L.forM fun _ _ => hL.emit _ _ _ (by decide)

theorem layouts_alike (hL : L.Executes S T) : L.rel (layouts S) (layouts T) := by
  unfold layouts
  rw [hL.kindred.program.structs, hL.kindred.layouts]
  refine L.forM fun s _ => ?_
  split
  · exact hL.emit _ _ _ (by decide)
  · exact L.pure _

theorem keyboard_alike (hL : L.Executes S T)
    (hkeyboard : T.settings.keyboard = S.settings.keyboard) :
    L.rel (keyboard S) (keyboard T) := by
  unfold keyboard
  rw [hL.kindred.program.calls, hkeyboard]
  split
  · exact hL.emit _ _ _ (by decide)
  · exact L.pure _

theorem openFiles_alike (hL : L.Executes S T)
    (hwarn : ∀ line description, L.rel (Run.emit S .warning line description)
      (Run.emit T .warning line description)) :
    L.rel (openFiles S) (openFiles T) := by
  unfold openFiles openFile
  rw [hL.kindred.lastLine]
  exact L.bind (hL.ask _ fun _ _ _ => rfl) fun _ =>
    L.forM fun _ _ => L.bind (L.lift (by simp)) fun _ => hwarn _ _

theorem contents_alike (hL : L.Executes S T) : L.rel (contents S) (contents T) := by
  unfold contents
  rw [hL.kindred.lastLine]
  exact L.bind (hL.ask _ fun _ _ _ => rfl) fun _ => L.forM fun _ _ => hL.emit _ _ _ (by decide)

end Remark

theorem commentary_alike (hL : L.Executes S T) (category : Category) :
    CommentsAlike L S T category.commentary := by
  cases category with
  | bitwise => exact Remark.bits_alike hL
  | arrays => exact Remark.room_alike hL
  | _ => exact noCommentary_alike L S T

/-- The script of a category that executes the program does alike, if executing the program does
with what the script adds to declarations. -/
theorem play_alike (hL : L.Executes S T)
    (hkeyboard : T.settings.keyboard = S.settings.keyboard) {category : Category}
    (hexec : category.executes = true)
    (hdirectives : L.rel (Stepwise.Remark.directives S) (Stepwise.Remark.directives T))
    (hwarn : ∀ line description, L.rel (Run.emit S .warning line description)
      (Run.emit T .warning line description))
    (hmain : L.rel (runMain S category.commentary) (runMain T category.commentary)) :
    L.rel (category.play S) (category.play T) := by
  cases category with
  | dynamicAllocation => cases hexec
  | generic => cases hexec
  | structures => exact L.bind (Remark.layouts_alike hL) fun _ => hmain
  | fileIo =>
    exact L.bind hmain fun _ => L.bind (Remark.openFiles_alike hL hwarn) fun _ =>
      Remark.contents_alike hL
  | switchCase => exact L.bind (Remark.keyboard_alike hL hkeyboard) fun _ => hmain
  | preprocessor => exact L.bind hdirectives fun _ => hmain
  | recursion => exact L.bind (Remark.recursiveFunctions_alike hL) fun _ => hmain
  | _ => exact hmain

end Parallel

end Stepwise
