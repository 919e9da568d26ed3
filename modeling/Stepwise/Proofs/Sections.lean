/-
Conditional compilation in a block.

The statements of a block may stand in groups: a condition opens a group, alternatives
may follow, and an end closes it; groups may stand in the branches of others. A group
selects its first branch whose condition holds, or else the one without a condition.
The block is executed from a flat list with the conditions that are open at each place,
and here that is held against the tree of its groups: what the block does is what its
selected statements do, one after the other.

A directive of a group only shows a step. Nothing is held back where one statement of a
block follows another, so the step changes nothing but the record. In a branch that is
skipped, directives keep track of the groups and show nothing.
-/
import Stepwise.Proofs.Settling

set_option autoImplicit false

namespace Stepwise

/-! ## Groups -/

/-- The commands of groups. -/
def groupCommands : List String :=
  ["#if", "#ifdef", "#ifndef", "#elif", "#else", "#endif"]

/-- Is it an ordinary statement of a block, or a directive that belongs to no group? -/
def Stmt.Plain : Stmt → Prop
  | .directive d => d.command ∉ groupCommands
  | _ => True

/-- A directive without its command. -/
structure Mark where
  /-- The line it stands on. -/
  line : Nat
  /-- The texts of its other tokens. -/
  arguments : List String

namespace Mark

/-- The directive with a command. -/
def directive (mark : Mark) (command : String) : Directive :=
  ⟨mark.line, command, mark.arguments⟩

/-- The first argument has a value. -/
def Evaluates (mark : Mark) (macros : Macros) : Prop :=
  ∃ n, Directive.conditionValue macros (mark.arguments.headD "") = .ok n

/-- Is the value of the first argument not zero? -/
def holds (mark : Mark) (macros : Macros) : Bool :=
  match Directive.conditionValue macros (mark.arguments.headD "") with
  | .ok n => n ≠ 0
  | .error _ => false

theorem Evaluates.eq {mark : Mark} {macros : Macros} (h : mark.Evaluates macros) :
    ∃ n, Directive.conditionValue macros (mark.arguments.headD "") = .ok n ∧
      mark.holds macros = decide (n ≠ 0) := by
  obtain ⟨n, hn⟩ := h
  exact ⟨n, hn, by rw [holds, hn]⟩

end Mark

/-- What a group is opened by. -/
inductive Opening where
  /-- A value that is not zero. -/
  | value
  /-- A macro that is defined. -/
  | defined
  /-- A macro that is not defined. -/
  | undefined

namespace Opening

/-- Its command. -/
def command : Opening → String
  | value => "#if"
  | defined => "#ifdef"
  | undefined => "#ifndef"

/-- Is the first branch compiled? -/
def holds (macros : Macros) (mark : Mark) : Opening → Bool
  | value => mark.holds macros
  | defined => macros.has (mark.arguments.headD "")
  | undefined => !macros.has (mark.arguments.headD "")

end Opening

mutual

/-- The contents of a block or of a branch: statements and groups, one after the other. -/
inductive Sections where
  /-- Nothing more. -/
  | nil
  /-- A statement. -/
  | stmt (s : Stmt) (plain : s.Plain) (rest : Sections)
  /-- A group: what opens it, its first branch, and the others. -/
  | group (opening : Opening) (mark : Mark) (first : Sections) (others : Alternatives)
      (rest : Sections)

/-- What follows a branch of a group. -/
inductive Alternatives where
  /-- The end of the group. -/
  | close (mark : Mark)
  /-- A branch with a condition of its own. -/
  | elif (mark : Mark) (branch : Sections) (others : Alternatives)
  /-- A branch without a condition, and the end of the group. -/
  | otherwise (mark : Mark) (branch : Sections) (close : Mark)

end

mutual

/-- The statements of a block with all its directives. -/
def Sections.flatten : Sections → List Stmt
  | .nil => []
  | .stmt s _ rest => s :: Sections.flatten rest
  | .group opening mark first others rest =>
    .directive (mark.directive opening.command) ::
      (Sections.flatten first ++ (Alternatives.flatten others ++ Sections.flatten rest))

/-- The statements of the further branches with all their directives. -/
def Alternatives.flatten : Alternatives → List Stmt
  | .close mark => [.directive (mark.directive "#endif")]
  | .elif mark branch others =>
    .directive (mark.directive "#elif") ::
      (Sections.flatten branch ++ Alternatives.flatten others)
  | .otherwise mark branch close =>
    .directive (mark.directive "#else") ::
      (Sections.flatten branch ++ [.directive (close.directive "#endif")])

end

mutual

/-- The statements of a block that are compiled. -/
def Sections.selected (macros : Macros) : Sections → List Stmt
  | .nil => []
  | .stmt s _ rest => s :: Sections.selected macros rest
  | .group opening mark first others rest =>
    (if opening.holds macros mark then Sections.selected macros first
      else Alternatives.selected macros others) ++ Sections.selected macros rest

/-- The statements of the further branches that are compiled if none before was. -/
def Alternatives.selected (macros : Macros) : Alternatives → List Stmt
  | .close _ => []
  | .elif mark branch others =>
    if mark.holds macros then Sections.selected macros branch
    else Alternatives.selected macros others
  | .otherwise _ branch _ => Sections.selected macros branch

end

mutual

/-- All conditions have values. -/
def Sections.Evaluates (macros : Macros) : Sections → Prop
  | .nil => True
  | .stmt _ _ rest => Sections.Evaluates macros rest
  | .group opening mark first others rest =>
    (opening = .value → mark.Evaluates macros) ∧ Sections.Evaluates macros first ∧
      Alternatives.Evaluates macros others ∧ Sections.Evaluates macros rest

/-- All conditions of the further branches have values. -/
def Alternatives.Evaluates (macros : Macros) : Alternatives → Prop
  | .close _ => True
  | .elif mark branch others =>
    mark.Evaluates macros ∧ Sections.Evaluates macros branch ∧
      Alternatives.Evaluates macros others
  | .otherwise _ branch _ => Sections.Evaluates macros branch

end

/-! ## Single directives -/

/-- Shows a step if that is called for, and goes on with the given branches. -/
def announce (setup : Setup) (shown : Bool) (line : Nat) (text : String) (branches : Branches) :
    Run Branches := do
  if shown then Run.emit setup .preprocessing line text
  return branches

theorem Settling.announce_left {α : Type} {P : α → Prop} {setup : Setup} {shown : Bool} {line : Nat}
    {text : String} {branches : Branches} {k : Branches → Run α} {d : Run α}
    (h : Settling P (k branches) d) :
    Settling P (announce setup shown line text branches >>= k) d := by
  cases shown with
  | true =>
    have hshown : announce setup true line text branches >>= k
        = Run.emit setup .preprocessing line text >>= fun _ => k branches := by
      simp only [announce, if_true, bind_assoc, pure_bind]
    rw [hshown]
    exact .emit_left h
  | false => exact h

theorem Settling.announce {α : Type} {P : α → Prop} {setup : Setup} {shown : Bool} {line : Nat}
    {text : String} {branches branches' : Branches} {k l : Branches → Run α}
    (h : Settling P (k branches) (l branches')) :
    Settling P (announce setup shown line text branches >>= k)
      (announce setup shown line text branches' >>= l) := by
  unfold Stepwise.announce
  cases shown with
  | true =>
    simp only [if_true, bind_assoc, pure_bind]
    exact (Settling.of_keeps Run.emitDelta_sameEffects Flushes.emit.keeps).bind fun _ => h
  | false => exact h

theorem Branches.active_cons (branch : Branch) (outer : Branches) :
    Branches.active (branch :: outer) = (branch.active && Branches.active outer) :=
  List.all_cons

namespace Directive

variable (setup : Setup)

/-- A directive that opens a group opens a branch. -/
theorem run_opening {opening : Opening} {mark : Mark}
    (heval : opening = .value → mark.Evaluates setup.analysis.macros) (branches : Branches) :
    ∃ text, (mark.directive opening.command).run setup branches
      = announce setup branches.active mark.line text
          (⟨opening.holds setup.analysis.macros mark, opening.holds setup.analysis.macros mark⟩ ::
            branches) := by
  have hopens : ∃ reason, (mark.directive opening.command).opening? setup.analysis.macros
      = some (.ok (opening.holds setup.analysis.macros mark, reason)) := by
    cases opening with
    | value =>
      obtain ⟨n, hn, hholds⟩ := (heval rfl).eq
      have hvalue : Directive.conditionValue setup.analysis.macros
          (mark.directive Opening.value.command).argument = .ok n := hn
      rw [Opening.holds, hholds, opening?, hvalue]
      exact ⟨_, rfl⟩
    | defined => exact ⟨_, rfl⟩
    | undefined => exact ⟨_, rfl⟩
  obtain ⟨reason, hopens⟩ := hopens
  refine ⟨reason ++ ", " ++ verdict (opening.holds setup.analysis.macros mark) ++ " the block", ?_⟩
  unfold run
  rw [hopens]
  rfl

/-- An alternative is compiled if no earlier branch was and its condition holds. -/
theorem run_elif {mark : Mark} (heval : mark.Evaluates setup.analysis.macros) (branch : Branch)
    (outer : Branches) :
    ∃ text, (mark.directive "#elif").run setup (branch :: outer)
      = announce setup (Branches.active outer) mark.line text
          (⟨branch.taken || mark.holds setup.analysis.macros,
            !branch.taken && mark.holds setup.analysis.macros⟩ :: outer) := by
  obtain ⟨n, hn, hholds⟩ := heval.eq
  rw [hholds]
  have hrun : (mark.directive "#elif").run setup (branch :: outer)
      = (mark.directive "#elif").runAlternative setup (branch :: outer) := rfl
  rw [hrun, runAlternative]
  cases htaken : branch.taken with
  | true => exact ⟨_, rfl⟩
  | false =>
    simp only [Mark.directive, argument, Bool.false_eq_true, if_false, if_true]
    rw [hn]
    exact ⟨_, rfl⟩

theorem run_else (mark : Mark) (branch : Branch) (outer : Branches) :
    ∃ text, (mark.directive "#else").run setup (branch :: outer)
      = announce setup (Branches.active outer) mark.line text
          (⟨true, !branch.taken⟩ :: outer) := by
  have hrun : (mark.directive "#else").run setup (branch :: outer)
      = (mark.directive "#else").runAlternative setup (branch :: outer) := rfl
  rw [hrun, runAlternative]
  cases branch.taken with
  | true => exact ⟨_, rfl⟩
  | false => exact ⟨_, rfl⟩

/-- A directive that belongs to no group shows itself. -/
theorem run_plain {d : Directive} (hd : d.command ∉ groupCommands) (branches : Branches) :
    d.run setup branches
      = announce setup branches.active d.line (d.inFull ++ " is handled before compilation")
          branches := by
  simp only [groupCommands, List.mem_cons, List.not_mem_nil, or_false, not_or] at hd
  obtain ⟨hif, hifdef, hifndef, helif, helse, hendif⟩ := hd
  have hopening : d.opening? setup.analysis.macros = none := by
    unfold opening?
    split <;> simp_all
  unfold run
  rw [hopening]
  dsimp only
  split <;> simp_all [announce]

end Directive

/-! ## Blocks -/

section Blocks

variable {w : Walker} {rest : List Stmt}

theorem Walker.items_stmt {s : Stmt} (h : ∀ d, s ≠ .directive d) :
    w.items (s :: rest) = .stmt s.line (w.run s) :: w.items rest := by
  cases s with
  | directive d => exact absurd rfl (h d)
  | _ =>
    rw [items]
    simp

/-- A directive of a block settles as the rest of the block does with the branches it leaves. -/
theorem runItems_directive_settling {P : Flow → Prop} {d : Directive} {branches next : Branches}
    {last : Nat} {c : Run Flow}
    (hd : ∃ shown line text, d.run w.setup branches = announce w.setup shown line text next)
    (h : Settling P (runItems w.setup next last (w.items rest)) c) :
    Settling P (runItems w.setup branches last (w.items (.directive d :: rest))) c := by
  obtain ⟨shown, line, text, hd⟩ := hd
  rw [Walker.items, runItems, hd]
  exact .announce_left h

mutual

/-- Nothing is executed where a branch is skipped. -/
theorem Sections.skip (sections : Sections) {rest : List Stmt} {branches : Branches}
    {P : Flow → Prop} {last : Nat} {c : Run Flow}
    (heval : sections.Evaluates w.setup.analysis.macros) (hskipped : branches.active = false)
    (h : Settling P (runItems w.setup branches last (w.items rest)) c) :
    Settling P (runItems w.setup branches last (w.items (sections.flatten ++ rest))) c := by
  match sections with
  | .nil => exact h
  | .stmt s plain others =>
    rw [Sections.flatten, List.cons_append]
    have hothers := Sections.skip others heval hskipped h
    cases s with
    | directive d =>
      exact runItems_directive_settling ⟨_, _, _, Directive.run_plain w.setup plain branches⟩ hothers
    | _ =>
      rw [Walker.items_stmt (by simp), runItems, if_neg (by simp [hskipped])]
      exact hothers
  | .group opening mark first others after =>
    obtain ⟨hopening, hfirst, hothers, hafter⟩ := heval
    obtain ⟨text, hrun⟩ := Directive.run_opening w.setup hopening branches
    rw [Sections.flatten, List.cons_append, List.append_assoc, List.append_assoc]
    refine runItems_directive_settling ⟨_, _, _, hrun⟩ ?_
    refine Sections.skip first hfirst (by simp [Branches.active_cons, hskipped]) ?_
    exact Alternatives.skip others hothers (Or.inl hskipped)
      (Sections.skip after hafter hskipped h)

/-- Nor is anything in the further branches of a group that is skipped, or has been compiled. -/
theorem Alternatives.skip (others : Alternatives) {rest : List Stmt} {branch : Branch}
    {branches : Branches} {P : Flow → Prop} {last : Nat} {c : Run Flow}
    (heval : others.Evaluates w.setup.analysis.macros)
    (hskipped : branches.active = false ∨ branch.taken = true)
    (h : Settling P (runItems w.setup branches last (w.items rest)) c) :
    Settling P (runItems w.setup (branch :: branches) last (w.items (others.flatten ++ rest))) c := by
  match others with
  | .close mark => exact runItems_directive_settling ⟨false, 0, "", rfl⟩ h
  | .elif mark first others =>
    obtain ⟨hmark, hfirst, hothers⟩ := heval
    obtain ⟨text, hrun⟩ := Directive.run_elif w.setup hmark branch branches
    rw [Alternatives.flatten, List.cons_append, List.append_assoc]
    refine runItems_directive_settling ⟨_, _, _, hrun⟩ ?_
    refine Sections.skip first hfirst ?_ (Alternatives.skip others hothers ?_ h)
    · rcases hskipped with hskipped | htaken
      · simp [Branches.active_cons, hskipped]
      · simp [Branches.active_cons, htaken]
    · rcases hskipped with hskipped | htaken
      · exact Or.inl hskipped
      · exact Or.inr (by simp [htaken])
  | .otherwise mark last close =>
    obtain ⟨text, hrun⟩ := Directive.run_else w.setup mark branch branches
    rw [Alternatives.flatten, List.cons_append, List.append_assoc]
    refine runItems_directive_settling ⟨_, _, _, hrun⟩ ?_
    refine Sections.skip last heval ?_ (runItems_directive_settling ⟨false, 0, "", rfl⟩ h)
    rcases hskipped with hskipped | htaken
    · simp [Branches.active_cons, hskipped]
    · simp [Branches.active_cons, htaken]

end

mutual

/-- In a branch that is compiled, sections do what their selected statements do, as long as what
follows them does the same. -/
theorem Sections.compile (hw : w.Settled) (sections : Sections) {rest rest' : List Stmt}
    {branches : Branches}
    (heval : sections.Evaluates w.setup.analysis.macros) (hactive : branches.active = true)
    (h : ∀ last, Settling Flow.Stays (runItems w.setup branches last (w.items rest))
      (runItems w.setup [] last (w.items rest'))) (last : Nat) :
    Settling Flow.Stays (runItems w.setup branches last (w.items (sections.flatten ++ rest)))
      (runItems w.setup [] last
        (w.items (sections.selected w.setup.analysis.macros ++ rest'))) := by
  match sections with
  | .nil => exact h last
  | .stmt s plain others =>
    rw [Sections.flatten, Sections.selected, List.cons_append, List.cons_append]
    have hothers := Sections.compile hw others heval hactive h
    cases s with
    | directive d =>
      rw [Walker.items, Walker.items, runItems, runItems, Directive.run_plain w.setup plain,
        Directive.run_plain w.setup plain, hactive]
      exact .announce (hothers last)
    | _ =>
      rw [Walker.items_stmt (by simp), Walker.items_stmt (by simp)]
      exact runItems_stmt_settling hactive rfl (hw.run_settling _) hothers
  | .group opening mark first others after =>
    obtain ⟨hopening, hfirst, hothers, hafter⟩ := heval
    obtain ⟨text, hrun⟩ := Directive.run_opening w.setup hopening branches
    have hafter := Sections.compile hw after hafter hactive h
    rw [Sections.flatten, Sections.selected, List.cons_append, List.append_assoc,
      List.append_assoc, List.append_assoc]
    refine runItems_directive_settling ⟨_, _, _, hrun⟩ ?_
    by_cases hholds : opening.holds w.setup.analysis.macros mark = true
    · rw [if_pos hholds, hholds]
      refine Sections.compile hw first hfirst (by simp [Branches.active_cons, hactive]) ?_ last
      exact fun last => Alternatives.skip others hothers (Or.inr rfl) (hafter last)
    · rw [if_neg hholds, eq_false_of_ne_true hholds]
      refine Sections.skip first hfirst (by simp [Branches.active_cons]) ?_
      exact Alternatives.compile hw others hothers rfl hactive hafter last

/-- The further branches do what is selected of them, if no branch before has been compiled. -/
theorem Alternatives.compile (hw : w.Settled) (others : Alternatives) {rest rest' : List Stmt}
    {branch : Branch} {branches : Branches}
    (heval : others.Evaluates w.setup.analysis.macros) (htaken : branch.taken = false)
    (hactive : branches.active = true)
    (h : ∀ last, Settling Flow.Stays (runItems w.setup branches last (w.items rest))
      (runItems w.setup [] last (w.items rest'))) (last : Nat) :
    Settling Flow.Stays
      (runItems w.setup (branch :: branches) last (w.items (others.flatten ++ rest)))
      (runItems w.setup [] last
        (w.items (others.selected w.setup.analysis.macros ++ rest'))) := by
  match others with
  | .close mark => exact runItems_directive_settling ⟨false, 0, "", rfl⟩ (h last)
  | .elif mark first others =>
    obtain ⟨hmark, hfirst, hothers⟩ := heval
    obtain ⟨text, hrun⟩ := Directive.run_elif w.setup hmark branch branches
    rw [Alternatives.flatten, Alternatives.selected, List.cons_append, List.append_assoc]
    refine runItems_directive_settling ⟨_, _, _, hrun⟩ ?_
    rw [htaken]
    by_cases hholds : mark.holds w.setup.analysis.macros = true
    · rw [if_pos hholds, hholds]
      refine Sections.compile hw first hfirst (by simp [Branches.active_cons, hactive]) ?_ last
      exact fun last => Alternatives.skip others hothers (Or.inr rfl) (h last)
    · rw [if_neg hholds, eq_false_of_ne_true hholds]
      refine Sections.skip first hfirst (by simp [Branches.active_cons]) ?_
      exact Alternatives.compile hw others hothers rfl hactive h last
  | .otherwise mark last' close =>
    obtain ⟨text, hrun⟩ := Directive.run_else w.setup mark branch branches
    rw [Alternatives.flatten, Alternatives.selected, List.cons_append, List.append_assoc]
    refine runItems_directive_settling ⟨_, _, _, hrun⟩ ?_
    rw [htaken]
    refine Sections.compile hw last' heval (by simp [Branches.active_cons, hactive]) ?_ last
    exact fun last => runItems_directive_settling ⟨false, 0, "", rfl⟩ (h last)

end

end Blocks

end Stepwise
