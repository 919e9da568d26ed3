/-
Switches with groups in their bodies.

A switch looks for its labels among all statements of its body, whatever groups they
stand in, and executes the body from the label on with no group open. So groups behind
a label outside all groups are compiled as in any block. From a label inside a branch,
execution goes on to the end of that branch, and there is a directive that continues or
ends a group which was never opened; unless it has left the switch before, that is a
fault. And a label in a skipped branch is found like any other, which no compiler would
do.

Two bodies are held against each other here label by label: between the labels either
may have statements that the other has not.
-/
import Stepwise.Proofs.Compilation

set_option autoImplicit false

namespace Stepwise

/-! ## The same labels -/

/-- Two lists that have the same labels in the same order, and from each label on are related. -/
inductive SameLabels (R : List Stmt → List Stmt → Prop) : List Stmt → List Stmt → Prop
  | nil : SameLabels R [] []
  | label {s : Stmt} {a b : List Stmt} (h : R (s :: a) (s :: b)) (hrest : SameLabels R a b) :
      SameLabels R (s :: a) (s :: b)
  | left {s : Stmt} {a b : List Stmt} (h : s.isLabel = false) (hrest : SameLabels R a b) :
      SameLabels R (s :: a) b
  | right {s : Stmt} {a b : List Stmt} (h : s.isLabel = false) (hrest : SameLabels R a b) :
      SameLabels R a (s :: b)

/-- There is no label among the statements. -/
def Unlabelled (statements : List Stmt) : Prop :=
  ∀ s ∈ statements, s.isLabel = false

namespace SameLabels

variable {R : List Stmt → List Stmt → Prop} {a b extra : List Stmt}

theorem append_left (h : Unlabelled extra) (hrest : SameLabels R a b) :
    SameLabels R (extra ++ a) b := by
  induction extra with
  | nil => exact hrest
  | cons s extra ih =>
    exact .left (h s List.mem_cons_self) (ih fun t ht => h t (List.mem_cons_of_mem _ ht))

theorem append_right (h : Unlabelled extra) (hrest : SameLabels R a b) :
    SameLabels R a (extra ++ b) := by
  induction extra with
  | nil => exact hrest
  | cons s extra ih =>
    exact .right (h s List.mem_cons_self) (ih fun t ht => h t (List.mem_cons_of_mem _ ht))

/-- A statement that both lists have. -/
theorem both {s : Stmt} (h : s.isLabel = true → R (s :: a) (s :: b)) (hrest : SameLabels R a b) :
    SameLabels R (s :: a) (s :: b) := by
  by_cases hs : s.isLabel = true
  · exact .label (h hs) hrest
  · have hplain : s.isLabel = false := by simpa using hs
    exact .left hplain (.right hplain hrest)

end SameLabels

/-- Two positions, counted from `k` and `l`: none, or positions from which on the lists are
related. -/
def Landed (R : List Stmt → List Stmt → Prop) (a b : List Stmt) (k l : Nat) (p q : Option Nat) :
    Prop :=
  (p = none ∧ q = none) ∨
    ∃ i j, p = some (k + i) ∧ q = some (l + j) ∧ R (a.drop i) (b.drop j)

namespace Landed

variable {R : List Stmt → List Stmt → Prop} {a b : List Stmt} {s t : Stmt} {k l : Nat}
  {p q : Option Nat}

theorem left (h : Landed R a b (k + 1) l p q) : Landed R (s :: a) b k l p q := by
  rcases h with h | ⟨i, j, hp, hq, hR⟩
  · exact Or.inl h
  · exact Or.inr ⟨i + 1, j, by rw [hp]; congr 1; omega, hq, hR⟩

theorem right (h : Landed R a b k (l + 1) p q) : Landed R a (s :: b) k l p q := by
  rcases h with h | ⟨i, j, hp, hq, hR⟩
  · exact Or.inl h
  · exact Or.inr ⟨i, j + 1, hp, by rw [hq]; congr 1; omega, hR⟩

end Landed

/-- The default label is found at corresponding places. -/
theorem findIdx?_landed {R : List Stmt → List Stmt → Prop} {a b : List Stmt}
    (h : SameLabels R a b) (k l : Nat) :
    Landed R a b k l ((a.findIdx? Walker.isDefault).map (k + ·))
      ((b.findIdx? Walker.isDefault).map (l + ·)) := by
  have hshift : ∀ (found : Option Nat) (n : Nat),
      (found.map (· + 1)).map (n + ·) = found.map (n + 1 + ·) := by
    intro found n
    cases found with
    | none => rfl
    | some i =>
      simp only [Option.map_some, Option.some.injEq]
      omega
  induction h generalizing k l with
  | nil => exact Or.inl ⟨rfl, rfl⟩
  | @label s a b hR _ ih =>
    rw [List.findIdx?_cons, List.findIdx?_cons]
    by_cases hs : Walker.isDefault s = true
    · rw [if_pos hs, if_pos hs]
      exact Or.inr ⟨0, 0, rfl, rfl, hR⟩
    · rw [if_neg hs, if_neg hs, hshift, hshift]
      exact (ih (k + 1) (l + 1)).left.right
  | left hs _ ih =>
    rw [List.findIdx?_cons, Walker.isDefault_of_not_isLabel hs, if_neg (by decide), hshift]
    exact (ih (k + 1) l).left
  | right hs _ ih =>
    rw [List.findIdx?_cons, Walker.isDefault_of_not_isLabel hs, if_neg (by decide), hshift]
    exact (ih k (l + 1)).right

/-! ## The search for a label -/

namespace Walker

variable {w : Walker} {R : List Stmt → List Stmt → Prop} {a b : List Stmt}

/-- Two searches that land at corresponding places of two lists, with machines of the same effects. -/
def Lands (R : List Stmt → List Stmt → Prop) (a b : List Stmt) (k l : Nat)
    (c d : Run (Option Nat)) : Prop :=
  ∀ m m', Machine.SameEffects m m' →
    Resembles (fun p q => Landed R a b k l p.1 q.1 ∧ p.2.SameEffects q.2) (c m) (d m')

theorem matchingCase_lands (hw : w.Settled) (subject : Value) (h : SameLabels R a b) (k l : Nat) :
    Lands R a b k l (w.matchingCase subject k a) (w.matchingCase subject l b) := by
  induction h generalizing k l with
  | nil => exact fun m m' hsame => .ok ⟨Or.inl ⟨rfl, rfl⟩, hsame⟩
  | @label s a b hR _ ih =>
    by_cases hcase : ∃ line label, s = .caseLabel line label
    · obtain ⟨line, label, rfl⟩ := hcase
      intro m m' hsame
      rw [matchingCase, matchingCase]
      refine Resembles.bind (Parallel.value_alike (hw.evaluate label) m m' hsame) ?_
      rintro ⟨v, m₁⟩ ⟨v', m₁'⟩ ⟨hv, hsame₁⟩
      dsimp only at hv hsame₁
      subst hv
      show Resembles _ ((if (v == subject) = true then pure (some k)
          else w.matchingCase subject (k + 1) a) m₁)
        ((if (v == subject) = true then pure (some l) else w.matchingCase subject (l + 1) b) m₁')
      by_cases heq : (v == subject) = true
      · rw [if_pos heq, if_pos heq]
        exact .ok ⟨Or.inr ⟨0, 0, rfl, rfl, hR⟩, hsame₁⟩
      · rw [if_neg heq, if_neg heq]
        exact (ih (k + 1) (l + 1) m₁ m₁' hsame₁).imp fun _ _ _ hpq => ⟨hpq.1.left.right, hpq.2⟩
    · have hne : ∀ line label, s ≠ .caseLabel line label := by simpa using hcase
      rw [matchingCase_cons hne, matchingCase_cons hne]
      exact fun m m' hsame =>
        (ih (k + 1) (l + 1) m m' hsame).imp fun _ _ _ hpq => ⟨hpq.1.left.right, hpq.2⟩
  | left hs _ ih =>
    rw [matchingCase_cons (ne_caseLabel_of_not_isLabel hs)]
    exact fun m m' hsame =>
      (ih (k + 1) l m m' hsame).imp fun _ _ _ hpq => ⟨hpq.1.left, hpq.2⟩
  | right hs _ ih =>
    rw [matchingCase_cons (ne_caseLabel_of_not_isLabel hs)]
    exact fun m m' hsame =>
      (ih k (l + 1) m m' hsame).imp fun _ _ _ hpq => ⟨hpq.1.right, hpq.2⟩

theorem target?_lands (hw : w.Settled) (subject : Value) (h : SameLabels R a b) :
    Lands R a b 0 0 (w.target? subject a) (w.target? subject b) := by
  intro m m' hsame
  refine Resembles.bind (matchingCase_lands hw subject h 0 0 m m' hsame) ?_
  rintro ⟨p, m₁⟩ ⟨q, m₁'⟩ ⟨hlanded, hsame₁⟩
  dsimp only at hlanded hsame₁
  rcases hlanded with ⟨rfl, rfl⟩ | ⟨i, j, rfl, rfl, hR⟩
  · have hdefault := findIdx?_landed h 0 0
    simp only [Nat.zero_add, Option.map_id'] at hdefault
    exact .ok ⟨hdefault, hsame₁⟩
  · exact .ok ⟨Or.inr ⟨i, j, rfl, rfl, hR⟩, hsame₁⟩

theorem jump_lands (hw : w.Settled) (line bodyLine : Nat) (subject : Expr)
    (h : SameLabels R a b) :
    Lands R a b 0 0 (w.jump line subject (.block bodyLine a))
      (w.jump line subject (.block bodyLine b)) := by
  intro m m' hsame
  refine Resembles.bind (Parallel.value_alike (hw.evaluate subject) m m' hsame) ?_
  rintro ⟨v, m₁⟩ ⟨v', m₁'⟩ ⟨hv, hsame₁⟩
  dsimp only at hv hsame₁
  subst hv
  refine Resembles.bind (target?_lands hw v h m₁ m₁' hsame₁) ?_
  rintro ⟨p, m₂⟩ ⟨q, m₂'⟩ ⟨hlanded, hsame₂⟩
  -- what the step says depends on the label, what it does does not
  have hemit : ∀ line line' text text', Resembles
      (fun p q => Landed R a b 0 0 p.1 q.1 ∧ p.2.SameEffects q.2)
      ((Run.emit w.setup .conditional line text >>= fun _ => pure p) m₂)
      ((Run.emit w.setup .conditional line' text' >>= fun _ => pure q) m₂') := by
    intro line line' text text'
    refine Resembles.bind (Run.emitDelta_sameEffects m₂ m₂' hsame₂) ?_
    rintro ⟨_, m₃⟩ ⟨_, m₃'⟩ ⟨_, hsame₃⟩
    exact .ok ⟨hlanded, hsame₃⟩
  dsimp only
  generalize (p.bind fun index => (switchBody (.block bodyLine a))[index]?) = label
  generalize (q.bind fun index => (switchBody (.block bodyLine b))[index]?) = label'
  cases label with
  | none =>
    cases label' with
    | none => exact hemit _ _ _ _
    | some _ => exact hemit _ _ _ _
  | some _ =>
    cases label' with
    | none => exact hemit _ _ _ _
    | some _ => exact hemit _ _ _ _

theorem items_drop (statements : List Stmt) (n : Nat) :
    (w.items statements).drop n = w.items (statements.drop n) := by
  have hcons : ∀ (s : Stmt) rest, ∃ item, w.items (s :: rest) = item :: w.items rest := by
    intro s rest
    by_cases hs : ∃ d, s = .directive d
    · obtain ⟨d, rfl⟩ := hs
      exact ⟨_, by rw [items]⟩
    · rw [not_exists] at hs
      exact ⟨_, items_stmt hs⟩
  induction n generalizing statements with
  | zero => rfl
  | succ n ih =>
    cases statements with
    | nil => rw [List.drop_nil, items, List.drop_nil]
    | cons s rest =>
      obtain ⟨item, hitem⟩ := hcons s rest
      rw [hitem, List.drop_succ_cons, List.drop_succ_cons, ih]

end Walker

/-! ## Labels and groups -/

/-- No label stands in a branch of a group. -/
def Sections.LabelsOutside : Sections → Prop
  | .nil => True
  | .stmt _ _ rest => Sections.LabelsOutside rest
  | .group _ _ first others rest =>
    Unlabelled (Sections.flatten first) ∧ Unlabelled (Alternatives.flatten others) ∧
      Sections.LabelsOutside rest

mutual

/-- No label stands in a branch that is skipped. -/
def Sections.LabelsSelected (macros : Macros) : Sections → Prop
  | .nil => True
  | .stmt _ _ rest => Sections.LabelsSelected macros rest
  | .group opening mark first others rest =>
    (if opening.holds macros mark then
      Sections.LabelsSelected macros first ∧ Unlabelled (Alternatives.flatten others)
    else Unlabelled (Sections.flatten first) ∧ Alternatives.LabelsSelected macros others) ∧
      Sections.LabelsSelected macros rest

/-- The same of the further branches, if none before is compiled. -/
def Alternatives.LabelsSelected (macros : Macros) : Alternatives → Prop
  | .close _ => True
  | .elif mark branch others =>
    if mark.holds macros then
      Sections.LabelsSelected macros branch ∧ Unlabelled (Alternatives.flatten others)
    else Unlabelled (Sections.flatten branch) ∧ Alternatives.LabelsSelected macros others
  | .otherwise _ branch _ => Sections.LabelsSelected macros branch

end

/-- The commands that continue or end a group. -/
def closingCommands : List String :=
  ["#elif", "#else", "#endif"]

/-- The statements begin where a branch has ended. -/
def Closing (statements : List Stmt) : Prop :=
  ∃ d after, statements = .directive d :: after ∧ d.command ∈ closingCommands

theorem Alternatives.closing_flatten (others : Alternatives) (rest : List Stmt) :
    Closing (others.flatten ++ rest) := by
  cases others with
  | close mark => exact ⟨_, _, rfl, by simp [closingCommands, Mark.directive]⟩
  | elif mark branch others => exact ⟨_, _, rfl, by simp [closingCommands, Mark.directive]⟩
  | otherwise mark branch close =>
    exact ⟨_, _, rfl, by simp [closingCommands, Mark.directive]⟩

/-- Behind a label: sections, and what is compiled of them. They are all that is left of the body, or
they are what is left of a branch that the label is in. -/
def Remainder (macros : Macros) (inside : Prop) (a b : List Stmt) : Prop :=
  ∃ (sections : Sections) (tail more : List Stmt), sections.Evaluates macros ∧
    a = sections.flatten ++ tail ∧ b = sections.selected macros ++ more ∧
    ((tail = [] ∧ more = []) ∨ inside ∧ Closing tail)

section SameLabels

variable {macros : Macros} {inside : Prop}

mutual

/-- Only statements of the block are compiled. -/
theorem Sections.selected_subset (macros : Macros) (sections : Sections) :
    sections.selected macros ⊆ sections.flatten := by
  match sections with
  | .nil => exact List.Subset.refl _
  | .stmt s plain others =>
    exact List.cons_subset_cons s (Sections.selected_subset macros others)
  | .group opening mark first others after =>
    have hafter := Sections.selected_subset macros after
    have hbranch : (if opening.holds macros mark then first.selected macros
        else others.selected macros) ⊆ first.flatten ++ others.flatten := by
      split
      · exact List.subset_append_of_subset_left _ (Sections.selected_subset macros first)
      · exact List.subset_append_of_subset_right _ (Alternatives.selected_subset macros others)
    rw [Sections.selected, Sections.flatten, ← List.append_assoc]
    refine List.subset_cons_of_subset _ (List.append_subset.2 ⟨?_, ?_⟩)
    · exact List.subset_append_of_subset_left _ hbranch
    · exact List.subset_append_of_subset_right _ hafter

theorem Alternatives.selected_subset (macros : Macros) (others : Alternatives) :
    others.selected macros ⊆ others.flatten := by
  match others with
  | .close _ => exact List.nil_subset _
  | .elif mark branch others =>
    rw [Alternatives.selected, Alternatives.flatten]
    refine List.subset_cons_of_subset _ ?_
    split
    · exact List.subset_append_of_subset_left _ (Sections.selected_subset macros branch)
    · exact List.subset_append_of_subset_right _ (Alternatives.selected_subset macros others)
  | .otherwise _ branch _ =>
    rw [Alternatives.selected, Alternatives.flatten]
    exact List.subset_cons_of_subset _
      (List.subset_append_of_subset_left _ (Sections.selected_subset macros branch))

end

/-- With all labels outside groups, nothing of a group is in the way of a label. -/
theorem Sections.sameLabels_outside (sections : Sections) (heval : sections.Evaluates macros)
    (hlabels : sections.LabelsOutside) :
    SameLabels (Remainder macros inside) sections.flatten (sections.selected macros) := by
  match sections with
  | .nil => exact .nil
  | .stmt s plain others =>
    refine .both (fun _ => ?_) (Sections.sameLabels_outside others heval hlabels)
    exact ⟨.stmt s plain others, [], [], heval, (List.append_nil _).symm, (List.append_nil _).symm,
      Or.inl ⟨rfl, rfl⟩⟩
  | .group opening mark first others after =>
    obtain ⟨_, _, _, hafter⟩ := heval
    obtain ⟨hfirst, hothers, hlater⟩ := hlabels
    have hselected : Unlabelled (if opening.holds macros mark then first.selected macros
        else others.selected macros) := by
      split
      · exact fun s hs => hfirst s (first.selected_subset macros hs)
      · exact fun s hs => hothers s (others.selected_subset macros hs)
    refine .left rfl (.append_left hfirst (.append_left hothers (.append_right hselected ?_)))
    exact Sections.sameLabels_outside after hafter hlater

mutual

/-- A label in a branch that is compiled has the rest of its branch behind it. The induction is on the
sections; what follows them has been dealt with. -/
theorem Sections.sameLabels (sections : Sections) {tail more : List Stmt} (hinside : inside)
    (heval : sections.Evaluates macros) (hlabels : sections.LabelsSelected macros)
    (hends : (tail = [] ∧ more = []) ∨ inside ∧ Closing tail)
    (h : SameLabels (Remainder macros inside) tail more) :
    SameLabels (Remainder macros inside) (sections.flatten ++ tail)
      (sections.selected macros ++ more) := by
  match sections with
  | .nil => exact h
  | .stmt s plain others =>
    rw [Sections.flatten, Sections.selected, List.cons_append, List.cons_append]
    exact .both (fun _ => ⟨.stmt s plain others, tail, more, heval, rfl, rfl, hends⟩)
      (Sections.sameLabels others hinside heval hlabels hends h)
  | .group opening mark first others after =>
    obtain ⟨_, hfirst, hothers, hafter⟩ := heval
    obtain ⟨hbranches, hlater⟩ := hlabels
    have hrest := Sections.sameLabels after hinside hafter hlater hends h
    rw [Sections.flatten, Sections.selected, List.cons_append, List.append_assoc,
      List.append_assoc, List.append_assoc]
    refine .left rfl ?_
    by_cases hholds : opening.holds macros mark = true
    · rw [if_pos hholds] at hbranches ⊢
      exact Sections.sameLabels first hinside hfirst hbranches.1
        (Or.inr ⟨hinside, others.closing_flatten _⟩) (.append_left hbranches.2 hrest)
    · rw [if_neg hholds] at hbranches ⊢
      exact .append_left hbranches.1
        (Alternatives.sameLabels others hinside hothers hbranches.2 hrest)

theorem Alternatives.sameLabels (others : Alternatives) {tail more : List Stmt} (hinside : inside)
    (heval : others.Evaluates macros) (hlabels : others.LabelsSelected macros)
    (h : SameLabels (Remainder macros inside) tail more) :
    SameLabels (Remainder macros inside) (others.flatten ++ tail)
      (others.selected macros ++ more) := by
  match others with
  | .close mark => exact .left rfl h
  | .elif mark branch others =>
    obtain ⟨_, hbranch, hothers⟩ := heval
    rw [Alternatives.LabelsSelected] at hlabels
    rw [Alternatives.flatten, Alternatives.selected, List.cons_append, List.append_assoc]
    refine .left rfl ?_
    by_cases hholds : mark.holds macros = true
    · rw [if_pos hholds] at hlabels ⊢
      exact Sections.sameLabels branch hinside hbranch hlabels.1
        (Or.inr ⟨hinside, others.closing_flatten _⟩) (.append_left hlabels.2 h)
    · rw [if_neg hholds] at hlabels ⊢
      exact .append_left hlabels.1
        (Alternatives.sameLabels others hinside hothers hlabels.2 h)
  | .otherwise mark branch close =>
    rw [Alternatives.flatten, Alternatives.selected, List.cons_append, List.append_assoc]
    refine .left rfl (Sections.sameLabels branch hinside heval hlabels ?_ (.left rfl h))
    exact Or.inr ⟨hinside, (Alternatives.close close).closing_flatten tail⟩

end

end SameLabels

/-! ## From a label on -/

/-- Goes on where execution goes on with the next statement. -/
def Flow.andThen (k : Nat → Run Flow) : Flow → Run Flow
  | .next line => k line
  | flow => pure flow

theorem Flow.bind_andThen (c : Run Flow) (k l : Nat → Run Flow) :
    (c >>= Flow.andThen k) >>= Flow.andThen l
      = c >>= Flow.andThen fun line => k line >>= Flow.andThen l := by
  rw [bind_assoc]
  congr 1
  funext flow
  cases flow with
  | next line => rfl
  | breakOut line | continueOn line | ret value line => simp only [andThen, pure_bind]

section Running

variable {w : Walker}

/-- Statements that are executed before what follows them, and leave the branches as given. -/
def Completes (w : Walker) (branches next : Branches) (statements : List Stmt) : Prop :=
  ∃ run : Nat → Run Flow, ∀ last rest,
    runItems w.setup branches last (w.items (statements ++ rest))
      = run last >>= Flow.andThen fun reached => runItems w.setup next reached (w.items rest)

namespace Completes

variable {branches next final : Branches} {a b : List Stmt}

theorem nil : Completes w branches branches [] :=
  ⟨fun last => pure (.next last), fun _ _ => rfl⟩

theorem append (ha : Completes w branches next a) (hb : Completes w next final b) :
    Completes w branches final (a ++ b) := by
  obtain ⟨run, hrun⟩ := ha
  obtain ⟨run', hrun'⟩ := hb
  refine ⟨fun last => run last >>= Flow.andThen run', fun last rest => ?_⟩
  rw [List.append_assoc, hrun, Flow.bind_andThen]
  simp only [hrun']

theorem directive {d : Directive}
    (hd : ∃ shown line text, d.run w.setup branches = announce w.setup shown line text next) :
    Completes w branches next [.directive d] := by
  obtain ⟨shown, line, text, hd⟩ := hd
  refine ⟨fun last => announce w.setup shown line text next >>= fun _ => pure (.next last), ?_⟩
  intro last rest
  rw [List.singleton_append, Walker.items, runItems, hd, bind_assoc]
  cases shown with
  | true =>
    simp only [announce, if_true, bind_assoc, pure_bind]
    rfl
  | false => rfl

theorem stmt {s : Stmt} (hs : ∀ d, s ≠ .directive d) : Completes w branches branches [s] := by
  by_cases hactive : branches.active = true
  · refine ⟨fun _ => w.run s >>= Flow.andThen fun reached => pure (.next (lineOr reached s.line)),
      fun last rest => ?_⟩
    rw [List.singleton_append, Walker.items_stmt hs, runItems, if_pos hactive, Flow.bind_andThen]
    congr 1
  · refine ⟨fun last => pure (.next last), fun last rest => ?_⟩
    rw [List.singleton_append, Walker.items_stmt hs, runItems, if_neg hactive]
    rfl

theorem plain {s : Stmt} (hs : s.Plain) : Completes w branches branches [s] := by
  cases s with
  | directive d => exact directive ⟨_, _, _, Directive.run_plain w.setup hs branches⟩
  | _ => exact stmt (by simp)

end Completes

mutual

/-- Sections leave the branches as they were. -/
theorem Sections.completes (sections : Sections)
    (heval : sections.Evaluates w.setup.analysis.macros) (branches : Branches) :
    Completes w branches branches sections.flatten := by
  match sections with
  | .nil => exact .nil
  | .stmt s plain others => exact .append (.plain plain) (Sections.completes others heval branches)
  | .group opening mark first others after =>
    obtain ⟨hopening, hfirst, hothers, hafter⟩ := heval
    obtain ⟨text, hrun⟩ := Directive.run_opening w.setup hopening branches
    exact .append (.directive ⟨_, _, _, hrun⟩) <| .append (Sections.completes first hfirst _) <|
      .append (Alternatives.completes others hothers _ branches)
        (Sections.completes after hafter branches)

/-- The further branches of a group end its branch. -/
theorem Alternatives.completes (others : Alternatives)
    (heval : others.Evaluates w.setup.analysis.macros) (branch : Branch) (branches : Branches) :
    Completes w (branch :: branches) branches others.flatten := by
  match others with
  | .close mark => exact .directive ⟨false, 0, "", rfl⟩
  | .elif mark first others =>
    obtain ⟨hmark, hfirst, hothers⟩ := heval
    obtain ⟨text, hrun⟩ := Directive.run_elif w.setup hmark branch branches
    exact .append (.directive ⟨_, _, _, hrun⟩) <| .append (Sections.completes first hfirst _)
      (Alternatives.completes others hothers _ branches)
  | .otherwise mark last close =>
    obtain ⟨text, hrun⟩ := Directive.run_else w.setup mark branch branches
    exact .append (.directive ⟨_, _, _, hrun⟩) <| .append (Sections.completes last heval _)
      (.directive ⟨false, 0, "", rfl⟩)

end

/-- The end of a branch that was never opened is a fault. -/
theorem runItems_closing {tail : List Stmt} (htail : Closing tail) :
    ∃ command line, command ∈ closingCommands ∧ ∀ last,
      runItems w.setup [] last (w.items tail) = Eval.fail (.unmatchedDirective command line) := by
  obtain ⟨d, after, rfl, hd⟩ := htail
  refine ⟨d.command, d.line, hd, fun last => ?_⟩
  have hrun : d.run w.setup [] = Eval.fail (.unmatchedDirective d.command d.line) := by
    obtain ⟨line, command, arguments⟩ := d
    simp only [closingCommands, List.mem_cons, List.not_mem_nil, or_false] at hd
    rcases hd with rfl | rfl | rfl <;> rfl
  rw [Walker.items, runItems, hrun]
  rfl

/-- Behind a label, a body does what is compiled of it, unless it reaches the end of the branch that
the label is in. -/
theorem Remainder.runs (hw : w.Settled) {inside : Prop} {a b : List Stmt}
    (h : Remainder w.setup.analysis.macros inside a b) {m m' : Machine}
    (hm : m.hasPending = false) (hsame : m.SameEffects m') :
    SameOutcome (runBlock w.setup (w.items a) m) (runBlock w.setup (w.items b) m') ∨
      inside ∧ ∃ command line, command ∈ closingCommands ∧
        runBlock w.setup (w.items a) m = .error (.unmatchedDirective command line) := by
  obtain ⟨sections, tail, more, heval, rfl, rfl, hends⟩ := h
  have hmore : Settling Flow.Stays (runBlock w.setup (w.items (sections.flatten ++ more)))
      (runBlock w.setup
        (w.items (sections.selected w.setup.analysis.macros ++ more))) :=
    Sections.compile hw sections heval rfl
      (fun last => runItems_settling (hw.items_settle more) [] last) 0
  have hcompiled := hmore.resembles hm hsame
  rcases hends with ⟨rfl, rfl⟩ | ⟨hinside, htail⟩
  · exact Or.inl hcompiled
  · obtain ⟨run, hrun⟩ := sections.completes heval []
    obtain ⟨command, line, hcommand, htail⟩ := runItems_closing (w := w) htail
    have hthen : ∀ rest, runBlock w.setup (w.items (sections.flatten ++ rest)) m
        = Except.bind (run 0 m) fun r =>
            Flow.andThen (fun reached => runItems w.setup [] reached (w.items rest)) r.1 r.2 := by
      intro rest
      rw [runBlock, hrun]
      rfl
    rw [hthen] at hcompiled ⊢
    -- if the sections are left by a jump or a fault, the end of the branch is not reached
    cases hfirst : run 0 m with
    | error fault =>
      rw [hfirst] at hcompiled
      exact Or.inl hcompiled
    | ok first =>
      obtain ⟨flow, m₁⟩ := first
      rw [hfirst] at hcompiled
      cases flow with
      | next reached =>
        refine Or.inr ⟨hinside, command, line, hcommand, ?_⟩
        show runItems w.setup [] reached (w.items tail) m₁ = _
        rw [htail]
        rfl
      | breakOut _ | continueOn _ | ret _ _ => exact Or.inl hcompiled

/-- What a switch does behind its jump: the body from the label on, if there is one. -/
def Walker.afterJump (w : Walker) (line : Nat) (body : List Stmt) : Option Nat → Run Flow
  | none => pure (.next line)
  | some skipped => do
    let flow ← runBlock w.setup (w.items (body.drop skipped))
    return flow.afterSwitch

theorem Walker.run_switch_block (line bodyLine : Nat) (subject : Expr) (body : List Stmt) :
    w.run (.switch line subject (.block bodyLine body))
      = w.jump line subject (.block bodyLine body) >>= w.afterJump line body := by
  rw [run_switch]
  congr 1
  funext target
  cases target with
  | none => rfl
  | some skipped =>
    simp only [afterJump, itemsOfBody, items_drop]

theorem Walker.Settled.afterJump_remainder (hw : w.Settled) {inside : Prop} {a b : List Stmt}
    {p q : Option Nat} (h : Landed (Remainder w.setup.analysis.macros inside) a b 0 0 p q)
    (line : Nat) {m m' : Machine} (hm : m.hasPending = false) (hsame : m.SameEffects m') :
    SameOutcome (w.afterJump line a p m) (w.afterJump line b q m') ∨
      inside ∧ ∃ command number, command ∈ closingCommands ∧
        w.afterJump line a p m = .error (.unmatchedDirective command number) := by
  rcases h with ⟨rfl, rfl⟩ | ⟨i, j, rfl, rfl, hremainder⟩
  · exact Or.inl (.ok ⟨rfl, hsame⟩)
  · rw [Nat.zero_add, Nat.zero_add]
    rcases hremainder.runs hw hm hsame with hruns | ⟨hinside, command, number, hcommand, hfault⟩
    · refine Or.inl (Resembles.bind hruns ?_)
      rintro ⟨flow, m₁⟩ ⟨flow', m₁'⟩ ⟨hflow, hsame₁⟩
      dsimp only at hflow hsame₁
      subst hflow
      exact .ok ⟨rfl, hsame₁⟩
    · refine Or.inr ⟨hinside, command, number, hcommand, ?_⟩
      show Except.bind (runBlock w.setup (w.items (a.drop i)) m) _ = _
      rw [hfault]
      rfl

/-- Two switches on bodies with the same labels. -/
theorem Walker.Settled.switch_remainder (hw : w.Settled) {inside : Prop} {a b : List Stmt}
    (h : SameLabels (Remainder w.setup.analysis.macros inside) a b) (line bodyLine : Nat)
    (subject : Expr) (m : Machine) :
    SameOutcome (w.run (.switch line subject (.block bodyLine a)) m)
        (w.run (.switch line subject (.block bodyLine b)) m) ∨
      inside ∧ ∃ command number, command ∈ closingCommands ∧
        w.run (.switch line subject (.block bodyLine a)) m
          = .error (.unmatchedDirective command number) := by
  have hjump := w.jump_lands hw line bodyLine subject h m m (.refl m)
  have hflushed := Walker.Settled.jump_flushes (w := w) line subject (.block bodyLine a) m
  have hbind : ∀ body, w.run (.switch line subject (.block bodyLine body)) m
      = Except.bind (w.jump line subject (.block bodyLine body) m) fun r =>
          w.afterJump line body r.1 r.2 := by
    intro body
    rw [Walker.run_switch_block]
    rfl
  rw [hbind, hbind]
  generalize w.jump line subject (.block bodyLine a) m = r at hjump hflushed ⊢
  generalize w.jump line subject (.block bodyLine b) m = r' at hjump ⊢
  cases hjump with
  | error hfault => exact Or.inl (.error hfault)
  | ok hlanded =>
    exact hw.afterJump_remainder hlanded.1 line (hflushed _ _ rfl) hlanded.2

end Running

/-! ## The main result -/

/-- **A switch does what the compiled statements of its body do** if no label stands in a branch that
is skipped, unless it goes on to the end of a branch that a label stands in, which is a fault. -/
theorem switches_are_compiled (setup : Setup) (category : Category) (budget : Nat) (scope : Scope)
    (line bodyLine : Nat) (subject : Expr) (sections : Sections)
    (heval : sections.Evaluates setup.analysis.macros)
    (hlabels : sections.LabelsSelected setup.analysis.macros) (m : Machine) :
    let w := walker setup category.commentary
      (callBy setup (invoke setup category.commentary budget)) scope
    let switch := fun body => w.run (.switch line subject (.block bodyLine body)) m
    SameOutcome (switch sections.flatten) (switch (sections.selected setup.analysis.macros)) ∨
      ¬sections.LabelsOutside ∧ ∃ command line, command ∈ closingCommands ∧
        switch sections.flatten = .error (.unmatchedDirective command line) := by
  intro w switch
  have hw : w.Settled := walker_settled setup category budget scope
  have hsame : SameLabels (Remainder setup.analysis.macros (¬sections.LabelsOutside))
      sections.flatten (sections.selected setup.analysis.macros) := by
    by_cases houtside : sections.LabelsOutside
    · exact sections.sameLabels_outside heval houtside
    · have h := sections.sameLabels houtside heval hlabels (Or.inl ⟨rfl, rfl⟩) .nil
      rwa [List.append_nil, List.append_nil] at h
  exact hw.switch_remainder hsame line bodyLine subject m

namespace LabelInGroup

open NestedGroups (assign)

/-- The body of a switch with a label in a group, and one behind it. -/
def sections (opening : Opening) : Sections :=
  .group opening ⟨4, ["A"]⟩
    (.stmt (.caseLabel 5 (.literal 5 "1")) trivial
      (.stmt (assign 6 "10") trivial (.stmt (.breakOut 7) trivial .nil)))
    (.close ⟨8, []⟩)
    (.stmt (.defaultLabel 9) trivial (.stmt (assign 10 "20") trivial .nil))

/-- The variable that the switch looks at. -/
def declaration : Decl :=
  ⟨2, .int, [⟨2, "x", 0, .none, some (.expr (.literal 2 "1"))⟩]⟩

/-- The switch. -/
def switch (body : List Stmt) : Stmt :=
  .switch 3 (.name 3 "x") (.block 3 body)

/-- A function with both. -/
def main (opening : Opening) : Function where
  line := 1
  name := "main"
  returnType := .int
  parameters := []
  bodyLine := 1
  body := [.decl declaration, switch (sections opening).flatten]

/-- What it is executed under: nothing is defined. -/
def setup (opening : Opening) : Setup :=
  ⟨{ program := ⟨[.function (main opening)]⟩, source := "", tokens := [], lines := [], macros := [],
     layouts := [] }, {}⟩

/-- What its statements are executed with. -/
def inMain (opening : Opening) : Walker :=
  walker (setup opening) noCommentary (callAt (setup opening) noCommentary 1) []

/-- The machine in front of the switch. -/
def beforeSwitch (opening : Opening) : Except Fault Machine := do
  let (_, m) ← Invocation.enter (setup opening) (main opening) "main" [] 1 (Machine.start {})
  let (_, m) ← (inMain opening).runDecl declaration m
  return m

/-- Behind the switch, with one body or another, the variable has a value. -/
def leaves (opening : Opening) (body : List Stmt) (value : Int) : Bool :=
  match beforeSwitch opening with
  | .ok m =>
    match (inMain opening).run (switch body) m with
    | .ok (.next _, m) =>
      match m.read (.int 4096) with
      | .ok (.num (.int n)) => n == value
      | _ => false
    | _ => false
  | .error _ => false

theorem of_leaves {opening : Opening} {body : List Stmt} {value : Int}
    (h : leaves opening body value = true) :
    ∃ m line m', beforeSwitch opening = .ok m ∧
      (inMain opening).run (switch body) m = .ok (.next line, m') ∧
      m'.read (.int 4096) = .ok (.int value) := by
  unfold leaves at h
  split at h
  · next m hm =>
    split at h
    · next line m' hrun =>
      split at h
      · next n hread => exact ⟨m, line, m', hm, hrun, by rw [hread, eq_of_beq h]⟩
      · cases h
    · cases h
  · cases h

theorem sections_evaluates (opening : Opening) (h : opening ≠ .value) (macros : Macros) :
    (sections opening).Evaluates macros :=
  ⟨fun hvalue => absurd hvalue h, trivial, trivial, trivial⟩

theorem leaves_flatten (opening : Opening) (h : opening ≠ .value) :
    leaves opening (sections opening).flatten 10 = true := by
  simp only [leaves, switch, Walker.run_switch, Walker.itemsOfBody, sections, Sections.flatten,
    Alternatives.flatten, List.cons_append, List.nil_append, Walker.items, Walker.run]
  cases opening with
  | value => exact absurd rfl h
  | defined => decide +kernel
  | undefined => decide +kernel

theorem leaves_selected : leaves .defined ((sections .defined).selected []) 20 = true := by
  have hselected : (sections .defined).selected [] = [.defaultLabel 9, assign 10 "20"] :=
    rfl
  simp only [hselected, leaves, switch, Walker.run_switch, Walker.itemsOfBody, Walker.items,
    Walker.run, assign]
  decide +kernel

end LabelInGroup

/-- A label in a branch that is compiled, whose statements leave the switch. -/
theorem compiled_label_is_chosen :
    (LabelInGroup.sections .undefined).Evaluates [] ∧
    (LabelInGroup.sections .undefined).LabelsSelected [] ∧
    ∃ m, LabelInGroup.beforeSwitch .undefined = .ok m ∧
      SameOutcome
        ((LabelInGroup.inMain .undefined).run
          (LabelInGroup.switch (LabelInGroup.sections .undefined).flatten) m)
        ((LabelInGroup.inMain .undefined).run
          (LabelInGroup.switch ((LabelInGroup.sections .undefined).selected [])) m) := by
  have heval := LabelInGroup.sections_evaluates .undefined (by simp) []
  have hend : Unlabelled (Alternatives.flatten (.close ⟨8, []⟩)) := by
    intro s hs
    obtain rfl := List.mem_singleton.1 hs
    rfl
  have hlabels : (LabelInGroup.sections .undefined).LabelsSelected [] := ⟨⟨trivial, hend⟩, trivial⟩
  obtain ⟨m, line, m', hm, hrun, _⟩ :=
    LabelInGroup.of_leaves (LabelInGroup.leaves_flatten .undefined (by simp))
  refine ⟨heval, hlabels, m, hm, ?_⟩
  rcases switches_are_compiled (LabelInGroup.setup .undefined) .basic (Settings.calls {} - 1) [] 3 3
    (.name 3 "x") (LabelInGroup.sections .undefined) heval hlabels m with hsame | ⟨_, _, _, _, hfault⟩
  · exact hsame
  · cases hrun.symm.trans hfault

/-- A label in a branch that is skipped is chosen all the same, and the statements behind it are
executed: the variable is left with another value than the compiled statements leave it with. -/
theorem skipped_label_is_chosen :
    (LabelInGroup.sections .defined).Evaluates [] ∧
    ∃ m line m₁ line' m₂, LabelInGroup.beforeSwitch .defined = .ok m ∧
      (LabelInGroup.inMain .defined).run
        (LabelInGroup.switch (LabelInGroup.sections .defined).flatten) m = .ok (.next line, m₁) ∧
      m₁.read (.int 4096) = .ok (.int 10) ∧
      (LabelInGroup.inMain .defined).run
        (LabelInGroup.switch ((LabelInGroup.sections .defined).selected [])) m
        = .ok (.next line', m₂) ∧
      m₂.read (.int 4096) = .ok (.int 20) := by
  obtain ⟨m, line, m₁, hm, hflat, hten⟩ :=
    LabelInGroup.of_leaves (LabelInGroup.leaves_flatten .defined (by simp))
  obtain ⟨m', line', m₂, hm', hcompiled, htwenty⟩ :=
    LabelInGroup.of_leaves LabelInGroup.leaves_selected
  obtain rfl := Except.ok.inj (hm.symm.trans hm')
  exact ⟨LabelInGroup.sections_evaluates .defined (by simp) [], m, line, m₁, line', m₂, hm, hflat, hten,
    hcompiled, htwenty⟩

end Stepwise
