/-
When the frames agree with the memory.

A state shows a scalar in its frame and in its memory cell. The two agree after
every step of a trace exactly if every step is discreet: where a step adds
variables to a frame, it changes no other scalar of that frame. An initializer
with a side effect on a variable of the same call is enough to make a step that is
not, and from then on the frame shows a value that is no longer there.

The structs of the program have to take some space, and if the program is about
dynamic allocation, no function of it may be called while its elements are
printed: otherwise one object can be placed over another.
-/
import Stepwise.Proofs.Allocation

set_option autoImplicit false

namespace Stepwise

/-! ## Whole traces -/

/-- Every script that comes to its end kept the views in agreement exactly where it was discreet. -/
theorem play_along {setup : Setup} {category : Category} {u : Unit} {m : Machine}
    (hlayouts : setup.analysis.layouts.Solid)
    (hcalls : category = .dynamicAllocation → CallsNone m.steps.toList)
    (h : category.play setup (Machine.start setup.settings) = .ok (u, m)) :
    Along ShowsExactly { heapBase := setup.settings.heapBase } m.steps.toList m.state := by
  by_cases hexec : category.executes = true
  · have hstart := Machine.viewed_start setup.settings setup.settings.stackBase
    exact (Walks.viewed hlayouts (play_follows hexec h rfl) hstart).along
  · cases category with
    | generic => exact (outline_viewed h (Machine.viewed_start setup.settings 0)).along
    | dynamicAllocation => exact (Allocation.run_viewed hlayouts.sound h (hcalls rfl)).along
    | _ => exact absurd rfl hexec

/-- A step without a change is discreet and keeps the views as they are. -/
theorem showsExactly_of_no_change (s : State) (step : Step) (h : step.delta = {}) :
    ShowsExactly s step s := by
  intro hagree
  refine ⟨fun _ => hagree, fun _ => ?_⟩
  intro f _ patch hpatch
  rw [h] at hpatch
  cases hpatch

/-- Where every step keeps the views in agreement exactly if it is discreet, they agree after every
step exactly if all are discreet. -/
theorem Along.agree_iff_discreet {s t : State} {steps : List Step}
    (h : Along ShowsExactly s steps t) (hs : s.ViewsAgree) :
    (∀ n, ∃ u, replayFrom s (steps.take n) = .ok u ∧ u.ViewsAgree) ↔
      ∀ n step, steps[n]? = some step →
        ∃ u, replayFrom s (steps.take n) = .ok u ∧ step.Discreet u := by
  constructor
  · intro hagree n step hn
    obtain ⟨u, v, hu, hv, hshows⟩ := h.getElem hn
    obtain ⟨u', hu', hbefore⟩ := hagree n
    obtain ⟨v', hv', hafter⟩ := hagree (n + 1)
    obtain rfl := Except.ok.inj (hu.symm.trans hu')
    obtain rfl := Except.ok.inj (hv.symm.trans hv')
    exact ⟨u, hu, (hshows hbefore).2 hafter⟩
  · intro hdiscreet n
    induction n with
    | zero => exact ⟨s, rfl, hs⟩
    | succ n ih =>
      obtain ⟨u, hu, hbefore⟩ := ih
      cases hn : steps[n]? with
      | none =>
        have hle : steps.length ≤ n := List.getElem?_eq_none_iff.1 hn
        rw [List.take_of_length_le hle] at hu
        rw [List.take_of_length_le (by omega)]
        exact ⟨u, hu, hbefore⟩
      | some step =>
        obtain ⟨u', v, hu', hv, hshows⟩ := h.getElem hn
        obtain ⟨u'', hu'', hstep⟩ := hdiscreet n step hn
        obtain rfl := Except.ok.inj (hu.symm.trans hu')
        obtain rfl := Except.ok.inj (hu.symm.trans hu'')
        exact ⟨v, hv, (hshows hbefore).1 hstep⟩

theorem layouts_solid {p : Program} {spare : Nat} {macros : Macros} {layouts : Layouts}
    (h : p.layouts spare macros = .ok layouts) (hsizes : ∀ e ∈ layouts, 0 < e.2.size) :
    layouts.Solid := by
  refine ⟨layouts_sound h, ?_⟩
  intro e he
  obtain ⟨f, hf, rfl⟩ := List.mem_map.1 he
  exact hsizes f hf

/-! ## The main result -/

/-- **The frames agree with the memory exactly as long as no step that adds to a frame changes
another scalar of it.** -/
theorem views_agree_iff_discreet {p : Program} {source : String} {tokens : List Token}
    {settings : Settings} {analysis : Analysis} (ha : analyze p source tokens = .ok analysis)
    (hok : (p.trace source tokens settings).ok = true)
    (hsizes : ∀ e ∈ analysis.layouts, 0 < e.2.size)
    (hcalls : analysis.category = .dynamicAllocation →
      CallsNone (p.trace source tokens settings).steps) :
    (∀ n, ∃ s, replayFrom { heapBase := settings.heapBase }
        ((p.trace source tokens settings).steps.take n) = .ok s ∧ s.ViewsAgree) ↔
      ∀ n step, (p.trace source tokens settings).steps[n]? = some step →
        ∃ s, replayFrom { heapBase := settings.heapBase }
          ((p.trace source tokens settings).steps.take n) = .ok s ∧ step.Discreet s := by
  obtain ⟨m, hplay⟩ := Program.play_of_trace_ok ha hok
  have htrace := trace_of_play ha hplay
  rw [htrace] at hcalls ⊢
  have hnone : analysis.category = .dynamicAllocation → CallsNone m.steps.toList := by
    intro hcategory step hstep
    refine hcalls hcategory step (List.mem_cons_of_mem _ (List.mem_append_left _ hstep))
  have hsolid := layouts_solid (analyze_layouts ha).1 hsizes
  have halong : Along ShowsExactly { heapBase := settings.heapBase } m.steps.toList m.state :=
    play_along hsolid hnone hplay
  refine (halong.around showsExactly_of_no_change tokens).agree_iff_discreet ?_
  intro f hf
  cases hf

/-! ## A step that is not discreet -/

namespace HiddenIncrement

/-- A program whose second declaration increments the first variable. -/
def source : String :=
  "int main() \x7b\n  int x = 1;\n  int y = x++;\n  return 0;\n\x7d\n"

/-- Its main function. -/
def main : Function where
  line := 1
  name := "main"
  returnType := .int
  parameters := []
  bodyLine := 1
  body :=
    [.decl ⟨2, .int, [⟨2, "x", 0, .none, some (.expr (.literal 2 "1"))⟩]⟩,
      .decl ⟨3, .int, [⟨3, "y", 0, .none, some (.expr (.stepAfter 3 .increment (.name 3 "x")))⟩]⟩,
      .ret 4 (some (.literal 4 "0"))]

/-- The program. -/
def program : Program :=
  ⟨[.function main]⟩

/-- What is known about it. -/
def analysis (tokens : List Token) : Analysis :=
  { program, source, tokens, lines := Text.lines source, macros := [], layouts := [] }

theorem analyze_eq (tokens : List Token) : analyze program source tokens = .ok (analysis tokens) :=
  rfl

theorem category_eq : (analysis (tokenize source)).category = .basic := by
  decide

/-- What its script comes to. -/
def outcome : Except Fault (Unit × Machine) :=
  runMain ⟨analysis (tokenize source), {}⟩ noCommentary (Machine.start {})

/-- After three steps of the script, the frame shows one and the memory holds two. -/
def comesApart (m : Machine) : Bool :=
  match m.steps.toList with
  | a :: b :: c :: _ =>
    match replayFrom {} [a, b, c] with
    | .ok s =>
      match s.shown? "main" "x", s.memory.find? (.int 0x1000) with
      | some ⟨.int 0x1000, _, ⟨"int"⟩, .num (.int 1)⟩, some ⟨_, _, _, .num (.int 2)⟩ => true
      | _, _ => false
    | .error _ => false
  | _ => false

theorem outcome_comesApart :
    (match outcome with
      | .ok (_, m) => comesApart m
      | .error _ => false) = true := by
  have hcalls : Settings.calls {} = 31 + 1 := rfl
  have hmain : (analysis (tokenize source)).main? = some main := rfl
  unfold outcome runMain
  rw [hmain]
  dsimp only
  rw [hcalls, invoke]
  -- statements are unfolded by their equations; the rest is computed
  simp only [main, Walker.runBody, Walker.items, Walker.run]
  decide +kernel

/-- The script comes to its end, and the state after three of its steps shows a value that is not
there. -/
theorem exists_run : ∃ m a b c rest s, outcome = .ok ((), m) ∧
    m.steps.toList = a :: b :: c :: rest ∧ replayFrom {} [a, b, c] = .ok s ∧ ¬s.ViewsAgree := by
  have h := outcome_comesApart
  have hscalar : CType.isAggregate ⟨"int"⟩ = false := by decide
  cases houtcome : outcome with
  | error fault =>
    rw [houtcome] at h
    cases h
  | ok result =>
    obtain ⟨⟨⟩, m⟩ := result
    rw [houtcome] at h
    dsimp only [comesApart] at h
    split at h
    · next a b c rest hsteps =>
      split at h
      · next s hs =>
        refine ⟨m, a, b, c, rest, s, rfl, hsteps, hs, ?_⟩
        split at h
        · next hshown hcell =>
          intro hagree
          obtain ⟨f, hf, hvar⟩ := Option.bind_eq_some_iff.1 hshown
          obtain ⟨key, hkey, _⟩ := Table.mem_of_find? hvar
          obtain ⟨cell, hfound, _, hvalue⟩ := hagree f (State.frameIn_some hf).1 _ hkey hscalar
          rw [hcell] at hfound
          obtain rfl := Option.some.inj hfound
          cases hvalue
        · cases h
      · cases h
    · cases h

/-- So its trace has a state in which the views disagree, after the start and three more steps. -/
theorem exists_state :
    (program.trace source (tokenize source) {}).ok = true ∧
    ∃ s, replayFrom { heapBase := Settings.heapBase {} }
        ((program.trace source (tokenize source) {}).steps.take 4) = .ok s ∧ ¬s.ViewsAgree := by
  obtain ⟨m, a, b, c, rest, s, hrun, hsteps, hs, hnot⟩ := exists_run
  have hplay : (analysis (tokenize source)).category.play ⟨analysis (tokenize source), {}⟩
      (Machine.start {}) = .ok ((), m) := by
    rw [category_eq]
    exact hrun
  rw [trace_of_play (analyze_eq _) hplay]
  refine ⟨rfl, s, ?_, hnot⟩
  show replayFrom {} ((Trace.startStep :: (m.steps.toList ++ [_])).take 4) = .ok s
  rw [hsteps]
  show replayFrom {} [Trace.startStep, a, b, c] = .ok s
  rw [replayFrom, State.apply_of_no_change _ rfl]
  exact hs

end HiddenIncrement

/-- The views of this program's trace do not agree throughout. -/
theorem declaration_hides_increment :
    ∃ t, t = HiddenIncrement.program.trace HiddenIncrement.source
        (tokenize HiddenIncrement.source) {} ∧ t.ok = true ∧
      ∃ n s, replayFrom { heapBase := Settings.heapBase {} } (t.steps.take n) = .ok s ∧
        ¬s.ViewsAgree := by
  obtain ⟨hok, s, hs, hnot⟩ := HiddenIncrement.exists_state
  exact ⟨_, rfl, hok, 4, s, hs, hnot⟩

/-- One of its steps is not discreet. -/
theorem increment_is_indiscreet :
    ¬∀ n step, (HiddenIncrement.program.trace HiddenIncrement.source
        (tokenize HiddenIncrement.source) {}).steps[n]? = some step →
      ∃ s, replayFrom { heapBase := Settings.heapBase {} }
        ((HiddenIncrement.program.trace HiddenIncrement.source
          (tokenize HiddenIncrement.source) {}).steps.take n) = .ok s ∧ step.Discreet s := by
  intro hdiscreet
  obtain ⟨hok, s, hs, hnot⟩ := HiddenIncrement.exists_state
  have hcategory := HiddenIncrement.category_eq
  have hagree := (views_agree_iff_discreet (HiddenIncrement.analyze_eq _) hok
    (fun e he => by cases he) (fun h => by rw [hcategory] at h; cases h)).2 hdiscreet
  obtain ⟨t, ht, hviews⟩ := hagree 4
  obtain rfl := Except.ok.inj (hs.symm.trans ht)
  exact hnot hviews

end Stepwise
