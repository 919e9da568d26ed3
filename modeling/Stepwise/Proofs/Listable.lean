/-
Showing a step.

Asked for a step, the command line lists the step and the state after it: frames,
memory and heap in columns, then the console. Addresses are written in base sixteen
and sizes in base ten, and there is no such text of a number that came out of
floating arithmetic. A listing that comes to a line without a text ends there, and
the run ends with an internal error.

Cells and heap blocks of a trace are always filed under whole numbers. What is left
is the address that a frame shows and the size of a block: the step is shown exactly
if these are whole in the state after it. A frame shows another address only if the
run wrote to one, and a block has another size only if the sequence of an allocation
reserved it.
-/
import Mathlib.Data.List.Permutation
import Stepwise.CommandLine.Report
import Stepwise.Proofs.Tags
import Stepwise.Proofs.Whole
import Stepwise.Syntax.Equality

set_option autoImplicit false

namespace Stepwise

/-! ## Lines -/

namespace Listing

theorem addressText_of_whole {a : Number} (h : a.Whole) : ∃ text, addressText a = .ok text := by
  obtain ⟨n, rfl⟩ := h
  exact ⟨_, rfl⟩

theorem addressText_of_not_whole {a : Number} (h : ¬a.Whole) : addressText a = .error .address := by
  cases a with
  | int n => exact absurd ⟨n, rfl⟩ h
  | float x origin => rfl

/-- The line of a variable has a text exactly if the frame shows it at a whole number. -/
theorem variableLine_of_whole {c : Cell} (h : c.address.Whole) :
    ∃ text, variableLine c = .ok text := by
  obtain ⟨start, hstart⟩ := addressText_of_whole h
  unfold variableLine
  rw [hstart]
  exact ⟨_, rfl⟩

theorem variableLine_of_not_whole {c : Cell} (h : ¬c.address.Whole) :
    variableLine c = .error .address := by
  unfold variableLine
  rw [addressText_of_not_whole h]
  rfl

theorem cellLine_of_whole {heapBase : Int} {a : Number} {c : Cell} (h : a.Whole) :
    ∃ text, cellLine heapBase a c = .ok text := by
  obtain ⟨start, hstart⟩ := addressText_of_whole h
  unfold cellLine
  rw [hstart]
  exact ⟨_, rfl⟩

/-- The line of a block at a whole number has a text exactly if its size is whole. -/
theorem blockLine_of_whole {a : Number} {b : Block} (h : a.Whole) (hsize : b.size.Whole) :
    ∃ text, blockLine a b = .ok text := by
  obtain ⟨start, hstart⟩ := addressText_of_whole h
  obtain ⟨n, hn⟩ := hsize
  unfold blockLine
  rw [hstart, hn]
  exact ⟨_, rfl⟩

theorem blockLine_of_not_whole {a : Number} {b : Block} (h : a.Whole) (hsize : ¬b.size.Whole) :
    blockLine a b = .error .size := by
  obtain ⟨start, hstart⟩ := addressText_of_whole h
  unfold blockLine
  rw [hstart]
  cases hb : b.size with
  | int n => exact absurd ⟨n, hb⟩ hsize
  | float x origin => rfl

/-- Lines all have a text, or there is a first one that has none. -/
theorem lines_cases (lines : List Line) :
    (∃ texts : List String, lines = texts.map .ok) ∨
      ∃ (texts : List String) (e : Unprintable) (rest : List Line),
        lines = texts.map .ok ++ .error e :: rest := by
  induction lines with
  | nil => exact Or.inl ⟨[], rfl⟩
  | cons line lines ih =>
    cases line with
    | error e => exact Or.inr ⟨[], e, lines, rfl⟩
    | ok text =>
      rcases ih with ⟨texts, rfl⟩ | ⟨texts, e, rest, rfl⟩
      · exact Or.inl ⟨text :: texts, rfl⟩
      · exact Or.inr ⟨text :: texts, e, rest, rfl⟩

theorem printable_of_texts (texts : List String) : printable (texts.map .ok) = (texts, none) := by
  induction texts with
  | nil => rfl
  | cons text texts ih =>
    rw [List.map_cons, printable, ih]

/-- What comes in front of the first line without a text is listed. -/
theorem printable_of_cut (texts : List String) (e : Unprintable) (rest : List Line) :
    printable (texts.map .ok ++ .error e :: rest) = (texts, some e) := by
  induction texts with
  | nil => rfl
  | cons text texts ih =>
    rw [List.map_cons, List.cons_append, printable, ih]

/-! ## The lines of a state -/

theorem mem_byAddress {ν : Type} {t : Table Number ν} {e : Number × ν} :
    e ∈ t.byAddress ↔ e ∈ t :=
  (Sorting.sort_perm _ t).mem_iff

/-- A line without a text is that of a variable, of a cell or of a block. -/
theorem error_mem_stateLines {s : State} {e : Unprintable} :
    .error e ∈ stateLines s ↔
      (∃ f ∈ s.stack, ∃ v ∈ f.vars, variableLine v.2 = .error e) ∨
      (∃ c ∈ s.memory, cellLine s.heapBase c.1 c.2 = .error e) ∨
      ∃ b ∈ s.heap, blockLine b.1 b.2 = .error e := by
  simp only [stateLines, frameLines, Table.values, State.sortedCells, State.sortedBlocks,
    List.mem_append, List.mem_cons, List.mem_flatMap, List.mem_reverse, List.mem_map, mem_byAddress,
    List.map_map, Function.comp_apply, reduceCtorEq, List.not_mem_nil, or_false, false_or, or_assoc]

/-- Of a state whose cells and blocks are at whole numbers, the address of a variable can be without
a text, and the size of a block. -/
theorem error_mem_stateLines_iff {s : State} (hs : s.Numbered) {e : Unprintable} :
    .error e ∈ stateLines s ↔ (e = .address ∧ ¬s.ShownWhole) ∨ (e = .size ∧ ¬s.SizedWhole) := by
  rw [error_mem_stateLines]
  constructor
  · rintro (⟨f, hf, v, hv, hline⟩ | ⟨c, hc, hline⟩ | ⟨b, hb, hline⟩)
    · left
      by_cases hwhole : v.2.address.Whole
      · obtain ⟨text, htext⟩ := variableLine_of_whole hwhole
        rw [htext] at hline
        cases hline
      · rw [variableLine_of_not_whole hwhole] at hline
        exact ⟨(Except.error.inj hline).symm, fun hshown => hwhole (hshown f hf v hv)⟩
    · -- the line of a cell shows its key, and keys are whole
      obtain ⟨text, htext⟩ := @cellLine_of_whole s.heapBase c.1 c.2 (hs.cells c hc)
      rw [htext] at hline
      cases hline
    · right
      have haddress : b.1.Whole := hs.blocks b hb
      by_cases hwhole : b.2.size.Whole
      · obtain ⟨text, htext⟩ := blockLine_of_whole haddress hwhole
        rw [htext] at hline
        cases hline
      · rw [blockLine_of_not_whole haddress hwhole] at hline
        exact ⟨(Except.error.inj hline).symm, fun hsized => hwhole (hsized b hb)⟩
  · rintro (⟨rfl, hshown⟩ | ⟨rfl, hsized⟩)
    · simp only [State.ShownWhole, not_forall] at hshown
      obtain ⟨f, hf, v, hv, hwhole⟩ := hshown
      exact Or.inl ⟨f, hf, v, hv, variableLine_of_not_whole hwhole⟩
    · simp only [State.SizedWhole, not_forall] at hsized
      obtain ⟨b, hb, hwhole⟩ := hsized
      exact Or.inr (Or.inr ⟨b, hb, blockLine_of_not_whole (hs.blocks b hb) hwhole⟩)

/-- All lines of a state have a text exactly if what it shows is whole. -/
theorem stateLines_texts_iff {s : State} (hs : s.Numbered) :
    (∃ texts : List String, stateLines s = texts.map .ok) ↔ s.ShownWhole ∧ s.SizedWhole := by
  constructor
  · rintro ⟨texts, htexts⟩
    have hnone : ∀ e, .error e ∉ stateLines s := by
      intro e he
      rw [htexts] at he
      obtain ⟨_, _, heq⟩ := List.mem_map.1 he
      cases heq
    constructor
    · by_contra hshown
      exact hnone _ ((error_mem_stateLines_iff hs).2 (Or.inl ⟨rfl, hshown⟩))
    · by_contra hsized
      exact hnone _ ((error_mem_stateLines_iff hs).2 (Or.inr ⟨rfl, hsized⟩))
  · rintro ⟨hshown, hsized⟩
    -- a first line without a text would be that of something that is not whole
    rcases lines_cases (stateLines s) with htexts | ⟨texts, e, rest, hcut⟩
    · exact htexts
    · have he : .error e ∈ stateLines s := by
        rw [hcut]
        exact List.mem_append_right _ List.mem_cons_self
      rcases (error_mem_stateLines_iff hs).1 he with ⟨_, h⟩ | ⟨_, h⟩
      · exact absurd hshown h
      · exact absurd hsized h

end Listing

/-! ## Reports -/

/-- The first steps of a completed trace are those of its script, behind the start. -/
theorem replay_completed_take {heapBase : Int} {tokens : List Token} {category : Category}
    {m : Machine} {k : Nat} (hk : k ≤ m.steps.toList.length) :
    replay (Trace.completed tokens category m).steps (some k) heapBase
      = replayFrom { heapBase := heapBase } (m.steps.toList.take k) := by
  -- the start changes nothing, and the end comes after the `k` steps
  show replayFrom _ ((Trace.startStep :: (m.steps.toList ++ [Trace.endStep tokens])).take
    ((k : Int) + 1).toNat) = _
  rw [show ((k : Int) + 1).toNat = k + 1 by omega, List.take_succ_cons, replayFrom,
    State.apply_of_no_change _ rfl, List.take_append_of_le_length hk]

/-- A session traces what can be parsed. -/
theorem Session.run_of_parse {s : Session} {time source : String} {p : Program}
    (hparse : parse (tokenize source) = .ok p) :
    ∃ s' : Session, s.run time source = (s', none) ∧ s'.settings = s.settings ∧
      s'.trace = some (p.trace source (tokenize source) s.settings) := by
  have hscan : parse (Token.scan source).tokens = .ok p := hparse
  unfold Session.run
  dsimp only
  rw [hscan]
  obtain ⟨htrace, hsettings⟩ := Session.withTrace_trace
    { settings := s.settings
      source := source
      tokens := (Token.scan source).tokens
      log := (Token.scan source).skipped.map (Session.skippedEntry time) }
    time p (p.trace source (Token.scan source).tokens s.settings)
  exact ⟨_, rfl, hsettings, htrace⟩

namespace CommandLine

theorem stepReport_of_texts {index : Nat} {step : Step} {state : State} {lines : List String}
    (h : Listing.stateLines state = lines.map .ok) :
    stepReport index step state =
      { stdout := printed (Listing.stepLine index step :: lines) ++ Listing.closed state.console
        stderr := ""
        exit := 0 } := by
  unfold stepReport
  rw [h, Listing.printable_of_texts]

theorem stepReport_of_cut {index : Nat} {step : Step} {state : State} {lines : List String}
    {e : Listing.Unprintable} {rest : List Listing.Line}
    (h : Listing.stateLines state = lines.map .ok ++ .error e :: rest) :
    stepReport index step state =
      { stdout := printed (Listing.stepLine index step :: lines)
        stderr := "Internal tracer error: " ++ e.message ++ "\n"
        exit := 2 } := by
  unfold stepReport
  rw [h, Listing.printable_of_cut]
  rfl

/-- A step that is there is shown with the state that the steps up to it make. -/
theorem oneStep_of_lt {s : Session} {index : Int} (hlow : 0 ≤ index) (hhigh : index < s.steps.length)
    {step : Step} (hstep : s.steps[index.toNat]? = some step) {state : State}
    (hstate : replay s.steps (some index) s.settings.heapBase = .ok state) :
    oneStep s index = stepReport index.toNat step state := by
  have hmoved : s.goTo index = { s with position := index.toNat } := if_pos ⟨hlow, hhigh⟩
  have hposition : ((index.toNat : Nat) : Int) = index := Int.toNat_of_nonneg hlow
  have hat : ({ s with position := index.toNat } : Session).stateAt none = .ok state := by
    show replay s.steps (some ((index.toNat : Nat) : Int)) s.settings.heapBase = _
    rw [hposition]
    exact hstate
  have hstep' : ({ s with position := index.toNat } : Session).step? = some step := hstep
  unfold oneStep
  rw [if_neg (by omega), hmoved]
  simp only [hstep', hat]

/-- What a state shows is listed line by line, if all of it is whole. -/
theorem stepReport_of_whole {state : State} (hs : state.Numbered)
    (hwhole : state.ShownWhole ∧ state.SizedWhole) (index : Nat) (step : Step) :
    ∃ lines : List String, Listing.stateLines state = lines.map .ok ∧
      stepReport index step state =
        { stdout := printed (Listing.stepLine index step :: lines) ++ Listing.closed state.console
          stderr := ""
          exit := 0 } := by
  obtain ⟨lines, hlines⟩ := (Listing.stateLines_texts_iff hs).2 hwhole
  exact ⟨lines, hlines, stepReport_of_texts hlines⟩

/-- Otherwise the listing ends at something that is not. -/
theorem stepReport_of_not_whole {state : State} (hs : state.Numbered)
    (hnot : ¬(state.ShownWhole ∧ state.SizedWhole)) (index : Nat) (step : Step) :
    ∃ (lines : List String) (e : Listing.Unprintable) (rest : List Listing.Line),
      Listing.stateLines state = lines.map .ok ++ .error e :: rest ∧
      (e = .address ∧ ¬state.ShownWhole ∨ e = .size ∧ ¬state.SizedWhole) ∧
      stepReport index step state =
        { stdout := printed (Listing.stepLine index step :: lines)
          stderr := "Internal tracer error: " ++ e.message ++ "\n"
          exit := 2 } := by
  rcases Listing.lines_cases (Listing.stateLines state) with htexts | ⟨lines, e, rest, hcut⟩
  · exact absurd ((Listing.stateLines_texts_iff hs).1 htexts) hnot
  · have he : .error e ∈ Listing.stateLines state := by
      rw [hcut]
      exact List.mem_append_right _ List.mem_cons_self
    exact ⟨lines, e, rest, hcut, (Listing.error_mem_stateLines_iff hs).1 he,
      stepReport_of_cut hcut⟩

/-- What a run is asked for: a step of a source that it can read and parse, under settings that can
be used, and nothing else. -/
structure AsksFor (w : Workplace) (arguments : List String) (settings : Settings) (source : String)
    (p : Program) (index : Int) : Prop where
  asked : ∃ o w' text, read arguments = .ok o ∧ w.withLog o = .ok w' ∧
    w'.source o.input = .ok text ∧ String.ofList (Text.unifyBreaks text.toList) = source ∧
    o.settings = .ok settings ∧ o.step = some (.number index) ∧
    o.tokens = false ∧ o.ast = false ∧ o.json = false
  parsed : parse (tokenize source) = .ok p
  low : 0 ≤ index
  high : index < (p.trace source (tokenize source) settings).steps.length

/-- Such a run comes to the report of the step and the state after it. -/
theorem AsksFor.report {w : Workplace} {arguments : List String} {settings : Settings}
    {source : String} {p : Program} {index : Int} (h : AsksFor w arguments settings source p index)
    (time : String) :
    ∃ step state, (p.trace source (tokenize source) settings).steps[index.toNat]? = some step ∧
      replay (p.trace source (tokenize source) settings).steps (some index) settings.heapBase
        = .ok state ∧
      state.Numbered ∧ runAt w time arguments = .finished (stepReport index.toNat step state) := by
  obtain ⟨⟨o, w', text, hread, hlog, hcontents, hsource, hsettings, hindex, htokens, hast, hjson⟩,
    hparsed, hlow, hhigh⟩ := h
  obtain ⟨s, hrun, hsame, htrace⟩ :=
    @Session.run_of_parse { settings := settings } time source p hparsed
  have hsteps : s.steps = (p.trace source (tokenize source) settings).steps := by
    unfold Session.steps
    rw [htrace]
  have hposition : index.toNat < (p.trace source (tokenize source) settings).steps.length := by
    omega
  obtain ⟨state, hstate⟩ := replayFrom_take (replay_trace p source (tokenize source) settings)
    (index + 1).toNat
  refine ⟨_, state, List.getElem?_eq_getElem hposition, hstate, Program.trace_numbered hstate, ?_⟩
  -- the session has the trace of the source under the same settings
  have hshown : oneStep s index = stepReport index.toNat _ state :=
    oneStep_of_lt hlow (by rw [hsteps]; exact hhigh)
      (by rw [hsteps]; exact List.getElem?_eq_getElem hposition)
      (by rw [hsteps, hsame]; exact hstate)
  -- nothing else is asked for, so all other ways to end are ruled out
  unfold runAt outcome sourceReport
  simp only [hread, hlog, hcontents, hsettings, hsource, htokens, hrun, Bool.false_eq_true, if_false,
    sessionReport, hast, hjson, hindex, stepAsked, hshown]

end CommandLine

/-! ## The main result -/

open CommandLine

/-- **A step is shown exactly if what the state after it shows is whole.** Whenever a run is asked
for a step that the trace of its source has, the state after the step is there, with all cells and
heap blocks at whole numbers. If its frames show their variables at whole numbers and its blocks have
whole sizes, all of it is listed and the run ends with zero; otherwise the listing ends in front of
the first line that cannot be written, with an internal error about an address or about a size. A
variable is shown at another address only if the execution wrote to one, and a block has another size
only if the sequence of an allocation reserved it.

Two things are assumed of the host: it writes a whole number however many digits it has, where some
refuse to write more than 4300 of them, and it can encode every character that is shown. -/
theorem asked_step_is_shown {w : Workplace} {arguments : List String} {settings : Settings}
    {source : String} {p : Program} {index : Int} (h : AsksFor w arguments settings source p index)
    (time : String) :
    ∃ step state,
      (p.trace source (tokenize source) settings).steps[index.toNat]? = some step ∧
      replay (p.trace source (tokenize source) settings).steps (some index) settings.heapBase
        = .ok state ∧
      state.Numbered ∧
      (state.ShownWhole ∧ state.SizedWhole →
        ∃ lines : List String, Listing.stateLines state = lines.map .ok ∧
          runAt w time arguments = .finished
            { stdout := printed (Listing.stepLine index.toNat step :: lines)
                ++ Listing.closed state.console
              stderr := ""
              exit := 0 }) ∧
      (¬(state.ShownWhole ∧ state.SizedWhole) →
        ∃ (lines : List String) (e : Listing.Unprintable) (rest : List Listing.Line),
          Listing.stateLines state = lines.map .ok ++ .error e :: rest ∧
          (e = .address ∧ ¬state.ShownWhole ∨ e = .size ∧ ¬state.SizedWhole) ∧
          runAt w time arguments = .finished
            { stdout := printed (Listing.stepLine index.toNat step :: lines)
              stderr := "Internal tracer error: " ++ e.message ++ "\n"
              exit := 2 }) ∧
      (¬state.ShownWhole →
        ∃ analysis m, analyze p source (tokenize source) = .ok analysis ∧
          analysis.category.play { analysis, settings } (Machine.start settings) = .ok ((), m) ∧
          ∃ a value, .wrote a value ∈ m.journal ∧ ¬a.Whole) ∧
      (¬state.SizedWhole →
        ∃ analysis main, ∃ stage : Allocation.Stage,
          analyze p source (tokenize source) = .ok analysis ∧
          analysis.category = .dynamicAllocation ∧ analysis.main? = some main ∧
          stage.SetFor { analysis, settings } main ∧ ¬stage.size.Whole) := by
  obtain ⟨step, state, hstep, hstate, hnumbered, hrun⟩ := h.report time
  -- what is left to show is the report, with whole addresses and sizes and without
  refine ⟨step, state, hstep, hstate, hnumbered, ?_, ?_, Program.wrote_of_not_shownWhole hstate,
    Program.reserved_of_not_sizedWhole hstate⟩
  · intro hwhole
    obtain ⟨lines, hlines, hreport⟩ := stepReport_of_whole hnumbered hwhole index.toNat step
    exact ⟨lines, hlines, by rw [hrun, hreport]⟩
  · intro hnot
    obtain ⟨lines, e, rest, hlines, he, hreport⟩ :=
      stepReport_of_not_whole hnumbered hnot index.toNat step
    exact ⟨lines, e, rest, hlines, he, by rw [hrun, hreport]⟩

/-! ## A pointer with a fraction -/

namespace FloatingPointer

/-- A program that writes through a pointer to which a floating zero was added. -/
def source : String :=
  "int main()\x7bint x=1;int*p=&x;*(p+0.0)=2;\x7d\n"

/-- Its tokens. -/
def tokens : List Token :=
  [⟨.keyword, "int", 1, 1⟩, ⟨.identifier, "main", 1, 5⟩, ⟨.punctuation, "(", 1, 9⟩,
    ⟨.punctuation, ")", 1, 10⟩, ⟨.punctuation, "\x7b", 1, 11⟩, ⟨.keyword, "int", 1, 12⟩,
    ⟨.identifier, "x", 1, 16⟩, ⟨.operator, "=", 1, 17⟩, ⟨.literal, "1", 1, 18⟩,
    ⟨.punctuation, ";", 1, 19⟩, ⟨.keyword, "int", 1, 20⟩, ⟨.operator, "*", 1, 23⟩,
    ⟨.identifier, "p", 1, 24⟩, ⟨.operator, "=", 1, 25⟩, ⟨.operator, "&", 1, 26⟩,
    ⟨.identifier, "x", 1, 27⟩, ⟨.punctuation, ";", 1, 28⟩, ⟨.operator, "*", 1, 29⟩,
    ⟨.punctuation, "(", 1, 30⟩, ⟨.identifier, "p", 1, 31⟩, ⟨.operator, "+", 1, 32⟩,
    ⟨.literal, "0.0", 1, 33⟩, ⟨.punctuation, ")", 1, 36⟩, ⟨.operator, "=", 1, 37⟩,
    ⟨.literal, "2", 1, 38⟩, ⟨.punctuation, ";", 1, 39⟩, ⟨.punctuation, "\x7d", 1, 40⟩]

/-- Its main function. -/
def main : Function where
  line := 1
  name := "main"
  returnType := .int
  parameters := []
  bodyLine := 1
  body :=
    [.decl ⟨1, .int, [⟨1, "x", 0, .none, some (.expr (.literal 1 "1"))⟩]⟩,
      .decl ⟨1, .int, [⟨1, "p", 1, .none, some (.expr (.unary 1 .addressOf (.name 1 "x")))⟩]⟩,
      .expr 1 (.assign 1 none
        (.unary 1 .deref (.binary 1 (.arith .add) (.name 1 "p") (.literal 1 "0.0")))
        (.literal 1 "2"))]

/-- The program. -/
def program : Program :=
  ⟨[.function main]⟩

/-- What is known about it. -/
def analysis : Analysis :=
  { program, source, tokens, lines := Text.lines source, macros := [], layouts := [] }

theorem tokenize_source : tokenize source = tokens :=
  Token.tokenize_of_chars rfl (by decide +kernel) (by decide)

theorem parse_tokens : parse tokens = .ok program := by
  decide +kernel

theorem analyze_program : analyze program source tokens = .ok analysis :=
  rfl

theorem category_analysis : analysis.category = .basic := by
  have hsource : analysis.source = String.ofList _ := rfl
  rw [Analysis.category, Analysis.lowered_eq hsource]
  decide

/-- What its script comes to. -/
def outcome : Except Fault (Unit × Machine) :=
  runMain ⟨analysis, {}⟩ noCommentary (Machine.start {})

/-- The script shows five steps, all is whole after the third, and not after the fourth. -/
def partsWays (m : Machine) : Bool :=
  match replayFrom {} (m.steps.toList.take 3), replayFrom {} (m.steps.toList.take 4) with
  | .ok s, .ok t =>
    m.steps.size == 5 && decide (s.ShownWhole ∧ s.SizedWhole ∧ ¬t.ShownWhole ∧ t.SizedWhole)
  | _, _ => false

theorem outcome_partsWays :
    (match outcome with
      | .ok (_, m) => partsWays m
      | .error _ => false) = true := by
  have hcalls : Settings.calls {} = 31 + 1 := rfl
  have hmain : analysis.main? = some main := rfl
  unfold outcome runMain
  rw [hmain]
  dsimp only
  rw [hcalls, invoke]
  -- statements are unfolded by their equations; the rest is computed
  simp only [main, Walker.runBody, Walker.items, Walker.run]
  decide +kernel

/-- The script comes to its end, with states after three and four of its steps. -/
theorem exists_run : ∃ m s t, outcome = .ok ((), m) ∧ m.steps.toList.length = 5 ∧
    replayFrom {} (m.steps.toList.take 3) = .ok s ∧
    replayFrom {} (m.steps.toList.take 4) = .ok t ∧
    (s.ShownWhole ∧ s.SizedWhole) ∧ ¬t.ShownWhole ∧ t.SizedWhole := by
  have h := outcome_partsWays
  cases houtcome : outcome with
  | error fault =>
    rw [houtcome] at h
    cases h
  | ok result =>
    obtain ⟨⟨⟩, m⟩ := result
    rw [houtcome] at h
    dsimp only [partsWays] at h
    split at h
    · next s t hs ht =>
      rw [Bool.and_eq_true, beq_iff_eq, decide_eq_true_eq] at h
      obtain ⟨hlength, hshown, hsized, hnot, hsized'⟩ := h
      exact ⟨m, s, t, rfl, hlength, hs, ht, ⟨hshown, hsized⟩, hnot, hsized'⟩
    · cases h

/-- So its trace has the same states, one step later. -/
theorem exists_states : (program.trace source (tokenize source) {}).steps.length = 7 ∧
    (∃ s, replay (program.trace source (tokenize source) {}).steps (some 3) 0x8000 = .ok s ∧
      s.ShownWhole ∧ s.SizedWhole) ∧
    ∃ t, replay (program.trace source (tokenize source) {}).steps (some 4) 0x8000 = .ok t ∧
      ¬t.ShownWhole ∧ t.SizedWhole := by
  obtain ⟨m, s, t, hrun, hlength, hs, ht, hwhole, hnot⟩ := exists_run
  have hplay : analysis.category.play ⟨analysis, {}⟩ (Machine.start {}) = .ok ((), m) := by
    rw [category_analysis]
    exact hrun
  rw [tokenize_source, trace_of_play analyze_program hplay]
  refine ⟨?_, ⟨s, ?_, hwhole⟩, t, ?_, hnot⟩
  · simp [Trace.completed, hlength]
  · exact (replay_completed_take (k := 3) (by omega)).trans hs
  · exact (replay_completed_take (k := 4) (by omega)).trans ht

/-- A place with the program on standard input. -/
def place : Workplace :=
  { home := [], directories := [], files := [], stdin := source }

/-- A run there that asks for one of the seven steps of its trace. -/
theorem asksFor {argument : String} {index : Int}
    (hread : CommandLine.read ["-", "--step", argument]
      = .ok { input := "-", step := some (.number index) })
    (hlow : 0 ≤ index) (hhigh : index < 7) :
    AsksFor place ["-", "--step", argument] {} source program index where
  asked := ⟨_, place, source, hread, rfl, rfl, by decide, rfl, rfl, rfl, rfl, rfl⟩
  parsed := by
    rw [tokenize_source]
    exact parse_tokens
  low := hlow
  high := by
    rw [exists_states.1]
    exact hhigh

end FloatingPointer

/-- The declaration of the pointer is shown. -/
theorem declared_pointer_is_shown :
    AsksFor FloatingPointer.place ["-", "--step", "3"] {} FloatingPointer.source
      FloatingPointer.program 3 ∧
    ∃ report, runAt FloatingPointer.place "" ["-", "--step", "3"] = .finished report ∧
      report.exit = 0 ∧ report.stderr = "" := by
  have hasks := @FloatingPointer.asksFor "3" 3 (by decide) (by decide) (by decide)
  obtain ⟨_, state, _, hstate, _, hshown, _⟩ := asked_step_is_shown hasks ""
  obtain ⟨_, ⟨s, hs, hwhole⟩, _⟩ := FloatingPointer.exists_states
  obtain rfl := Except.ok.inj (hs.symm.trans hstate)
  obtain ⟨lines, _, hrun⟩ := hshown hwhole
  exact ⟨hasks, _, hrun, rfl, rfl⟩

/-- The assignment through it is not: there is such a step, and the run ends with an internal
error. -/
theorem write_through_fraction_is_not_shown :
    AsksFor FloatingPointer.place ["-", "--step", "4"] {} FloatingPointer.source
      FloatingPointer.program 4 ∧
    ∃ stdout, runAt FloatingPointer.place "" ["-", "--step", "4"] = .finished
      { stdout := stdout
        stderr := "Internal tracer error: Unknown format code 'x' for object of type 'float'\n"
        exit := 2 } := by
  have hasks := @FloatingPointer.asksFor "4" 4 (by decide) (by decide) (by decide)
  obtain ⟨step, state, _, hstate, hnumbered, hrun⟩ := hasks.report ""
  obtain ⟨_, _, t, ht, hnot, hsized⟩ := FloatingPointer.exists_states
  obtain rfl := Except.ok.inj (ht.symm.trans hstate)
  obtain ⟨lines, e, rest, _, he, hreport⟩ :=
    stepReport_of_not_whole hnumbered (fun h => hnot h.1) (4 : Int).toNat step
  rcases he with ⟨rfl, _⟩ | ⟨_, hsize⟩
  · exact ⟨hasks, _, by rw [hrun, hreport]; rfl⟩
  · exact absurd hsized hsize

end Stepwise
