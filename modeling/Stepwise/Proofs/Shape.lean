/-
The shape of a trace.

A trace has a first and a last step of kinds that no other step has. What stands between
them is what the script has shown, or a single step with a reason. The bound on the lines
that a script shows is applied twice: with the number of lines of the text, which no line
exceeds once it is moved to the nearest one there is, and with the line of the last token.
-/
import Stepwise.Proofs.Limits
import Stepwise.Proofs.Showing
import Stepwise.Syntax.Equality

set_option autoImplicit false

namespace Stepwise

/-- The program can be analyzed, and its script comes to its end. -/
def Program.Completes (p : Program) (source : String) (settings : Settings) : Prop :=
  ∃ analysis m, analyze p source (tokenize source) = .ok analysis ∧
    analysis.category.play ⟨analysis, settings⟩ (Machine.start settings) = .ok ((), m)

/-- The line is the highest one of the tokens, or one if there are none. -/
def IsLastLine (tokens : List Token) (line : Int) : Prop :=
  (tokens = [] ∧ line = 1) ∨ ((∃ t ∈ tokens, t.line = line) ∧ ∀ t ∈ tokens, t.line ≤ line)

theorem isLastLine_lastLine (tokens : List Token) : IsLastLine tokens (lastLine tokens) := by
  by_cases h : tokens = []
  · rw [h]
    exact Or.inl ⟨rfl, rfl⟩
  · obtain ⟨t, ht, hline⟩ := lastLine_mem h
    refine Or.inr ⟨⟨t, ht, by rw [hline]⟩, fun u hu => ?_⟩
    have hu := le_lastLine hu
    omega

section Analyses

variable {p : Program} {source : String} {settings : Settings} {analysis : Analysis}

theorem clamp_le_length (a : Analysis) (hlines : a.lines ≠ []) (line : Int) :
    a.clamp line ≤ a.lines.length := by
  have hpos := List.length_pos_iff.2 hlines
  unfold Analysis.clamp
  omega

theorem clamp_le {a : Analysis} {line top : Int} (htop : 1 ≤ top) (hline : line ≤ top) :
    a.clamp line ≤ top := by
  unfold Analysis.clamp
  omega

/-- A bound on the lines of the tokens is a bound on the lines of an analyzed program. -/
theorem bounded_of_analyze (hp : parse (tokenize source) = .ok p)
    (ha : analyze p source (tokenize source) = .ok analysis) {top : Int}
    (htop : lastLine (tokenize source) ≤ top) : Setup.Bounded ⟨analysis, settings⟩ top := by
  have hfirst : 1 ≤ top := by
    have hlast := (lastLine_bounds source).1
    omega
  obtain ⟨layouts, _, ha⟩ := bind_eq_ok.1 ha
  obtain rfl := Except.ok.inj ha
  constructor
  · refine Program.lined_of_parse hp fun t ht => clamp_le hfirst ?_
    have hline := le_lastLine ht
    omega
  · intro name m body hm hbody
    exact Program.macros_lined hm hbody (clamp_le hfirst hfirst)
  · exact clamp_le hfirst hfirst
  · exact clamp_le hfirst htop

/-- What the script of an analyzed program has shown is inside the text, and, dynamic allocation
apart, no later than the last token. -/
theorem play_steps (hp : parse (tokenize source) = .ok p)
    (ha : analyze p source (tokenize source) = .ok analysis) {u : Unit} {m : Machine}
    (h : analysis.category.play ⟨analysis, settings⟩ (Machine.start settings) = .ok (u, m)) :
    m.Inner (Text.lines source).length ∧
      (analysis.category ≠ .dynamicAllocation → m.Inner (lastLine (tokenize source))) := by
  have hstart : ∀ top, (Machine.start settings).Inner top := fun top s hs =>
    absurd hs (Array.not_mem_empty s)
  have hlines : analysis.lines = Text.lines source := by
    obtain ⟨layouts, _, ha⟩ := bind_eq_ok.1 ha
    obtain rfl := Except.ok.inj ha
    rfl
  constructor
  · have hlast := (lastLine_bounds source).2
    refine play_shows (bounded_of_analyze hp ha (by omega)) analysis.category (fun _ line => ?_)
      _ _ _ h (hstart _)
    have hne : analysis.lines ≠ [] := by
      rw [hlines]
      exact List.cons_ne_nil _ _
    rw [← hlines]
    exact clamp_le_length analysis hne line
  · intro hcategory
    exact play_shows (bounded_of_analyze hp ha (Int.le_refl _)) analysis.category
      (fun hdynamic => absurd hdynamic hcategory) _ _ _ h (hstart _)

end Analyses

/-- What stands between the first and the last step of a trace, and the lines of all of them. -/
structure Trace.Around (source : String) (body : List Step) (t : Trace) : Prop where
  steps : t.steps = Trace.startStep :: (body ++ [Trace.endStep (tokenize source)])
  kinds : ∀ s ∈ body, s.kind.isInner = true
  lines : ∀ s ∈ body, 1 ≤ s.line ∧ s.line ≤ (Text.lines source).length
  last : t.category ≠ some .dynamicAllocation → ∀ s ∈ body, s.line ≤ lastLine (tokenize source)

namespace Trace.Around

variable {source : String} {body : List Step} {t : Trace}

theorem apart (h : t.Around source body) :
    ∀ s ∈ body, s.kind ≠ .initialization ∧ s.kind ≠ .finalization := by
  intro s hs
  have hkind := h.kinds s hs
  constructor
  · intro heq
    rw [heq] at hkind
    cases hkind
  · intro heq
    rw [heq] at hkind
    cases hkind

theorem inText (h : t.Around source body) :
    ∀ s ∈ t.steps, 1 ≤ s.line ∧ s.line ≤ (Text.lines source).length := by
  have hlast := lastLine_bounds source
  rw [h.steps, List.forall_mem_cons, List.forall_mem_append, List.forall_mem_singleton]
  refine ⟨?_, h.lines, ?_⟩
  · show (1 : Int) ≤ 1 ∧ (1 : Int) ≤ _
    omega
  · show (1 : Int) ≤ lastLine (tokenize source) ∧ (lastLine (tokenize source) : Int) ≤ _
    omega

theorem upToLast (h : t.Around source body) (hcategory : t.category ≠ some .dynamicAllocation) :
    ∀ s ∈ t.steps, s.line ≤ (endStep (tokenize source)).line := by
  have hlast := lastLine_bounds source
  rw [h.steps, List.forall_mem_cons, List.forall_mem_append, List.forall_mem_singleton]
  refine ⟨?_, h.last hcategory, Int.le_refl _⟩
  show (1 : Int) ≤ lastLine (tokenize source)
  omega

end Trace.Around

theorem around_failed (source : String) (settings : Settings) (category : Option Category)
    (fault : Fault) :
    (Trace.failed settings (tokenize source) category fault).Around source
      [Trace.faultStep fault] := by
  have hlast := lastLine_bounds source
  refine ⟨rfl, ?_, ?_, fun _ => ?_⟩
  · exact List.forall_mem_singleton.2 rfl
  · refine List.forall_mem_singleton.2 ?_
    show (1 : Int) ≤ 1 ∧ (1 : Int) ≤ _
    omega
  · refine List.forall_mem_singleton.2 ?_
    show (1 : Int) ≤ _
    omega

theorem around_completed {p : Program} {source : String} {settings : Settings}
    {analysis : Analysis} (hp : parse (tokenize source) = .ok p)
    (ha : analyze p source (tokenize source) = .ok analysis) {u : Unit} {m : Machine}
    (h : analysis.category.play ⟨analysis, settings⟩ (Machine.start settings) = .ok (u, m)) :
    (Trace.completed (tokenize source) analysis.category m).Around source m.steps.toList := by
  obtain ⟨hinner, hlast⟩ := play_steps hp ha h
  refine ⟨rfl, fun s hs => ?_, fun s hs => ?_, fun hcategory s hs => ?_⟩
  · exact (hinner s (Array.mem_toList_iff.1 hs)).kind
  · have hstep := hinner s (Array.mem_toList_iff.1 hs)
    exact ⟨hstep.first, hstep.last⟩
  · refine (hlast (fun hdynamic => hcategory ?_) s (Array.mem_toList_iff.1 hs)).last
    exact congrArg some hdynamic

/-- A program that does not complete has a trace without steps of a script. -/
theorem Program.trace_of_not_completes {p : Program} {source : String} {settings : Settings}
    (h : ¬p.Completes source settings) :
    ∃ category fault, p.trace source (tokenize source) settings
      = Trace.failed settings (tokenize source) category fault := by
  unfold Program.trace
  cases ha : analyze p source (tokenize source) with
  | error fault => exact ⟨none, fault, rfl⟩
  | ok analysis =>
    dsimp only
    cases hplay : analysis.category.play ⟨analysis, settings⟩ (Machine.start settings) with
    | error fault => exact ⟨some analysis.category, fault, rfl⟩
    | ok result => exact absurd ⟨analysis, result.2, ha, hplay⟩ h

/-- **The shape of every trace.** A program that can be read has a trace. It begins with its only
initialization, on line one, and ends with its only finalization, on the highest line of a token;
every step shows a line of the text, and, dynamic allocation apart, none after the last one. If the
program cannot be analyzed or its script stops, a single error stands in between, and the state is
the empty one. -/
theorem every_trace_is_framed {source : String} {p : Program}
    (hp : parse (tokenize source) = .ok p) (settings : Settings) :
    ∃ t first body last, trace source settings = .ok t ∧ t.steps = first :: (body ++ [last]) ∧
      (first.kind = .initialization ∧ first.line = 1) ∧
      (last.kind = .finalization ∧ IsLastLine (tokenize source) last.line) ∧
      (∀ s ∈ body, s.kind ≠ .initialization ∧ s.kind ≠ .finalization) ∧
      (∀ s ∈ t.steps, 1 ≤ s.line ∧ s.line ≤ (Text.lines source).length) ∧
      (t.category ≠ some .dynamicAllocation → ∀ s ∈ t.steps, s.line ≤ last.line) ∧
      (p.Completes source settings → t.ok = true) ∧
      (¬p.Completes source settings → t.ok = false ∧ t.state = { heapBase := settings.heapBase } ∧
        ∃ error, body = [error] ∧ error.kind = .error) := by
  have hend := isLastLine_lastLine (tokenize source)
  have htrace : trace source settings = .ok (p.trace source (tokenize source) settings) :=
    trace_eq_ok.2 ⟨p, hp, rfl⟩
  refine ⟨p.trace source (tokenize source) settings, Trace.startStep, ?_⟩
  rw [htrace]
  by_cases hcompletes : p.Completes source settings
  · obtain ⟨analysis, m, ha, hplay⟩ := id hcompletes
    rw [trace_of_play ha hplay]
    have haround := around_completed hp ha hplay
    exact ⟨m.steps.toList, Trace.endStep (tokenize source), rfl, haround.steps, ⟨rfl, rfl⟩,
      ⟨rfl, hend⟩, haround.apart, haround.inText, haround.upToLast, fun _ => rfl,
      fun hnot => absurd hcompletes hnot⟩
  · obtain ⟨category, fault, hfailed⟩ := Program.trace_of_not_completes hcompletes
    rw [hfailed]
    have haround := around_failed source settings category fault
    exact ⟨[Trace.faultStep fault], Trace.endStep (tokenize source), rfl, haround.steps,
      ⟨rfl, rfl⟩, ⟨rfl, hend⟩, haround.apart, haround.inText, haround.upToLast,
      fun h => absurd h hcompletes, fun _ => ⟨rfl, rfl, _, rfl, rfl⟩⟩

namespace Bare

/-- A main function that does nothing, with two empty lines behind it. -/
def source : String :=
  "int main() \x7b\n\x7d\n\n"

/-- Its tokens. -/
def tokens : List Token :=
  [⟨.keyword, "int", 1, 1⟩, ⟨.identifier, "main", 1, 5⟩, ⟨.punctuation, "(", 1, 9⟩,
    ⟨.punctuation, ")", 1, 10⟩, ⟨.punctuation, "\x7b", 1, 12⟩, ⟨.punctuation, "\x7d", 2, 1⟩]

/-- Its tree. -/
def program : Program :=
  ⟨[.function
    { line := 1, name := "main", returnType := .int, parameters := [], bodyLine := 1, body := [] }]⟩

theorem parse_source : parse (tokenize source) = .ok program := by
  have htokens : tokenize source = tokens :=
    Token.tokenize_of_chars rfl (by decide +kernel) (by decide)
  rw [htokens]
  decide +kernel

end Bare

/-- The text has four lines, the empty ones included. -/
theorem bare_main_is_framed :
    parse (tokenize Bare.source) = .ok Bare.program ∧
    ∃ t, trace Bare.source {} = .ok t ∧ ∀ s ∈ t.steps, 1 ≤ s.line ∧ s.line ≤ 4 := by
  obtain ⟨t, _, _, _, ht, _, _, _, _, hlines, _⟩ := every_trace_is_framed Bare.parse_source {}
  refine ⟨Bare.parse_source, t, ht, ?_⟩
  rwa [show (Text.lines Bare.source).length = 4 by decide +kernel] at hlines

end Stepwise
