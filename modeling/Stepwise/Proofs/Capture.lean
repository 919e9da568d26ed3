/-
Parameters that capture names.

If nothing that the body of a macro leads to is called like its parameters, then the
parameters may be called something else, and the trace is the same apart from its wording:
its steps are of the same kinds, on the same lines and with the same changes, the program
writes the same, and it fails for the same reason. Two texts of a program that differ in
that are held against each other here, from their text to their trace. What does not depend
on execution has to be gone through as well: constant expressions may use the macro, in the
layouts of structs and in the plan of an allocation.

If a function that is called from the body has a parameter of the same name, then the
trace does depend on what the macro calls its own: the function reads the argument of the
macro in the place of its own argument.
-/
import Stepwise.Proofs.Agreement
import Stepwise.Proofs.Hygiene
import Stepwise.Proofs.Limits

set_option autoImplicit false

namespace Stepwise

/-! ## Faults that the planning tells apart -/

theorem Fault.message?_isSome_eq {f g : Fault} (h : f.unworded = g.unworded) :
    f.message?.isSome = g.message?.isSome := by
  have hsame : ∀ f : Fault, f.unworded.message?.isSome = f.message?.isSome := by
    intro f
    cases f <;> rfl
  rw [← hsame f, ← hsame g, h]

theorem Allocation.countUnknown_eq {f g : Fault} (h : f.unworded = g.unworded) :
    countUnknown f = countUnknown g := by
  have hsame : ∀ f : Fault, countUnknown f.unworded = countUnknown f := by
    intro f
    cases f <;> rfl
  rw [← hsame f, ← hsame g, h]

theorem SameResult.cases {α : Type} {r s : Except Fault α} (h : SameResult r s) :
    (∃ a, r = .ok a ∧ s = .ok a) ∨
      ∃ f g, r = .error f ∧ s = .error g ∧ f.unworded = g.unworded := by
  obtain h | h := h
  · subst h
    exact .inl ⟨_, rfl, rfl⟩
  · exact .inr ⟨_, _, rfl, rfl, h⟩

/-! ## Constant expressions -/

section Constants

variable {p q : Program} {macros : Macros} {m m' : Macro} {parameters : List String}
  {ρ : String → String}

theorem constantHost_renamed (macros macros' : Macros) (sizes : StructSizes)
    (meets : Scope → Scope → String → Prop) :
    (constantHost macros sizes).Renamed (.resembling Eq) meets (constantHost macros' sizes) where
  members _ := (Likeness.resembling Eq).pure _
  sizes := rfl
  find _ := by
    rintro s _ rfl
    exact .ok ⟨rfl, rfl⟩
  read _ := (Likeness.resembling Eq).fail _ (by simp)
  write _ _ := (Likeness.resembling Eq).fail _ (by simp)
  call _ _ _ _ _ _ := (Likeness.resembling Eq).fail _ (by simp)
  noteMacro _ _ _ _ := (Likeness.resembling Eq).pure _

variable (hfound : macros.find? m.name = some m) (hm : m.Renames parameters ρ m')
  (hsafe : p.Hygienic macros m.name parameters ρ)

include hfound hm hsafe

theorem evalConstant_renamed (sizes : StructSizes) (bound : Scope) (e : Expr) (spare : Nat) :
    SameResult (evalConstant macros sizes bound e spare)
      (evalConstant (macros.put m.name m') sizes bound e spare) := by
  -- nothing is bound yet that could be called differently: the scopes are the same
  have hsame := evaluate_renamed (h := constantHost macros sizes) (Likeness.resembling_rewords Eq)
    (constantHost_renamed macros (macros.put m.name m') sizes _) rfl hfound hm hsafe spare
    (s := bound.apart) (e := e) (fun n _ => ⟨rfl, .refl _ n⟩) () () rfl
  unfold evalConstant
  generalize evaluate (constantHost macros sizes) spare bound.apart e () = r,
    evaluate (constantHost (macros.put m.name m') sizes) spare bound.apart e () = s at hsame ⊢
  cases hsame with
  | ok h => exact .ok h.1
  | error h => exact .error h

theorem layout_renamed (spare : Nat) (sizes : StructSizes) (struct : Struct) :
    SameResult (Layout.ofStruct spare macros sizes struct)
      (Layout.ofStruct spare (macros.put m.name m') sizes struct) := by
  have hvalue : ∀ e, SameResult (constantValue macros sizes e spare)
      (constantValue (macros.put m.name m') sizes e spare) := fun e =>
    (evalConstant_renamed hfound hm hsafe sizes [] e spare).bind fun _ => .refl _
  have htype : ∀ (v : Variable) (declared : CType),
      SameResult (v.fullType declared fun e => constantValue macros sizes e spare)
        (v.fullType declared fun e => constantValue (macros.put m.name m') sizes e spare) := by
    intro v declared
    unfold Variable.fullType
    split
    · exact .refl _
    · exact .refl _
    · exact (hvalue _).bind fun _ => .refl _
  unfold Layout.ofStruct
  refine SameResult.bind (SameResult.foldlM (fun placed field => ?_) _) fun _ => .refl _
  exact (htype field.2 field.1).bind fun _ => .refl _

/-- Structs are laid out alike. -/
theorem layouts_renamed (hprogram : p.Redefines q) (spare : Nat) :
    SameResult (p.layouts spare macros) (q.layouts spare (macros.put m.name m')) := by
  unfold Program.layouts
  rw [hprogram.structs]
  refine SameResult.foldlM (fun layouts struct => ?_) []
  refine SameResult.bind ?_ fun _ => .refl _
  exact layout_renamed hfound hm hsafe spare _ struct

end Constants

/-! ## Scripts -/

namespace Setup.Renames

variable {parameters : List String} {ρ : String → String} {m m' : Macro} {S T : Setup}

theorem evalConstant_alike (h : S.Renames parameters ρ m m' T) (bound : Scope) (e : Expr) :
    SameResult (evalConstant S.analysis.macros S.analysis.sizes bound e S.analysis.spare)
      (evalConstant T.analysis.macros T.analysis.sizes bound e T.analysis.spare) := by
  rw [h.kindred.sizes, h.macros, h.spare]
  exact evalConstant_renamed h.found h.renames h.safe _ bound e _

open Allocation

theorem countOf_alike (h : S.Renames parameters ρ m m' T) (bound : Scope) (element : CType)
    (c : Call) :
    SameResult (countOf S.analysis bound element c) (countOf T.analysis bound element c) := by
  unfold countOf
  refine SameResult.bind (SameResult.mapM fun e => ?_) fun values => ?_
  · exact (h.evalConstant_alike bound e).bind fun _ => .refl _
  · rw [h.kindred.sizes]
    exact .refl _

theorem plan_alike (h : S.Renames parameters ρ m m' T) (main : Function) :
    SameResult (plan S.analysis main) (plan T.analysis main) := by
  refine (SameResult.refl (counter? (declaredIn main.stmts))).bind fun counter => ?_
  dsimp only
  split
  · exact .refl _
  · next c _ =>
    obtain ⟨count, hS, hT⟩ | ⟨f, g, hS, hT, hfg⟩ := (h.countOf_alike _ _ c).cases
    · rw [hS, hT]
      exact .refl _
    -- whether another count is taken depends on the kind of the fault, not on its words
    · rw [hS, hT]
      dsimp only
      rw [countUnknown_eq hfg]
      split
      · exact .refl _
      · exact .error hfg

theorem plans_alike (h : S.Renames parameters ρ m m' T) : Parallel.PlansAlike wording S T := by
  intro main k l hk
  have hplan := h.plan_alike main
  generalize plan S.analysis main = r, plan T.analysis main = s at hplan hk ⊢
  cases hplan with
  | ok hsame =>
    subst hsame
    exact hk _ rfl
  | error hsame => exact Likeness.resembling_rewords _ hsame

theorem elementValue_alike (h : S.Renames parameters ρ m m' T) (p : Plan) (i : Nat) :
    SameResult (p.elementValue S.analysis i) (p.elementValue T.analysis i) := by
  unfold Plan.elementValue
  dsimp only
  split
  · next fill loop _ _ =>
    obtain ⟨v, hS, hT⟩ | ⟨f, g, hS, hT, hfg⟩ := (h.evalConstant_alike _ fill.value).cases
    · rw [hS, hT]
      exact .refl _
    -- whether another value is shown depends on there being a message, not on what it says
    · rw [hS, hT]
      dsimp only
      rw [Fault.message?_isSome_eq hfg]
      split
      · exact .refl _
      · exact .error hfg
  · exact .refl _

theorem fillAndPrint_alike (h : S.Renames parameters ρ m m' T) {s : Stage} (hs : s.setup = S) :
    wording.rel s.fillAndPrint (s.under T).fillAndPrint := by
  subst hs
  have hemit := Run.emitDelta_resembles h.kindred
  refine Parallel.fillAndPrint_alike ?_ (fun i => ?_) ?_ fun loop other => ?_
  · rw [h.settings]
    exact wording.lift (shownCount_usual _ _)
  · exact Parallel.fillElement_alike
      (Likeness.Rewords.lift (Likeness.resembling_rewords _) (h.elementValue_alike s.plan i))
      fun _ _ _ _ => hemit _ _ _ _ _
  · exact Parallel.printElement_alike (fun _ _ _ _ => hemit _ _ _ _ _)
      (h.evaluateWith_alike .dynamicAllocation 1)
  · unfold Stage.warnOfLimit
    rw [show (s.under T).setup.settings = s.setup.settings from h.settings]
    exact wording.ite (fun _ => hemit _ _ _ _ {}) fun _ => wording.pure _

/-- The directives outside functions are shown alike, except for what is said of them. -/
theorem directives_alike (h : S.Renames parameters ρ m m' T) :
    wording.rel (Remark.directives S) (Remark.directives T) := by
  have hemit := Run.emitDelta_resembles h.kindred
  refine Parallel.forM_redefined h.program (fun item => ?_) fun _ _ _ => hemit _ _ _ _ {}
  cases item with
  | directive d => exact hemit _ _ _ _ {}
  | _ => exact wording.pure _

/-- **Every script does alike**, if the lines that it searches for are the same. -/
theorem script_alike (h : S.Renames parameters ρ m m' T) {category : Category}
    (hlines : category = .dynamicAllocation → Parallel.LinesAlike S.analysis T.analysis) :
    wording.rel (category.play S) (category.play T) := by
  refine Parallel.script_alike (Operations.plays h.operates)
    (fun category e => h.evaluateWith_alike category 0 [] e)
    (fun category f hf arguments line => ?_) (congrArg Settings.keyboard h.settings)
    (congrArg Settings.stackBase h.settings) (congrArg Settings.heapBase h.settings)
    h.directives_alike h.plans_alike (fun s hs => h.fillAndPrint_alike hs) hlines
  rw [h.settings]
  exact h.invoke_renamed category _ hf (.refl [] f.name) arguments line

end Setup.Renames

/-! ## Traces -/

namespace Trace

variable {settings : Settings} {tokens tokens' : List Token}

theorem unworded_failed (hline : lastLine tokens' = lastLine tokens) (category : Option Category)
    {f g : Fault} (h : f.unworded = g.unworded) :
    (failed settings tokens' category g).unworded = (failed settings tokens category f).unworded := by
  unfold failed unworded endStep
  dsimp only [Option.map_some]
  rw [hline, h]
  rfl

theorem unworded_completed (hline : lastLine tokens' = lastLine tokens) (category : Category)
    {m m' : Machine} (h : m.Same m') :
    (completed tokens' category m').unworded = (completed tokens category m).unworded := by
  obtain ⟨hm', hsteps⟩ := h.eq_with_steps
  have hstate : m'.state = m.state := by rw [hm']
  have hlist := congrArg Array.toList hsteps
  rw [Array.toList_map, Array.toList_map] at hlist
  unfold completed unworded endStep
  dsimp only
  rw [hline, hstate, List.map_cons, List.map_cons, List.map_append, List.map_append, hlist]

end Trace

/-- The scripts of two analyses are of one category, and the lines that they search for are the
same. -/
structure Analysis.ScriptedAlike (a a' : Analysis) : Prop where
  category : a'.category = a.category
  lines : a.category = .dynamicAllocation → Parallel.LinesAlike a a'

section Traces

variable {parameters : List String} {ρ : String → String} {m m' : Macro}

theorem Setup.Renames.trace_unworded {S T : Setup} (h : S.Renames parameters ρ m m' T)
    (hscript : S.analysis.ScriptedAlike T.analysis) : T.trace.unworded = S.trace.unworded := by
  have hplay := h.script_alike hscript.lines (Machine.start S.settings) _ rfl
  unfold Setup.trace
  rw [hscript.category, h.settings]
  generalize S.analysis.category.play S (Machine.start S.settings) = r,
    S.analysis.category.play T (Machine.start S.settings) = s at hplay ⊢
  cases hplay with
  | ok hsame => exact Trace.unworded_completed h.lastLine _ hsame.2
  | error hsame => exact Trace.unworded_failed h.lastLine _ hsame

/-- The second text spells the program of the first, except that the parameters of a macro are
called something else in its definition. -/
structure RenamesParameters (parameters : List String) (ρ : String → String) (m m' : Macro)
    (source source' : String) (p p' : Program) : Prop where
  parsed : parse (tokenize source) = .ok p
  parsed' : parse (tokenize source') = .ok p'
  program : p.Redefines p'
  lastLine : lastLine (tokenize source') = lastLine (tokenize source)
  height : (Text.lines source').length = (Text.lines source).length
  found : (p.macros (Text.lines source)).find? m.name = some m
  macros : p'.macros (Text.lines source') = (p.macros (Text.lines source)).put m.name m'
  renames : m.Renames parameters ρ m'

/-- **What the parameters of a macro are called does not show in a trace apart from its wording**,
if neither their old names nor their new ones are met by what the macro leads to. The text may be
searched for what the program is about, and for lines; where that is done it has to find the same. -/
theorem unmet_parameters_do_not_show {source source' : String} {p p' : Program}
    (h : RenamesParameters parameters ρ m m' source source' p p')
    (hsafe : p.Hygienic (p.macros (Text.lines source)) m.name parameters ρ)
    (hscript : ∀ a a', analyze p source (tokenize source) = .ok a →
      analyze p' source' (tokenize source') = .ok a' → a.ScriptedAlike a')
    (settings : Settings) :
    ∃ t t', trace source settings = .ok t ∧ trace source' settings = .ok t' ∧
      t'.unworded = t.unworded := by
  refine ⟨p.trace source (tokenize source) settings, p'.trace source' (tokenize source') settings,
    trace_eq_ok.2 ⟨p, h.parsed, rfl⟩, trace_eq_ok.2 ⟨p', h.parsed', rfl⟩, ?_⟩
  -- the analyses fail alike, because a layout is all that can fail in them
  have hlayouts := layouts_renamed h.found h.renames hsafe h.program spareDepth
  rw [← h.macros] at hlayouts
  rw [Program.trace_eq, Program.trace_eq]
  obtain ⟨layouts, hp, hp'⟩ | ⟨f, g, hp, hp', hfg⟩ := hlayouts.cases
  · rw [hp, hp']
    refine @Setup.Renames.trace_unworded parameters ρ m m' _ _ ?_ ?_
    · exact ⟨h.program, h.lastLine, h.height, rfl, rfl, rfl, h.found, h.macros, h.renames, hsafe⟩
    · refine hscript _ _ ?_ ?_
      · unfold analyze
        dsimp only
        rw [hp]
        rfl
      · unfold analyze
        dsimp only
        rw [hp']
        rfl
  · rw [hp, hp']
    exact Trace.unworded_failed h.lastLine none hfg

end Traces

/-! ## A function with a parameter of the same name -/

namespace Captured

/-- A way to write a program whose macro calls a function with a parameter `x`: what the macro calls
its own parameter, and the texts in which that stands. -/
structure Version where
  /-- The parameter of the macro. -/
  parameter : String
  /-- The body of the macro. -/
  body : String
  /-- The definition behind the name. -/
  definition : String
  /-- The whole text. -/
  source : String

/-- The macro calls its parameter as the function does. -/
def named : Version :=
  ⟨"x", "f(x+1)", "(x) f(x+1)",
    "#define M(x) f(x+1)\nint f(int x)\x7breturn x;\x7d\nint main()\x7bputchar(M(64));\x7d\n"⟩

/-- It calls it something else. -/
def renamed : Version :=
  ⟨"y", "f(y+1)", "(y) f(y+1)",
    "#define M(y) f(y+1)\nint f(int x)\x7breturn x;\x7d\nint main()\x7bputchar(M(64));\x7d\n"⟩

/-- And something else again. -/
def renamedAgain : Version :=
  ⟨"z", "f(z+1)", "(z) f(z+1)",
    "#define M(z) f(z+1)\nint f(int x)\x7breturn x;\x7d\nint main()\x7bputchar(M(64));\x7d\n"⟩

/-- One name in the place of another. -/
def inPlaceOf (x y : String) : String → String :=
  fun n => if n = x then y else n

namespace Version

/-- The tokens of the text. -/
def tokens (v : Version) : List Token :=
  [⟨.preprocessor, "#define", 1, 1⟩, ⟨.identifier, "M", 1, 9⟩, ⟨.literal, v.definition, 1, 10⟩,
    ⟨.keyword, "int", 2, 1⟩, ⟨.identifier, "f", 2, 5⟩, ⟨.punctuation, "(", 2, 6⟩,
    ⟨.keyword, "int", 2, 7⟩, ⟨.identifier, "x", 2, 11⟩, ⟨.punctuation, ")", 2, 12⟩,
    ⟨.punctuation, "\x7b", 2, 13⟩, ⟨.keyword, "return", 2, 14⟩, ⟨.identifier, "x", 2, 21⟩,
    ⟨.punctuation, ";", 2, 22⟩, ⟨.punctuation, "\x7d", 2, 23⟩, ⟨.keyword, "int", 3, 1⟩,
    ⟨.identifier, "main", 3, 5⟩, ⟨.punctuation, "(", 3, 9⟩, ⟨.punctuation, ")", 3, 10⟩,
    ⟨.punctuation, "\x7b", 3, 11⟩, ⟨.function, "putchar", 3, 12⟩, ⟨.punctuation, "(", 3, 19⟩,
    ⟨.identifier, "M", 3, 20⟩, ⟨.punctuation, "(", 3, 21⟩, ⟨.literal, "64", 3, 22⟩,
    ⟨.punctuation, ")", 3, 24⟩, ⟨.punctuation, ")", 3, 25⟩, ⟨.punctuation, ";", 3, 26⟩,
    ⟨.punctuation, "\x7d", 3, 27⟩]

/-- The tokens of the body. -/
def bodyTokens (v : Version) : List Token :=
  [⟨.identifier, "f", 1, 1⟩, ⟨.punctuation, "(", 1, 2⟩, ⟨.identifier, v.parameter, 1, 3⟩,
    ⟨.operator, "+", 1, 4⟩, ⟨.literal, "1", 1, 5⟩, ⟨.punctuation, ")", 1, 6⟩]

/-- What is read of the body. -/
def expanded (v : Version) : Expr :=
  .call 1 "f" [.binary 1 (.arith .add) (.name 1 v.parameter) (.literal 1 "1")]

/-- The program. -/
def program (v : Version) : Program :=
  ⟨[.directive ⟨1, "#define", ["M", v.definition]⟩,
    .function ⟨2, "f", .int, [{ type := .int, name := "x" }], 2, [.ret 2 (some (.name 2 "x"))]⟩,
    .function ⟨3, "main", .int, [], 3,
      [.expr 3 (.call 3 "putchar" [.call 3 "M" [.literal 3 "64"]])]⟩]⟩

/-- The macro. -/
def called (v : Version) : Macro :=
  ⟨"M", some [v.parameter], v.body, 1⟩

/-- What is known about the program. -/
def analysis (v : Version) : Analysis where
  program := v.program
  source := v.source
  tokens := v.tokens
  lines := Text.lines v.source
  macros := [("M", v.called)]
  layouts := []

/-- The texts of a version are read as its tokens and its macro, and the program is about macros. -/
structure Read (v : Version) : Prop where
  tokenized : tokenize v.source = v.tokens
  tokenizedBody : tokenize v.body = v.bodyTokens
  parsedBody : parseExpr v.bodyTokens = .ok v.expanded
  nonempty : v.body.isEmpty = false
  number : Directive.conditionValue [] v.body = .ok 0
  height : (Text.lines v.source).length = 4
  macros : v.program.macros (Text.lines v.source) = [("M", v.called)]
  category : v.analysis.category = .preprocessor

variable {v w : Version}

theorem read_of_chars {source body : List Char} (hsource : v.source = String.ofList source)
    (hbody : v.body = String.ofList body) (hparsed : parseExpr v.bodyTokens = .ok v.expanded)
    (hnumber : Directive.conditionValue [] v.body = .ok 0)
    (h : (Token.directiveTokens source ++ (Token.plainSegments source).filterMap Token.ofSegment?
          = v.tokens ∧ v.tokens.Pairwise fun a b => Token.noLater a b = true) ∧
      (Token.directiveTokens body ++ (Token.plainSegments body).filterMap Token.ofSegment?
          = v.bodyTokens ∧ v.bodyTokens.Pairwise fun a b => Token.noLater a b = true) ∧
      v.body.isEmpty = false ∧ (Text.pieces '\n' source).length = 4 ∧
      v.program.macros ((Text.pieces '\n' source).map String.ofList) = [("M", v.called)] ∧
      (Category.table.find? (Category.holds v.program (Text.lowerFrom [] source))).getD .generic
        = .preprocessor) : v.Read := by
  obtain ⟨⟨htokens, hsorted⟩, ⟨hbodyTokens, hbodySorted⟩, hnonempty, hheight, hmacros, hcategory⟩ := h
  have hlines := Text.lines_of_chars hsource
  refine ⟨Token.tokenize_of_chars hsource htokens hsorted,
    Token.tokenize_of_chars hbody hbodyTokens hbodySorted, hparsed, hnonempty, hnumber, ?_, ?_, ?_⟩
  · rw [hlines, List.length_map, hheight]
  · rw [hlines, hmacros]
  · have hanalysis : v.analysis.source = String.ofList source := hsource
    rw [Analysis.category, Analysis.lowered_eq hanalysis]
    exact hcategory

set_option maxRecDepth 6000 in
theorem parse_tokens (v : Version) : parse v.tokens = .ok v.program := by
  cbv

theorem Read.expression (hv : v.Read) : v.called.expression = .ok v.expanded := by
  have hbody : v.called.body = v.body := rfl
  rw [Macro.expression, hbody, if_neg (by simp [hv.nonempty]), hv.tokenizedBody, hv.parsedBody]

theorem Read.analyzed (hv : v.Read) :
    analyze v.program v.source (tokenize v.source) = .ok v.analysis := by
  rw [hv.tokenized]
  exact analyze_of_layouts hv.macros rfl

theorem Read.traced (hv : v.Read) : trace v.source {} = .ok (v.program.trace v.source v.tokens {}) := by
  refine trace_eq_ok.2 ⟨v.program, ?_, ?_⟩
  · rw [hv.tokenized]
    exact parse_tokens v
  · rw [hv.tokenized]

/-- One version is the other with another parameter. -/
theorem Read.renames (hv : v.Read) (hw : w.Read) (hf : v.parameter ≠ "f") :
    RenamesParameters [v.parameter] (inPlaceOf v.parameter w.parameter) v.called w.called v.source
      w.source v.program w.program where
  parsed := by
    rw [hv.tokenized]
    exact parse_tokens v
  parsed' := by
    rw [hw.tokenized]
    exact parse_tokens w
  program := .cons (.define 1 _ _) (.cons (.same _) (.cons (.same _) .nil))
  lastLine := by
    rw [hv.tokenized, hw.tokenized]
    rfl
  height := by rw [hv.height, hw.height]
  found := by
    rw [hv.macros]
    rfl
  macros := by
    rw [hv.macros, hw.macros]
    rfl
  renames := by
    have hown : inPlaceOf v.parameter w.parameter v.parameter = w.parameter := if_pos rfl
    have hother : inPlaceOf v.parameter w.parameter "f" = "f" := if_neg hf.symm
    refine ⟨rfl, ?_, rfl, ?_, hw.number.trans hv.number.symm⟩
    · rw [List.map_singleton, hown]
      rfl
    · rw [hv.expression, hw.expression]
      show Except.ok w.expanded = .ok (v.expanded.rename _)
      simp [expanded, Expr.rename, Expr.renameAll, hown, hother]

/-! What a text is read as is not computed anew while the program runs: the body of the macro is taken
as it was read. -/

/-- What the program runs under. -/
def setup (v : Version) : Setup :=
  ⟨v.analysis, {}⟩

/-- The main function. -/
def main : Function :=
  ⟨3, "main", .int, [], 3, [.expr 3 (.call 3 "putchar" [.call 3 "M" [.literal 3 "64"]])]⟩

/-- How functions are called from the main function. -/
def caller (v : Version) : Caller :=
  callAt v.setup noCommentary 1

/-- How its expression is evaluated, with the body as it was read. -/
def evaluated (v : Version) : Run Typed := do
  let host := machineHost v.setup v.caller
  let value ← do
    host.noteMacro "M" (v.called.substitute [(v.parameter, "64")]) 3
    let values ← evalAll host (evalWithin host 1000) [] [.literal 3 "64"]
    evalWithin host 1000 (Host.bindParameters [v.parameter] values []) v.expanded
  v.caller [] "putchar" [value] 3

/-- What the script does, with that. -/
def played (v : Version) : Run Unit := do
  Remark.directives v.setup
  declareGlobals v.setup (evaluateWith v.setup (callAt v.setup noCommentary 0) [])
  let _ ← Invocation.run v.setup main [] 3
    (Walker.runBody ⟨v.setup, fun _ => v.evaluated, fun _ _ _ => pure ()⟩ main.body)

theorem Read.evaluated (hv : v.Read) :
    evaluateWith v.setup v.caller [] (.call 3 "putchar" [.call 3 "M" [.literal 3 "64"]])
      = v.evaluated := by
  have hcalled : (machineHost v.setup v.caller).callMacro? "M" = some (v.called, [v.parameter]) := rfl
  have hcall : (machineHost v.setup v.caller).callMacro? "putchar" = none := rfl
  show eval (machineHost v.setup v.caller) (evalWithin (machineHost v.setup v.caller) 1000) [] _ = _
  rw [eval, hcall]
  dsimp only
  rw [evalAll, eval, hcalled]
  dsimp only
  have harity : ¬[v.parameter].length ≠ [Expr.literal 3 "64"].length := not_not_intro rfl
  have hbody : (Eval.lift v.called.expression : Run Expr) = pure v.expanded := by
    rw [hv.expression]
    rfl
  rw [if_neg harity, hbody]
  unfold Version.evaluated
  simp only [evalAll, bind_assoc, pure_bind]
  rfl

theorem Read.played (hv : v.Read) : Category.play v.setup .preprocessor = v.played := by
  have hbody : (walker v.setup noCommentary v.caller []).runBody main.body
      = Walker.runBody ⟨v.setup, fun _ => v.evaluated, fun _ _ _ => pure ()⟩ main.body := by
    show Walker.runBody ⟨v.setup, evaluateWith v.setup v.caller [], fun _ _ _ => pure ()⟩ _ = _
    unfold main
    simp only [Walker.runBody, Walker.items, Walker.run, Walker.runExpr, hv.evaluated]
    rfl
  show (do
    Remark.directives v.setup
    declareGlobals v.setup (evaluateWith v.setup (callAt v.setup noCommentary 0) [])
    let _ ← Invocation.run v.setup main [] 3
      ((walker v.setup noCommentary v.caller []).runBody main.body)) = v.played
  rw [hbody]
  rfl

theorem Read.trace_eq (hv : v.Read) :
    v.program.trace v.source v.tokens {}
      = match v.played (Machine.start {}) with
        | .error fault => Trace.failed {} v.tokens (some .preprocessor) fault
        | .ok (_, m) => Trace.completed v.tokens .preprocessor m := by
  have hanalyzed := hv.analyzed
  have hplayed : Category.play { analysis := v.analysis, settings := {} } .preprocessor = _ :=
    hv.played
  rw [hv.tokenized] at hanalyzed
  have htrace : v.program.trace v.source v.tokens {} = _ :=
    Program.trace_of_category hanalyzed hv.category
  rw [hplayed] at htrace
  refine htrace.trans ?_
  cases v.played (Machine.start {}) with
  | error fault => rfl
  | ok result => rfl

end Version

theorem versions_read : named.Read ∧ renamed.Read ∧ renamedAgain.Read :=
  ⟨Version.read_of_chars rfl rfl (by decide +kernel) rfl (by decide +kernel),
    Version.read_of_chars rfl rfl (by decide +kernel) rfl (by decide +kernel),
    Version.read_of_chars rfl rfl (by decide +kernel) rfl (by decide +kernel)⟩

theorem renamed_leads : renamed.called.leads = ["f", "f"] := by
  obtain ⟨_, hrenamed, _⟩ := versions_read
  unfold Macro.leads
  rw [hrenamed.expression]
  decide

/-- The macro leads to the function, and that to its parameter. -/
theorem renamed_hygienic : renamed.program.Hygienic
    (renamed.program.macros (Text.lines renamed.source)) "M" ["y"] (inPlaceOf "y" "z") where
  apart := by
    simp only [List.mem_singleton]
    rintro x rfl y rfl _
    rfl
  others n hn := if_neg fun h => hn (List.mem_singleton.2 h)
  unmet met hmet := by
    obtain ⟨_, hrenamed, _⟩ := versions_read
    rw [hrenamed.macros] at hmet
    have hleads : renamed.program.leads [("M", renamed.called)] "M" = ["f", "f"] := by
      have hfunction : renamed.program.function? "M" = none := rfl
      have hfind : Table.find? [("M", renamed.called)] "M" = some renamed.called := rfl
      rw [Program.leads, hfunction, hfind, Option.map_none, Option.map_some, Option.getD_some,
        renamed_leads]
      rfl
    have hmem : met ∈ ["f", "x"] := by
      refine Program.mem_of_leadsTo ?_ ?_ hmet
      · rw [hleads]
        decide
      · decide
    have hapart : ∀ met ∈ ["f", "x"],
        met ∉ ["y"] ∧ met ∉ ["y"].map (inPlaceOf "y" "z") := by decide
    exact hapart met hmem

theorem outputs : (named.program.trace named.source named.tokens {}).output = "@" ∧
    (renamed.program.trace renamed.source renamed.tokens {}).output = "A" := by
  obtain ⟨hnamed, hrenamed, _⟩ := versions_read
  rw [hnamed.trace_eq, hrenamed.trace_eq]
  decide +kernel

end Captured

open Captured

/-- Where nothing is called like the parameter, it may be called something else. -/
theorem spared_parameter_does_not_show :
    RenamesParameters ["y"] (inPlaceOf "y" "z") renamed.called renamedAgain.called renamed.source
        renamedAgain.source renamed.program renamedAgain.program ∧
      renamed.program.Hygienic (renamed.program.macros (Text.lines renamed.source)) "M" ["y"]
        (inPlaceOf "y" "z") ∧
      ∃ t t', trace renamed.source {} = .ok t ∧ trace renamedAgain.source {} = .ok t' ∧
        t'.unworded = t.unworded := by
  obtain ⟨_, hrenamed, hagain⟩ := versions_read
  have hrenames := hrenamed.renames hagain (by decide)
  refine ⟨hrenames, renamed_hygienic,
    unmet_parameters_do_not_show hrenames renamed_hygienic (fun a a' ha ha' => ?_) {}⟩
  rw [hrenamed.analyzed] at ha
  rw [hagain.analyzed] at ha'
  obtain rfl := Except.ok.inj ha
  obtain rfl := Except.ok.inj ha'
  refine ⟨hagain.category.trans hrenamed.category.symm, fun hallocates => ?_⟩
  rw [hrenamed.category] at hallocates
  cases hallocates

/-- A parameter that is called like that of a function shows: here it is given a name that occurs
nowhere in the text, and the program writes something else. -/
theorem captured_parameter_shows :
    RenamesParameters ["x"] (inPlaceOf "x" "y") named.called renamed.called named.source
        renamed.source named.program renamed.program ∧
      'y' ∉ named.source.toList ∧
      ∃ t t', trace named.source {} = .ok t ∧ trace renamed.source {} = .ok t' ∧
        t.output = "@" ∧ t'.output = "A" := by
  obtain ⟨hnamed, hrenamed, _⟩ := versions_read
  refine ⟨hnamed.renames hrenamed (by decide), ?_, _, _, hnamed.traced, hrenamed.traced, outputs⟩
  have hsource : named.source = String.ofList _ := rfl
  rw [hsource, String.toList_ofList]
  decide

end Stepwise
