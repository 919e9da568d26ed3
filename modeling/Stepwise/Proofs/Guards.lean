/-
What is said of nodes that are refused is never said.

An evaluator that goes by the kinds of nodes has words for a node that it can make
nothing of: that it is no expression, no statement, or that its operator is none. Trees
of programs have no such node, and the tree of an expression has none either, a macro's
as little as any other. So the words are there in vain, with one exception: a directive
is no statement, and it may stand where a statement is needed, as the body of a choice
or a loop without braces.

That the words are never said is seen in two steps. One execution is held against itself,
to see which faults it can stop with at all; and the texts of these faults are told from
the words about a refused node, by their beginnings, or, where a text begins with a name
that might be anything, by the marks in it and by its end.
-/
import Stepwise.Proofs.Agreement
import Stepwise.Proofs.Dispatch
import Stepwise.Proofs.Recognition
import Stepwise.Proofs.Replay
import Stepwise.Syntax.Equality
import Mathlib.Data.List.Permutation

set_option autoImplicit false

namespace Stepwise

/-! ## Faults of a program -/

/-- What a program can stop with: the usual faults, a nesting that has no end, and a directive of the
program that stands where a statement is needed. -/
def Program.tolerance (p : Program) : Tolerance where
  allows fault :=
    (fault.IsUsual ∨ fault = .endless) ∨ ∃ d ∈ p.strays, fault = .directiveAsBody d.line
  usual _ h := .inl (.inl h)

/-- The fault of a trace is one that the program can stop with. -/
theorem Program.tolerance_allows {p : Program} {source : String} {tokens : List Token}
    {settings : Settings} {fault : Fault}
    (h : (p.trace source tokens settings).fault = some fault) : p.tolerance.allows fault := by
  have hendless : p.tolerance.allows .endless := .inl (.inr rfl)
  exact (Program.trace_agrees (Macros.agree_self hendless _ _)
    (fun layouts _ => layouts.agree_self hendless _) (fun d hd => .inr ⟨d, hd, rfl⟩)
    tokens settings).2 fault h

/-! ## Texts about refused nodes -/

/-- Marks that a text about a refused node does not have: it neither quotes nor calls anything, and
names no directive. -/
def refusalMarks : List Char :=
  ['\'', '(', '#']

/-- Has the text none of these marks? -/
def isUnmarked (text : List Char) : Bool :=
  text.all fun c => !refusalMarks.contains c

/-- Has the text none of these marks, and another end than a letter? -/
def isTerse (text : List Char) : Bool :=
  isUnmarked text && text.getLast?.any fun c => !c.isAlpha

theorem isTerse_append {start rest : List Char} (hstart : isUnmarked start = true)
    (hrest : isTerse rest = true) : isTerse (start ++ rest) = true := by
  unfold isTerse isUnmarked at *
  rw [Bool.and_eq_true] at hrest
  rw [List.all_append, hstart, hrest.1, List.getLast?_append]
  cases hlast : rest.getLast? with
  | none => exact absurd hrest.2 (by simp [hlast])
  | some c => simpa [hlast] using hrest.2

theorem isAlpha_of_isDigit {c : Char} (h : c.isDigit = true) : c.isAlpha = false := by
  delta Char.isAlpha Char.isUpper Char.isLower
  simp [Char.isDigit, UInt32.le_iff_toNat_le] at *
  omega

theorem isTerse_toDigits (n : Nat) : isTerse (Nat.toDigits 10 n) = true := by
  have hdigit : ∀ c ∈ Nat.toDigits 10 n, c.isDigit = true :=
    fun _ => Nat.isDigit_of_mem_toDigits (by decide) (by decide)
  have hmarks : isUnmarked (Nat.toDigits 10 n) = true := by
    refine List.all_eq_true.2 fun c hc => ?_
    have hdigit := hdigit c hc
    rw [Bool.not_eq_true', List.contains_eq_mem, decide_eq_false_iff_not]
    intro hmark
    simp only [refusalMarks, List.mem_cons, List.not_mem_nil, or_false] at hmark
    obtain rfl | rfl | rfl := hmark <;> cases hdigit
  have hlast := hdigit _ (List.getLast_mem Nat.toDigits_ne_nil)
  rw [isTerse, hmarks, List.getLast?_eq_some_getLast Nat.toDigits_ne_nil, Option.any_some,
    isAlpha_of_isDigit hlast]
  rfl

namespace Tree.Kind

/-- The name of a kind is a single word without such marks. -/
theorem text_plain (kind : Kind) : ∃ chars, kind.text = String.ofList chars ∧
    ∀ c ∈ chars, c ∉ ' ' :: refusalMarks := by
  cases kind <;> exact ⟨_, rfl, by decide⟩

theorem isUnmarked_text (kind : Kind) : isUnmarked kind.text.toList = true := by
  obtain ⟨chars, htext, hplain⟩ := kind.text_plain
  rw [htext, String.toList_ofList]
  refine List.all_eq_true.2 fun c hc => ?_
  rw [Bool.not_eq_true', List.contains_eq_mem, decide_eq_false_iff_not]
  exact fun hmark => hplain c hc (List.mem_cons_of_mem _ hmark)

theorem isTerse_operators (kind : Kind) : ∀ text ∈ kind.operators, isTerse text.toList = true := by
  cases kind <;> first | exact List.forall_mem_nil _ | decide

theorem text_unbroken (kind : Kind) : (kind.text.toList.all fun c => c != ' ') = true := by
  obtain ⟨chars, htext, hplain⟩ := kind.text_plain
  rw [htext, String.toList_ofList]
  refine List.all_eq_true.2 fun c hc => bne_iff_ne.2 ?_
  rintro rfl
  exact hplain _ hc List.mem_cons_self

theorem takeWhile_text (kind : Kind) (rest : List Char) :
    (kind.text.toList ++ ' ' :: rest).takeWhile (· != ' ') = kind.text.toList := by
  rw [List.takeWhile_append_of_pos (List.all_eq_true.1 kind.text_unbroken)]
  simp

theorem text_eq_directive {kind : Kind} (h : kind.text = Kind.text .directive) :
    kind = .directive := by
  cases kind <;> first | rfl | exact absurd h (by decide)

end Tree.Kind

/-- Interpolated into another text, a text stands as it is. -/
@[simp] theorem toString_text (text : String) : toString text = text :=
  rfl

theorem ofList_begins (words : List Char) : words <+: (String.ofList words).toList :=
  ⟨[], by rw [String.toList_ofList, List.append_nil]⟩

theorem begins_append {words : List Char} {text : String} (rest : String)
    (h : words <+: text.toList) : words <+: (text ++ rest).toList := by
  rw [String.toList_append]
  exact h.trans (List.prefix_append _ _)

namespace Refusal

/-- The text that is said to be no operator is one that a node of a well-shaped tree can have. -/
def Proper : Refusal → Prop
  | unaryOperator text => text ∈ Tree.Kind.operators .unary
  | operator text => ∃ kind : Tree.Kind, text ∈ kind.operators
  | evaluate .. | children .. | simulate .. => True

/-- What the texts about refused nodes begin with. -/
def openings : List String :=
  ["Cannot evaluate ", "Cannot simulate ", "Unsupported unary operator ", "Unsupported operator "]

/-- Their characters. -/
def openingWords : List (List Char) :=
  [['C', 'a', 'n', 'n', 'o', 't', ' ', 'e', 'v', 'a', 'l', 'u', 'a', 't', 'e', ' '],
    ['C', 'a', 'n', 'n', 'o', 't', ' ', 's', 'i', 'm', 'u', 'l', 'a', 't', 'e', ' '],
    ['U', 'n', 's', 'u', 'p', 'p', 'o', 'r', 't', 'e', 'd', ' ', 'u', 'n', 'a', 'r', 'y', ' ',
      'o', 'p', 'e', 'r', 'a', 't', 'o', 'r', ' '],
    ['U', 'n', 's', 'u', 'p', 'p', 'o', 'r', 't', 'e', 'd', ' ', 'o', 'p', 'e', 'r', 'a', 't',
      'o', 'r', ' ']]

theorem openings_eq : openings = openingWords.map String.ofList :=
  rfl

/-- Words that neither begin an opening nor begin with one begin no text that an opening begins. -/
theorem not_opening_of_begins {words : List Char} {text : String} (htext : words <+: text.toList)
    (hapart : ∀ opening ∈ openingWords, ¬opening <+: words ∧ ¬words <+: opening) :
    ∀ opening ∈ openings, ¬opening.toList <+: text.toList := by
  rw [openings_eq, List.forall_mem_map]
  intro opening hmem hopening
  rw [String.toList_ofList] at hopening
  obtain h | h := List.prefix_or_prefix_of_prefix hopening htext
  · exact (hapart opening hmem).1 h
  · exact (hapart opening hmem).2 h

theorem isUnmarked_openings : ∀ opening ∈ openings, isUnmarked opening.toList = true := by
  decide

theorem isTerse_located (kind : Tree.Kind) (line : Nat) :
    isTerse (s!"{kind.text} at line {line}").toList = true := by
  have hwords : isUnmarked " at line ".toList = true := by decide
  simpa using isTerse_append kind.isUnmarked_text (isTerse_append hwords (isTerse_toDigits line))

/-- The text about a node that is refused is terse, and begins with one of the openings. -/
theorem opens_and_isTerse {refusal : Refusal} {text : String} (hproper : refusal.Proper)
    (h : refusal.message? = some text) :
    (∃ opening ∈ openings, opening.toList <+: text.toList) ∧ isTerse text.toList = true := by
  have hopen : ∀ opening ∈ openings, ∀ rest : String, isTerse rest.toList = true →
      (∃ o ∈ openings, o.toList <+: (opening ++ rest).toList) ∧
        isTerse (opening ++ rest).toList = true := by
    intro opening hmem rest hrest
    rw [String.toList_append]
    exact ⟨⟨opening, hmem, List.prefix_append _ _⟩,
      isTerse_append (isUnmarked_openings opening hmem) hrest⟩
  cases refusal with
  | evaluate kind line =>
    obtain rfl := Option.some.inj h
    simpa [String.append_assoc] using
      hopen "Cannot evaluate " (by decide) _ (isTerse_located kind line)
  | simulate kind line =>
    obtain rfl := Option.some.inj h
    simpa [String.append_assoc] using
      hopen "Cannot simulate " (by decide) _ (isTerse_located kind line)
  | unaryOperator op =>
    obtain rfl := Option.some.inj h
    exact hopen "Unsupported unary operator " (by decide) op
      (Tree.Kind.isTerse_operators .unary op hproper)
  | operator op =>
    obtain rfl := Option.some.inj h
    obtain ⟨kind, hmem⟩ := hproper
    exact hopen "Unsupported operator " (by decide) op (kind.isTerse_operators op hmem)
  | children kind line => cases h

/-- What is said of a directive that stands where a statement is needed is said of nothing else. -/
theorem eq_simulate {refusal : Refusal} {line : Nat}
    (h : refusal.message? = some (Fault.directiveAsBody line).text) :
    refusal = .simulate .directive line := by
  cases refusal with
  | simulate kind line' =>
    have htext : kind.text.toList ++ ' ' :: ("at line ".toList ++ Nat.toDigits 10 line')
        = (Tree.Kind.text .directive).toList ++ ' ' :: ("at line ".toList ++ Nat.toDigits 10 line) := by
      rw [show Tree.Kind.text .directive = "preprocessor_directive" from rfl]
      simpa [Fault.text, Fault.message?] using congrArg String.toList (Option.some.inj h)
    have hkind : kind.text = Tree.Kind.text .directive := by
      rw [← String.toList_inj, ← kind.takeWhile_text, htext, Tree.Kind.takeWhile_text]
    obtain rfl := Tree.Kind.text_eq_directive hkind
    have hdigits : Nat.toDigits 10 line' = Nat.toDigits 10 line := by simpa using htext
    rw [show line' = line by simpa using congrArg (Nat.ofDigitChars 10 · 0) hdigits]
  | children kind line => cases h
  | _ =>
    have htext := congrArg String.toList (Option.some.inj h)
    simp [Fault.text, Fault.message?] at htext

end Refusal

namespace Fault

/-- The faults whose texts begin with what they are about. All others begin with words of their
own. -/
def BeginsWithName : Fault → Prop
  | unknownMember .. | callArity .. | unmatchedDirective .. | notOpen _ | readOnly _ => True
  | _ => False

theorem not_isTerse {fault : Fault} (h : fault.BeginsWithName) :
    isTerse fault.text.toList = false := by
  cases fault with
  | unknownMember | callArity | unmatchedDirective =>
    simp [isTerse, isUnmarked, refusalMarks, text, message?]
  | notOpen | readOnly => simp [isTerse, text, message?]
  | _ => exact h.elim

theorem not_opening {fault : Fault} (hname : ¬fault.BeginsWithName)
    (h : fault.IsUsual ∨ fault = .endless) :
    ∀ opening ∈ Refusal.openings, ¬opening.toList <+: fault.text.toList := by
  have hstray : ∀ line, fault ≠ .directiveAsBody line := by
    rintro line rfl
    simp at h
  have hunsupported : ∀ text, fault ≠ .unsupportedOperator text := by
    rintro text rfl
    simp at h
  cases fault with
  | unknownMember | callArity | unmatchedDirective | notOpen | readOnly => exact absurd trivial hname
  | directiveAsBody line => exact absurd rfl (hstray line)
  | unsupportedOperator text => exact absurd rfl (hunsupported text)
  | _ =>
    apply Refusal.not_opening_of_begins
    · unfold text message?
      dsimp only
      repeat with_reducible apply begins_append
      exact ofList_begins _
    · decide

/-- What is said of a refused node is no text of the faults that every program may stop with. -/
theorem text_ne {fault : Fault} (h : fault.IsUsual ∨ fault = .endless) {refusal : Refusal}
    (hproper : refusal.Proper) : refusal.message? ≠ some fault.text := by
  intro htext
  obtain ⟨⟨opening, hmem, hopening⟩, hterse⟩ := Refusal.opens_and_isTerse hproper htext
  by_cases hname : fault.BeginsWithName
  · exact Bool.noConfusion ((not_isTerse hname).symm.trans hterse)
  · exact not_opening hname h opening hmem hopening

end Fault

/-! ## The main result -/

/-- **Trees are well shaped, and no node is refused.** The tree of every expression and of every
program that is read from tokens is well shaped, and it is read back as that expression or program:
each node of it has the operator and the children that its kind demands. So a trace of the program
does not stop with an operator that is none, and with nothing that is said of a refused node, unless
a directive stands where a statement is needed, of which that is said. -/
theorem guards_never_fire (tokens : List Token) :
    (∀ e, parseExpr tokens = .ok e → e.tree.Shaped ∧ e.tree.readExpr = .ok e) ∧
      ∀ p, parse tokens = .ok p → p.tree.Shaped ∧ p.tree.readProgram = .ok p ∧
        ∀ source settings fault, (p.trace source tokens settings).fault = some fault →
          (∀ text, fault ≠ .unsupportedOperator text) ∧
            ∀ refusal : Refusal, refusal.Proper → refusal.message? = some fault.text →
              ∃ d ∈ p.strays, fault = .directiveAsBody d.line ∧
                refusal = .simulate .directive d.line := by
  refine ⟨fun e _ => ⟨e.shaped_tree, e.readExpr_tree⟩,
    fun p _ => ⟨p.shaped_tree, p.readProgram_tree, fun source settings fault hfault => ?_⟩⟩
  obtain husual | ⟨d, hd, rfl⟩ := Program.tolerance_allows hfault
  · refine ⟨?_, fun refusal hproper htext => absurd htext (Fault.text_ne husual hproper)⟩
    rintro text rfl
    simp at husual
  · refine ⟨fun _ h => (by cases h), fun refusal _ htext => ?_⟩
    exact ⟨d, hd, rfl, Refusal.eq_simulate htext⟩

/-! ## A directive where a statement is needed -/

namespace Unbraced

/-- A program with a directive for the only statement of a choice. -/
def source : String :=
  "int main()\n\x7b\n  if (1)\n#define ON\n  return -1;\n\x7d\n"

/-- Its tokens. -/
def tokens : List Token :=
  [⟨.keyword, "int", 1, 1⟩, ⟨.identifier, "main", 1, 5⟩, ⟨.punctuation, "(", 1, 9⟩,
    ⟨.punctuation, ")", 1, 10⟩, ⟨.punctuation, "\x7b", 2, 1⟩, ⟨.keyword, "if", 3, 3⟩,
    ⟨.punctuation, "(", 3, 6⟩, ⟨.literal, "1", 3, 7⟩, ⟨.punctuation, ")", 3, 8⟩,
    ⟨.preprocessor, "#define", 4, 1⟩, ⟨.identifier, "ON", 4, 9⟩, ⟨.keyword, "return", 5, 3⟩,
    ⟨.operator, "-", 5, 10⟩, ⟨.literal, "1", 5, 11⟩, ⟨.punctuation, ";", 5, 12⟩,
    ⟨.punctuation, "\x7d", 6, 1⟩]

/-- The directive. -/
def stray : Directive :=
  ⟨4, "#define", ["ON"]⟩

/-- The program. -/
def program : Program :=
  ⟨[.function
    { line := 1
      name := "main"
      returnType := .int
      parameters := []
      bodyLine := 2
      body :=
        [.cond 3 (.literal 3 "1") (.directive stray) none,
          .ret 5 (some (.unary 5 .minus (.literal 5 "1")))] }]⟩

theorem tokenize_source : tokenize source = tokens := by
  obtain ⟨chars, hsource, hscan⟩ : ∃ chars, source = String.ofList chars ∧
      Token.directiveTokens chars ++ (Token.plainSegments chars).filterMap Token.ofSegment?
        = tokens.filter (·.line = 4) ++ tokens.filter (·.line ≠ 4) :=
    ⟨_, rfl, by decide +kernel⟩
  unfold tokenize Token.scan
  dsimp only
  rw [hsource, String.toList_ofList, hscan]
  cbv

theorem parse_tokens : parse tokens = .ok program := by
  decide +kernel

/-- What is known about it. -/
def analysis : Analysis where
  program := program
  source := source
  tokens := tokens
  lines := Text.lines source
  macros := program.macros (Text.lines source)
  layouts := []

theorem category_analysis : analysis.category = .preprocessor := by
  have hsource : analysis.source = String.ofList _ := rfl
  rw [Analysis.category, Analysis.lowered_eq hsource]
  decide

theorem fault_trace : (program.trace source tokens {}).fault = some (.directiveAsBody 4) := by
  have hanalyze : analyze program source tokens = .ok analysis := rfl
  rw [Program.trace_of_category hanalyze category_analysis]
  decide

end Unbraced

/-- This program has a well-shaped tree, and stops with what is said of its stray directive. -/
theorem stray_directive_is_refused :
    parse (tokenize Unbraced.source) = .ok Unbraced.program ∧
      (Unbraced.program.trace Unbraced.source (tokenize Unbraced.source) {}).fault
        = some (.directiveAsBody 4) ∧
      (Refusal.simulate .directive 4).message? = some (Fault.directiveAsBody 4).text ∧
      Unbraced.program.tree.Shaped ∧
      ∃ d ∈ Unbraced.program.strays, Fault.directiveAsBody 4 = .directiveAsBody d.line := by
  rw [Unbraced.tokenize_source]
  have hmessage : (Refusal.simulate .directive 4).message?
      = some (Fault.directiveAsBody 4).text := by
    decide
  obtain ⟨hshaped, -, htrace⟩ :=
    (guards_never_fire Unbraced.tokens).2 Unbraced.program Unbraced.parse_tokens
  obtain ⟨-, hrefused⟩ := htrace Unbraced.source {} _ Unbraced.fault_trace
  obtain ⟨d, hd, hline, -⟩ := hrefused (.simulate .directive 4) trivial hmessage
  exact ⟨Unbraced.parse_tokens, Unbraced.fault_trace, hmessage, hshaped, d, hd, hline⟩

end Stepwise
