/-
A definition read twice.

A line `#define NAME body` is read as tokens, the last of which is a literal with the
body, and as a macro with a body. The two readers take the line apart in the same way
as far as the name (`tokens_ofLine`, `ofLine?_eq`); behind it the one writes spaces for
the comments and the other drops them. Where the comments of the body stand by
themselves, the literal and the macro's body have the same tokens; a comment mark
inside quotes is enough to make them differ.
-/
import Stepwise.Proofs.Bodies
import Stepwise.Proofs.Comments
import Stepwise.Syntax.Equality
import Mathlib.Data.List.Permutation

set_option autoImplicit false

namespace Stepwise

namespace Token

/-- A run of characters of a class ends where one of another class stands. -/
theorem takeWhile_run {p : Char → Bool} {run s : List Char} (hrun : ∀ c ∈ run, p c = true)
    (hs : ∀ c ∈ s.head?, p c = false) :
    (run ++ s).takeWhile p = run ∧ (run ++ s).dropWhile p = s := by
  rw [List.takeWhile_append_of_pos hrun, List.dropWhile_append_of_pos hrun]
  cases s with
  | nil => exact ⟨List.append_nil _, rfl⟩
  | cons c s =>
    have hc := hs c rfl
    rw [List.takeWhile_cons, List.dropWhile_cons, hc]
    exact ⟨List.append_nil _, rfl⟩

/-! ## The line of a definition -/

/-- A line that defines a name without parameters: a body stands behind the name, up to the blanks
at the end of the line. -/
structure Definition where
  /-- The blanks in front. -/
  lead : List Char
  /-- The blanks between the command and the name. -/
  gap : List Char
  /-- The name. -/
  name : List Char
  /-- The body. -/
  body : List Char
  /-- The blanks at the end. -/
  tail : List Char
  lead_blank : ∀ c ∈ lead, Text.isBlank c = true
  gap_blank : ∀ c ∈ gap, Text.isBlank c = true
  gap_ne_nil : gap ≠ []
  name_word : ∀ c ∈ name, Text.isWordChar c = true
  name_ne_nil : name ≠ []
  /-- The name ends where the body begins. -/
  body_head : ∀ c ∈ body.head?, Text.isWordChar c = false
  /-- The blanks at the end are no part of the body. -/
  body_last : ∀ c ∈ body.getLast?, Text.isBlank c = false
  /-- Right behind the name stand no parentheses with parameters. -/
  body_plain : body.head? = some '(' → ')' ∉ body
  tail_blank : ∀ c ∈ tail, Text.isBlank c = true

namespace Definition

variable (d : Definition)

/-- The line from the name on. -/
def named : List Char :=
  d.name ++ (d.body ++ d.tail)

/-- The line. -/
def line : List Char :=
  d.lead ++ ("#define".toList ++ (d.gap ++ d.named))

/-- The macro that is defined on line `n`. -/
def toMacro (n : Nat) : Macro :=
  ⟨String.ofList d.name, none, String.ofList (Text.trim (Macro.dropComments d.body)), n⟩

theorem body_subset : d.body ⊆ d.line := by
  intro c hc
  simp [line, named, hc]

theorem tail_subset : d.tail ⊆ d.line := by
  intro c hc
  simp [line, named, hc]

/-- The name begins with no blank. -/
theorem head_named : ∀ c ∈ d.named.head?, Text.isBlank c = false := by
  obtain ⟨first, more, hname⟩ := List.exists_cons_of_ne_nil d.name_ne_nil
  intro c hc
  rw [named, hname] at hc
  obtain rfl := Option.some.inj hc
  exact Text.isBlank_of_isWordChar (d.name_word first (hname ▸ List.mem_cons_self))

/-- No word character stands behind the name. -/
theorem head_behind : ∀ c ∈ (d.body ++ d.tail).head?, Text.isWordChar c = false := by
  intro c hc
  rw [List.head?_append] at hc
  cases hbody : d.body.head? with
  | some b =>
    rw [hbody] at hc
    obtain rfl : b = c := Option.some.inj hc
    exact d.body_head b hbody
  | none =>
    rw [hbody, Option.none_or] at hc
    by_contra hword
    have hblank := Text.isBlank_of_isWordChar (Bool.eq_true_of_not_eq_false hword)
    rw [d.tail_blank c (List.mem_of_mem_head? hc)] at hblank
    cases hblank

/-! ## The macro -/

theorem strip?_append (expected s : List Char) :
    Macro.strip? expected (expected ++ s) = some s := by
  rw [Macro.strip?, if_pos (List.isPrefixOf_iff_prefix.2 (List.prefix_append _ _)),
    List.drop_left]

theorem parameterText?_eq_none : Macro.parameterText? (d.body ++ d.tail) = none := by
  unfold Macro.parameterText?
  split
  · next rest heq =>
    have hfree : ')' ∉ d.body ++ d.tail := by
      have hhead : d.body.head? = some '(' := by
        cases hbody : d.body with
        | nil =>
          have hblank := d.tail_blank '(' (by rw [hbody, List.nil_append] at heq; simp [heq])
          exact absurd hblank (by decide)
        | cons c more =>
          rw [hbody] at heq
          rw [(List.cons.inj heq).1]
          rfl
      rw [List.mem_append, not_or]
      exact ⟨d.body_plain hhead, fun hmem => absurd (d.tail_blank _ hmem) (by decide)⟩
    have hrest : rest.dropWhile (· != ')') = [] := by
      refine List.dropWhile_eq_nil_iff.2 fun c hc => ?_
      rw [bne_iff_ne]
      rintro rfl
      exact hfree (heq ▸ List.mem_cons_of_mem _ hc)
    rw [hrest]
  · rfl

theorem trim_dropComments (hline : '\n' ∉ d.line) :
    Text.trim (Macro.dropComments (d.body ++ d.tail)) = Text.trim (Macro.dropComments d.body) := by
  have hblanks : LineBlanks d.tail := by
    refine fun c hc => ⟨d.tail_blank c hc, ?_⟩
    rintro rfl
    exact hline (d.tail_subset hc)
  obtain ⟨u, hu, hcut⟩ :=
    dropComments_append_blanks (fun hmem => hline (d.body_subset hmem)) hblanks
  rw [hcut, Text.trim_append_right fun c hc => (hu c hc).1]

/-- The macro of a definition has the body without its comments. -/
theorem ofLine?_eq (hline : '\n' ∉ d.line) (n : Nat) :
    Macro.ofLine? n d.line = some (d.toMacro n) := by
  have hmark : Text.trimLeft d.line = ['#'] ++ ("define".toList ++ (d.gap ++ d.named)) := by
    rw [Text.trimLeft, line, List.dropWhile_append_of_pos d.lead_blank]
    rfl
  have hword : Text.trimLeft ("define".toList ++ (d.gap ++ d.named)) =
      "define".toList ++ (d.gap ++ d.named) := rfl
  have hnamed : Text.trimLeft (d.gap ++ d.named) = d.named :=
    (takeWhile_run d.gap_blank d.head_named).2
  obtain ⟨hname, hbehind⟩ : d.named.takeWhile Text.isWordChar = d.name ∧
      d.named.dropWhile Text.isWordChar = d.body ++ d.tail :=
    takeWhile_run d.name_word d.head_behind
  have hgap : d.named.length ≠ (d.gap ++ d.named).length := by
    have := List.length_pos_of_ne_nil d.gap_ne_nil
    rw [List.length_append]
    omega
  have hempty : d.name.isEmpty = false := List.isEmpty_eq_false_iff.2 d.name_ne_nil
  unfold Macro.ofLine?
  rw [hmark, strip?_append, Option.bind_eq_bind, Option.bind_some, hword, strip?_append,
    Option.bind_some]
  dsimp only
  rw [hnamed, hname, hbehind, d.parameterText?_eq_none, hempty, if_neg (by simpa using hgap)]
  dsimp only
  rw [d.trim_dropComments hline]
  rfl

/-! ## The tokens -/

theorem not_blank_of_name : ∀ c ∈ d.name, Text.isBlank c = false :=
  fun c hc => Text.isBlank_of_isWordChar (d.name_word c hc)

/-- The line without the blanks around it. -/
theorem trim_line : Text.trim d.line = "#define".toList ++ (d.gap ++ (d.name ++ d.body)) := by
  have hspelled : d.line
      = d.lead ++ (("#define".toList ++ (d.gap ++ (d.name ++ d.body))) ++ d.tail) := by
    rw [line, named]
    simp only [List.append_assoc]
  have hne : d.name ++ d.body ≠ [] := List.append_ne_nil_of_left_ne_nil d.name_ne_nil _
  obtain ⟨last, hlast⟩ := Option.ne_none_iff_exists'.1 (mt List.getLast?_eq_none_iff.1 hne)
  have hblank : Text.isBlank last = false := by
    rw [List.getLast?_append] at hlast
    cases hbody : d.body.getLast? with
    | some c =>
      rw [hbody] at hlast
      obtain rfl : c = last := Option.some.inj hlast
      exact d.body_last c hbody
    | none =>
      rw [hbody, Option.none_or] at hlast
      exact d.not_blank_of_name last (List.mem_of_getLast? hlast)
  have hend : ("#define".toList ++ (d.gap ++ (d.name ++ d.body))).getLast? = some last := by
    rw [← List.append_assoc, List.getLast?_append_of_ne_nil _ hne, hlast]
  rw [hspelled, Text.trim_append_left d.lead_blank, Text.trim_append_right d.tail_blank]
  exact @Text.trim_append_cons [] _ _ _ (by decide) hend hblank

/-- The comments of a definition are those of its body. -/
theorem text_ofLine (n : Nat) : (DirectiveLine.ofLine n d.line).text =
    "#define".toList ++ (d.gap ++ (d.name ++ blankComments d.body)) := by
  have hmarks : ∀ c ∈ ['/', '"', '\''], Text.isBlank c = false ∧ Text.isWordChar c = false := by
    rw [List.forall_mem_cons, List.forall_mem_cons, List.forall_mem_singleton]
    exact ⟨⟨rfl, rfl⟩, ⟨rfl, rfl⟩, rfl, rfl⟩
  have hgap : ∀ c ∈ d.gap, c ≠ '/' ∧ ¬ (c = '"' ∨ c = '\'') := by
    intro c hc
    have hfree : c ∉ ['/', '"', '\''] := by
      intro hmem
      have hblank := d.gap_blank c hc
      rw [(hmarks c hmem).1] at hblank
      cases hblank
    simpa using hfree
  have hname : ∀ c ∈ d.name, c ≠ '/' ∧ ¬ (c = '"' ∨ c = '\'') := by
    intro c hc
    have hfree : c ∉ ['/', '"', '\''] := by
      intro hmem
      have hword := d.name_word c hc
      rw [(hmarks c hmem).2] at hword
      cases hword
    simpa using hfree
  rw [DirectiveLine.ofLine, d.trim_line, blankComments_plain (by decide), blankComments_plain hgap,
    blankComments_plain hname]

theorem head_blanked_body : ∀ c ∈ (blankComments d.body).head?, Text.isWordChar c = false := by
  intro c hc
  rcases head_blankComments c hc with hhead | rfl
  · exact d.body_head c hhead
  · decide

/-- The tokens of a definition: the command, the name, and what is left of the body. -/
theorem tokens_ofLine (n : Nat) : ∃ column offset,
    (DirectiveLine.ofLine n d.line).text.drop offset = blankComments d.body ∧
    (DirectiveLine.ofLine n d.line).tokens =
      (DirectiveLine.ofLine n d.line).token .preprocessor 0 "#define".toList ::
        (DirectiveLine.ofLine n d.line).token .identifier column d.name ::
          (DirectiveLine.ofLine n d.line).remainder offset := by
  have htext := d.text_ofLine n
  generalize DirectiveLine.ofLine n d.line = directive at htext
  obtain ⟨blank, rest, hgap⟩ := List.exists_cons_of_ne_nil d.gap_ne_nil
  have hblank : Text.isBlank blank = true := d.gap_blank blank (hgap ▸ List.mem_cons_self)
  -- the command ends at the first blank of the gap
  have hcommand : directive.command = "#define".toList := by
    rw [DirectiveLine.command, firstWord, htext]
    refine (takeWhile_run (by decide) fun c hc => ?_).1
    rw [hgap] at hc
    obtain rfl := Option.some.inj hc
    rw [hblank]
    rfl
  have hrest : directive.text.drop directive.command.length =
      d.gap ++ (d.name ++ blankComments d.body) := by
    rw [hcommand, htext, List.drop_left]
  -- the gap ends where the name begins
  have hname : ∀ c ∈ (d.name ++ blankComments d.body).head?, Text.isBlank c = false := by
    obtain ⟨first, more, heq⟩ := List.exists_cons_of_ne_nil d.name_ne_nil
    intro c hc
    rw [heq] at hc
    obtain rfl := Option.some.inj hc
    exact d.not_blank_of_name first (heq ▸ List.mem_cons_self)
  have hdefinition : directive.definition? =
      some (directive.token .identifier (directive.command.length + d.gap.length) d.name ::
        directive.remainder (directive.command.length + d.gap.length + d.name.length)) := by
    have hlength : d.gap.length ≠ 0 := by
      rw [hgap]
      exact Nat.succ_ne_zero _
    unfold DirectiveLine.definition?
    dsimp only
    rw [hrest, (takeWhile_run d.gap_blank hname).1, List.drop_left,
      (takeWhile_run d.name_word d.head_blanked_body).1, if_neg (by simp [hlength, d.name_ne_nil])]
  refine ⟨directive.command.length + d.gap.length,
    directive.command.length + d.gap.length + d.name.length, ?_, ?_⟩
  · rw [← List.drop_drop, ← List.drop_drop, hrest, List.drop_left, List.drop_left]
  · rw [DirectiveLine.tokens, DirectiveLine.arguments, if_neg (by rw [hcommand]; decide),
      if_pos hcommand, hdefinition, hcommand]
    rfl

end Definition

/-! ## The literals of a line -/

/-- The literals among tokens that stand on a line. -/
def literalsOn (n : Nat) (tokens : List Token) : List Token :=
  tokens.filter fun t => t.kind = .literal ∧ t.line = n

theorem map_fst_numbered (n : Nat) (lines : List (List Char)) :
    (numbered n lines).map Prod.fst = List.range' n lines.length := by
  induction lines generalizing n with
  | nil => rfl
  | cons line lines ih => rw [numbered, List.map_cons, ih, List.length_cons, List.range'_succ]

/-- The literals on the line of a directive are those of the directive. -/
theorem literalsOn_tokenize {source : String} {n : Nat} {raw : List Char}
    (h : (n, raw) ∈ directiveLines source.toList) :
    (literalsOn n (tokenize source)).Perm (literalsOn n (DirectiveLine.ofLine n raw).tokens) := by
  have hplain : ((plainSegments source.toList).filterMap ofSegment?).filter
      (fun t => t.kind = .literal ∧ t.line = n) = [] := by
    refine List.filter_eq_nil_iff.2 fun t ht htrue => ?_
    refine plain_line ht ?_
    rw [(of_decide_eq_true htrue).2]
    exact List.mem_map_of_mem h
  have hnodup : ((directiveLines source.toList).map Prod.fst).Nodup := by
    have hsub := (List.filter_sublist (p := fun entry => isDirective entry.2)
      (l := numbered 1 (Text.pieces '\n' source.toList))).map Prod.fst
    refine hsub.nodup ?_
    rw [map_fst_numbered]
    exact List.nodup_range'
  obtain ⟨front, back, hsplit⟩ := List.append_of_mem h
  rw [hsplit, List.map_append, List.map_cons, List.nodup_middle, List.nodup_cons, List.mem_append,
    not_or] at hnodup
  -- no other directive has tokens on the line
  have hother : ∀ entries : List (Nat × List Char), n ∉ entries.map Prod.fst →
      (entries.flatMap fun entry => (DirectiveLine.ofLine entry.1 entry.2).tokens).filter
        (fun t => t.kind = .literal ∧ t.line = n) = [] := by
    intro entries hfree
    refine List.filter_eq_nil_iff.2 fun t ht htrue => ?_
    obtain ⟨entry, hentry, hmem⟩ := List.mem_flatMap.1 ht
    refine hfree ?_
    rw [← (of_decide_eq_true htrue).2, (DirectiveLine.mem_tokens hmem).line]
    exact List.mem_map_of_mem hentry
  have hdirectives : (directiveTokens source.toList).filter
      (fun t => t.kind = .literal ∧ t.line = n) =
        literalsOn n (DirectiveLine.ofLine n raw).tokens := by
    rw [directiveTokens, hsplit, List.flatMap_append, List.flatMap_cons, List.filter_append,
      List.filter_append, hother _ hnodup.1.1, hother _ hnodup.1.2, List.nil_append,
      List.append_nil]
    rfl
  have hperm := (List.mergeSort_perm (directiveTokens source.toList ++
    (plainSegments source.toList).filterMap ofSegment?) noLater).filter
      (fun t => t.kind = .literal ∧ t.line = n)
  rw [List.filter_append, hplain, List.append_nil, hdirectives] at hperm
  exact hperm

/-- The literals on the line of a definition: the body with its comments blanked, or none. -/
theorem literalsOn_definition {source : String} {n : Nat} {d : Definition}
    (h : (n, d.line) ∈ directiveLines source.toList) :
    ∃ offset, (DirectiveLine.ofLine n d.line).text.drop offset = blankComments d.body ∧
      literalsOn n (tokenize source) = (DirectiveLine.ofLine n d.line).remainder offset := by
  have hperm := literalsOn_tokenize h
  obtain ⟨column, offset, hdrop, htokens⟩ := d.tokens_ofLine n
  refine ⟨offset, hdrop, ?_⟩
  have hremainder : ∀ t ∈ (DirectiveLine.ofLine n d.line).remainder offset,
      decide (t.kind = .literal ∧ t.line = n) = true := by
    intro t ht
    refine decide_eq_true ⟨DirectiveLine.remainder_kind ht, ?_⟩
    have hmem : t ∈ (DirectiveLine.ofLine n d.line).tokens := by
      rw [htokens]
      exact List.mem_cons_of_mem _ (List.mem_cons_of_mem _ ht)
    exact (DirectiveLine.mem_tokens hmem).line
  have hliterals : literalsOn n (DirectiveLine.ofLine n d.line).tokens =
      (DirectiveLine.ofLine n d.line).remainder offset := by
    rw [htokens, literalsOn]
    exact List.filter_eq_self.2 hremainder
  rw [hliterals] at hperm
  revert hperm
  unfold DirectiveLine.remainder
  dsimp only
  split
  · exact List.Perm.eq_nil
  · exact List.perm_singleton.1

/-- A literal made of a text has the tokens of the text. -/
theorem contents_remainder (d : DirectiveLine) (offset : Nat) :
    (d.remainder offset).flatMap (fun t => contents t.text) =
      contents (String.ofList (Text.trim (d.text.drop offset))) := by
  unfold DirectiveLine.remainder
  dsimp only
  split
  · next hempty =>
    rw [List.isEmpty_iff.1 hempty, contents_nil]
    rfl
  · exact List.append_nil _

theorem length_remainder_le (d : DirectiveLine) (offset : Nat) :
    (d.remainder offset).length ≤ 1 := by
  unfold DirectiveLine.remainder
  dsimp only
  split
  · exact Nat.zero_le _
  · exact le_rfl

theorem Definition.isDirective_line (d : Definition) : isDirective d.line = true := by
  rw [isDirective, Text.trimLeft, Definition.line, List.dropWhile_append_of_pos d.lead_blank]
  rfl

end Token

/-! ## The macros of a program -/

/-- The macro that a directive of a program gives, if it gives one. -/
def Directive.defined? (lines : List String) (d : Directive) : Option Macro :=
  if d.command = "#define" then
    match lines[d.line - 1]? with
    | some line => Macro.ofLine? d.line line.toList
    | none => none
  else none

/-- The macro of a name is that of the last directive that defines it. -/
theorem Program.find?_macros {p : Program} {lines : List String} {front back : List Directive}
    {d : Directive} {m : Macro} (hdirectives : p.directives = front ++ d :: back)
    (hd : d.defined? lines = some m)
    (hlast : ∀ e ∈ back, ∀ other, e.defined? lines = some other → other.name ≠ m.name) :
    (p.macros lines).find? m.name = some m := by
  have hentries : p.macros lines = Table.ofEntries
      ((p.directives.filterMap (Directive.defined? lines)).map fun m => (m.name, m)) := rfl
  rw [hentries, hdirectives, List.filterMap_append, List.filterMap_cons, hd]
  dsimp only
  rw [List.map_append, List.map_cons]
  refine Table.find?_ofEntries_last BEq.rfl fun e he => ?_
  obtain ⟨other, hother, rfl⟩ := List.mem_map.1 he
  obtain ⟨directive, hmem, hdefined⟩ := List.mem_filterMap.1 hother
  exact beq_eq_false_iff_ne.2 (hlast directive hmem other hdefined)

namespace Token

/-- **The two readers of a definition agree** where the comments of its body stand by themselves:
the body of the macro has the tokens of the literal that stands on the line, and none if no literal
stands there. -/
theorem definitions_agree {p : Program} {source : String} {front back : List Directive}
    {directive : Directive} {d : Definition}
    (hdirectives : p.directives = front ++ directive :: back)
    (hcommand : directive.command = "#define") (hfirst : 0 < directive.line)
    (hline : (Text.pieces '\n' source.toList)[directive.line - 1]? = some d.line)
    (hlast : ∀ e ∈ back, ∀ m, e.defined? (Text.lines source) = some m →
      m.name ≠ String.ofList d.name)
    (hapart : CommentsApart d.body) :
    ∃ m : Macro, m.parameters = none ∧ m.line = directive.line ∧
      (p.macros (Text.lines source)).find? (String.ofList d.name) = some m ∧
      (∀ spare a, analyze p source (tokenize source) spare = .ok a →
        a.macros.find? (String.ofList d.name) = some m) ∧
      (literalsOn directive.line (tokenize source)).length ≤ 1 ∧
      (literalsOn directive.line (tokenize source)).flatMap (fun t => contents t.text) =
        contents m.body := by
  have hfree : '\n' ∉ d.line := Text.not_mem_of_mem_pieces (List.mem_of_getElem? hline)
  have hmem : (directive.line, d.line) ∈ directiveLines source.toList := by
    refine List.mem_filter.2 ⟨mem_numbered.2 ⟨directive.line - 1, by omega, hline⟩, ?_⟩
    exact d.isDirective_line
  have hdefined : directive.defined? (Text.lines source) = some (d.toMacro directive.line) := by
    rw [Directive.defined?, if_pos hcommand, Text.lines, List.getElem?_map, hline]
    show Macro.ofLine? directive.line (String.ofList d.line).toList = _
    rw [String.toList_ofList, d.ofLine?_eq hfree]
  have hfind : (p.macros (Text.lines source)).find? (String.ofList d.name) =
      some (d.toMacro directive.line) := Program.find?_macros hdirectives hdefined hlast
  obtain ⟨offset, hdrop, hliterals⟩ := literalsOn_definition hmem
  refine ⟨d.toMacro directive.line, rfl, rfl, hfind, ?_, ?_, ?_⟩
  · intro spare a ha
    rw [analyze_macros ha, hfind]
  · rw [hliterals]
    exact length_remainder_le _ _
  · rw [hliterals, contents_remainder, hdrop]
    exact (contents_trim_eq (fun hmem => hfree (d.body_subset hmem)) hapart).symm

/-! ## Two definitions -/

namespace CommentedSum

/-- A definition whose body has a comment between its parts and one behind them. -/
def definition : Definition where
  lead := []
  gap := [' ']
  name := "SIZE".toList
  body := " 10 /* ten */ + \"a\"[0] // tail".toList
  tail := []
  lead_blank := by decide
  gap_blank := by decide
  gap_ne_nil := by decide
  name_word := by decide +kernel
  name_ne_nil := by decide
  body_head := by decide +kernel
  body_last := by decide +kernel
  body_plain := by decide +kernel
  tail_blank := by decide

/-- The source of a program that has the definition. -/
def source : String :=
  "#define SIZE 10 /* ten */ + \"a\"[0] // tail\n"

/-- The directive of the program. -/
def directive : Directive :=
  ⟨1, "#define", ["SIZE", "10           + \"a\"[0]"]⟩

/-- The program. -/
def program : Program :=
  ⟨[.directive directive]⟩

/-- Its tokens. -/
def tokens : List Token :=
  [⟨.preprocessor, "#define", 1, 1⟩, ⟨.identifier, "SIZE", 1, 9⟩,
    ⟨.literal, "10           + \"a\"[0]", 1, 14⟩]

theorem parse_tokens : parse tokens = .ok program := by
  decide +kernel

/-- The tokens of the text, its first line, and that the comments stand apart. -/
theorem readings : tokenize source = tokens ∧
    (Text.pieces '\n' source.toList)[0]? = some definition.line ∧
    CommentsApart definition.body := by
  refine ⟨?tokens, ?line, ?apart⟩
  case tokens => exact tokenize_of_chars rfl (by decide +kernel) (by decide +kernel)
  case line => decide +kernel
  case apart =>
    exact ⟨by decide +kernel, by decide +kernel, by decide +kernel, by decide +kernel⟩

end CommentedSum

/-- The literal and the body of a macro with comments are read alike. -/
theorem commented_sum_is_read_alike :
    parse (tokenize CommentedSum.source) = .ok CommentedSum.program ∧
    CommentsApart CommentedSum.definition.body ∧
    ∃ m : Macro, m.parameters = none ∧ m.line = 1 ∧
      (CommentedSum.program.macros (Text.lines CommentedSum.source)).find? "SIZE" = some m ∧
      (∀ spare a, analyze CommentedSum.program CommentedSum.source (tokenize CommentedSum.source)
        spare = .ok a → a.macros.find? "SIZE" = some m) ∧
      (literalsOn 1 (tokenize CommentedSum.source)).length ≤ 1 ∧
      (literalsOn 1 (tokenize CommentedSum.source)).flatMap (fun t => contents t.text) =
        contents m.body := by
  obtain ⟨htokens, hline, hapart⟩ := CommentedSum.readings
  refine ⟨?_, hapart, ?_⟩
  · rw [htokens, CommentedSum.parse_tokens]
  · exact @definitions_agree CommentedSum.program CommentedSum.source [] []
      CommentedSum.directive CommentedSum.definition rfl rfl (by decide) hline
      (List.forall_mem_nil _) hapart

namespace QuotedSlashes

/-- The source of a program with slashes inside the quotes of a definition. -/
def source : String :=
  "#define URL \"http://x\"\nint main() \x7b return 0; \x7d\n"

/-- Its tokens. -/
def tokens : List Token :=
  [⟨.preprocessor, "#define", 1, 1⟩, ⟨.identifier, "URL", 1, 9⟩, ⟨.literal, "\"http://x\"", 1, 13⟩,
    ⟨.keyword, "int", 2, 1⟩, ⟨.identifier, "main", 2, 5⟩, ⟨.punctuation, "(", 2, 9⟩,
    ⟨.punctuation, ")", 2, 10⟩, ⟨.punctuation, "\x7b", 2, 12⟩, ⟨.keyword, "return", 2, 14⟩,
    ⟨.literal, "0", 2, 21⟩, ⟨.punctuation, ";", 2, 22⟩, ⟨.punctuation, "\x7d", 2, 24⟩]

/-- The program. -/
def program : Program :=
  ⟨[.directive ⟨1, "#define", ["URL", "\"http://x\""]⟩,
    .function ⟨2, "main", .int, [], 2, [.ret 2 (some (.literal 2 "0"))]⟩]⟩

theorem parse_tokens : parse tokens = .ok program := by
  decide +kernel

/-- The macro, with the text behind the slashes cut off. -/
def cutMacro : Macro :=
  ⟨"URL", none, "\"http:", 1⟩

/-- What the two readers make of the text: the lexer's tokens with the literal, and the body of the
macro. -/
theorem readings : tokenize source = tokens ∧
    program.macros (Text.lines source) = [("URL", cutMacro)] ∧
    tokenize "\"http://x\"" = [⟨.literal, "\"http://x\"", 1, 1⟩] ∧
    tokenize cutMacro.body = [⟨.identifier, "http", 1, 2⟩, ⟨.punctuation, ":", 1, 6⟩] := by
  refine ⟨?tokens, ?macros, ?literal, ?cut⟩
  case tokens => exact tokenize_of_chars rfl (by decide +kernel) (by decide +kernel)
  case macros =>
    have hsource : source = String.ofList _ := rfl
    rw [Text.lines_of_chars hsource]
    decide +kernel
  case literal => exact tokenize_of_sorted (by decide +kernel) (by decide +kernel)
  case cut => exact tokenize_of_sorted (by decide +kernel) (by decide +kernel)

theorem analyze_program : ∃ a, analyze program source tokens = .ok a ∧
    a.macros.find? "URL" = some cutMacro :=
  ⟨_, rfl, by rw [readings.2.1]; rfl⟩

theorem contents_literal : contents "\"http://x\"" = [(.literal, "\"http://x\"")] := by
  rw [contents, readings.2.2.1]
  rfl

theorem contents_cut : contents cutMacro.body = [(.identifier, "http"), (.punctuation, ":")] := by
  rw [contents, readings.2.2.2]
  rfl

end QuotedSlashes

/-- Slashes inside the quotes of a definition are no comment to the one reader, and one to the
other. -/
theorem quoted_slashes_are_cut :
    parse (tokenize QuotedSlashes.source) = .ok QuotedSlashes.program ∧
    ∃ a m, analyze QuotedSlashes.program QuotedSlashes.source (tokenize QuotedSlashes.source) =
        .ok a ∧
      a.macros.find? "URL" = some m ∧ m.parameters = none ∧ m.line = 1 ∧
      literalsOn 1 (tokenize QuotedSlashes.source) =
        [⟨.literal, "\"http://x\"", 1, 13⟩] ∧
      (literalsOn 1 (tokenize QuotedSlashes.source)).flatMap (fun t => contents t.text) ≠
        contents m.body := by
  have hliterals : literalsOn 1 QuotedSlashes.tokens = [⟨.literal, "\"http://x\"", 1, 13⟩] := rfl
  obtain ⟨a, ha, hfind⟩ := QuotedSlashes.analyze_program
  rw [QuotedSlashes.readings.1, QuotedSlashes.parse_tokens, hliterals]
  refine ⟨rfl, a, _, ha, hfind, rfl, rfl, rfl, ?_⟩
  rw [List.flatMap_singleton, QuotedSlashes.contents_literal, QuotedSlashes.contents_cut]
  decide

end Token

end Stepwise
