/-
Programs come to an end.

Loops are bounded by the settings and calls inside calls are, so there are only two
things that could go on for ever: a macro that expands to itself, and a struct that
contains itself. Where the program has neither, the bound on such nestings is never
met. Then the trace of the program does not depend on how far the bound lies above
what the program needs, and it does not end for want of depth, whatever loops and
recursive calls the program has.

One and the same program is executed with different amounts of depth to spare, and no
fault is tolerated that says that there was too little.
-/
import Stepwise.Proofs.Nesting
import Stepwise.Syntax.Equality
import Mathlib.Data.List.Permutation

set_option autoImplicit false

namespace Stepwise

/-! ## The main result -/

/-- **Programs come to an end.** If no macro of a program refers to itself and no struct contains
itself, not even through others, then there is nothing that the bound on nestings could stop: the
trace is the same for every bound above what the program needs, and it does not end for want of
depth, under any settings. -/
theorem trace_independent_of_depth {source : String} {p : Program}
    (hparse : parse (tokenize source) = .ok p)
    (hmacros : (p.macros (Text.lines source)).Acyclic) (hstructs : p.StructsAcyclic)
    (settings : Settings) {spare : Nat} (hspare : 1 ≤ spare) :
    p.trace source (tokenize source) settings spare = p.trace source (tokenize source) settings ∧
      (p.trace source (tokenize source) settings spare).fault ≠ some .endless := by
  have hdefault : 1 ≤ spareDepth := by decide
  have hlayouts : ∀ layouts, p.layouts spare (p.macros (Text.lines source)) = .ok layouts →
      layouts.Agree .finite spare spareDepth := by
    intro layouts hlaid
    exact Layouts.agree_of_acyclic
      (Program.layouts_acyclic hlaid (parse_bracket_not_mem hparse) hstructs) spare spareDepth
  obtain ⟨hsame, hfinite⟩ := Program.trace_agrees (F := .finite)
    (Macros.agree_of_acyclic (p.macros_named source) hmacros hspare hdefault) hlayouts
    (fun d _ h => by cases h) (tokenize source) settings
  exact ⟨hsame, fun hendless => hfinite _ hendless rfl⟩

/-! ## Macros in macros, structs in structs, calls in calls -/

namespace Descending

/-- A program with a macro that refers to another, a struct that contains another, and a function
that calls itself. -/
def source : String :=
  "#define ONE 1\n#define LESS(n) (n-ONE)\nstruct P\x7bint x;\x7d;\nstruct L\x7bstruct P p;\x7d;\n"
    ++ "int f(int n)\x7breturn n?f(LESS(n)):n;\x7d\nint main()\x7bstruct L l;return f(2);\x7d\n"

/-- Its tokens. -/
def tokens : List Token :=
  [⟨.preprocessor, "#define", 1, 1⟩, ⟨.identifier, "ONE", 1, 9⟩, ⟨.literal, "1", 1, 13⟩,
    ⟨.preprocessor, "#define", 2, 1⟩, ⟨.identifier, "LESS", 2, 9⟩,
    ⟨.literal, "(n) (n-ONE)", 2, 13⟩, ⟨.keyword, "struct", 3, 1⟩, ⟨.identifier, "P", 3, 8⟩,
    ⟨.punctuation, "\x7b", 3, 9⟩, ⟨.keyword, "int", 3, 10⟩, ⟨.identifier, "x", 3, 14⟩,
    ⟨.punctuation, ";", 3, 15⟩, ⟨.punctuation, "\x7d", 3, 16⟩, ⟨.punctuation, ";", 3, 17⟩,
    ⟨.keyword, "struct", 4, 1⟩, ⟨.identifier, "L", 4, 8⟩, ⟨.punctuation, "\x7b", 4, 9⟩,
    ⟨.keyword, "struct", 4, 10⟩, ⟨.identifier, "P", 4, 17⟩, ⟨.identifier, "p", 4, 19⟩,
    ⟨.punctuation, ";", 4, 20⟩, ⟨.punctuation, "\x7d", 4, 21⟩, ⟨.punctuation, ";", 4, 22⟩,
    ⟨.keyword, "int", 5, 1⟩, ⟨.identifier, "f", 5, 5⟩, ⟨.punctuation, "(", 5, 6⟩,
    ⟨.keyword, "int", 5, 7⟩, ⟨.identifier, "n", 5, 11⟩, ⟨.punctuation, ")", 5, 12⟩,
    ⟨.punctuation, "\x7b", 5, 13⟩, ⟨.keyword, "return", 5, 14⟩, ⟨.identifier, "n", 5, 21⟩,
    ⟨.punctuation, "?", 5, 22⟩, ⟨.identifier, "f", 5, 23⟩, ⟨.punctuation, "(", 5, 24⟩,
    ⟨.identifier, "LESS", 5, 25⟩, ⟨.punctuation, "(", 5, 29⟩, ⟨.identifier, "n", 5, 30⟩,
    ⟨.punctuation, ")", 5, 31⟩, ⟨.punctuation, ")", 5, 32⟩, ⟨.punctuation, ":", 5, 33⟩,
    ⟨.identifier, "n", 5, 34⟩, ⟨.punctuation, ";", 5, 35⟩, ⟨.punctuation, "\x7d", 5, 36⟩,
    ⟨.keyword, "int", 6, 1⟩, ⟨.identifier, "main", 6, 5⟩, ⟨.punctuation, "(", 6, 9⟩,
    ⟨.punctuation, ")", 6, 10⟩, ⟨.punctuation, "\x7b", 6, 11⟩, ⟨.keyword, "struct", 6, 12⟩,
    ⟨.identifier, "L", 6, 19⟩, ⟨.identifier, "l", 6, 21⟩, ⟨.punctuation, ";", 6, 22⟩,
    ⟨.keyword, "return", 6, 23⟩, ⟨.identifier, "f", 6, 30⟩, ⟨.punctuation, "(", 6, 31⟩,
    ⟨.literal, "2", 6, 32⟩, ⟨.punctuation, ")", 6, 33⟩, ⟨.punctuation, ";", 6, 34⟩,
    ⟨.punctuation, "\x7d", 6, 35⟩]

/-- The inner struct. -/
def inner : Struct :=
  ⟨3, "P", [⟨3, .int, [⟨3, "x", 0, .none, none⟩]⟩]⟩

/-- The struct that contains it. -/
def outer : Struct :=
  ⟨4, "L", [⟨4, ⟨"struct P"⟩, [⟨4, "p", 0, .none, none⟩]⟩]⟩

/-- The program. -/
def program : Program :=
  ⟨[.directive ⟨1, "#define", ["ONE", "1"]⟩, .directive ⟨2, "#define", ["LESS", "(n) (n-ONE)"]⟩,
    .struct inner, .struct outer,
    .function
      { line := 5
        name := "f"
        returnType := .int
        parameters := [⟨.int, "n", false, false⟩]
        bodyLine := 5
        body :=
          [.ret 5 (some (.conditional 5 (.name 5 "n")
            (.call 5 "f" [.call 5 "LESS" [.name 5 "n"]]) (.name 5 "n")))] },
    .function
      { line := 6
        name := "main"
        returnType := .int
        parameters := []
        bodyLine := 6
        body :=
          [.decl ⟨6, ⟨"struct L"⟩, [⟨6, "l", 0, .none, none⟩]⟩,
            .ret 6 (some (.call 6 "f" [.literal 6 "2"]))] }]⟩

theorem tokenize_source : tokenize source = tokens :=
  Token.tokenize_of_chars (Text.append_of_chars rfl rfl) (by decide +kernel) (by decide +kernel)

theorem parse_tokens : parse tokens = .ok program := by
  decide +kernel

theorem macros_program : program.macros (Text.lines source)
    = [("ONE", ⟨"ONE", none, "1", 1⟩), ("LESS", ⟨"LESS", some ["n"], "(n-ONE)", 2⟩)] := by
  have hsource : source = String.ofList _ := Text.append_of_chars rfl rfl
  rw [Text.lines_of_chars hsource]
  decide +kernel

theorem definitions_program :
    program.definitions = [("struct P", inner), ("struct L", outer)] := by
  rfl

theorem macros_acyclic : (program.macros (Text.lines source)).Acyclic := by
  refine not_transGen_of_rank (fun name => if name = "LESS" then 1 else 0) ?_
  rw [macros_program]
  rintro a b ⟨hb, m, hm, hword⟩
  obtain ⟨v, hv⟩ := Table.has_eq_true_iff.1 hb
  obtain ⟨ka, hka, heqa⟩ := Table.mem_of_find? hm
  obtain ⟨kb, hkb, heqb⟩ := Table.mem_of_find? hv
  obtain rfl := eq_of_beq heqa
  obtain rfl := eq_of_beq heqb
  simp only [List.mem_cons, Prod.mk.injEq, List.not_mem_nil, or_false] at hka hkb
  obtain ⟨rfl, rfl⟩ | ⟨rfl, rfl⟩ := hka <;> obtain ⟨rfl, _⟩ | ⟨rfl, _⟩ := hkb
  · exact absurd hword.subset (by decide)
  · exact absurd hword.subset (by decide)
  · decide
  · exact absurd hword.subset (by decide)

theorem structs_acyclic : program.StructsAcyclic := by
  refine not_transGen_of_rank (fun name => if name = "struct L" then 1 else 0) ?_
  rintro a b ⟨_, s, hs, field, hfield, hholds⟩
  rw [definitions_program] at hs
  obtain ⟨key, ha, heq⟩ := Table.mem_of_find? hs
  obtain rfl := eq_of_beq heq
  simp only [List.mem_cons, Prod.mk.injEq, List.not_mem_nil, or_false] at ha
  obtain ⟨rfl, rfl⟩ | ⟨rfl, rfl⟩ := ha
  · obtain rfl := List.mem_singleton.1 hfield
    cases hholds with
    | struct h => exact absurd h (by decide)
    | array h _ _ => exact absurd h (by decide)
  · obtain rfl := List.mem_singleton.1 hfield
    cases hholds with
    | struct h => decide
    | array h _ _ => exact absurd h (by decide)

end Descending

/-- The trace of this program needs no more than the least depth there can be to spare. -/
theorem least_depth_suffices :
    (Descending.program.macros (Text.lines Descending.source)).Acyclic ∧
      Descending.program.StructsAcyclic ∧
      Descending.program.trace Descending.source (tokenize Descending.source) {} 1
        = Descending.program.trace Descending.source (tokenize Descending.source) {} := by
  refine ⟨Descending.macros_acyclic, Descending.structs_acyclic, ?_⟩
  have hparse : parse (tokenize Descending.source) = .ok Descending.program := by
    rw [Descending.tokenize_source]
    exact Descending.parse_tokens
  exact (trace_independent_of_depth hparse Descending.macros_acyclic Descending.structs_acyclic {}
    (Nat.le_refl 1)).1

end Stepwise
