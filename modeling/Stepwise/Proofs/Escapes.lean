/-
Room for texts.

An array of characters without a size is as long as its initializer needs. The length is
taken from the literal as it is written, one less than there are characters between and
with the quotes; what has to fit is the text with its escapes resolved, and one more
character to end it. The two are the same as long as nothing is escaped. An escape is
written with two characters at least and stands for one, so every escape leaves room that
is never used, and the size of the array is more than one above the length of the text.
-/
import Stepwise.Proofs.Alignment
import Stepwise.Proofs.Copies
import Stepwise.Proofs.Counts
import Stepwise.Proofs.Toplevel

set_option autoImplicit false

namespace Stepwise

namespace Literal

/-! ## Escapes -/

/-- Characters of an escape that is already resolved are passed over. -/
theorem unescapeFrom_eq_drop (skip : Nat) (s : List Char) :
    unescapeFrom skip s = unescapeFrom 0 (s.drop skip) := by
  induction s generalizing skip with
  | nil => simp [unescapeFrom]
  | cons c rest ih =>
    cases skip with
    | zero => rfl
    | succ skip =>
      rw [List.drop_succ_cons, ← ih skip]
      simp only [unescapeFrom]

/-- A character that is not escaped stands for itself, and so does a backslash at the end; any other
backslash makes one character of those behind it. -/
theorem unescape_cons_cases {c : Char} {rest out : List Char}
    (h : unescapeFrom 0 (c :: rest) = .ok out) :
    ((c ≠ '\\' ∨ rest = []) ∧ ∃ tail, unescapeFrom 0 rest = .ok tail ∧ out = c :: tail) ∨
    (c = '\\' ∧ rest ≠ [] ∧ ∃ k resolved tail, 0 < k ∧
      unescapeFrom 0 (rest.drop k) = .ok tail ∧ out = resolved :: tail) := by
  simp only [unescapeFrom] at h
  by_cases hslash : c = '\\'
  · rw [if_pos hslash] at h
    cases rest with
    | nil =>
      obtain rfl := Except.ok.inj h
      exact Or.inl ⟨Or.inr rfl, [], rfl, by rw [hslash]⟩
    | cons d more =>
      refine Or.inr ⟨hslash, List.cons_ne_nil d more, ?_⟩
      -- whatever the escape is, it takes some characters and gives one
      have hresolved : ∀ {k : Nat} {code : Except Fault Char}, 0 < k →
          (do let resolved ← code; let tail ← unescapeFrom k (d :: more); return resolved :: tail)
            = Except.ok out →
          ∃ k resolved tail, 0 < k ∧ unescapeFrom 0 ((d :: more).drop k) = .ok tail ∧
            out = resolved :: tail := by
        intro k code hk hcode
        obtain ⟨resolved, _, hcode⟩ := bind_eq_ok.1 hcode
        obtain ⟨tail, htail, hout⟩ := bind_eq_ok.1 hcode
        rw [unescapeFrom_eq_drop] at htail
        exact ⟨k, resolved, tail, hk, htail, (Except.ok.inj hout).symm⟩
      dsimp only at h
      -- a hexadecimal escape, an octal one, or one character
      split at h
      · split at h
        · cases h
        · exact hresolved (by omega) h
      · split at h
        · next hoctal =>
          refine hresolved ?_ h
          rw [List.take_succ_cons, List.takeWhile_cons_of_pos hoctal]
          simp
        · exact @hresolved 1 (.ok (escape d)) Nat.one_pos h
  · rw [if_neg hslash] at h
    obtain ⟨tail, htail, hout⟩ := bind_eq_ok.1 h
    exact Or.inl ⟨Or.inl hslash, tail, htail, (Except.ok.inj hout).symm⟩

/-- A text with its escapes resolved is no longer than it is written. -/
theorem length_unescape_le {s out : List Char} (h : unescapeFrom 0 s = .ok out) :
    out.length ≤ s.length := by
  induction hlength : s.length using Nat.strong_induction_on generalizing s out with
  | _ n ih =>
    subst hlength
    cases s with
    | nil =>
      obtain rfl := Except.ok.inj h
      exact Nat.le_refl _
    | cons c rest =>
      rcases unescape_cons_cases h with ⟨_, tail, htail, rfl⟩ |
        ⟨_, _, k, resolved, tail, hk, htail, rfl⟩
      · have hle := ih rest.length (by simp) htail rfl
        simpa using hle
      · have hshort : (rest.drop k).length ≤ rest.length := by
          rw [List.length_drop]
          exact Nat.sub_le _ _
        have hle := ih (rest.drop k).length (Nat.lt_succ_of_le hshort) htail rfl
        simp only [List.length_cons]
        omega

/-- Without a backslash it is what is written. -/
theorem unescape_of_plain {s : List Char} (h : '\\' ∉ s) : unescapeFrom 0 s = .ok s := by
  induction s with
  | nil => rfl
  | cons c rest ih =>
    rw [List.mem_cons, not_or] at h
    simp only [unescapeFrom]
    rw [if_neg (Ne.symm h.1), ih h.2]
    rfl

/-- A backslash with something behind it takes up more than it stands for. -/
theorem length_unescape_lt {s out : List Char} (h : unescapeFrom 0 s = .ok out)
    (hslash : '\\' ∈ s.dropLast) : out.length < s.length := by
  induction s generalizing out with
  | nil => cases hslash
  | cons c rest ih =>
    have hne : rest ≠ [] := by
      rintro rfl
      cases hslash
    rw [List.dropLast_cons_of_ne_nil hne] at hslash
    rcases unescape_cons_cases h with ⟨hplain, tail, htail, rfl⟩ |
      ⟨_, _, k, resolved, tail, hk, htail, rfl⟩
    · have hc : '\\' ≠ c := Ne.symm (hplain.resolve_right hne)
      have hlt := ih htail ((List.mem_cons.1 hslash).resolve_left hc)
      simpa using hlt
    · have hle := length_unescape_le htail
      have hpos := List.length_pos_iff.2 hne
      rw [List.length_drop] at hle
      simp only [List.length_cons]
      omega

end Literal

/-! ## Texts in quotes -/

namespace Token

/-- Between the quotes a backslash never stands last, for it takes a character along. -/
theorem QuoteTail.exists_body {quote : Char} {tail : List Char} (h : QuoteTail quote tail) :
    ∃ body, tail = body ++ [quote] ∧ ('\\' ∈ body → '\\' ∈ body.dropLast) := by
  induction h with
  | close => exact ⟨[], rfl, id⟩
  | escape c _ ih =>
    obtain ⟨body, rfl, _⟩ := ih
    refine ⟨'\\' :: c :: body, rfl, fun _ => ?_⟩
    rw [List.dropLast_cons_of_ne_nil (List.cons_ne_nil c body)]
    exact List.mem_cons_self
  | @plain c rest _ hslash _ _ ih =>
    obtain ⟨body, rfl, hbody⟩ := ih
    refine ⟨c :: body, rfl, fun hmem => ?_⟩
    have hmem := (List.mem_cons.1 hmem).resolve_left (Ne.symm hslash)
    rw [List.dropLast_cons_of_ne_nil (List.ne_nil_of_mem hmem)]
    exact List.mem_cons_of_mem _ (hbody hmem)

end Token

/-- What a text in double quotes stands for and one more character fit into what is written less
one, and they fill it exactly if nothing is escaped. -/
theorem literal_room {text value : String} {type : CType} (hquoted : Token.IsQuoted text.toList)
    (hvalue : literalValue text = .ok ⟨.text value, type⟩) :
    text.toList.head? = some '"' ∧ value.length + 1 ≤ text.length - 1 ∧
      (text.length - 1 = value.length + 1 ↔ '\\' ∉ text.toList) := by
  obtain ⟨quote, tail, htext, hquote, htail⟩ := hquoted
  obtain ⟨body, rfl, hbody⟩ := htail.exists_body
  have hlength : text.length = body.length + 2 := by
    rw [← String.length_toList, htext]
    simp
  have hinner : Literal.inner (quote :: (body ++ [quote])) = body := by
    rw [Literal.inner, List.drop_one, List.tail_cons, List.dropLast_concat]
  rw [literalValue, htext] at hvalue
  rcases hquote with rfl | rfl
  · obtain ⟨out, hout, hvalue⟩ := bind_eq_ok.1 hvalue
    rw [hinner] at hout
    obtain ⟨⟨⟩, -⟩ := Typed.mk.injEq .. ▸ Except.ok.inj hvalue
    have hslash : '\\' ∈ text.toList ↔ '\\' ∈ body := by
      rw [htext]
      simp
    rw [hslash, hlength, String.length_ofList, htext]
    refine ⟨rfl, ?_, ?_⟩
    · have hle := Literal.length_unescape_le hout
      omega
    · constructor
      · intro hroom hmem
        have hlt := Literal.length_unescape_lt hout (hbody hmem)
        omega
      · intro hplain
        rw [Literal.unescape_of_plain hplain] at hout
        obtain rfl := Except.ok.inj hout
        omega
  · obtain ⟨out, _, hvalue⟩ := bind_eq_ok.1 hvalue
    cases hvalue

/-! ## Reading the declaration -/

namespace Grammar

/-- A literal alone is read as an expression. -/
theorem assignment_literal {t stop : Token} (hkind : t.kind = .literal)
    (hstop : Rank.continues .assignment stop = false) (rest : List Token) :
    (assignment (t :: stop :: rest)).Gives (.literal t.line t.text) (stop :: rest) := by
  have hderives : Derives .assignment [t] (.literal t.line t.text) := by
    iterate 10 refine .tighter rfl ?_
    exact .literal hkind
  exact hderives.reads (by simp [Token.Regular, hkind]) _ (stops_cons hstop rest)

end Grammar

namespace TextArray

/-- The tokens of `char s[] = text;`, where `line` and `column` tell where each of them begins. -/
def tokens (text : String) (line column : Fin 7 → Nat) : List Token :=
  [⟨.keyword, "char", line 0, column 0⟩, ⟨.identifier, "s", line 1, column 1⟩,
    ⟨.punctuation, "[", line 2, column 2⟩, ⟨.punctuation, "]", line 3, column 3⟩,
    ⟨.operator, "=", line 4, column 4⟩, ⟨.literal, text, line 5, column 5⟩,
    ⟨.punctuation, ";", line 6, column 6⟩]

/-- The variable that they declare. -/
def declared (text : String) (line : Fin 7 → Nat) : Variable :=
  ⟨line 1, "s", 0, .unsized, some (.expr (.literal (line 5) text))⟩

/-- The declaration that they are. -/
def decl (text : String) (line : Fin 7 → Nat) : Decl :=
  ⟨line 0, ⟨"char"⟩, [declared text line]⟩

/-- The type that the variable gets. -/
def type (text : String) : CType :=
  CType.arrayOf ⟨"char"⟩ (Numeral.decimal (text.length - 1 : Nat))

section Reading

open Grammar

variable (text : String) (line column : Fin 7 → Nat)

/-- The semicolon at their end. -/
def semicolon : Token :=
  ⟨.punctuation, ";", line 6, column 6⟩

theorem typeName_gives :
    (typeName (tokens text line column)).Gives ⟨"char"⟩ (tokens text line column).tail := by
  have hwords : TypeWords [⟨.keyword, "char", line 0, column 0⟩] ["char"] :=
    .keyword rfl (show "char" ∈ typeKeywords by decide) .nil
  have hgives : (typeWords (tokens text line column)).Gives ["char"] (tokens text line column).tail :=
    typeWords_gives hwords rfl
  rw [typeName, if_pos (show headStartsType (tokens text line column) = true from rfl)]
  exact hgives.map _

theorem semicolon_gives :
    (punct ";" [semicolon line column]).Gives (semicolon line column) [] :=
  punct_gives_of_kind rfl rfl []

theorem brackets_gives :
    (brackets ((tokens text line column).drop 2)).Gives .unsized
      ((tokens text line column).drop 4) := by
  have hcloser : (punct "]" ((tokens text line column).drop 3)).Gives
      ⟨.punctuation, "]", line 3, column 3⟩ ((tokens text line column).drop 4) :=
    punct_gives_of_kind rfl rfl _
  exact ((hcloser.map fun _ => Brackets.unsized).after ⟨.punctuation, "[", line 2, column 2⟩).relax

theorem initializer_gives :
    (initializer ((tokens text line column).drop 5)).Gives (.expr (.literal (line 5) text))
      [semicolon line column] := by
  have hassignment : (assignment ((tokens text line column).drop 5)).Gives
      (.literal (line 5) text) [semicolon line column] :=
    assignment_literal (t := ⟨.literal, text, line 5, column 5⟩) rfl rfl []
  show (initializer (⟨.literal, text, line 5, column 5⟩ :: _)).Gives _ _
  rw [initializer, if_neg (by simp [isAt])]
  exact hassignment.map _

theorem variableDecls_gives :
    (variableDecls (tokens text line column).tail).Gives [declared text line]
      [semicolon line column] := by
  have hstars : (stars (tokens text line column).tail).Gives 0 (tokens text line column).tail :=
    .done 0
  have hname : (expectOr .variableName .identifier none (tokens text line column).tail).Gives
      ⟨.identifier, "s", line 1, column 1⟩ ((tokens text line column).drop 2) :=
    (Parse.Gives.done _).after _
  have hinit : (initialization ((tokens text line column).drop 4)).Gives
      (some (.expr (.literal (line 5) text))) [semicolon line column] :=
    (((initializer_gives text line column).map some).after ⟨.operator, "=", line 4, column 4⟩).relax
  have hfirst : (variableDecl (tokens text line column).tail).Gives (declared text line)
      [semicolon line column] := by
    refine hstars.andThen fun _ => hname.andThen fun _ => ?_
    exact (brackets_gives text line column).andThen fun _ => hinit.map _
  rw [variableDecls]
  exact hfirst.andThen fun _ => .done _

/-- In a function they are read as the declaration. -/
theorem statement_gives :
    (statement (tokens text line column)).Gives (.decl (decl text line)) [] := by
  have hdeclaration : (declaration (line 0) (tokens text line column)).Gives (decl text line)
      [semicolon line column] :=
    (typeName_gives text line column).andThen fun _ =>
      (variableDecls_gives text line column).map _
  have hstatement : statement (tokens text line column)
      = declStmt (line 0) (tokens text line column) := by
    rw [tokens, statement]
    rfl
  rw [hstatement]
  exact hdeclaration.andThen fun _ => (semicolon_gives line column).map _

/-- At the top level too, for the lookahead finds no brace. -/
theorem parse_tokens (hquote : text.toList.head? = some '"') :
    parse (tokens text line column) = .ok ⟨[.decl (decl text line)]⟩ := by
  have hbody : hasBody 0 (tokens text line column).tail = false := by
    have hbrace : text ≠ "\x7b" := by
      rintro rfl
      cases hquote
    simp [tokens, hasBody, hbrace]
  have hitem : (typedItem (line 0) (tokens text line column)).Gives (.decl (decl text line)) [] := by
    refine (typeName_gives text line column).andThen fun _ => ?_
    rw [if_neg (by rw [hbody]; decide)]
    exact (variableDecls_gives text line column).andThen fun _ =>
      (semicolon_gives line column).map _
  exact parse_of_gives hitem

end Reading

end TextArray

/-! ## The type of the variable -/

/-- A variable of the innermost call is known by its name, with the type it was declared with. -/
theorem declareVariable_lookup {setup : Setup} (hlayouts : setup.analysis.layouts.Solid)
    {evaluate : Expr → Run Typed} {declared type : CType} {v : Variable} {m m₁ m' : Machine}
    {value : Value} {address : Int}
    (htyped : typeAndValue setup evaluate declared v m = .ok ((type, value), m₁))
    (hbooked : m₁.Booked m₁.cursor.nextStack) {type' : CType}
    (h : declareVariable setup evaluate declared v m = .ok ((type', address), m')) :
    type' = type ∧ m'.lookup v.name = some ⟨.int address, type⟩ := by
  obtain ⟨r, m₂, h₁, h⟩ := Eval.bind_eq_ok.1 h
  obtain ⟨rfl, rfl⟩ := Prod.mk.injEq .. ▸ Except.ok.inj (htyped.symm.trans h₁)
  obtain ⟨description, m₂, h₂, h⟩ := Eval.bind_eq_ok.1 h
  obtain ⟨_, rfl⟩ := Run.query_eq_ok.1 h₂
  obtain ⟨frame, m₃, h₃, h⟩ := Eval.bind_eq_ok.1 h
  obtain ⟨rfl, rfl⟩ := Run.ask_eq_ok.1 h₃
  obtain ⟨a, m₄, h₄, h⟩ := Eval.bind_eq_ok.1 h
  obtain ⟨heq, rfl⟩ := Eval.pure_eq_ok.1 h
  obtain ⟨rfl, rfl⟩ := Prod.mk.injEq .. ▸ heq
  refine ⟨rfl, ?_⟩
  obtain ⟨size, cells, n, rfl, _, _, hplacing, hemit⟩ := declare_placing hlayouts hbooked h₄
  have hshown := hplacing.shows rfl rfl rfl (List.nodup_singleton _) hemit
    (List.mem_singleton_self _)
  have hframe : m₄.currentFrame = m₁.currentFrame := by
    rw [Machine.currentFrame, Machine.currentFrame, declare_active h₄]
  rw [← hframe] at hshown
  exact Machine.lookup_of_shown hshown

namespace TextArray

variable {text : String} (hquote : text.toList.head? = some '"')

include hquote

/-- The type is told by the literal, whatever computes the sizes of arrays. -/
theorem fullType_eq (line : Fin 7 → Nat) {m : Type → Type} [Monad m] (evaluate : Expr → m Value) :
    (declared text line).fullType ⟨"char"⟩ evaluate = pure (type text) := by
  rw [Variable.fullType, declared]
  dsimp only
  rw [Init.impliedCount?, if_pos hquote, CType.withStars_zero]
  rfl

omit hquote in
/-- It takes a byte for each character. -/
theorem size_type (sizes : StructSizes) :
    (type text).size sizes = .ok ((text.length - 1 : Nat) : Int) := by
  rw [type, CType.size_arrayOf, CType.size_char]
  show Except.ok (1 * ((text.length - 1 : Nat) : Int)) = _
  rw [Int.one_mul]

/-- Its initial value is found without changing anything. -/
theorem typeAndValue_eq {setup : Setup} {call : Caller} {scope : Scope} {line : Fin 7 → Nat}
    {r : CType × Value} {m m' : Machine}
    (h : typeAndValue setup (evaluateWith setup call scope) ⟨"char"⟩ (declared text line) m
      = .ok (r, m')) :
    r.1 = type text ∧ m' = m ∧ 0 < setup.analysis.macros.length + setup.analysis.spare := by
  obtain ⟨type', m₁, h₁, h⟩ := Eval.bind_eq_ok.1 h
  rw [fullType_eq hquote] at h₁
  obtain ⟨rfl, rfl⟩ := Eval.pure_eq_ok.1 h₁
  obtain ⟨value, m₂, h₂, h⟩ := Eval.bind_eq_ok.1 h
  obtain ⟨rfl, rfl⟩ := Eval.pure_eq_ok.1 h
  obtain ⟨typed, m₃, h₃, h₂⟩ := Eval.bind_eq_ok.1 h₂
  have hstruct : (type text).isStruct = false := by
    simp [CType.isStruct, type, CType.isArray_arrayOf]
  rw [copyValue, if_neg (by rw [hstruct]; decide)] at h₂
  obtain ⟨_, rfl⟩ := Eval.lift_eq_ok.1 h₂
  rw [evaluateWith, evaluate] at h₃
  cases hbudget : (machineHost setup call).macros.length + setup.analysis.spare with
  | zero =>
    rw [hbudget] at h₃
    cases h₃
  | succ budget =>
    rw [hbudget, evalWithin, eval] at h₃
    obtain ⟨_, rfl⟩ := Eval.lift_eq_ok.1 h₃
    refine ⟨rfl, rfl, ?_⟩
    show 0 < (machineHost setup call).macros.length + setup.analysis.spare
    omega

/-- In a function the name stands for an array of that type, and the type is what its size is
computed from. -/
theorem sizeOf_declared {setup : Setup} (hlayouts : setup.analysis.layouts.Settled) {m m' : Machine}
    (hpasses : setup.Passes m) {line : Fin 7 → Nat} {call : Caller} {scope : Scope} {type' : CType}
    {address : Int}
    (h : declareVariable setup (evaluateWith setup call scope) ⟨"char"⟩ (declared text line) m
      = .ok ((type', address), m')) (line' line'' : Nat) :
    type' = type text ∧ m'.lookup "s" = some ⟨.int address, type text⟩ ∧
      evaluateWith setup call scope (.sizeOf line' (.name line'' "s")) m'
        = .ok (⟨.int (text.length - 1 : Nat), ⟨"size_t"⟩⟩, m') := by
  obtain ⟨r, m₁, htyped, _⟩ := Eval.bind_eq_ok.1 h
  obtain ⟨hr, rfl, hbudget⟩ := typeAndValue_eq hquote htyped
  obtain ⟨type, value⟩ := r
  obtain rfl : type = TextArray.type text := hr
  obtain ⟨rfl, hlookup⟩ :=
    declareVariable_lookup hlayouts.solid htyped (hpasses.viewed hlayouts).booked h
  refine ⟨rfl, hlookup, ?_⟩
  obtain ⟨budget, hbudget⟩ := Nat.exists_eq_succ_of_ne_zero (Nat.ne_of_gt hbudget)
  rw [evaluateWith, evaluate]
  show evalWithin (machineHost setup call) (setup.analysis.macros.length + setup.analysis.spare)
    scope _ m' = _
  rw [hbudget, evalWithin, eval]
  refine Eval.bind_eq_ok.2 ⟨some ⟨.int address, TextArray.type text⟩, m', ?_, ?_⟩
  · exact congrArg (fun found => Except.ok (found, m')) hlookup
  · refine Eval.bind_eq_ok.2 ⟨TextArray.type text, m', rfl, ?_⟩
    refine Eval.bind_eq_ok.2 ⟨_, m', Eval.lift_eq_ok.2 ⟨size_type _, rfl⟩, rfl⟩

end TextArray

/-- **An array of characters has room for its text and one more character, and no more than that
exactly if nothing in the text is escaped.** The declaration is read in a function and at the top
level; its variable is an array of as many characters as the literal has, less one, and that is the
size it has where it is declared in a function. -/
theorem text_arrays_have_room {text value : String} {type : CType}
    (hquoted : Token.IsQuoted text.toList)
    (hvalue : literalValue text = .ok ⟨.text value, type⟩) (line column : Fin 7 → Nat) :
    parse (TextArray.tokens text line column) = .ok ⟨[.decl (TextArray.decl text line)]⟩ ∧
    (Grammar.statement (TextArray.tokens text line column)).Gives
      (.decl (TextArray.decl text line)) [] ∧
    (∀ {m : Type → Type} [Monad m] (evaluate : Expr → m Value),
      (TextArray.declared text line).fullType ⟨"char"⟩ evaluate = pure (TextArray.type text)) ∧
    (TextArray.type text).length = .ok ((text.length - 1 : Nat) : Int) ∧
    (∀ sizes, (TextArray.type text).size sizes = .ok ((text.length - 1 : Nat) : Int)) ∧
    (∀ {setup : Setup}, setup.analysis.layouts.Settled → ∀ {m m' : Machine}, setup.Passes m →
      ∀ {call : Caller} {scope : Scope} {type' : CType} {address : Int},
        declareVariable setup (evaluateWith setup call scope) ⟨"char"⟩
          (TextArray.declared text line) m = .ok ((type', address), m') →
        type' = TextArray.type text ∧
          m'.lookup "s" = some ⟨.int address, TextArray.type text⟩ ∧
          ∀ line' line'', evaluateWith setup call scope (.sizeOf line' (.name line'' "s")) m'
            = .ok (⟨.int (text.length - 1 : Nat), ⟨"size_t"⟩⟩, m')) ∧
    value.length + 1 ≤ text.length - 1 ∧
    (text.length - 1 = value.length + 1 ↔ '\\' ∉ text.toList) := by
  obtain ⟨hquote, hroom, hexact⟩ := literal_room hquoted hvalue
  refine ⟨TextArray.parse_tokens text line column hquote, TextArray.statement_gives text line column,
    fun evaluate => TextArray.fullType_eq hquote line evaluate, CType.length_arrayOf _ _,
    fun sizes => TextArray.size_type sizes, ?_, hroom, hexact⟩
  intro setup hlayouts m m' hpasses call scope type' address h
  have hsize := TextArray.sizeOf_declared hquote hlayouts hpasses h
  exact ⟨(hsize 0 0).1, (hsize 0 0).2.1, fun line' line'' => (hsize line' line'').2.2⟩

namespace TextArray

/-- The columns of tokens written one behind the other, with a literal of four characters. -/
def columns (i : Fin 7) : Nat :=
  [1, 6, 7, 8, 10, 12, 16][i]

end TextArray

/-- A text of two characters gets an array of three. -/
theorem plain_text_fits :
    tokenize "char s[] = \"hi\";" = TextArray.tokens "\"hi\"" (fun _ => 1) TextArray.columns ∧
    literalValue "\"hi\"" = .ok ⟨.text "hi", ⟨"char*"⟩⟩ ∧
    (TextArray.type "\"hi\"").text = "char[3]" ∧ (TextArray.type "\"hi\"").size [] = .ok 3 ∧
    "hi".length + 1 = 3 := by
  have htokens : tokenize "char s[] = \"hi\";"
      = TextArray.tokens "\"hi\"" (fun _ => 1) TextArray.columns :=
    Token.tokenize_of_chars rfl (by decide +kernel) (by decide)
  have hquoted : Token.IsQuoted "\"hi\"".toList :=
    ⟨'"', ['h', 'i', '"'], rfl, Or.inl rfl,
      .plain (by decide) (by decide) (by decide)
        (.plain (by decide) (by decide) (by decide) .close)⟩
  have hvalue : literalValue "\"hi\"" = .ok ⟨.text "hi", ⟨"char*"⟩⟩ := rfl
  obtain ⟨_, _, _, _, hsize, _, _, hexact⟩ :=
    text_arrays_have_room hquoted hvalue (fun _ => 1) TextArray.columns
  have hlength : "\"hi\"".length - 1 = "hi".length + 1 := hexact.2 (by decide)
  refine ⟨htokens, hvalue, by decide, ?_, rfl⟩
  rw [hsize, hlength]
  rfl

/-- A line feed alone is one character, written as two: it gets an array of three where two are
enough. -/
theorem escaped_text_has_too_much_room :
    tokenize "char s[] = \"\\n\";" = TextArray.tokens "\"\\n\"" (fun _ => 1) TextArray.columns ∧
    parse (tokenize "char s[] = \"\\n\";")
      = .ok ⟨[.decl (TextArray.decl "\"\\n\"" fun _ => 1)]⟩ ∧
    literalValue "\"\\n\"" = .ok ⟨.text "\n", ⟨"char*"⟩⟩ ∧ "\n".length + 1 = 2 ∧
    (TextArray.declared "\"\\n\"" fun _ => 1).fullType ⟨"char"⟩
      (fun _ => Except.error Fault.endless) = .ok ⟨"char[3]"⟩ ∧
    CType.size [] ⟨"char[3]"⟩ = .ok 3 := by
  have htokens : tokenize "char s[] = \"\\n\";"
      = TextArray.tokens "\"\\n\"" (fun _ => 1) TextArray.columns :=
    Token.tokenize_of_chars rfl (by decide +kernel) (by decide)
  refine ⟨htokens, ?_, rfl, rfl, by decide +kernel, by decide +kernel⟩
  rw [htokens]
  exact TextArray.parse_tokens _ _ _ rfl

end Stepwise
