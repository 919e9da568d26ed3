/-
The lines of a program.

Every line that stands in the tree of a program is the line of one of its tokens, and
every token stands on a line of the source text. The first is shown for any kind of
lines: a reader that is given tokens on such lines puts only such lines into what it
gives. For expressions this follows from the grammar (`Derives.lined`), for the rest it
is gone through reader by reader.

A macro's body is read as a text of its own. It holds no line feed, so whatever is in
it stands on line one.
-/
import Stepwise.Proofs.Recognition

set_option autoImplicit false

namespace Stepwise

variable {lines : Nat → Prop}

/-! ## Trees on lines of a kind -/

mutual

/-- Everything in the initializer stands on a line of the given kind. -/
def Init.Lined (lines : Nat → Prop) : Init → Prop
  | expr e => e.Lined lines
  | list line items => lines line ∧ Init.LinedAll lines items

/-- So does everything in several initializers. -/
def Init.LinedAll (lines : Nat → Prop) : List Init → Prop
  | [] => True
  | i :: rest => i.Lined lines ∧ Init.LinedAll lines rest

end

/-- A declared name with its size and its initializer, on such lines. -/
structure Variable.Lined (lines : Nat → Prop) (v : Variable) : Prop where
  line : lines v.line
  size : ∀ e, v.brackets = .sized e → e.Lined lines
  init : ∀ i ∈ v.init, i.Lined lines

/-- A declaration on such lines. -/
structure Decl.Lined (lines : Nat → Prop) (d : Decl) : Prop where
  line : lines d.line
  vars : ∀ v ∈ d.vars, v.Lined lines

/-- The first clause of a loop, on such lines. -/
def ForInit.Lined (lines : Nat → Prop) : ForInit → Prop
  | none => True
  | decl d => d.Lined lines
  | expr e => e.Lined lines

namespace Stmt

mutual

/-- Everything in the statement stands on a line of the given kind. -/
def Lined (lines : Nat → Prop) : Stmt → Prop
  | directive d => lines d.line
  | decl d => d.Lined lines
  | empty line | defaultLabel line | breakOut line | continueOn line => lines line
  | block line body => lines line ∧ LinedAll lines body
  | expr line e | caseLabel line e => lines line ∧ e.Lined lines
  | ret line value => lines line ∧ ∀ e ∈ value, e.Lined lines
  | cond line condition whenTrue whenFalse =>
    lines line ∧ condition.Lined lines ∧ Lined lines whenTrue ∧ LinedOption lines whenFalse
  | forLoop line init condition update body =>
    lines line ∧ init.Lined lines ∧ (∀ e ∈ condition, e.Lined lines) ∧
      (∀ e ∈ update, e.Lined lines) ∧ Lined lines body
  | whileLoop line e body | doLoop line body e | switch line e body =>
    lines line ∧ e.Lined lines ∧ Lined lines body

/-- So does everything in several statements. -/
def LinedAll (lines : Nat → Prop) : List Stmt → Prop
  | [] => True
  | s :: rest => Lined lines s ∧ LinedAll lines rest

/-- So does everything in the statement, if there is one. -/
def LinedOption (lines : Nat → Prop) : Option Stmt → Prop
  | none => True
  | some s => Lined lines s

end

end Stmt

/-- A function on such lines. -/
structure Function.Lined (lines : Nat → Prop) (f : Function) : Prop where
  line : lines f.line
  body : Stmt.LinedAll lines f.body

/-- An item on such lines. -/
def Item.Lined (lines : Nat → Prop) : Item → Prop
  | directive d => lines d.line
  | struct s => lines s.line ∧ ∀ d ∈ s.fields, d.Lined lines
  | function f => f.Lined lines
  | decl d => d.Lined lines

/-- Everything in the program stands on a line of the given kind. -/
def Program.Lined (lines : Nat → Prop) (p : Program) : Prop :=
  ∀ item ∈ p.items, item.Lined lines

/-! ## What is inside -/

namespace Expr

mutual

theorem Lined.parts {e : Expr} (h : e.Lined lines) : ∀ part ∈ e.parts, lines part.line := by
  cases e with
  | literal | name | sizeOfType =>
    rw [Expr.parts, List.forall_mem_singleton]
    exact h
  | call _ _ arguments =>
    rw [Expr.parts, List.forall_mem_cons]
    exact ⟨h.1, linedAll_parts h.2⟩
  | index _ _ e | member _ _ e _ | unary _ _ e | stepAfter _ _ e | cast _ _ e | sizeOf _ e =>
    rw [Expr.parts, List.forall_mem_cons]
    exact ⟨h.1, Lined.parts h.2⟩
  | binary _ _ left right | logic _ _ left right | assign _ _ left right =>
    rw [Expr.parts, List.forall_mem_cons, List.forall_mem_append]
    exact ⟨h.1, Lined.parts h.2.1, Lined.parts h.2.2⟩
  | conditional _ condition whenTrue whenFalse =>
    rw [Expr.parts, List.forall_mem_cons, List.forall_mem_append, List.forall_mem_append]
    exact ⟨h.1, ⟨Lined.parts h.2.1, Lined.parts h.2.2.1⟩, Lined.parts h.2.2.2⟩

theorem linedAll_parts {es : List Expr} (h : LinedAll lines es) :
    ∀ part ∈ partsOfAll es, lines part.line := by
  match es with
  | [] =>
    intro part hpart
    cases hpart
  | e :: rest =>
    rw [partsOfAll, List.forall_mem_append]
    exact ⟨Lined.parts h.1, linedAll_parts h.2⟩

end

theorem Lined.calls {e : Expr} (h : e.Lined lines) : ∀ c ∈ e.calls, lines c.line := by
  intro c hc
  obtain ⟨part, hpart, hcall⟩ := List.mem_filterMap.1 hc
  have hline := h.parts part hpart
  cases part with
  | call line callee arguments =>
    obtain rfl := Option.some.inj hcall
    exact hline
  | _ => cases hcall

end Expr

mutual

theorem Init.Lined.exprs {i : Init} (h : i.Lined lines) : ∀ e ∈ i.exprs, e.Lined lines := by
  match i with
  | .expr e =>
    rw [Init.exprs, List.forall_mem_singleton]
    exact h
  | .list _ items =>
    rw [Init.exprs]
    exact Init.linedAll_exprs h.2

theorem Init.linedAll_exprs {items : List Init} (h : Init.LinedAll lines items) :
    ∀ e ∈ Init.exprsOfAll items, e.Lined lines := by
  match items with
  | [] =>
    intro e he
    cases he
  | i :: rest =>
    rw [Init.exprsOfAll, List.forall_mem_append]
    exact ⟨Init.Lined.exprs h.1, Init.linedAll_exprs h.2⟩

end

theorem Decl.Lined.exprs {d : Decl} (h : d.Lined lines) : ∀ e ∈ d.exprs, e.Lined lines := by
  intro e he
  obtain ⟨v, hv, he⟩ := List.mem_flatMap.1 he
  have hinit := (h.vars v hv).init
  unfold Variable.exprs at he
  split at he
  · next i hi => exact (hinit i hi).exprs e he
  · cases he

theorem ForInit.Lined.exprs {init : ForInit} (h : init.Lined lines) :
    ∀ e ∈ init.exprs, e.Lined lines := by
  cases init with
  | none =>
    intro e he
    cases he
  | decl d => exact Decl.Lined.exprs h
  | expr e =>
    rw [ForInit.exprs, List.forall_mem_singleton]
    exact h

namespace Stmt

theorem linedAll_iff {body : List Stmt} : LinedAll lines body ↔ ∀ s ∈ body, s.Lined lines := by
  induction body with
  | nil => simp [LinedAll]
  | cons s body ih => rw [LinedAll, ih, List.forall_mem_cons]

theorem Lined.line {s : Stmt} (h : s.Lined lines) : lines s.line := by
  cases s with
  | directive | empty | defaultLabel | breakOut | continueOn => exact h
  | decl d => exact Decl.Lined.line h
  | _ => exact h.1

mutual

theorem Lined.exprs {s : Stmt} (h : s.Lined lines) : ∀ e ∈ s.exprs, e.Lined lines := by
  match s with
  | .directive _ | .empty _ | .defaultLabel _ | .breakOut _ | .continueOn _ =>
    intro e he
    cases he
  | .block _ body => exact linedAll_exprs h.2
  | .decl d => exact Decl.Lined.exprs h
  | .expr _ e | .caseLabel _ e =>
    rw [Stmt.exprs, List.forall_mem_singleton]
    exact h.2
  | .ret _ value =>
    intro e he
    exact h.2 e (Option.mem_toList.1 he)
  | .cond _ condition whenTrue whenFalse =>
    rw [Stmt.exprs, List.forall_mem_cons, List.forall_mem_append]
    exact ⟨h.2.1, Lined.exprs h.2.2.1, linedOption_exprs h.2.2.2⟩
  | .forLoop _ init condition update body =>
    rw [Stmt.exprs, List.forall_mem_append, List.forall_mem_append, List.forall_mem_append]
    obtain ⟨_, hinit, hcondition, hupdate, hbody⟩ := h
    exact ⟨⟨⟨hinit.exprs, fun e he => hcondition e (Option.mem_toList.1 he)⟩,
      fun e he => hupdate e (Option.mem_toList.1 he)⟩, Lined.exprs hbody⟩
  | .whileLoop _ condition body | .switch _ condition body =>
    rw [Stmt.exprs, List.forall_mem_cons]
    exact ⟨h.2.1, Lined.exprs h.2.2⟩
  | .doLoop _ body condition =>
    rw [Stmt.exprs, List.forall_mem_append, List.forall_mem_singleton]
    exact ⟨Lined.exprs h.2.2, h.2.1⟩

theorem linedAll_exprs {body : List Stmt} (h : LinedAll lines body) :
    ∀ e ∈ exprsOfAll body, e.Lined lines := by
  match body with
  | [] =>
    intro e he
    cases he
  | s :: rest =>
    rw [exprsOfAll, List.forall_mem_append]
    exact ⟨Lined.exprs h.1, linedAll_exprs h.2⟩

theorem linedOption_exprs {s : Option Stmt} (h : LinedOption lines s) :
    ∀ e ∈ exprsOfOption s, e.Lined lines := by
  match s with
  | none =>
    intro e he
    cases he
  | some s => exact Lined.exprs h

end

mutual

theorem Lined.within {s : Stmt} (h : s.Lined lines) : ∀ inner ∈ s.within, lines inner.line := by
  match s with
  | .directive _ | .empty _ | .defaultLabel _ | .breakOut _ | .continueOn _ | .decl _ | .expr ..
  | .caseLabel .. | .ret .. =>
    rw [Stmt.within, List.forall_mem_singleton]
    exact h.line
  | .block _ body =>
    rw [Stmt.within, List.forall_mem_cons]
    exact ⟨h.line, linedAll_within h.2⟩
  | .cond _ condition whenTrue whenFalse =>
    rw [Stmt.within, List.forall_mem_cons, List.forall_mem_append]
    exact ⟨h.line, Lined.within h.2.2.1, linedOption_within h.2.2.2⟩
  | .forLoop _ init condition update body =>
    rw [Stmt.within, List.forall_mem_cons]
    exact ⟨h.line, Lined.within h.2.2.2.2⟩
  | .whileLoop _ condition body | .switch _ condition body | .doLoop _ body condition =>
    rw [Stmt.within, List.forall_mem_cons]
    exact ⟨h.line, Lined.within h.2.2⟩

theorem linedAll_within {body : List Stmt} (h : LinedAll lines body) :
    ∀ inner ∈ withinAll body, lines inner.line := by
  match body with
  | [] =>
    intro inner hinner
    cases hinner
  | s :: rest =>
    rw [withinAll, List.forall_mem_append]
    exact ⟨Lined.within h.1, linedAll_within h.2⟩

theorem linedOption_within {s : Option Stmt} (h : LinedOption lines s) :
    ∀ inner ∈ withinOption s, lines inner.line := by
  match s with
  | none =>
    intro inner hinner
    cases hinner
  | some s => exact Lined.within h

end

end Stmt

theorem Function.Lined.calls {f : Function} (h : f.Lined lines) : ∀ c ∈ f.calls, lines c.line := by
  intro c hc
  obtain ⟨e, he, hc⟩ := List.mem_flatMap.1 hc
  exact (Stmt.linedAll_exprs h.body e he).calls c hc

theorem Function.Lined.stmts {f : Function} (h : f.Lined lines) :
    ∀ s ∈ f.stmts, lines s.line :=
  Stmt.linedAll_within h.body

namespace Program

variable {p : Program}

theorem Lined.functions (h : p.Lined lines) : ∀ f ∈ p.functions, f.Lined lines := by
  intro f hf
  obtain ⟨item, hitem, hfunction⟩ := List.mem_filterMap.1 hf
  have hlined := h item hitem
  split at hfunction
  · obtain rfl := Option.some.inj hfunction
    exact hlined
  · cases hfunction

theorem Lined.function? (h : p.Lined lines) {name : String} {f : Function}
    (hf : p.function? name = some f) : f.Lined lines :=
  h.functions f (List.mem_of_find?_eq_some hf)

theorem Lined.structs (h : p.Lined lines) : ∀ s ∈ p.structs, lines s.line := by
  intro s hs
  obtain ⟨item, hitem, hstruct⟩ := List.mem_filterMap.1 hs
  have hlined := h item hitem
  split at hstruct
  · obtain rfl := Option.some.inj hstruct
    exact hlined.1
  · cases hstruct

theorem Lined.calls (h : p.Lined lines) : ∀ c ∈ p.calls, lines c.line := by
  intro c hc
  obtain ⟨e, he, hc⟩ := List.mem_flatMap.1 hc
  obtain ⟨item, hitem, he⟩ := List.mem_flatMap.1 he
  have hlined := h item hitem
  have hexpr : e.Lined lines := by
    cases item with
    | directive d => cases he
    | struct s =>
      obtain ⟨d, hd, he⟩ := List.mem_flatMap.1 he
      exact (hlined.2 d hd).exprs e he
    | function f => exact Stmt.linedAll_exprs hlined.body e he
    | decl d => exact Decl.Lined.exprs hlined e he
  exact hexpr.calls c hc

end Program

/-! ## Readers -/

namespace Grammar

open Token (Kind)

/-- What is spelled by tokens on such lines stands on them. The induction is on the derivation. -/
theorem Derives.lined {r : Rank} {s : List Token} {e : Expr} (h : Derives r s e)
    (hs : ∀ t ∈ s, lines t.line) : e.Lined lines := by
  induction h with
  | tighter _ _ ih => exact ih hs
  | assign _ _ _ ih ih' | logic _ _ _ ih ih' | binary _ _ _ ih ih' =>
    rw [List.forall_mem_append, List.forall_mem_cons] at hs
    exact ⟨hs.2.1, ih hs.1, ih' hs.2.2⟩
  | conditional _ _ _ _ _ ih₁ ih₂ ih₃ =>
    rw [List.forall_mem_append, List.forall_mem_cons, List.forall_mem_append,
      List.forall_mem_cons] at hs
    exact ⟨hs.2.1, ih₁ hs.1, ih₂ hs.2.2.1, ih₃ hs.2.2.2.2⟩
  | unary _ _ ih | sizeOf _ _ _ ih =>
    rw [List.forall_mem_cons] at hs
    exact ⟨hs.1, ih hs.2⟩
  | sizeOfType | name | literal =>
    rw [List.forall_mem_cons] at hs
    exact hs.1
  | cast _ _ _ _ ih =>
    rw [List.forall_mem_cons, List.forall_mem_append, List.forall_mem_cons] at hs
    exact ⟨hs.1, ih hs.2.2.2⟩
  | member _ _ _ ih | stepAfter _ _ ih =>
    rw [List.forall_mem_append, List.forall_mem_cons] at hs
    exact ⟨hs.2.1, ih hs.1⟩
  | index _ _ _ _ ih =>
    rw [List.forall_mem_cons, List.forall_mem_cons, List.forall_mem_append] at hs
    exact ⟨hs.1, ih hs.2.2.1⟩
  | parens _ _ _ _ ih =>
    rw [List.forall_mem_cons, List.forall_mem_append] at hs
    exact ih hs.2.1
  | @call s _ _ _ arguments _ _ _ hjoined _ ih =>
    rw [List.forall_mem_cons, List.forall_mem_cons, List.forall_mem_append] at hs
    refine ⟨hs.1, Expr.linedAll_iff.2 ?_⟩
    intro e he
    obtain ⟨argument, hargument, rfl⟩ := List.mem_map.1 he
    refine ih argument hargument fun t ht => hs.2.2.1 t ?_
    exact hjoined.mem (List.mem_map_of_mem hargument) ht

/-- From tokens on such lines the reader gives only what is described. -/
def Parse.Yields {strict : Bool} {α : Type} {s : List Token} (lines : Nat → Prop) (Q : α → Prop)
    (p : Parse strict s α) : Prop :=
  (∀ t ∈ s, lines t.line) → ∀ r, p = .ok r → Q r.value

namespace Parse.Yields

variable {α β : Type} {s : List Token} {strict : Bool} {Q : α → Prop}

theorem done {value : α} (h : Q value) : (Parse.done value : Parse false s α).Yields lines Q := by
  intro _ r hr
  obtain rfl := Except.ok.inj hr
  exact h

theorem fail (problem : Problem) : (Parse.fail problem : Parse strict s α).Yields lines Q := by
  intro _ r hr
  cases hr

theorem of_all {p : Parse strict s α} (h : ∀ value, Q value) : p.Yields lines Q :=
  fun _ _ _ => h _

theorem map {p : Parse strict s β} {f : β → α} {P : β → Prop} (h : p.Yields lines P)
    (hf : ∀ b, P b → Q (f b)) : (p.map f).Yields lines Q := by
  intro hs r hr
  obtain ⟨q, hq, hvalue, _⟩ := Parse.map_eq_ok hr
  rw [hvalue]
  exact hf _ (h hs q hq)

theorem relax {p : Parse strict s α} (h : p.Yields lines Q) : p.relax.Yields lines Q := by
  intro hs r hr
  obtain ⟨q, hq, hvalue, _⟩ := Parse.relax_eq_ok hr
  rw [hvalue]
  exact h hs q hq

theorem after {t : Token} {p : Parse strict s α} (h : p.Yields lines Q) :
    (p.after t).Yields lines Q := by
  intro hs r hr
  obtain ⟨q, hq, hvalue, _⟩ := Parse.after_eq_ok hr
  rw [hvalue]
  exact h (fun u hu => hs u (List.mem_cons_of_mem t hu)) q hq

theorem andThen {a b : Bool} {p : Parse a s β}
    {next : (value : β) → (rest : List Token) → rest.length + a.toNat ≤ s.length → Parse b rest α}
    {P : β → Prop} (h : p.Yields lines P)
    (hnext : ∀ value rest hlength, P value → (next value rest hlength).Yields lines Q) :
    (p.andThen next).Yields lines Q := by
  intro hs r hr
  obtain ⟨q, q', hq, hq', hvalue, _⟩ := Parse.andThen_eq_ok hr
  rw [hvalue]
  exact hnext _ _ _ (h hs q hq) (fun t ht => hs t (q.suffix.subset ht)) q' hq'

/-- The first token is one of those that are given. -/
theorem head {t : Token} {p : Parse strict (t :: s) α} (h : lines t.line → p.Yields lines Q) :
    p.Yields lines Q :=
  fun hs => h (hs t List.mem_cons_self) hs

end Parse.Yields

section Readers

variable (lines)

theorem expectOr_yields (problem : Problem) (kind : Kind) (text : Option String)
    (s : List Token) : (expectOr problem kind text s).Yields lines fun t => lines t.line := by
  unfold expectOr
  split
  · exact .fail _
  · next t rest =>
    split
    · exact .head fun ht => .after (.done ht)
    · exact .fail _

theorem punct_yields (text : String) (s : List Token) :
    (punct text s).Yields lines fun t => lines t.line :=
  expectOr_yields lines _ _ _ s

theorem yields_of_spans {strict : Bool} {s : List Token} {rank : Rank} {p : Parse strict s Expr}
    (h : p.Meets fun e rest => Spans rank s rest e) : p.Yields lines (Expr.Lined lines) := by
  intro hs r hr
  obtain ⟨used, hused, hderives⟩ := h r hr
  refine hderives.lined fun t ht => hs t ?_
  rw [hused]
  exact List.mem_append_left _ ht

theorem assignment_yields (s : List Token) : (assignment s).Yields lines (Expr.Lined lines) :=
  yields_of_spans lines (assignment_derives s)

theorem conditional_yields (s : List Token) : (conditional s).Yields lines (Expr.Lined lines) :=
  yields_of_spans lines (conditional_derives s)

/-! ### Declarations -/

mutual

theorem initializer_yields (s : List Token) : (initializer s).Yields lines (Init.Lined lines) := by
  match s with
  | [] =>
    rw [initializer]
    exact .map (assignment_yields lines []) fun _ h => h
  | t :: rest =>
    rw [initializer]
    split
    · refine .andThen (punct_yields lines _ _) fun brace rest' hlength hbrace => ?_
      refine .andThen (initializers_yields rest') fun items rest'' _ hitems => ?_
      exact .map (punct_yields lines _ _) fun _ _ => ⟨hbrace, hitems⟩
    · exact .map (assignment_yields lines _) fun _ h => h
termination_by 2 * s.length
decreasing_by simp at hlength ⊢; omega

theorem initializers_yields (s : List Token) :
    (initializers s).Yields lines (Init.LinedAll lines) := by
  rw [initializers]
  split
  · exact .done trivial
  · refine .relax (.andThen (initializer_yields s) fun first rest hlength hfirst => ?_)
    match rest, hlength with
    | [], _ => exact .done ⟨hfirst, trivial⟩
    | t :: rest, hlength =>
      dsimp only
      split
      · exact .relax (.after (.map (initializers_yields rest) fun _ hmore => ⟨hfirst, hmore⟩))
      · exact .done ⟨hfirst, trivial⟩
termination_by 2 * s.length + 1
decreasing_by
  · omega
  · simp at hlength; omega

end

theorem brackets_yields (s : List Token) :
    (brackets s).Yields lines fun b => ∀ e, b = .sized e → e.Lined lines := by
  unfold brackets
  split
  · exact .done fun e h => by cases h
  · split
    · refine .relax ?_
      split
      · exact .after (.map (punct_yields lines _ _) fun _ _ e h => by cases h)
      · refine .after (.andThen (assignment_yields lines _) fun size rest _ hsize => ?_)
        refine .map (punct_yields lines _ _) fun _ _ e h => ?_
        rw [← Brackets.sized.inj h]
        exact hsize
    · exact .done fun e h => by cases h

theorem initialization_yields (s : List Token) :
    (initialization s).Yields lines fun init => ∀ i ∈ init, i.Lined lines := by
  unfold initialization
  split
  · exact .done fun i h => by cases h
  · split
    · refine .relax (.after (.map (initializer_yields lines _) fun init hinit i h => ?_))
      rw [← Option.some.inj h]
      exact hinit
    · exact .done fun i h => by cases h

theorem variableDecl_yields (s : List Token) :
    (variableDecl s).Yields lines (Variable.Lined lines) := by
  refine .andThen (.of_all fun _ => trivial) fun depth rest _ _ => ?_
  refine .andThen (expectOr_yields lines _ _ _ _) fun name rest _ hname => ?_
  refine .andThen (brackets_yields lines _) fun brackets rest _ hsize => ?_
  exact .map (initialization_yields lines _) fun init hinit => ⟨hname, hsize, hinit⟩

theorem variableDecls_yields (s : List Token) :
    (variableDecls s).Yields lines fun vars => ∀ v ∈ vars, v.Lined lines := by
  rw [variableDecls]
  refine .andThen (variableDecl_yields lines s) fun first rest hlength hfirst => ?_
  have hone : ∀ v ∈ [first], v.Lined lines := List.forall_mem_singleton.2 hfirst
  match rest, hlength with
  | [], _ => exact .done hone
  | t :: rest, hlength =>
    dsimp only
    split
    · refine .relax (.after (.map (variableDecls_yields rest) fun more hmore => ?_))
      exact List.forall_mem_cons.2 ⟨hfirst, hmore⟩
    · exact .done hone
termination_by s.length
decreasing_by simp at hlength; omega

variable {lines} in
theorem declaration_yields {line : Nat} (hline : lines line) (s : List Token) :
    (declaration line s).Yields lines (Decl.Lined lines) := by
  refine .andThen (.of_all fun _ => trivial) fun type rest _ _ => ?_
  exact .map (variableDecls_yields lines _) fun vars hvars => ⟨hline, hvars⟩

/-! ### Statements -/

theorem directive_yields (s : List Token) :
    (directive s).Yields lines fun d => lines d.line := by
  refine .andThen (expectOr_yields lines _ _ _ _) fun t rest _ ht => ?_
  exact .map (.of_all fun _ => trivial) fun _ _ => ht

theorem optionalExpr_yields (closing : String) (s : List Token) :
    (optionalExpr closing s).Yields lines fun value => ∀ e ∈ value, e.Lined lines := by
  unfold optionalExpr
  split
  · exact .done fun e h => by cases h
  · refine .relax (.map (assignment_yields lines _) fun value hvalue e h => ?_)
    rw [← Option.some.inj h]
    exact hvalue

theorem exprInParens_yields (s : List Token) :
    (exprInParens s).Yields lines (Expr.Lined lines) := by
  refine .andThen (punct_yields lines _ _) fun _ rest _ _ => ?_
  refine .andThen (assignment_yields lines _) fun e rest _ he => ?_
  exact .map (punct_yields lines _ _) fun _ _ => he

variable {lines} in
theorem forInit_yields {line : Nat} (hline : lines line) (s : List Token) :
    (forInit line s).Yields lines (ForInit.Lined lines) := by
  unfold forInit
  split
  · exact .done trivial
  · split
    · exact .relax (.map (declaration_yields hline _) fun _ h => h)
    · exact .relax (.map (assignment_yields lines _) fun _ h => h)

variable {lines} in
theorem forClauses_yields {line : Nat} (hline : lines line) (s : List Token) :
    (forClauses line s).Yields lines fun clauses => clauses.init.Lined lines ∧
      (∀ e ∈ clauses.condition, e.Lined lines) ∧ ∀ e ∈ clauses.update, e.Lined lines := by
  refine .andThen (punct_yields lines _ _) fun _ rest _ _ => ?_
  refine .andThen (forInit_yields hline _) fun init rest _ hinit => ?_
  refine .andThen (punct_yields lines _ _) fun _ rest _ _ => ?_
  refine .andThen (optionalExpr_yields lines _ _) fun condition rest _ hcondition => ?_
  refine .andThen (punct_yields lines _ _) fun _ rest _ _ => ?_
  refine .andThen (optionalExpr_yields lines _ _) fun update rest _ hupdate => ?_
  exact .map (punct_yields lines _ _) fun _ _ => ⟨hinit, hcondition, hupdate⟩

theorem doCondition_yields (s : List Token) :
    (doCondition s).Yields lines (Expr.Lined lines) := by
  refine .andThen (expectOr_yields lines _ _ _ _) fun _ rest _ _ => ?_
  refine .andThen (exprInParens_yields lines _) fun e rest _ he => ?_
  exact .map (punct_yields lines _ _) fun _ _ => he

mutual

/-- A statement that is read from tokens on such lines stands on them. The induction is that of the
readers. -/
theorem statement_yields (s : List Token) : (statement s).Yields lines (Stmt.Lined lines) := by
  match s with
  | [] =>
    rw [statement]
    exact .fail _
  | t :: rest =>
    refine .head fun ht => ?_
    rw [statement]
    -- in the order of the reader: directive, block, semicolon, then a branch for each leading word
    split
    · exact .map (directive_yields lines _) fun _ h => h
    · split
      · exact .map (block_yields (t :: rest)) fun _ h => h
      · split
        · exact .after (.done ht)
        · split
          · refine .after (.andThen (exprInParens_yields lines _) ?_)
            intro condition rest₁ hlength₁ hcondition
            refine .andThen (statement_yields rest₁) fun whenTrue rest₂ hlength₂ htrue => ?_
            have hone : Stmt.Lined lines (.cond t.line condition whenTrue none) :=
              ⟨ht, hcondition, htrue, trivial⟩
            match rest₂, hlength₂ with
            | [], _ => exact .done hone
            | u :: rest₂, hlength₂ =>
              dsimp only
              split
              · refine .relax (.after (.map (statement_yields rest₂) fun whenFalse hfalse => ?_))
                exact ⟨ht, hcondition, htrue, hfalse⟩
              · exact .done hone
          · refine .after (.andThen (forClauses_yields ht _) ?_)
            intro clauses rest₁ hlength₁ hclauses
            refine .map (statement_yields rest₁) fun body hbody => ?_
            exact ⟨ht, hclauses.1, hclauses.2.1, hclauses.2.2, hbody⟩
          · refine .after (.andThen (exprInParens_yields lines _) ?_)
            intro condition rest₁ hlength₁ hcondition
            exact .map (statement_yields rest₁) fun body hbody => ⟨ht, hcondition, hbody⟩
          · refine .after (.andThen (statement_yields rest) fun body rest₁ _ hbody => ?_)
            exact .map (doCondition_yields lines _) fun condition hcondition =>
              ⟨ht, hcondition, hbody⟩
          · refine .after (.andThen (exprInParens_yields lines _) ?_)
            intro subject rest₁ hlength₁ hsubject
            exact .map (statement_yields rest₁) fun body hbody => ⟨ht, hsubject, hbody⟩
          · refine .after (.andThen (optionalExpr_yields lines _ _) fun value rest₁ _ hvalue => ?_)
            exact .map (punct_yields lines _ _) fun _ _ => ⟨ht, hvalue⟩
          · refine .after (.andThen (conditional_yields lines _) fun label rest₁ _ hlabel => ?_)
            exact .map (punct_yields lines _ _) fun _ _ => ⟨ht, hlabel⟩
          · exact .after (.map (punct_yields lines _ _) fun _ _ => ht)
          · exact .after (.map (punct_yields lines _ _) fun _ _ => ht)
          · exact .after (.map (punct_yields lines _ _) fun _ _ => ht)
          · split
            · refine .andThen (declaration_yields ht _) fun d rest₁ _ hd => ?_
              exact .map (punct_yields lines _ _) fun _ _ => hd
            · refine .andThen (assignment_yields lines _) fun e rest₁ _ he => ?_
              exact .map (punct_yields lines _ _) fun _ _ => ⟨ht, he⟩
termination_by 3 * s.length + 1
decreasing_by
  all_goals
    simp only [List.length_cons, Bool.toNat_true] at *
    omega

theorem block_yields (s : List Token) :
    (block s).Yields lines fun body => lines body.1 ∧ Stmt.LinedAll lines body.2 := by
  rw [block]
  refine .andThen (punct_yields lines _ _) fun brace rest hlength hbrace => ?_
  refine .andThen (statements_yields rest) fun body rest₁ _ hbody => ?_
  exact .map (punct_yields lines _ _) fun _ _ => ⟨hbrace, hbody⟩
termination_by 3 * s.length
decreasing_by simp at hlength; omega

theorem statements_yields (s : List Token) :
    (statements s).Yields lines (Stmt.LinedAll lines) := by
  match s with
  | [] =>
    rw [statements]
    exact .fail _
  | t :: rest =>
    rw [statements]
    split
    · exact .done trivial
    · refine .relax (.andThen (statement_yields (t :: rest)) ?_)
      intro first rest₁ hlength hfirst
      exact .map (statements_yields rest₁) fun more hmore => ⟨hfirst, hmore⟩
termination_by 3 * s.length + 2
decreasing_by
  · omega
  · simp at hlength ⊢; omega

end

/-! ### Programs -/

variable {lines} in
theorem functionDefinition_yields {line : Nat} (hline : lines line) (type : CType)
    (s : List Token) : (functionDefinition line type s).Yields lines (Function.Lined lines) := by
  refine .andThen (.of_all fun _ => trivial) fun depth rest _ _ => ?_
  refine .andThen (.of_all fun _ => trivial) fun name rest _ _ => ?_
  refine .andThen (punct_yields lines _ _) fun _ rest _ _ => ?_
  refine .andThen (.of_all fun _ => trivial) fun parameters rest _ _ => ?_
  refine .andThen (punct_yields lines _ _) fun _ rest _ _ => ?_
  exact .map (block_yields lines _) fun body hbody => ⟨hline, hbody.2⟩

theorem structFields_yields (s : List Token) :
    (structFields s).Yields lines fun fields => ∀ d ∈ fields, d.Lined lines := by
  match s with
  | [] =>
    rw [structFields]
    exact .fail _
  | t :: rest =>
    refine .head fun ht => ?_
    rw [structFields]
    split
    · exact .done fun d h => by cases h
    · refine .relax (.andThen (declaration_yields ht _) fun first rest₁ hlength₁ hfirst => ?_)
      refine .andThen (punct_yields lines _ _) fun _ rest₂ hlength₂ _ => ?_
      refine .map (structFields_yields rest₂) fun more hmore => ?_
      exact List.forall_mem_cons.2 ⟨hfirst, hmore⟩
termination_by s.length
decreasing_by simp at hlength₁ hlength₂ ⊢; omega

variable {lines} in
theorem structDefinition_yields {line : Nat} (hline : lines line) (tag : String)
    (s : List Token) :
    (structDefinition line tag s).Yields lines fun d => (Item.struct d).Lined lines := by
  refine .andThen (punct_yields lines _ _) fun _ rest _ _ => ?_
  refine .andThen (structFields_yields lines _) fun fields rest _ hfields => ?_
  refine .andThen (punct_yields lines _ _) fun _ rest _ _ => ?_
  exact .map (punct_yields lines _ _) fun _ _ => ⟨hline, hfields⟩

variable {lines} in
theorem typedItem_yields {line : Nat} (hline : lines line) (s : List Token) :
    (typedItem line s).Yields lines (Item.Lined lines) := by
  refine .andThen (.of_all fun _ => trivial) fun type rest _ _ => ?_
  split
  · exact .map (functionDefinition_yields hline type _) fun _ h => h
  · refine .andThen (variableDecls_yields lines _) fun vars rest₁ _ hvars => ?_
    exact .map (punct_yields lines _ _) fun _ _ => ⟨hline, hvars⟩

theorem item_yields (s : List Token) : (item s).Yields lines (Item.Lined lines) := by
  unfold item
  split
  · exact .fail _
  · next t rest =>
    refine .head fun ht => ?_
    split
    · exact .map (directive_yields lines _) fun _ h => h
    · split
      · split
        · split
          · exact .after (.after (.map (structDefinition_yields ht _ _) fun _ h => h))
          · exact typedItem_yields ht _
        · exact typedItem_yields ht _
      · exact .fail _

theorem items_yields (s : List Token) :
    (items s).Yields lines fun all => ∀ item ∈ all, item.Lined lines := by
  match s with
  | [] =>
    rw [items]
    exact .done fun item h => by cases h
  | t :: rest =>
    rw [items]
    refine .relax (.andThen (item_yields lines _) fun first rest₁ hlength hfirst => ?_)
    refine .map (items_yields rest₁) fun more hmore => ?_
    exact List.forall_mem_cons.2 ⟨hfirst, hmore⟩
termination_by s.length
decreasing_by simp at hlength ⊢; omega

end Readers

end Grammar

/-- **Every line in the tree of a program is the line of one of its tokens.** -/
theorem Program.lined_of_parse {tokens : List Token} {p : Program} (h : parse tokens = .ok p)
    (htokens : ∀ t ∈ tokens, lines t.line) : p.Lined lines := by
  unfold parse at h
  split at h
  · next r hr =>
    obtain rfl := Except.ok.inj h
    exact Grammar.items_yields lines tokens htokens r hr
  · cases h

theorem Expr.lined_of_parseExpr {tokens : List Token} {e : Expr} (h : parseExpr tokens = .ok e)
    (htokens : ∀ t ∈ tokens, lines t.line) : e.Lined lines := by
  unfold parseExpr at h
  split at h
  · next r hr =>
    split at h
    · obtain rfl := Except.ok.inj h
      exact Grammar.assignment_yields lines tokens htokens r hr
    · cases h
  · cases h

/-! ## Tokens -/

namespace Token

theorem cutAt_length (sep : Char) (s : List Char) :
    (Text.cutAt sep s).2.length = s.count sep := by
  induction s with
  | nil => rfl
  | cons c s ih =>
    rw [Text.cutAt]
    by_cases hsep : c = sep
    · rw [if_pos hsep, hsep, List.count_cons_self, ← ih]
      rfl
    · rw [if_neg hsep, List.count_cons_of_ne hsep, ← ih]

theorem pieces_length (sep : Char) (s : List Char) :
    (Text.pieces sep s).length = s.count sep + 1 := by
  rw [Text.pieces, List.length_cons, cutAt_length]

theorem lines_length (source : String) :
    (Text.lines source).length = source.toList.count '\n' + 1 := by
  rw [Text.lines, List.length_map, pieces_length]

theorem line_of_numbered {n k : Nat} {all : List (List Char)} {line : List Char}
    (h : (k, line) ∈ numbered n all) : n ≤ k ∧ k < n + all.length := by
  induction all generalizing n with
  | nil => cases h
  | cons first all ih =>
    rw [List.length_cons]
    rcases List.mem_cons.1 h with h | h
    · have hk := (Prod.mk.inj h).1
      omega
    · have hk := ih h
      omega

/-- A segment stands on the line after as many line feeds as there are in front of it. -/
theorem line_of_located {before : List Char} {parts : List Segment} {entry : Place × Segment}
    (h : entry ∈ located before parts) :
    1 ≤ entry.1.line ∧ entry.1.line ≤ 1 + (before ++ parts.flatMap Segment.chars).count '\n' := by
  induction parts generalizing before with
  | nil => cases h
  | cons part parts ih =>
    rcases List.mem_cons.1 h with rfl | h
    · rw [List.count_append]
      show 1 ≤ 1 + before.count '\n' ∧ 1 + before.count '\n' ≤ _
      omega
    · have hlines := ih h
      rwa [List.append_assoc, ← List.flatMap_cons] at hlines

/-- **Every token stands on a line of its text.** -/
theorem line_of_mem_tokenize {source : String} {t : Token} (h : t ∈ tokenize source) :
    1 ≤ t.line ∧ t.line ≤ (Text.lines source).length := by
  rw [lines_length]
  rcases mem_tokenize.1 h with h | h
  · obtain ⟨⟨k, line⟩, hentry, ht⟩ := List.mem_flatMap.1 h
    have hline := line_of_numbered (List.mem_of_mem_filter hentry)
    rw [pieces_length] at hline
    rw [(DirectiveLine.mem_tokens ht).line]
    show 1 ≤ k ∧ k ≤ _
    omega
  · obtain ⟨⟨place, segment⟩, hentry, ht⟩ := List.mem_filterMap.1 h
    have hplaced := List.mem_of_mem_filter hentry
    rw [show ({} : Place) = .following [] from rfl, placed_following] at hplaced
    have hline : 1 ≤ place.line ∧ place.line ≤ _ := line_of_located hplaced
    rw [List.nil_append, segments_flatten] at hline
    cases segment with
    | lexeme lexeme chars =>
      obtain rfl := Option.some.inj ht
      rwa [Nat.add_comm] at hline
    | _ => cases ht

end Token

theorem le_lastLine {tokens : List Token} {t : Token} (h : t ∈ tokens) :
    t.line ≤ lastLine tokens := by
  unfold lastLine
  split
  · next line hmax => exact (List.max?_eq_some_iff.1 hmax).2 _ (List.mem_map_of_mem h)
  · next hmax =>
    rw [List.max?_eq_none_iff, List.map_eq_nil_iff] at hmax
    rw [hmax] at h
    cases h

theorem lastLine_mem {tokens : List Token} (h : tokens ≠ []) :
    ∃ t ∈ tokens, t.line = lastLine tokens := by
  unfold lastLine
  split
  · next line hmax => exact List.mem_map.1 (List.max?_eq_some_iff.1 hmax).1
  · next hmax =>
    rw [List.max?_eq_none_iff, List.map_eq_nil_iff] at hmax
    exact absurd hmax h

theorem lastLine_bounds (source : String) :
    1 ≤ lastLine (tokenize source) ∧ lastLine (tokenize source) ≤ (Text.lines source).length := by
  by_cases h : tokenize source = []
  · rw [h, Token.lines_length]
    show 1 ≤ 1 ∧ 1 ≤ _
    omega
  · obtain ⟨t, ht, hline⟩ := lastLine_mem h
    rw [← hline]
    exact Token.line_of_mem_tokenize ht

/-- Whatever is in a macro's body stands on line one. -/
theorem Program.macros_lined {p : Program} {source name : String} {m : Macro} {body : Expr}
    (hm : (p.macros (Text.lines source)).find? name = some m) (hbody : m.expression = .ok body)
    (hone : lines 1) : body.Lined lines := by
  unfold Macro.expression at hbody
  split at hbody
  · cases hbody
  · split at hbody
    · next hparse =>
      obtain rfl := Except.ok.inj hbody
      refine Expr.lined_of_parseExpr hparse fun t ht => ?_
      have hline := Token.line_of_mem_tokenize ht
      rw [Token.lines_length, List.count_eq_zero.2 (Program.macros_body hm)] at hline
      rwa [show t.line = 1 by omega]
    · cases hbody

end Stepwise
