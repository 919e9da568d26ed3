/-
Declarations at the top level and in functions.

The same reader reads the names behind a type in both places. But at the top level a
lookahead comes first: an opening brace outside round brackets before the next semicolon
is taken for the body of a function. The lookahead passes over an expression, since its
round brackets are balanced and it has neither braces nor semicolons (`Derives.passed`);
so what it says of a declaration depends on the initializers alone (`variableDecls_tells`).
A braced one is taken for a body, and then the definition of a function is looked for in
vain.
-/
import Stepwise.Proofs.Lookahead
import Stepwise.Proofs.Rereading
import Stepwise.Syntax.Equality

set_option autoImplicit false

namespace Stepwise

/-- Is the initializer a braced list? -/
def Init.isBraced : Init → Bool
  | expr _ => false
  | list _ _ => true

/-- Is the variable initialized by a braced list? -/
def Variable.isBraced (v : Variable) : Bool :=
  v.init.any Init.isBraced

/-- The texts that the lookahead goes by. -/
def Token.marks : List String :=
  ["(", ")", "\x7b", ";"]

/-- A token with one of the texts that the lookahead goes by is punctuation. -/
def Token.Told (t : Token) : Prop :=
  t.text ∈ Token.marks → t.kind = .punctuation

/-- The lookahead goes by the text alone, but the tokens of a text without directives are told. -/
theorem Token.Written.told {t : Token} (h : t.Written) : t.Told := by
  intro hmark
  have hsigns : ∀ text ∈ Token.marks, text ∈ Token.signs ∧
      Token.operatorKind text = .punctuation := by decide
  have hheads : ∀ text ∈ Token.marks, ∀ c ∈ text.toList.head?,
      Text.isDecimal c = false ∧ c ≠ '"' ∧ c ≠ '\'' := by decide
  obtain ⟨hsign, hpunctuation⟩ := hsigns _ hmark
  rw [h.regular ?_ hsign, hpunctuation]
  intro hliteral
  rcases h.literal hliteral with hnumber | ⟨⟨quote, tail, htext, hquote, _⟩, _⟩
  · obtain ⟨c, tail, htext, hdecimal⟩ := hnumber.head
    obtain ⟨hother, _⟩ := hheads _ hmark c (by rw [htext]; rfl)
    rw [hdecimal] at hother
    cases hother
  · obtain ⟨_, hdouble, hsingle⟩ := hheads _ hmark quote (by rw [htext]; rfl)
    exact hquote.elim hdouble hsingle

namespace Grammar

variable {s s' rest : List Token} {t : Token}

/-! ## Readers that fail -/

section Fails

variable {α β : Type} {strict : Bool} {problem : Problem}

/-- The reader reports this problem. -/
def Parse.Fails (p : Parse strict s α) (problem : Problem) : Prop :=
  ∃ f, p = .error f ∧ f.problem = problem

namespace Parse.Fails

theorem fail (problem : Problem) : (Parse.fail problem : Parse strict s α).Fails problem :=
  ⟨_, rfl, rfl⟩

theorem map {p : Parse strict s α} (h : p.Fails problem) (f : α → β) : (p.map f).Fails problem := by
  obtain ⟨e, rfl, rfl⟩ := h
  exact ⟨_, rfl, rfl⟩

theorem relax {p : Parse strict s α} (h : p.Fails problem) : p.relax.Fails problem := by
  obtain ⟨e, rfl, rfl⟩ := h
  exact ⟨_, rfl, rfl⟩

theorem after {p : Parse strict s α} (h : p.Fails problem) (t : Token) :
    (p.after t).Fails problem := by
  obtain ⟨e, rfl, rfl⟩ := h
  exact ⟨_, rfl, rfl⟩

theorem andThen {a b : Bool} {p : Parse a s α}
    {next : (value : α) → (rest : List Token) → rest.length + a.toNat ≤ s.length → Parse b rest β}
    (h : p.Fails problem) : (p.andThen next).Fails problem := by
  obtain ⟨e, rfl, rfl⟩ := h
  exact ⟨_, rfl, rfl⟩

end Parse.Fails

/-- What a reader gives is found by running it. -/
theorem Parse.Gives.of_toOption {p : Parse strict s α} {value : α}
    (h : p.toOption.map (fun r => (r.value, r.rest)) = some (value, rest)) : p.Gives value rest := by
  cases p with
  | error e => cases h
  | ok r =>
    obtain ⟨rfl, rfl⟩ := Prod.mk.inj (Option.some.inj h)
    exact ⟨r, rfl, rfl, rfl⟩

theorem Parse.Meets.any (p : Parse strict s α) : p.Meets fun _ _ => True :=
  fun _ _ => trivial

theorem expectOr_spans (problem : Problem) (kind : Token.Kind) (text : Option String)
    (s : List Token) : (expectOr problem kind text s).Meets fun t rest =>
      s = t :: rest ∧ t.kind = kind ∧ (text = none ∨ text = some t.text) := by
  unfold expectOr
  split
  · exact .fail _
  · next t rest =>
    split
    · next h => exact .after (.done ⟨rfl, h⟩)
    · exact .fail _

theorem Parse.Gives.andThen_fails {a b : Bool} {p : Parse a s α}
    {next : (value : α) → (rest : List Token) → rest.length + a.toNat ≤ s.length → Parse b rest β}
    {value : α} (h : p.Gives value rest) (hnext : ∀ hlength, (next value rest hlength).Fails problem) :
    (p.andThen next).Fails problem := by
  obtain ⟨r, rfl, rfl, rfl⟩ := h
  obtain ⟨e, he, rfl⟩ := hnext r.bound
  refine ⟨⟨e.problem, e.rest, e.suffix.trans r.suffix⟩, ?_, rfl⟩
  rw [Parse.andThen, he]

end Fails

/-! ## What the lookahead passes over -/

/-- The lookahead passes over the tokens. -/
def Passed (s : List Token) : Prop :=
  ∀ depth rest, hasBody depth (s ++ rest) = hasBody depth rest

namespace Passed

theorem nil : Passed [] :=
  fun _ _ => rfl

theorem append (h : Passed s) (h' : Passed s') : Passed (s ++ s') := by
  intro depth rest
  rw [List.append_assoc, h, h']

theorem cons (ht : Passed [t]) (h : Passed s) : Passed (t :: s) :=
  ht.append h

theorem of_text (h : t.text ∉ Token.marks) : Passed [t] := by
  intro depth rest
  simp only [Token.marks, List.mem_cons, List.not_mem_nil, or_false, not_or] at h
  rw [List.singleton_append, hasBody, if_neg h.1, if_neg h.2.1, if_neg fun h' => h.2.2.1 h'.2,
    if_neg fun h' => h.2.2.2 h'.2]

theorem of_isAt {text : String} (hat : isAt text t = true) (h : text ∉ Token.marks) :
    Passed [t] := by
  rw [← (isAt_iff.1 hat).1] at h
  exact of_text h

theorem of_kind (htold : t.Told) (hkind : t.kind ≠ .punctuation) : Passed [t] :=
  of_text fun hmark => hkind (htold hmark)

theorem of_forall (h : ∀ t ∈ s, Passed [t]) : Passed s := by
  induction s with
  | nil => exact nil
  | cons t s ih =>
    rw [List.forall_mem_cons] at h
    exact cons h.1 (ih h.2)

/-- Between round brackets the lookahead is one level deeper, and behind them it is back. -/
theorem enclosed {opener closer : Token} (hopener : isAt "(" opener = true) (h : Passed s)
    (hcloser : isAt ")" closer = true) : Passed (opener :: (s ++ [closer])) := by
  intro depth rest
  have hclosed : ∀ depth, hasBody depth (closer :: rest) = hasBody (depth - 1) rest := by
    intro depth
    rw [hasBody, (isAt_iff.1 hcloser).1, if_neg (by decide), if_pos rfl]
  rw [List.cons_append, List.append_assoc, List.singleton_append, hasBody,
    if_pos (isAt_iff.1 hopener).1, h, hclosed, Int.add_sub_cancel]

end Passed

theorem TypeWords.passed {words : List String} (h : TypeWords s words) (htold : ∀ t ∈ s, t.Told) :
    Passed s := by
  induction h with
  | nil => exact .nil
  | keyword hkind _ _ ih =>
    rw [List.forall_mem_cons] at htold
    exact .cons (.of_kind htold.1 (by rw [hkind]; decide)) (ih htold.2)
  | tag hkind _ htag _ ih =>
    rw [List.forall_mem_cons, List.forall_mem_cons] at htold
    exact .cons (.of_kind htold.1 (by rw [hkind]; decide))
      (.cons (.of_kind htold.2.1 (by rw [htag]; decide)) (ih htold.2.2))
  | header hkind _ =>
    rw [List.forall_mem_singleton] at htold
    exact .of_kind htold (by rw [hkind]; decide)

theorem passed_stars (h : ∀ star ∈ s, isAt "*" star = true) : Passed s :=
  .of_forall fun star hstar => .of_isAt (h star hstar) (by decide)

theorem IsType.passed {type : CType} (h : IsType s type) (htold : ∀ t ∈ s, t.Told) : Passed s := by
  obtain ⟨front, back, words, rfl, _, hfront, hback, _⟩ := h
  rw [List.forall_mem_append] at htold
  exact (hfront.passed htold.1).append (passed_stars hback)

theorem Joined.passed {stretches : List (List Token)} (h : Joined stretches s)
    (hpassed : ∀ stretch ∈ stretches, Passed stretch) : Passed s := by
  induction h with
  | nil => exact .nil
  | one s => exact hpassed s List.mem_cons_self
  | more hcomma _ ih =>
    rw [List.forall_mem_cons] at hpassed
    exact hpassed.1.append (.cons (.of_isAt hcomma (by decide)) (ih hpassed.2))

/-- No sign of an expression is one that the lookahead goes by, round brackets aside. -/
theorem not_mark_signs :
    (∀ op : BinaryOp, op.text ∉ Token.marks) ∧ (∀ op : LogicOp, op.text ∉ Token.marks) ∧
    (∀ op : StepOp, op.text ∉ Token.marks) ∧ (∀ op : UnaryOp, op.text ∉ Token.marks) ∧
    (∀ op : Option ArithOp, assignText op ∉ Token.marks) := by
  refine ⟨?_, ?_, ?_, ?_, ?_⟩
  · rintro (op | op) <;> cases op <;> decide
  · rintro op
    cases op <;> decide
  · rintro op
    cases op <;> decide
  · rintro op
    cases op with
    | step op => cases op <;> decide
    | _ => decide
  · rintro (_ | op)
    · decide
    · cases op <;> decide

/-- **The lookahead passes over every expression.** -/
theorem Derives.passed {r : Rank} {e : Expr} (h : Derives r s e) (htold : ∀ t ∈ s, t.Told) :
    Passed s := by
  obtain ⟨hbinary, hlogic, hstep, hunary, hassign⟩ := not_mark_signs
  -- no sign in an expression stops the lookahead, and brackets are passed as a whole
  induction h with
  | tighter _ _ ih => exact ih htold
  | @assign _ _ _ op _ _ _ hat _ ihtarget ihvalue =>
    rw [List.forall_mem_append, List.forall_mem_cons] at htold
    exact (ihtarget htold.1).append (.cons (.of_isAt hat (hassign op)) (ihvalue htold.2.2))
  | conditional _ hquestion _ hcolon _ ih₁ ih₂ ih₃ =>
    rw [List.forall_mem_append, List.forall_mem_cons, List.forall_mem_append,
      List.forall_mem_cons] at htold
    obtain ⟨hs₁, _, hs₂, _, hs₃⟩ := htold
    refine (ih₁ hs₁).append (.cons (.of_isAt hquestion (by decide)) ((ih₂ hs₂).append ?_))
    exact .cons (.of_isAt hcolon (by decide)) (ih₃ hs₃)
  | @logic _ _ _ op _ _ _ hat _ ihleft ihright =>
    rw [List.forall_mem_append, List.forall_mem_cons] at htold
    exact (ihleft htold.1).append (.cons (.of_isAt hat (hlogic op)) (ihright htold.2.2))
  | @binary _ _ _ op _ _ _ hat _ ihleft ihright =>
    rw [List.forall_mem_append, List.forall_mem_cons] at htold
    exact (ihleft htold.1).append (.cons (.of_isAt hat (hbinary op)) (ihright htold.2.2))
  | @unary _ _ op _ hat _ ih =>
    rw [List.forall_mem_cons] at htold
    exact .cons (.of_isAt hat (hunary op)) (ih htold.2)
  | sizeOfType hsize hopener htype hcloser =>
    rw [List.forall_mem_cons, List.forall_mem_cons, List.forall_mem_append] at htold
    obtain ⟨ht, _, hs, _⟩ := htold
    exact .cons (.of_kind ht (by rw [kind_of_isSizeOf hsize]; decide))
      (.enclosed hopener (htype.passed hs) hcloser)
  | sizeOf hsize _ _ ih =>
    rw [List.forall_mem_cons] at htold
    exact .cons (.of_kind htold.1 (by rw [kind_of_isSizeOf hsize]; decide)) (ih htold.2)
  | @cast s s' opener closer _ _ hopener htype hcloser _ ih =>
    rw [List.forall_mem_cons, List.forall_mem_append, List.forall_mem_cons] at htold
    obtain ⟨_, hs, _, hs'⟩ := htold
    have hinner := (Passed.enclosed hopener (htype.passed hs) hcloser).append (ih hs')
    rwa [List.cons_append, List.append_assoc, List.singleton_append] at hinner
  | @member _ _ _ arrow _ _ hat hkind ih =>
    rw [List.forall_mem_append, List.forall_mem_cons, List.forall_mem_singleton] at htold
    refine (ih htold.1).append (.cons (.of_isAt hat ?_) (.of_kind htold.2.2 ?_))
    · cases arrow <;> decide
    · rw [hkind]
      decide
  | @stepAfter _ _ op _ _ hat ih =>
    rw [List.forall_mem_append] at htold
    exact (ih htold.1).append (.of_isAt hat (hstep op))
  | literal hkind =>
    rw [List.forall_mem_singleton] at htold
    exact .of_kind htold (by rw [hkind]; decide)
  | name hname =>
    rw [List.forall_mem_singleton] at htold
    exact .of_kind htold (kind_of_isName hname).2.2.1
  | call hname hopener _ hjoined hcloser ih =>
    rw [List.forall_mem_cons, List.forall_mem_cons, List.forall_mem_append] at htold
    obtain ⟨ht, _, hs, _⟩ := htold
    refine .cons (.of_kind ht (kind_of_isName hname).2.2.1) (.enclosed hopener ?_ hcloser)
    refine hjoined.passed fun stretch hstretch => ?_
    obtain ⟨argument, hargument, rfl⟩ := List.mem_map.1 hstretch
    exact ih argument hargument fun t ht => hs t (hjoined.mem hstretch ht)
  | index hname hopener _ hcloser ih =>
    rw [List.forall_mem_cons, List.forall_mem_cons, List.forall_mem_append] at htold
    obtain ⟨ht, _, hs, _⟩ := htold
    exact .cons (.of_kind ht (kind_of_isName hname).2.2.1) (.cons (.of_isAt hopener (by decide))
      ((ih hs).append (.of_isAt hcloser (by decide))))
  | parens hopener _ _ hcloser ih =>
    rw [List.forall_mem_cons, List.forall_mem_append] at htold
    exact .enclosed hopener (ih htold.2.1) hcloser

/-! ## What the lookahead says of a declaration -/

/-- From the first tokens on up to the second ones, the lookahead passes. -/
def Skips (s rest : List Token) : Prop :=
  ∃ used, s = used ++ rest ∧ Passed used

namespace Skips

variable {mid : List Token}

theorem refl (s : List Token) : Skips s s :=
  ⟨[], rfl, .nil⟩

theorem trans (h : Skips s mid) (h' : Skips mid rest) : Skips s rest := by
  obtain ⟨used, rfl, hused⟩ := h
  obtain ⟨used', rfl, hused'⟩ := h'
  exact ⟨used ++ used', (List.append_assoc _ _ _).symm, hused.append hused'⟩

theorem cons (ht : Passed [t]) (h : Skips s rest) : Skips (t :: s) rest :=
  trans ⟨[t], rfl, ht⟩ h

theorem told (h : Skips s rest) (htold : ∀ t ∈ s, t.Told) : ∀ t ∈ rest, t.Told := by
  obtain ⟨used, rfl, _⟩ := h
  exact (List.forall_mem_append.1 htold).2

theorem hasBody (h : Skips s rest) (depth : Int) :
    hasBody depth s = Grammar.hasBody depth rest := by
  obtain ⟨used, rfl, hused⟩ := h
  exact hused depth rest

end Skips

/-- Between the first tokens and the second ones the lookahead finds a brace just if there is one. -/
def Tells (s rest : List Token) (braced : Bool) : Prop :=
  if braced then hasBody 0 s = true else Skips s rest

namespace Tells

variable {mid : List Token} {braced : Bool}

theorem behind (h : Skips s mid) (h' : Tells mid rest braced) : Tells s rest braced := by
  cases braced with
  | false => exact h.trans h'
  | true => exact (h.hasBody 0).trans h'

/-- A semicolon ends what the lookahead looks at. -/
theorem hasBody (h : Tells s (t :: rest) braced) (ht : isAt ";" t = true) :
    hasBody 0 s = braced := by
  cases braced with
  | true => exact h
  | false =>
    rw [Skips.hasBody h, Grammar.hasBody, (isAt_iff.1 ht).1]
    rfl

end Tells

theorem stars_skips (s : List Token) : (stars s).Meets fun _ rest => Skips s rest := by
  refine (stars_spans s).imp ?_
  rintro n rest ⟨used, rfl, _, hused⟩
  exact ⟨used, rfl, passed_stars hused⟩

theorem typeName_skips (htold : ∀ t ∈ s, t.Told) :
    (typeName s).Meets fun _ rest => Skips s rest := by
  unfold typeName
  split
  · refine .map ((typeWords_spans s).imp ?_)
    rintro words rest ⟨used, rfl, hused⟩
    exact ⟨used, rfl, hused.passed (List.forall_mem_append.1 htold).1⟩
  · exact .fail _

theorem assignment_skips (htold : ∀ t ∈ s, t.Told) :
    (assignment s).Meets fun _ rest => Skips s rest := by
  refine (assignment_derives s).imp ?_
  rintro e rest ⟨used, rfl, hused⟩
  exact ⟨used, rfl, hused.passed (List.forall_mem_append.1 htold).1⟩

theorem punct_skips {text : String} (htext : text ∉ Token.marks) (s : List Token) :
    (punct text s).Meets fun _ rest => Skips s rest := by
  refine (punct_spans text s).imp ?_
  rintro u rest ⟨u, rfl, hat⟩
  exact .cons (.of_isAt hat htext) (.refl rest)

theorem brackets_skips (htold : ∀ t ∈ s, t.Told) :
    (brackets s).Meets fun _ rest => Skips s rest := by
  cases s with
  | nil => exact .done (.refl [])
  | cons t s =>
    rw [List.forall_mem_cons] at htold
    rw [brackets]
    split
    · next hopen =>
      have hpassed : Passed [t] := .of_isAt hopen (by decide)
      refine .relax ?_
      split
      · refine .after (.map ((punct_skips (by decide) s).imp ?_))
        exact fun _ rest h => .cons hpassed h
      · refine .after (.andThen (assignment_skips htold.2) fun size mid _ hsize => ?_)
        refine .map ((punct_skips (by decide) mid).imp ?_)
        exact fun _ rest h => .cons hpassed (hsize.trans h)
    · exact .done (.refl (t :: s))

theorem initializer_tells (htold : ∀ t ∈ s, t.Told) :
    (initializer s).Meets fun init rest => Tells s rest init.isBraced := by
  cases s with
  | nil =>
    rw [initializer]
    exact .map (assignment_skips htold)
  | cons t s =>
    rw [initializer]
    split
    · next hbrace =>
      -- the brace is found, whatever stands in the list
      have hfound : hasBody 0 (t :: s) = true := by
        rw [hasBody, (isAt_iff.1 hbrace).1]
        rfl
      refine .andThen (.any _) fun brace rest _ _ => ?_
      exact .andThen (.any _) fun items rest _ _ => .map fun _ _ => hfound
    · exact .map (assignment_skips htold)

theorem initialization_tells (htold : ∀ t ∈ s, t.Told) :
    (initialization s).Meets fun init rest => Tells s rest (init.any Init.isBraced) := by
  cases s with
  | nil => exact .done (.refl [])
  | cons t s =>
    rw [initialization]
    split
    · next hequals =>
      rw [List.forall_mem_cons] at htold
      refine .relax (.after (.map ((initializer_tells htold.2).imp ?_)))
      intro init rest h
      exact .behind (.cons (.of_isAt hequals (by decide)) (.refl s)) h
    · exact .done (.refl (t :: s))

theorem variableDecl_tells (htold : ∀ t ∈ s, t.Told) :
    (variableDecl s).Meets fun v rest => Tells s rest v.isBraced := by
  refine .andThen (stars_skips s) fun depth mid _ hstars => ?_
  have hmid := hstars.told htold
  refine .andThen (P := fun _ rest => Skips mid rest) ?_ fun name rest _ hname => ?_
  · refine (expectOr_spans _ _ _ mid).imp ?_
    rintro name rest ⟨rfl, hkind, _⟩
    exact .cons (.of_kind (hmid name List.mem_cons_self) (by rw [hkind]; decide)) (.refl rest)
  · have hrest := hname.told hmid
    refine .andThen (brackets_skips hrest) fun brackets rest' _ hbrackets => ?_
    refine .map ((initialization_tells (hbrackets.told hrest)).imp ?_)
    exact fun init rest'' h => .behind (hstars.trans (hname.trans hbrackets)) h

theorem variableDecls_tells (s : List Token) (htold : ∀ t ∈ s, t.Told) :
    (variableDecls s).Meets fun vars rest => Tells s rest (vars.any Variable.isBraced) := by
  rw [variableDecls]
  refine .andThen (variableDecl_tells htold) fun first rest hlength hfirst => ?_
  have hone : Tells s rest ([first].any Variable.isBraced) := by
    rwa [List.any_cons, List.any_nil, Bool.or_false]
  cases rest with
  | nil => exact .done hone
  | cons t rest =>
    dsimp only
    split
    · next hcomma =>
      refine .relax (.after (.map ?_))
      cases hbraced : first.isBraced with
      | true =>
        rw [hbraced] at hfirst
        intro r hr
        rw [List.any_cons, hbraced]
        exact hfirst
      | false =>
        rw [hbraced] at hfirst
        have hskips : Skips s rest := hfirst.trans (.cons (.of_isAt hcomma (by decide)) (.refl rest))
        refine (variableDecls_tells rest (hskips.told htold)).imp fun more rest' hmore => ?_
        rw [List.any_cons, hbraced]
        exact .behind hskips hmore
    · exact .done hone
termination_by s.length
decreasing_by simp at hlength; omega

/-! ## No definition of a function is read from a declaration -/

theorem punct_fails {text : String} (h : ∀ t ∈ s.head?, isAt text t = true → t.kind ≠ .punctuation) :
    (punct text s).Fails (.expected .punctuation (some text)) := by
  unfold punct expectOr
  split
  · exact .fail _
  · next t rest =>
    rw [if_neg]
    · exact .fail _
    · rintro ⟨hkind, htext⟩
      refine h t rfl (isAt_iff.2 ⟨?_, by rw [hkind]; decide⟩) hkind
      exact (Option.some.inj (htext.resolve_left (by simp))).symm

theorem punct_gives_of_kind {text : String} (hat : isAt text t = true) (hkind : t.kind = .punctuation)
    (rest : List Token) : (punct text (t :: rest)).Gives t rest := by
  show (if t.kind = .punctuation ∧ (some text = none ∨ some text = some t.text)
    then (Parse.done t : Parse _ rest _).after t
    else Parse.fail (.expected .punctuation (some text))).Gives t rest
  rw [if_pos ⟨hkind, Or.inr (congrArg some (isAt_iff.1 hat).1.symm)⟩]
  exact (Parse.Gives.done t).after t

/-- Nothing that may follow a declared name begins with a round bracket. -/
theorem brackets_meets (s : List Token) :
    (brackets s).Meets fun _ rest => headIs "(" s = true → rest = s := by
  cases s with
  | nil => exact .done fun _ => rfl
  | cons t s =>
    rw [brackets]
    split
    · next hat =>
      intro r hr hround
      rw [headIs, isAt_iff, (isAt_iff.1 hat).1] at hround
      exact absurd hround.1 (by decide)
    · exact .done fun _ => rfl

theorem initialization_meets (s : List Token) :
    (initialization s).Meets fun _ rest => headIs "(" s = true → rest = s := by
  cases s with
  | nil => exact .done fun _ => rfl
  | cons t s =>
    rw [initialization]
    split
    · next hat =>
      intro r hr hround
      rw [headIs, isAt_iff, (isAt_iff.1 hat).1] at hround
      exact absurd hround.1 (by decide)
    · exact .done fun _ => rfl

/-- The definition of a function needs a round bracket behind the name. -/
theorem functionDefinition_fails (line : Nat) (type : CType) (s : List Token) :
    (variableDecl s).Meets fun _ rest => headIs "(" rest = false →
      (functionDefinition line type s).Fails (.expected .punctuation (some "(")) := by
  refine .andThen (P := fun depth mid => (stars s).Gives depth mid)
    (fun r hr => ⟨r, hr, rfl, rfl⟩) fun depth mid _ hstars => ?_
  refine .andThen (expectOr_spans _ _ _ mid) fun name rest _ hname => ?_
  refine .andThen (brackets_meets rest) fun brackets sized _ hbrackets => ?_
  refine .map ((initialization_meets sized).imp fun init rest' hinit hround => ?_)
  obtain ⟨rfl, hkind, _⟩ := hname
  refine hstars.andThen_fails fun _ => ?_
  have hgives : (functionName (name :: rest)).Gives name.text rest := by
    rw [functionName, if_pos (by rw [isName, hkind]; rfl)]
    exact (Parse.Gives.done _).after _
  refine hgives.andThen_fails fun _ => ?_
  · refine (punct_fails fun t ht hparen => ?_).andThen
    have hhead : headIs "(" rest = true := by
      obtain ⟨tail, rfl⟩ := List.head?_eq_some_iff.1 ht
      exact hparen
    obtain rfl := hbrackets hhead
    rw [hinit hhead, hhead] at hround
    cases hround

theorem functionDefinition_fails_all (line : Nat) (type : CType) (s : List Token) :
    (variableDecls s).Meets fun _ rest => headIs "(" rest = false →
      (functionDefinition line type s).Fails (.expected .punctuation (some "(")) := by
  rw [variableDecls]
  refine .andThen (functionDefinition_fails line type s) fun first rest _ hfirst => ?_
  cases rest with
  | nil => exact .done hfirst
  | cons t rest =>
    dsimp only
    split
    · next hcomma =>
      intro r hr _
      refine hfirst ?_
      rw [headIs, isAt, (isAt_iff.1 hcomma).1]
      rfl
    · exact .done hfirst

/-! ## Items that begin as a declaration does -/

/-- A statement that is a declaration is a type, then names up to a semicolon. -/
theorem declStmt_meets (line : Nat) (s : List Token) :
    (declStmt line s).Meets fun v rest => ∃ d mid semicolon, v = .decl d ∧ d.line = line ∧
      (typeName s).Gives d.type mid ∧ (variableDecls mid).Gives d.vars (semicolon :: rest) ∧
      isAt ";" semicolon = true ∧ semicolon.kind = .punctuation := by
  refine .andThen (P := fun d rest => ∃ mid, d.line = line ∧ (typeName s).Gives d.type mid ∧
    (variableDecls mid).Gives d.vars rest) ?_ ?_
  · refine .andThen (P := fun type mid => (typeName s).Gives type mid)
      (fun r hr => ⟨r, hr, rfl, rfl⟩) fun type mid _ htype => .map fun r hr => ?_
    exact ⟨mid, rfl, htype, r, hr, rfl, rfl⟩
  · rintro d rest _ ⟨mid, hline, htype, hvars⟩
    refine .map ((expectOr_spans _ _ _ rest).imp ?_)
    rintro semicolon rest' ⟨rfl, hkind, htext⟩
    refine ⟨d, mid, semicolon, rfl, hline, htype, hvars, isAt_iff.2 ⟨?_, ?_⟩, hkind⟩
    · exact (Option.some.inj (htext.resolve_left (by simp))).symm
    · rw [hkind]
      decide

/-- If the lookahead finds a brace, nothing is read at the top level, and else the declaration. -/
theorem typedItem_of_decl {d : Decl} {mid : List Token} (htype : (typeName s).Gives d.type mid)
    (hvars : (variableDecls mid).Gives d.vars (t :: rest)) (hat : isAt ";" t = true)
    (hkind : t.kind = .punctuation) :
    (hasBody 0 mid = true ∧ (typedItem d.line s).Fails (.expected .punctuation (some "("))) ∨
    hasBody 0 mid = false ∧ (typedItem d.line s).Gives (.decl d) rest := by
  unfold typedItem
  cases hbody : hasBody 0 mid with
  | true =>
    refine Or.inl ⟨rfl, htype.andThen_fails fun _ => ?_⟩
    rw [if_pos hbody]
    obtain ⟨r, hr, _, hrest⟩ := hvars
    refine (functionDefinition_fails_all d.line d.type mid r hr ?_).map _
    rw [hrest, headIs, isAt, (isAt_iff.1 hat).1]
    rfl
  | false =>
    refine Or.inr ⟨rfl, htype.andThen fun _ => ?_⟩
    rw [if_neg (by rw [hbody]; decide)]
    exact hvars.andThen fun _ =>
      (punct_gives_of_kind hat hkind rest).map fun _ => Item.decl ⟨d.line, d.type, d.vars⟩

theorem not_startsType_brace (h : isAt "\x7b" t = true) : startsType t = false := by
  by_contra hstarts
  rw [Bool.not_eq_false] at hstarts
  have hwords : "\x7b" ∉ typeKeywords ∧ "\x7b" ∉ tagKeywords ∧ "\x7b" ∉ typedefNames := by decide
  rw [← (isAt_iff.1 h).1] at hwords
  rcases startsType_cases hstarts with ⟨_, hword | hword⟩ | ⟨_, hword⟩
  · exact hwords.1 hword
  · exact hwords.2.1 hword
  · exact hwords.2.2 hword

/-- The type in front of the body of a struct is its tag. -/
theorem typeName_struct {tag brace : Token} (hstruct : isAt "struct" t = true)
    (hbrace : isAt "\x7b" brace = true) :
    (typeName (t :: tag :: brace :: s)).Meets fun _ rest => rest = brace :: s := by
  unfold typeName
  split
  · next hstarts =>
    refine .map ?_
    have htag : tagKeywords.contains t.text = true := by
      rw [(isAt_iff.1 hstruct).1]
      decide
    have hdone : typeWords (brace :: s) = Parse.done [] := by
      unfold typeWords
      rw [if_neg (by rw [not_startsType_brace hbrace]; decide)]
    rw [headStartsType] at hstarts
    unfold typeWords
    rw [if_pos hstarts, if_pos htag]
    dsimp only
    split
    · rw [hdone]
      exact .relax (.after (.after (.map (.done rfl))))
    · exact .relax (.after (.fail _))
  · exact .fail _

/-- A declared name without stars is an identifier. -/
theorem variableDecls_head (hstar : isAt "*" t = false) :
    (variableDecls (t :: s)).Meets fun _ _ => t.kind = .identifier := by
  rw [variableDecls]
  refine .andThen (P := fun _ _ => t.kind = .identifier) ?_ fun _ _ _ h _ _ => h
  have hstars : stars (t :: s) = Parse.done 0 := by
    rw [stars, hstar]
    rfl
  unfold variableDecl
  rw [hstars]
  refine .andThen (P := fun _ rest => rest = t :: s) (.done rfl) ?_
  rintro depth _ _ rfl
  refine .andThen (expectOr_spans _ _ _ (t :: s)) ?_
  rintro name rest _ ⟨hs, hkind, _⟩ _ _
  rw [(List.cons.inj hs).1]
  exact hkind

/-- What is read of a declaration at the top level: nothing if the lookahead finds a brace, and
nothing if it looks like a struct, which takes a name that is spelled as a brace. -/
theorem item_of_decl {d : Decl} {mid : List Token} {semicolon : Token} (hkind : t.kind ≠ .preprocessor)
    (hstarts : startsType t = true) (hline : d.line = t.line)
    (htype : (typeName (t :: s)).Gives d.type mid)
    (hvars : (variableDecls mid).Gives d.vars (semicolon :: rest)) (hat : isAt ";" semicolon = true)
    (hsemicolon : semicolon.kind = .punctuation) :
    (hasBody 0 mid = true ∧ (item (t :: s)).Fails (.expected .punctuation (some "("))) ∨
    (hasBody 0 mid = false ∧ (item (t :: s)).Gives (.decl d) rest) ∨
    (∃ brace ∈ mid, isAt "\x7b" brace = true ∧ brace.kind = .identifier) ∧
      (item (t :: s)).Fails (.expected .punctuation (some "\x7b")) := by
  by_cases hstruct : ∃ tag brace more, s = tag :: brace :: more ∧
      isAt "struct" t = true ∧ tag.kind = .identifier ∧ isAt "\x7b" brace = true
  · obtain ⟨tag, brace, more, rfl, hword, htag, hbrace⟩ := hstruct
    obtain ⟨q, hq, _, rfl⟩ := htype
    rw [typeName_struct hword hbrace q hq] at hvars ⊢
    obtain ⟨q', hq', _, _⟩ := hvars
    have hstar : isAt "*" brace = false := by
      rw [isAt, (isAt_iff.1 hbrace).1]
      rfl
    have hidentifier : brace.kind = .identifier := variableDecls_head hstar q' hq'
    refine Or.inr (Or.inr ⟨⟨brace, List.mem_cons_self, hbrace, hidentifier⟩, ?_⟩)
    rw [item_eq_struct hkind hstarts hword htag hbrace]
    refine .after (.after (.map (.andThen (punct_fails ?_)) _) _) _
    rintro _ ⟨⟩ _
    rw [hidentifier]
    decide
  · rw [item_eq_typedItem hkind hstarts fun tag brace more hs h =>
      hstruct ⟨tag, brace, more, hs, h⟩, ← hline]
    rcases typedItem_of_decl htype hvars hat hsemicolon with h | h
    · exact Or.inl h
    · exact Or.inr (Or.inl h)

theorem not_decl_of_map {α : Type} {strict : Bool} {p : Parse strict s α} {f : α → Stmt}
    {P : Stmt → List Token → Prop} (h : ∀ a d, f a ≠ .decl d) :
    (p.map f).Meets fun v rest => ∀ d, v = .decl d → P v rest :=
  .map fun _ _ d hd => absurd hd (h _ d)

/-- A statement that is a declaration begins with a type, and is read by the reader for it. -/
theorem statement_decl (t : Token) (s : List Token) :
    (statement (t :: s)).Meets fun v rest => ∀ d, v = .decl d →
      t.kind ≠ .preprocessor ∧ startsType t = true ∧ (declStmt t.line (t :: s)).Gives v rest := by
  unfold statement
  split
  · exact not_decl_of_map fun _ _ => Stmt.noConfusion
  · next hkind =>
    split
    · exact not_decl_of_map fun _ _ => Stmt.noConfusion
    · split
      · exact .after (.done fun d hd => Stmt.noConfusion hd)
      · split
        · refine .after (.andThen (.any _) fun _ rest _ _ => ?_)
          refine .andThen (.any _) fun whenTrue rest' _ _ => ?_
          cases rest' with
          | nil => exact .done fun d hd => Stmt.noConfusion hd
          | cons u rest' =>
            dsimp only
            split
            · exact .relax (.after (not_decl_of_map fun _ _ => Stmt.noConfusion))
            · exact .done fun d hd => Stmt.noConfusion hd
        · exact .after (.andThen (.any _) fun _ _ _ _ => not_decl_of_map fun _ _ => Stmt.noConfusion)
        · exact .after (.andThen (.any _) fun _ _ _ _ => not_decl_of_map fun _ _ => Stmt.noConfusion)
        · exact .after (.andThen (.any _) fun _ _ _ _ => not_decl_of_map fun _ _ => Stmt.noConfusion)
        · exact .after (.andThen (.any _) fun _ _ _ _ => not_decl_of_map fun _ _ => Stmt.noConfusion)
        · exact .after (.andThen (.any _) fun _ _ _ _ => not_decl_of_map fun _ _ => Stmt.noConfusion)
        · exact .after (.andThen (.any _) fun _ _ _ _ => not_decl_of_map fun _ _ => Stmt.noConfusion)
        · exact .after (not_decl_of_map fun _ _ => Stmt.noConfusion)
        · exact .after (not_decl_of_map fun _ _ => Stmt.noConfusion)
        · exact .after (not_decl_of_map fun _ _ => Stmt.noConfusion)
        · split
          · next hstarts => exact fun r hr d _ => ⟨hkind, hstarts, r, hr, rfl, rfl⟩
          · exact .andThen (.any _) fun _ _ _ _ => not_decl_of_map fun _ _ => Stmt.noConfusion

/-- What is read at the top level of a declaration, and when: the lookahead goes by the braces. -/
theorem item_of_statement {d : Decl} (hread : (statement (t :: s)).Gives (.decl d) rest) :
    ∃ mid, ((∀ u ∈ t :: s, u.Told) →
      (∀ u ∈ mid, u.Told) ∧ hasBody 0 mid = d.vars.any Variable.isBraced) ∧
      ((hasBody 0 mid = true ∧ (item (t :: s)).Fails (.expected .punctuation (some "("))) ∨
      (hasBody 0 mid = false ∧ (item (t :: s)).Gives (.decl d) rest) ∨
      (∃ brace ∈ mid, isAt "\x7b" brace = true ∧ brace.kind = .identifier) ∧
        (item (t :: s)).Fails (.expected .punctuation (some "\x7b"))) := by
  obtain ⟨r, hr, hvalue, hrest⟩ := hread
  obtain ⟨hkind, hstarts, r', hr', hvalue', hrest'⟩ := statement_decl t s r hr d hvalue
  obtain ⟨d', mid, semicolon, hd, hline, htype, hvars, hat, hsemicolon⟩ :=
    declStmt_meets t.line (t :: s) r' hr'
  obtain rfl : d = d' := Stmt.decl.inj (hvalue.symm.trans (hvalue'.symm.trans hd))
  rw [hrest', hrest] at hvars
  refine ⟨mid, fun htold => ?_, item_of_decl hkind hstarts hline htype hvars hat hsemicolon⟩
  obtain ⟨q, hq, _, rfl⟩ := htype
  have hmid := (typeName_skips htold q hq).told htold
  obtain ⟨q', hq', hnames, hnext⟩ := hvars
  have htells := variableDecls_tells q.rest hmid q' hq'
  rw [hnext, hnames] at htells
  exact ⟨hmid, htells.hasBody hat⟩

/-! ## Programs of one item -/

theorem parse_of_gives {i : Item} (h : (item (t :: s)).Gives i []) :
    parse (t :: s) = .ok ⟨[i]⟩ := by
  have hitems : (items (t :: s)).Gives [i] [] := by
    rw [items]
    refine (h.andThen fun _ => ?_).relax
    rw [items]
    exact (Parse.Gives.done []).map _
  obtain ⟨r, hr, hvalue, _⟩ := hitems
  rw [parse, hr]
  dsimp only
  rw [hvalue]

theorem parse_of_fails {problem : Problem} (h : (item (t :: s)).Fails problem) :
    ∃ e, parse (t :: s) = .error e ∧ e.problem = problem := by
  have hitems : (items (t :: s)).Fails problem := by
    rw [items]
    exact h.andThen.relax
  obtain ⟨f, hf, rfl⟩ := hitems
  refine ⟨f.error, ?_, rfl⟩
  rw [parse, hf]

end Grammar

/-- **What is a declaration in a function is the same declaration at the top level, unless an
initializer has braces.** Whatever the tokens are, if they are a declaration as a statement, they are
never read as another program. If each token with the text of a round bracket, an opening brace or a
semicolon is one, then they are read as that declaration just if no name has a braced initializer;
otherwise a round bracket is looked for behind the first name. -/
theorem unbraced_declarations_are_read {tokens : List Token} {d : Decl}
    (hread : (Grammar.statement tokens).Gives (.decl d) []) :
    (∀ p, parse tokens = .ok p → p = ⟨[.decl d]⟩) ∧
    ((∀ t ∈ tokens, t.Told) →
      ((∀ v ∈ d.vars, v.isBraced = false) → parse tokens = .ok ⟨[.decl d]⟩) ∧
      ((∃ v ∈ d.vars, v.isBraced = true) →
        ∃ e, parse tokens = .error e ∧ e.problem = .expected .punctuation (some "("))) := by
  cases tokens with
  | nil =>
    obtain ⟨r, hr, _⟩ := hread
    rw [Grammar.statement] at hr
    cases hr
  | cons t s =>
    obtain ⟨mid, htold, hcases⟩ := Grammar.item_of_statement hread
    constructor
    · intro p hp
      -- taken for a function, it is refused; taken for a declaration, it is read
      rcases hcases with ⟨_, hfails⟩ | ⟨_, hgives⟩ | ⟨_, hfails⟩
      · obtain ⟨e, he, _⟩ := Grammar.parse_of_fails hfails
        rw [he] at hp
        cases hp
      · rw [Grammar.parse_of_gives hgives] at hp
        exact (Except.ok.inj hp).symm
      · obtain ⟨e, he, _⟩ := Grammar.parse_of_fails hfails
        rw [he] at hp
        cases hp
    · intro hall
      obtain ⟨hmid, hbraced⟩ := htold hall
      rcases hcases with ⟨hfound, hfails⟩ | ⟨hfound, hgives⟩ | ⟨⟨brace, hmem, hopens, hname⟩, _⟩
      · refine ⟨fun hnone => ?_, fun _ => Grammar.parse_of_fails hfails⟩
        rw [hbraced, List.any_eq_true] at hfound
        obtain ⟨v, hv, hfound⟩ := hfound
        rw [hnone v hv] at hfound
        cases hfound
      · refine ⟨fun _ => Grammar.parse_of_gives hgives, fun ⟨v, hv, hsome⟩ => ?_⟩
        rw [hbraced, List.any_eq_false] at hfound
        exact absurd hsome (hfound v hv)
      · -- a brace is no name
        have hpunctuation := hmid brace hmem (by rw [(Grammar.isAt_iff.1 hopens).1]; decide)
        rw [hname] at hpunctuation
        cases hpunctuation

namespace Globals

/-- The tokens of a declaration without braces. -/
def plain : List Token :=
  [⟨.keyword, "int", 1, 1⟩, ⟨.identifier, "a", 1, 5⟩, ⟨.operator, "=", 1, 7⟩,
    ⟨.punctuation, "(", 1, 9⟩, ⟨.literal, "3", 1, 10⟩, ⟨.punctuation, ")", 1, 11⟩,
    ⟨.punctuation, ";", 1, 12⟩]

/-- The tokens of a declaration with a braced initializer. -/
def braced : List Token :=
  [⟨.keyword, "int", 1, 1⟩, ⟨.identifier, "a", 1, 5⟩, ⟨.punctuation, "[", 1, 6⟩,
    ⟨.literal, "3", 1, 7⟩, ⟨.punctuation, "]", 1, 8⟩, ⟨.operator, "=", 1, 10⟩,
    ⟨.punctuation, "\x7b", 1, 12⟩, ⟨.literal, "1", 1, 13⟩, ⟨.punctuation, ",", 1, 14⟩,
    ⟨.literal, "2", 1, 16⟩, ⟨.punctuation, ",", 1, 17⟩, ⟨.literal, "3", 1, 19⟩,
    ⟨.punctuation, "\x7d", 1, 20⟩, ⟨.punctuation, ";", 1, 21⟩]

/-- The declaration without braces. -/
def number : Decl :=
  ⟨1, .int, [⟨1, "a", 0, .none, some (.expr (.literal 1 "3"))⟩]⟩

/-- The declaration with a braced initializer. -/
def array : Decl :=
  ⟨1, .int, [⟨1, "a", 0, .sized (.literal 1 "3"),
    some (.list 1 [.expr (.literal 1 "1"), .expr (.literal 1 "2"), .expr (.literal 1 "3")])⟩]⟩

end Globals

/-- A global variable is read with its initializer. -/
theorem plain_global_is_read :
    tokenize "int a = (3);" = Globals.plain ∧
    (Grammar.statement Globals.plain).Gives (.decl Globals.number) [] ∧
    (∀ t ∈ Globals.plain, t.Told) ∧ (∀ v ∈ Globals.number.vars, v.isBraced = false) ∧
    parse Globals.plain = .ok ⟨[.decl Globals.number]⟩ := by
  have htokens : tokenize "int a = (3);" = Globals.plain :=
    Token.tokenize_of_chars rfl (by decide +kernel) (by decide)
  have hundirected : Token.Undirected "int a = (3);" := by decide
  have hread : (Grammar.statement Globals.plain).Gives (.decl Globals.number) [] :=
    .of_toOption (by decide +kernel)
  have htold : ∀ t ∈ Globals.plain, t.Told := by
    rw [← htokens]
    exact fun t ht => (hundirected.written t ht).told
  have hplain : ∀ v ∈ Globals.number.vars, v.isBraced = false := by decide
  exact ⟨htokens, hread, htold, hplain, ((unbraced_declarations_are_read hread).2 htold).1 hplain⟩

/-- A global array with a braced initializer is taken for a function, and refused. -/
theorem braced_global_is_refused :
    tokenize "int a[3] = \x7b1, 2, 3\x7d;" = Globals.braced ∧
    (Grammar.statement Globals.braced).Gives (.decl Globals.array) [] ∧
    parse Globals.braced = .error
      ⟨.expected .punctuation (some "("), some ⟨.punctuation, "[", 1, 6⟩, 1⟩ :=
  ⟨Token.tokenize_of_chars rfl (by decide +kernel) (by decide), .of_toOption (by decide +kernel), by decide +kernel⟩

end Stepwise
