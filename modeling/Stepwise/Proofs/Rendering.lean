/-
When the text of an expression is read back as the expression.

The tokens that the text is meant to have derive the expression just when every
operand keeps its place: one written without parentheses holds together as its place
asks for, and one in parentheses does not begin like a type. That this suffices is an
induction on the derivation the expression came from (`Derives.rebuilt`). That it is
needed is seen from the round brackets. However an expression is derived, it is a number
of parentheses around a rule of its own (`Derives.made`), and in front of a token that is
no round bracket the brackets of both sides are counted: so the rule splits the tokens
where the text was put together (`tight`).
-/
import Stepwise.Proofs.Brackets
import Stepwise.Syntax.Equality

set_option autoImplicit false

namespace Stepwise

open Token

namespace Grammar

variable {s : List Token} {r : Rank} {e : Expr}

/-! ## Ranks -/

theorem fits_iff {e : Expr} {r : Rank} : e.fits r = true ↔ e.rank ∈ r.downward := by
  rw [Expr.fits, List.contains_iff_mem]

theorem fits_rank (e : Expr) : e.fits e.rank = true := by
  rw [fits_iff]
  cases e.rank <;> exact List.mem_cons_self

theorem fits_tighter {r r' : Rank} (hnext : r.next? = some r') (h : e.fits r' = true) :
    e.fits r = true := by
  rw [fits_iff] at h ⊢
  rw [Rank.downward_eq hnext]
  exact List.mem_cons_of_mem _ h

theorem fits_assignment (e : Expr) : e.fits .assignment = true := by
  rw [fits_iff]
  cases e.rank with
  | level l => cases l <;> decide
  | _ => decide

/-- What is derived at a rank is derived at all looser ones. -/
theorem Derives.loosen {r' : Rank} (h : Derives r' s e) (hmem : r' ∈ r.downward) :
    Derives r s e := by
  generalize hn : r.downward.length = n
  induction n generalizing r with
  | zero => cases r <;> cases hn
  | succ n ih =>
    by_cases hr : r' = r
    · rwa [hr] at h
    · cases hnext : r.next? with
      | none =>
        -- the tightest rank has no other below it
        cases r <;> cases hnext
        exact absurd (List.mem_singleton.1 hmem) hr
      | some r'' =>
        rw [Rank.downward_eq hnext] at hmem
        rw [Rank.downward_eq hnext, List.length_cons] at hn
        exact .tighter hnext (ih ((List.mem_cons.1 hmem).resolve_left hr) (Nat.succ.inj hn))

theorem Derives.of_fits {e' : Expr} (h : Derives e.rank s e') (hfits : e.fits r = true) :
    Derives r s e' :=
  h.loosen (fits_iff.1 hfits)

theorem primary_mem_downward (r : Rank) : .primary ∈ r.downward := by
  cases r with
  | level l => cases l <;> decide
  | _ => decide

/-! ## How the tokens begin -/

theorem headStartsType_of_ne_nil (hne : s ≠ []) (rest : List Token) :
    headStartsType (s ++ rest) = headStartsType s := by
  obtain ⟨t, s, rfl⟩ := List.exists_cons_of_ne_nil hne
  rfl

theorem startsType_name {t : Token} (hname : isName t = true) (ht : t.unplaced = ofWord t.text) :
    startsType (ofWord t.text) = typedefNames.contains t.text := by
  have hkinds : ∀ n ∈ typedefNames, wordKind n = .identifier := by decide
  have hkind : t.kind = wordKind t.text := congrArg Token.kind ht
  have hof : (ofWord t.text).kind = t.kind := hkind.symm
  unfold startsType
  rw [hof]
  rw [isName, Bool.or_eq_true, beq_iff_eq, beq_iff_eq] at hname
  rcases hname with h | h
  · rw [h]
    rfl
  · rw [h]
    by_contra hne
    have hmem : typedefNames.contains t.text = true := by
      cases hc : typedefNames.contains t.text with
      | true => rfl
      | false => exact absurd hc.symm hne
    have hid := hkinds _ (List.contains_iff_mem.1 hmem)
    rw [← hkind, h] at hid
    cases hid

theorem tokens_ne_nil (e : Expr) : e.tokens ≠ [] := by
  cases e <;> simp

/-- The first token of the text tells whether it begins like a type. -/
theorem Derives.headStartsType_tokens (h : Derives r s e) (hwritten : ∀ t ∈ s, t.Written) :
    headStartsType e.tokens = e.beginsType := by
  induction h with
  | tighter _ _ ih => exact ih hwritten
  | assign _ _ _ ih _ =>
    -- behind its first operand, an operator does not change how the text begins
    rw [List.forall_mem_append] at hwritten
    rw [Expr.tokens_assign, headStartsType_of_ne_nil (tokens_ne_nil _), ih hwritten.1]
    rfl
  | conditional _ _ _ _ _ ih _ _ =>
    rw [List.forall_mem_append] at hwritten
    rw [Expr.tokens_conditional, headStartsType_of_ne_nil (tokens_ne_nil _), ih hwritten.1]
    rfl
  | logic _ _ _ ih _ =>
    rw [List.forall_mem_append] at hwritten
    rw [Expr.tokens_logic, headStartsType_of_ne_nil (tokens_ne_nil _), ih hwritten.1]
    rfl
  | binary _ _ _ ih _ =>
    rw [List.forall_mem_append] at hwritten
    rw [Expr.tokens_binary, headStartsType_of_ne_nil (tokens_ne_nil _), ih hwritten.1]
    rfl
  | member _ _ _ ih =>
    rw [List.forall_mem_append] at hwritten
    rw [Expr.tokens_member, headStartsType_of_ne_nil (tokens_ne_nil _), ih hwritten.1]
    rfl
  | stepAfter _ _ ih =>
    rw [List.forall_mem_append] at hwritten
    rw [Expr.tokens_stepAfter, headStartsType_of_ne_nil (tokens_ne_nil _), ih hwritten.1]
    rfl
  | @unary _ _ op _ _ _ _ =>
    rw [Expr.tokens_unary, Expr.beginsType]
    cases op with
    | step op => cases op <;> rfl
    | _ => rfl
  | sizeOfType | sizeOf => simp [Expr.beginsType]; rfl
  | cast => simp [Expr.beginsType]; rfl
  | literal => rfl
  | name hname =>
    rw [List.forall_mem_singleton] at hwritten
    exact startsType_name hname (hwritten.name hname).2
  | call hname | index hname =>
    rw [List.forall_mem_cons] at hwritten
    simp only [Expr.tokens_call, Expr.tokens_index]
    exact startsType_name hname (hwritten.1.name hname).2
  | parens _ _ _ _ ih =>
    rw [List.forall_mem_cons, List.forall_mem_append] at hwritten
    -- the text leaves out these parentheses
    exact ih hwritten.2.1

/-! ## Operands in their places suffice -/

theorem joined_tokensOfAll (es : List Expr) :
    Joined (es.map Expr.tokens) (Expr.tokensOfAll es) := by
  induction es with
  | nil => exact .nil
  | cons e rest ih =>
    cases rest with
    | nil => exact .one _
    | cons e' rest =>
      rw [Expr.tokensOfAll_cons_cons]
      exact .more (by decide) ih

theorem isAt_ofSign (text : String) : isAt text (ofSign text) = true := by
  rw [isAt_iff]
  refine ⟨rfl, ?_⟩
  rcases operatorKind_cases text with h | h <;>
    exact fun hliteral => absurd (h.symm.trans hliteral) (by decide)

/-- An expression in parentheses is derived everywhere, if it does not begin like a type. -/
theorem Derives.enclosed (h : Derives .assignment s e) (hstarts : headStartsType s = false)
    (r : Rank) : Derives r (enclosed s) e :=
  .loosen (.parens (isAt_ofSign _) hstarts h (isAt_ofSign _)) (primary_mem_downward r)

theorem mem_partsOfAll {es : List Expr} {part : Expr} (he : e ∈ es) (hpart : part ∈ e.parts) :
    part ∈ Expr.partsOfAll es := by
  induction es with
  | nil => cases he
  | cons first es ih =>
    rw [Expr.partsOfAll, List.mem_append]
    rcases List.mem_cons.1 he with rfl | he
    · exact Or.inl hpart
    · exact Or.inr (ih he)

/-- If all operands keep their places, the tokens of the text derive the expression. -/
theorem Derives.rebuilt (h : Derives r s e) (hwritten : ∀ t ∈ s, t.Written)
    (hkeeps : ∀ part ∈ e.parts, part.keepsOperands = true) :
    Derives e.rank e.tokens e.unlined := by
  induction h with
  | tighter _ _ ih => exact ih hwritten hkeeps
  | @assign _ _ _ op _ _ _ _ _ ihtarget ihvalue =>
    rw [List.forall_mem_append, List.forall_mem_cons] at hwritten
    rw [Expr.parts, List.forall_mem_cons, List.forall_mem_append] at hkeeps
    rw [Expr.tokens_assign]
    have htarget := ihtarget hwritten.1 hkeeps.2.1
    have hvalue := ihvalue hwritten.2.2 hkeeps.2.2
    exact @Derives.assign _ _ (ofSign (assignText op)) _ _ _ (htarget.of_fits hkeeps.1)
      (isAt_ofSign _) (hvalue.of_fits (fits_assignment _))
  | conditional _ _ _ _ _ ih₁ ih₂ ih₃ =>
    rw [List.forall_mem_append, List.forall_mem_cons, List.forall_mem_append,
      List.forall_mem_cons] at hwritten
    obtain ⟨hs₁, _, hs₂, _, hs₃⟩ := hwritten
    rw [Expr.parts, List.forall_mem_cons, List.forall_mem_append, List.forall_mem_append] at hkeeps
    obtain ⟨hkeeps, ⟨hkeeps₁, hkeeps₂⟩, hkeeps₃⟩ := hkeeps
    rw [Expr.keepsOperands, Bool.and_eq_true] at hkeeps
    rw [Expr.tokens_conditional]
    exact @Derives.conditional _ _ _ (ofSign "?") (ofSign ":") _ _ _
      ((ih₁ hs₁ hkeeps₁).of_fits hkeeps.1) (isAt_ofSign _)
      ((ih₂ hs₂ hkeeps₂).of_fits (fits_assignment _)) (isAt_ofSign _)
      ((ih₃ hs₃ hkeeps₃).of_fits hkeeps.2)
  | @logic _ _ _ op _ _ _ _ _ ihleft ihright =>
    rw [List.forall_mem_append, List.forall_mem_cons] at hwritten
    rw [Expr.parts, List.forall_mem_cons, List.forall_mem_append] at hkeeps
    obtain ⟨hkeeps, hkeepsLeft, hkeepsRight⟩ := hkeeps
    rw [Expr.keepsOperands, Bool.and_eq_true] at hkeeps
    rw [Expr.tokens_logic]
    exact @Derives.logic _ _ (ofSign op.text) _ _ _
      ((ihleft hwritten.1 hkeepsLeft).of_fits hkeeps.1) (isAt_ofSign _)
      ((ihright hwritten.2.2 hkeepsRight).of_fits hkeeps.2)
  | @binary _ _ _ op _ _ _ _ hright ihleft ihright =>
    rw [List.forall_mem_append, List.forall_mem_cons] at hwritten
    rw [Expr.parts, List.forall_mem_cons, List.forall_mem_append] at hkeeps
    obtain ⟨hkeeps, hkeepsLeft, hkeepsRight⟩ := hkeeps
    rw [Expr.keepsOperands, Bool.and_eq_true] at hkeeps
    have hderives := ihright hwritten.2.2 hkeepsRight
    rw [Expr.tokens_binary]
    refine @Derives.binary _ _ (ofSign op.text) _ _ _
      ((ihleft hwritten.1 hkeepsLeft).of_fits hkeeps.1) (isAt_ofSign _) ?_
    -- an operand that is put in parentheses may be anything that does not begin like a type
    split
    · next hgroups =>
      rw [if_pos hgroups, Bool.not_eq_true', ← hright.headStartsType_tokens hwritten.2.2] at hkeeps
      exact (hderives.of_fits (fits_assignment _)).enclosed hkeeps.2 _
    · next hgroups =>
      rw [if_neg hgroups] at hkeeps
      exact hderives.of_fits hkeeps.2
  | @unary _ _ op operand _ hoperand ih =>
    rw [List.forall_mem_cons] at hwritten
    rw [Expr.parts, List.forall_mem_cons] at hkeeps
    obtain ⟨hkeeps, hkeepsOperand⟩ := hkeeps
    have hderives := ih hwritten.2 hkeepsOperand
    rw [Expr.tokens_unary]
    refine @Derives.unary _ (ofSign op.text) _ _ (isAt_ofSign _) ?_
    by_cases hsimple : operand.isSimple = true
    · rw [if_pos hsimple]
      exact hderives.of_fits (fits_tighter rfl (Expr.fits_of_isSimple hsimple))
    · rw [Expr.keepsOperands, Bool.or_eq_true, Bool.not_eq_true',
        ← hoperand.headStartsType_tokens hwritten.2] at hkeeps
      rw [if_neg hsimple]
      exact (hderives.of_fits (fits_assignment _)).enclosed (hkeeps.resolve_left hsimple) _
  | sizeOfType _ _ htype _ =>
    rw [List.forall_mem_cons, List.forall_mem_cons, List.forall_mem_append] at hwritten
    rw [Expr.tokens_sizeOfType, reads_type_alone htype hwritten.2.2.1]
    exact @Derives.sizeOfType _ (ofWord "sizeof") (ofSign "(") (ofSign ")") _ (by decide)
      (isAt_ofSign _) (isType_unplaced.2 htype) (isAt_ofSign _)
  | sizeOf _ hoperand _ ih =>
    rw [List.forall_mem_cons] at hwritten
    rw [Expr.parts, List.forall_mem_cons] at hkeeps
    obtain ⟨hkeeps, hkeepsOperand⟩ := hkeeps
    rw [Expr.keepsOperands, Bool.not_eq_true',
      ← hoperand.headStartsType_tokens hwritten.2] at hkeeps
    have hderives := (ih hwritten.2 hkeepsOperand).of_fits (fits_assignment _)
    rw [Expr.tokens_sizeOf]
    refine @Derives.sizeOf _ (ofWord "sizeof") _ (by decide) (hderives.enclosed hkeeps _) ?_
    rw [Stepwise.enclosed, opensType, headStartsType_of_ne_nil (tokens_ne_nil _), hkeeps,
      Bool.and_false]
  | cast _ htype _ _ ih =>
    rw [List.forall_mem_cons, List.forall_mem_append, List.forall_mem_cons] at hwritten
    rw [Expr.parts, List.forall_mem_cons] at hkeeps
    rw [Expr.tokens_cast, reads_type_alone htype hwritten.2.1]
    exact @Derives.cast _ _ (ofSign "(") (ofSign ")") _ _ (isAt_ofSign _)
      (isType_unplaced.2 htype) (isAt_ofSign _)
      ((ih hwritten.2.2.2 hkeeps.2).of_fits hkeeps.1)
  | @member _ _ m arrow _ _ _ hkind ih =>
    rw [List.forall_mem_append, List.forall_mem_cons, List.forall_mem_singleton] at hwritten
    rw [Expr.parts, List.forall_mem_cons] at hkeeps
    have hm := (hwritten.2.2.word (by rw [hkind]; decide) (by rw [hkind]; decide)).2
    rw [Expr.tokens_member, ← hm]
    exact @Derives.member _ (ofSign (if arrow then "->" else ".")) m.unplaced _ _
      ((ih hwritten.1 hkeeps.2).of_fits hkeeps.1) (isAt_ofSign _) hkind
  | @stepAfter _ _ op _ _ _ ih =>
    rw [List.forall_mem_append] at hwritten
    rw [Expr.parts, List.forall_mem_cons] at hkeeps
    rw [Expr.tokens_stepAfter]
    exact @Derives.stepAfter _ (ofSign op.text) _ _
      ((ih hwritten.1 hkeeps.2).of_fits hkeeps.1) (isAt_ofSign _)
  | @literal t => exact @Derives.literal (ofLiteral t.text) rfl
  | @name t hname =>
    rw [List.forall_mem_singleton] at hwritten
    rw [Expr.tokens_name, ← (hwritten.name hname).2]
    exact @Derives.name t.unplaced hname
  | @call _ t _ _ arguments hname _ _ hjoined _ ih =>
    rw [List.forall_mem_cons, List.forall_mem_cons, List.forall_mem_append] at hwritten
    rw [Expr.parts, List.forall_mem_cons] at hkeeps
    have hderives : ∀ argument ∈ arguments,
        Derives .assignment argument.2.tokens argument.2.unlined := by
      intro argument hargument
      refine (ih argument hargument (fun u hu => hwritten.2.2.1 u ?_) fun part hpart => ?_).of_fits
        (fits_assignment _)
      · exact hjoined.mem (List.mem_map_of_mem hargument) hu
      · exact hkeeps.2 part (mem_partsOfAll (List.mem_map_of_mem hargument) hpart)
    -- the arguments keep their number and order, each with the tokens of its own text
    have hspelled := @Derives.call _ t.unplaced (ofSign "(") (ofSign ")")
      (arguments.map fun argument => (argument.2.tokens, argument.2.unlined)) hname (isAt_ofSign _)
      (by
        intro argument hargument
        obtain ⟨given, hgiven, rfl⟩ := List.mem_map.1 hargument
        exact hderives given hgiven)
      (by
        have hjoined := joined_tokensOfAll (arguments.map Prod.snd)
        rw [List.map_map] at hjoined ⊢
        exact hjoined)
      (isAt_ofSign _)
    rw [Expr.tokens_call, ← (hwritten.1.name hname).2, Expr.unlined, Expr.unlinedAll_eq_map]
    rw [List.map_map] at hspelled ⊢
    exact hspelled
  | @index _ t _ _ _ hname _ _ _ ih =>
    rw [List.forall_mem_cons, List.forall_mem_cons, List.forall_mem_append] at hwritten
    rw [Expr.parts, List.forall_mem_cons] at hkeeps
    rw [Expr.tokens_index, ← (hwritten.1.name hname).2]
    exact @Derives.index _ t.unplaced (ofSign "[") (ofSign "]") _ hname (isAt_ofSign _)
      ((ih hwritten.2.2.1 hkeeps.2).of_fits (fits_assignment _)) (isAt_ofSign _)
  | parens _ _ _ _ ih =>
    rw [List.forall_mem_cons, List.forall_mem_append] at hwritten
    exact ih hwritten.2.1 hkeeps

/-! ## The rule an expression is made by -/

/-- The tokens make the expression by the rule of its own, with nothing around it. -/
def Made (s : List Token) : Expr → Prop
  | .literal _ _ => ∃ t, s = [t] ∧ t.kind = .literal
  | .name _ n => ∃ t, s = [t] ∧ isName t = true ∧ n = t.text
  | .call _ n es => ∃ t opener inner closer, ∃ arguments : List (List Token × Expr),
      s = t :: opener :: (inner ++ [closer]) ∧ isName t = true ∧ n = t.text ∧
      es = arguments.map Prod.snd ∧
      (∀ argument ∈ arguments, Derives .assignment argument.1 argument.2) ∧
      Joined (arguments.map Prod.fst) inner
  | .index _ n position => ∃ t opener inner closer, s = t :: opener :: (inner ++ [closer]) ∧
      isName t = true ∧ n = t.text ∧ Derives .assignment inner position
  | .member _ arrow object _ => ∃ front t m, s = front ++ [t, m] ∧ Derives .operand front object ∧
      isAt (if arrow then "->" else ".") t = true
  | .unary _ op operand => ∃ t back, s = t :: back ∧ isAt op.text t = true ∧
      Derives .unary back operand
  | .stepAfter _ op operand => ∃ front t, s = front ++ [t] ∧ Derives .operand front operand ∧
      isAt op.text t = true
  | .cast _ type operand => ∃ opener inner closer back, s = opener :: (inner ++ closer :: back) ∧
      isAt "(" opener = true ∧ IsType inner type ∧ isAt ")" closer = true ∧
      Derives .unary back operand
  | .sizeOfType _ _ => ∃ t back, s = t :: back ∧ isSizeOf t = true
  | .sizeOf _ operand => ∃ t back, s = t :: back ∧ isSizeOf t = true ∧ Derives .unary back operand
  | .binary _ op left right => ∃ front t back, s = front ++ t :: back ∧
      Derives (.level (.ofBinary op)) front left ∧ isAt op.text t = true ∧
      Derives (.ofLevels (Level.ofBinary op).tighter) back right
  | .logic _ op left right => ∃ front t back, s = front ++ t :: back ∧
      Derives (.level .logical) front left ∧ isAt op.text t = true ∧
      Derives (.level .bitwise) back right
  | .conditional _ condition whenTrue whenFalse => ∃ front t middle colon back,
      s = front ++ t :: (middle ++ colon :: back) ∧ Derives (.level .logical) front condition ∧
      isAt "?" t = true ∧ Derives .assignment middle whenTrue ∧ isAt ":" colon = true ∧
      Derives .conditional back whenFalse
  | .assign _ op target value => ∃ front t back, s = front ++ t :: back ∧
      Derives .conditional front target ∧ isAt (assignText op) t = true ∧
      Derives .assignment back value

/-- Round brackets that open, and as many that close. -/
def wrapped (k : Nat) (s : List Token) : List Token :=
  List.replicate k (ofSign "(") ++ (s ++ List.replicate k (ofSign ")"))

theorem wrapped_zero (s : List Token) : wrapped 0 s = s := by
  simp [wrapped]

theorem enclosed_wrapped (k : Nat) (s : List Token) :
    enclosed (wrapped k s) = wrapped (k + 1) s := by
  rw [enclosed, wrapped, wrapped, List.replicate_succ, List.replicate_succ']
  simp

theorem wrapped_one (s : List Token) : wrapped 1 s = enclosed s := by
  rw [← enclosed_wrapped, wrapped_zero]

/-- A derivation is a number of parentheses around the expression's own rule. -/
theorem Derives.made (h : Derives r s e) (hwritten : ∀ t ∈ s, t.Written) :
    ∃ k core, s.map unplaced = wrapped k (core.map unplaced) ∧ (∀ t ∈ core, t.Written) ∧
      Made core e ∧ (k = 0 → e.fits r = true) ∧ (0 < k → headStartsType core = false) := by
  -- every rule but that of parentheses is the expression's own, with none around it
  have hdirect : ∀ {s : List Token} {e : Expr}, (∀ t ∈ s, t.Written) → Made s e →
      ∃ k core, s.map unplaced = wrapped k (core.map unplaced) ∧ (∀ t ∈ core, t.Written) ∧
        Made core e ∧ (k = 0 → e.fits e.rank = true) ∧ (0 < k → headStartsType core = false) :=
    fun {s e} hs hmade => ⟨0, s, (wrapped_zero _).symm, hs, hmade, fun _ => fits_rank e,
      fun hpos => absurd hpos (Nat.lt_irrefl 0)⟩
  induction h with
  | tighter hnext _ ih =>
    obtain ⟨k, core, hs, hcore, hmade, hfits, hstarts⟩ := ih hwritten
    exact ⟨k, core, hs, hcore, hmade, fun hk => fits_tighter hnext (hfits hk), hstarts⟩
  | assign hleft hat hright => exact hdirect hwritten ⟨_, _, _, rfl, hleft, hat, hright⟩
  | conditional h₁ hat h₂ hcolon h₃ =>
    exact hdirect hwritten ⟨_, _, _, _, _, rfl, h₁, hat, h₂, hcolon, h₃⟩
  | logic hleft hat hright => exact hdirect hwritten ⟨_, _, _, rfl, hleft, hat, hright⟩
  | binary hleft hat hright => exact hdirect hwritten ⟨_, _, _, rfl, hleft, hat, hright⟩
  | unary hat hoperand => exact hdirect hwritten ⟨_, _, rfl, hat, hoperand⟩
  | sizeOfType hsize => exact hdirect hwritten ⟨_, _, rfl, hsize⟩
  | sizeOf hsize hoperand => exact hdirect hwritten ⟨_, _, rfl, hsize, hoperand⟩
  | cast hopener htype hcloser hoperand =>
    exact hdirect hwritten ⟨_, _, _, _, rfl, hopener, htype, hcloser, hoperand⟩
  | member hobject hat => exact hdirect hwritten ⟨_, _, _, rfl, hobject, hat⟩
  | stepAfter hoperand hat => exact hdirect hwritten ⟨_, _, rfl, hoperand, hat⟩
  | literal hkind => exact hdirect hwritten ⟨_, rfl, hkind⟩
  | name hname => exact hdirect hwritten ⟨_, rfl, hname, rfl⟩
  | call hname _ harguments hjoined =>
    exact hdirect hwritten ⟨_, _, _, _, _, rfl, hname, rfl, rfl, harguments, hjoined⟩
  | index hname _ hposition => exact hdirect hwritten ⟨_, _, _, _, rfl, hname, rfl, hposition⟩
  | @parens s _ _ _ hopener hstarts _ hcloser ih =>
    rw [List.forall_mem_cons, List.forall_mem_append, List.forall_mem_singleton] at hwritten
    obtain ⟨hopener', hinner, hcloser'⟩ := hwritten
    obtain ⟨k, core, hs, hcore, hmade, _, hheads⟩ := ih hinner
    -- one more pair stands around the same core
    refine ⟨k + 1, core, ?_, hcore, hmade, fun hk => absurd hk (Nat.succ_ne_zero k), fun _ => ?_⟩
    · rw [List.map_cons, List.map_append, List.map_singleton, hopener'.sign hopener (by decide),
        hcloser'.sign hcloser (by decide), hs, ← enclosed_wrapped]
      rfl
    · rcases Nat.eq_zero_or_pos k with rfl | hk
      · rw [wrapped_zero] at hs
        rw [← headStartsType_unplaced, ← hs, headStartsType_unplaced]
        exact hstarts
      · exact hheads hk

/-! ## Where the tokens are split -/

/-- Two ways of putting the same tokens together around a token that is no round bracket agree, if
round brackets aside the front parts do. -/
theorem split_unique {a a' b b' : List Token} {t t' : Token} (ht : t.isRound = false)
    (ht' : t'.isRound = false) (hbare : bare a = bare a') (h : a ++ t :: b = a' ++ t' :: b') :
    a = a' ∧ t = t' ∧ b = b' := by
  rcases List.append_eq_append_iff.1 h with ⟨more, rfl, hmore⟩ | ⟨more, rfl, hmore⟩
  · cases more with
    | nil =>
      obtain ⟨rfl, rfl⟩ := List.cons.inj hmore
      exact ⟨by rw [List.append_nil], rfl, rfl⟩
    | cons u more =>
      -- the token would be counted in one front part and not in the other
      obtain ⟨rfl, _⟩ := List.cons.inj hmore
      rw [bare_append, bare_cons ht] at hbare
      have hlength := congrArg List.length hbare
      simp at hlength
  · cases more with
    | nil =>
      obtain ⟨rfl, rfl⟩ := List.cons.inj hmore
      exact ⟨by rw [List.append_nil], rfl, rfl⟩
    | cons u more =>
      obtain ⟨rfl, _⟩ := List.cons.inj hmore
      rw [bare_append, bare_cons ht'] at hbare
      have hlength := congrArg List.length hbare
      simp at hlength

theorem bare_openers (k : Nat) : bare (List.replicate k (ofSign "(")) = [] := by
  induction k with
  | zero => rfl
  | succ k ih => rw [List.replicate_succ, bare_cons_round isRound_opener, ih]

theorem net_openers (k : Nat) : net (List.replicate k (ofSign "(")) = k := by
  induction k with
  | zero => rfl
  | succ k ih =>
    rw [List.replicate_succ, net_cons, net_opener, ih]
    omega

/-- The number of parentheses around tokens is known from a token among them that is no round
bracket, and from the round brackets in front of it. -/
theorem tight {j k : Nat} {a a' b b' : List Token} {t t' : Token} (ht : t.isRound = false)
    (ht' : t'.isRound = false) (hbare : bare a = bare a') (hnet : net a = net a')
    (h : wrapped k (a ++ t :: b) = wrapped j (a' ++ t' :: b')) :
    k = j ∧ a ++ t :: b = a' ++ t' :: b' := by
  have hsplit : (List.replicate k (ofSign "(") ++ a) ++ t :: (b ++ List.replicate k (ofSign ")")) =
      (List.replicate j (ofSign "(") ++ a') ++ t' :: (b' ++ List.replicate j (ofSign ")")) := by
    simpa [wrapped] using h
  obtain ⟨hfront, rfl, hback⟩ := split_unique ht ht'
    (by rw [bare_append, bare_append, bare_openers, bare_openers, hbare]) hsplit
  have hcount := congrArg net hfront
  rw [net_append, net_append, net_openers, net_openers, hnet] at hcount
  obtain rfl : k = j := by omega
  rw [List.append_cancel_left hfront, List.append_cancel_right hback]
  exact ⟨rfl, rfl⟩

/-- Both lists hold a token that is no round bracket, with the same round brackets in front. -/
def Anchored (s s' : List Token) : Prop :=
  ∃ a t b a' t' b', s = a ++ t :: b ∧ s' = a' ++ t' :: b' ∧ t.isRound = false ∧
    t'.isRound = false ∧ bare a = bare a' ∧ net a = net a'

theorem anchored_cons {t : Token} (h : t.isRound = false) (s s' : List Token) :
    Anchored (t :: s) (t :: s') :=
  ⟨[], t, s, [], t, s', rfl, rfl, h, h, rfl, rfl⟩

theorem Derives.anchored (h : Derives r s e) (hwritten : ∀ t ∈ s, t.Written) {t : Token}
    (ht : t.isRound = false) (rest rest' : List Token) :
    Anchored (s.map unplaced ++ t :: rest) (e.tokens ++ t :: rest') := by
  have halike := h.alike hwritten
  exact ⟨_, t, _, _, t, _, rfl, rfl, ht, ht, halike.same, halike.left.trans halike.right.symm⟩

/-- What makes an expression by its own rule is anchored like the tokens of its text. -/
theorem Made.anchored (h : Made s e) (hwritten : ∀ t ∈ s, t.Written) :
    Anchored (s.map unplaced) e.tokens := by
  cases e with
  | literal _ text =>
    obtain ⟨t, rfl, hkind⟩ := h
    exact ⟨[], t.unplaced, [], [], ofLiteral text, [], rfl, rfl,
      isRound_eq_false (Or.inl hkind), isRound_eq_false (Or.inl rfl), rfl, rfl⟩
  | name _ n =>
    obtain ⟨t, rfl, hname, rfl⟩ := h
    obtain ⟨hword, ht⟩ := (hwritten t List.mem_cons_self).name hname
    rw [List.map_singleton, ht]
    exact anchored_cons (isRound_word hword) _ _
  | call _ n es =>
    obtain ⟨t, opener, inner, closer, arguments, rfl, hname, rfl, _⟩ := h
    obtain ⟨hword, ht⟩ := (hwritten t List.mem_cons_self).name hname
    rw [List.map_cons, ht, Expr.tokens_call]
    exact anchored_cons (isRound_word hword) _ _
  | index _ n position =>
    obtain ⟨t, opener, inner, closer, rfl, hname, rfl, _⟩ := h
    obtain ⟨hword, ht⟩ := (hwritten t List.mem_cons_self).name hname
    rw [List.map_cons, ht, Expr.tokens_index]
    exact anchored_cons (isRound_word hword) _ _
  | member _ arrow object m =>
    obtain ⟨front, t, m, rfl, hobject, hat⟩ := h
    rw [List.forall_mem_append, List.forall_mem_cons] at hwritten
    rw [List.map_append, List.map_cons, hwritten.2.1.sign hat (selector_mem_signs arrow),
      Expr.tokens_member]
    exact hobject.anchored hwritten.1 (isRound_selector arrow) _ _
  | unary _ op operand =>
    obtain ⟨t, back, rfl, hat, _⟩ := h
    rw [List.map_cons, (hwritten t List.mem_cons_self).sign hat op.text_mem_signs,
      Expr.tokens_unary]
    exact anchored_cons (isRound_unary op) _ _
  | stepAfter _ op operand =>
    obtain ⟨front, t, rfl, hoperand, hat⟩ := h
    rw [List.forall_mem_append, List.forall_mem_singleton] at hwritten
    rw [List.map_append, List.map_singleton, hwritten.2.sign hat op.text_mem_signs,
      Expr.tokens_stepAfter]
    exact hoperand.anchored hwritten.1 (isRound_step op) _ _
  | cast _ type operand =>
    obtain ⟨opener, inner, closer, back, rfl, hopener, htype, _⟩ := h
    rw [List.forall_mem_cons, List.forall_mem_append] at hwritten
    have hround := htype.not_round hwritten.2.1
    rw [List.map_cons, List.map_append, hwritten.1.sign hopener (by decide), Expr.tokens_cast,
      reads_type_alone htype hwritten.2.1]
    -- the first word of the type is in both, one bracket from the front
    obtain ⟨words, stars, _, rfl, hne, _⟩ := htype
    obtain ⟨word, words, rfl⟩ := List.exists_cons_of_ne_nil hne
    exact ⟨[ofSign "("], word.unplaced, _, [ofSign "("], word.unplaced, _, rfl, rfl,
      hround _ List.mem_cons_self, hround _ List.mem_cons_self, rfl, rfl⟩
  | sizeOfType _ type =>
    obtain ⟨t, back, rfl, hsize⟩ := h
    rw [List.map_cons, unplaced_of_isSizeOf hsize, Expr.tokens_sizeOfType]
    exact anchored_cons isRound_sizeOf _ _
  | sizeOf _ operand =>
    obtain ⟨t, back, rfl, hsize, _⟩ := h
    rw [List.map_cons, unplaced_of_isSizeOf hsize, Expr.tokens_sizeOf]
    exact anchored_cons isRound_sizeOf _ _
  | binary _ op left right =>
    obtain ⟨front, t, back, rfl, hleft, hat, _⟩ := h
    rw [List.forall_mem_append, List.forall_mem_cons] at hwritten
    rw [List.map_append, List.map_cons, hwritten.2.1.sign hat op.text_mem_signs, Expr.tokens_binary]
    exact hleft.anchored hwritten.1 (isRound_binary op) _ _
  | logic _ op left right =>
    obtain ⟨front, t, back, rfl, hleft, hat, _⟩ := h
    rw [List.forall_mem_append, List.forall_mem_cons] at hwritten
    rw [List.map_append, List.map_cons, hwritten.2.1.sign hat op.text_mem_signs, Expr.tokens_logic]
    exact hleft.anchored hwritten.1 (isRound_logic op) _ _
  | conditional _ condition whenTrue whenFalse =>
    obtain ⟨front, t, middle, colon, back, rfl, hcondition, hat, _⟩ := h
    rw [List.forall_mem_append, List.forall_mem_cons] at hwritten
    rw [List.map_append, List.map_cons, hwritten.2.1.sign hat (by decide), Expr.tokens_conditional]
    exact hcondition.anchored hwritten.1 (isRound_sign (by decide)) _ _
  | assign _ op target value =>
    obtain ⟨front, t, back, rfl, htarget, hat, _⟩ := h
    rw [List.forall_mem_append, List.forall_mem_cons] at hwritten
    rw [List.map_append, List.map_cons, hwritten.2.1.sign hat (assignText_mem_signs op),
      Expr.tokens_assign]
    exact htarget.anchored hwritten.1 (isRound_assign op) _ _

/-- A derivation from the tokens of the text in parentheses has the expression's own rule at the
tokens of the text. -/
theorem Derives.centered (h : Derives r s e) (hwritten : ∀ t ∈ s, t.Written) {j : Nat}
    (hs : s.map unplaced = wrapped j e.tokens) :
    ∃ core, core.map unplaced = e.tokens ∧ (∀ t ∈ core, t.Written) ∧ Made core e ∧
      (j = 0 → e.fits r = true) ∧ (0 < j → e.beginsType = false) := by
  obtain ⟨k, core, hcore, hcoreWritten, hmade, hfits, hstarts⟩ := h.made hwritten
  obtain ⟨a, t, b, a', t', b', hcut, hcut', ht, ht', hbare, hnet⟩ := hmade.anchored hcoreWritten
  have hwrapped : wrapped k (a ++ t :: b) = wrapped j (a' ++ t' :: b') := by
    rw [← hcut, ← hcut', ← hcore, hs]
  obtain ⟨rfl, hsame⟩ := tight ht ht' hbare hnet hwrapped
  have htokens : core.map unplaced = e.tokens := by rw [hcut, hcut', hsame]
  refine ⟨core, htokens, hcoreWritten, hmade, hfits, fun hk => ?_⟩
  rw [← h.headStartsType_tokens hwritten, ← htokens, headStartsType_unplaced]
  exact hstarts hk

/-! ## Operands in their places are needed -/

theorem Derives.fits_of_tokens (h : Derives r s e) (hwritten : ∀ t ∈ s, t.Written)
    (hs : s.map unplaced = e.tokens) : e.fits r = true := by
  rw [← wrapped_zero e.tokens] at hs
  obtain ⟨_, _, _, _, hfits, _⟩ := h.centered hwritten hs
  exact hfits rfl

theorem Derives.beginsType_of_enclosed (h : Derives r s e) (hwritten : ∀ t ∈ s, t.Written)
    (hs : s.map unplaced = Stepwise.enclosed e.tokens) : e.beginsType = false := by
  rw [← wrapped_one] at hs
  obtain ⟨_, _, _, _, _, hstarts⟩ := h.centered hwritten hs
  exact hstarts Nat.one_pos

/-- An operand ends at the token behind it, where the text put it. -/
theorem Derives.split (h : Derives r s e) (hwritten : ∀ t ∈ s, t.Written) {t t' : Token}
    {b b' : List Token} (ht : t.isRound = false) (ht' : t'.isRound = false)
    (heq : s.map unplaced ++ t :: b = e.tokens ++ t' :: b') :
    s.map unplaced = e.tokens ∧ b = b' := by
  obtain ⟨hfront, _, hback⟩ := split_unique ht ht' (h.alike hwritten).same heq
  exact ⟨hfront, hback⟩

theorem Joined.split {arguments : List (List Token × Expr)} {used : List Token}
    (h : Joined (arguments.map Prod.fst) used) (hwritten : ∀ t ∈ used, t.Written)
    (hderives : ∀ argument ∈ arguments, Derives .assignment argument.1 argument.2)
    (hused : used.map unplaced = Expr.tokensOfAll (arguments.map Prod.snd)) :
    ∀ argument ∈ arguments, argument.1.map unplaced = argument.2.tokens := by
  match arguments, h with
  | [], _ =>
    intro argument hargument
    cases hargument
  | [argument], .one _ =>
    rw [List.forall_mem_singleton]
    exact hused
  | argument :: next :: rest, .more hcomma hjoined =>
    rw [List.forall_mem_cons] at hderives ⊢
    rw [List.forall_mem_append, List.forall_mem_cons] at hwritten
    rw [List.map_cons, List.map_cons, Expr.tokensOfAll_cons_cons, List.map_append, List.map_cons,
      hwritten.2.1.sign hcomma (by decide)] at hused
    obtain ⟨hfirst, hrest⟩ := hderives.1.split hwritten.1 (isRound_sign (by decide))
      (isRound_sign (by decide)) hused
    exact ⟨hfirst, @Joined.split (next :: rest) _ hjoined hwritten.2.2 hderives.2 hrest⟩

mutual

/-- What is derived from the tokens of its own text has all its operands in their places. The
induction is on the expression: its own rule splits the tokens into those of its operands. -/
theorem keeps_of_derives (e : Expr) {r : Rank} {s : List Token} (h : Derives r s e)
    (hwritten : ∀ t ∈ s, t.Written) {j : Nat} (hs : s.map unplaced = wrapped j e.tokens) :
    ∀ part ∈ e.parts, part.keepsOperands = true := by
  obtain ⟨core, hcore, hwritten, hmade, _⟩ := h.centered hwritten hs
  cases e with
  | literal | name | sizeOfType =>
    rw [Expr.parts, List.forall_mem_singleton]
    rfl
  | call _ n es =>
    obtain ⟨t, opener, inner, closer, arguments, rfl, _, rfl, hes, hderives, hjoined⟩ := hmade
    rw [List.forall_mem_cons, List.forall_mem_cons, List.forall_mem_append] at hwritten
    rw [List.map_cons, List.map_cons, List.map_append, List.map_singleton, Expr.tokens_call,
      enclosed, List.cons.injEq, List.cons.injEq] at hcore
    -- inside the brackets both sides have the arguments, joined by commas
    have hinner := List.append_inj_left' hcore.2.2 rfl
    rw [hes] at hinner
    rw [Expr.parts, List.forall_mem_cons]
    refine ⟨rfl, keepsAll_of_derives es fun e he => ?_⟩
    rw [hes] at he
    obtain ⟨argument, hargument, rfl⟩ := List.mem_map.1 he
    refine ⟨argument.1, fun u hu => hwritten.2.2.1 u ?_, ?_, hderives argument hargument⟩
    · exact hjoined.mem (List.mem_map_of_mem hargument) hu
    · exact hjoined.split hwritten.2.2.1 hderives hinner argument hargument
  | index _ n position =>
    obtain ⟨t, opener, inner, closer, rfl, _, rfl, hposition⟩ := hmade
    rw [List.forall_mem_cons, List.forall_mem_cons, List.forall_mem_append] at hwritten
    rw [List.map_cons, List.map_cons, List.map_append, List.map_singleton, Expr.tokens_index,
      List.cons.injEq, List.cons.injEq] at hcore
    have hinner := List.append_inj_left' hcore.2.2 rfl
    rw [← wrapped_zero position.tokens] at hinner
    rw [Expr.parts, List.forall_mem_cons]
    exact ⟨rfl, keeps_of_derives position hposition hwritten.2.2.1 hinner⟩
  | member _ arrow object m =>
    obtain ⟨front, t, m', rfl, hobject, hat⟩ := hmade
    rw [List.forall_mem_append, List.forall_mem_cons] at hwritten
    -- the selector is no round bracket, so both sides are split where it stands
    rw [List.map_append, List.map_cons, hwritten.2.1.sign hat (selector_mem_signs arrow),
      Expr.tokens_member] at hcore
    obtain ⟨hfront, _⟩ :=
      hobject.split hwritten.1 (isRound_selector arrow) (isRound_selector arrow) hcore
    rw [Expr.parts, List.forall_mem_cons]
    refine ⟨hobject.fits_of_tokens hwritten.1 hfront, ?_⟩
    rw [← wrapped_zero object.tokens] at hfront
    exact keeps_of_derives object hobject hwritten.1 hfront
  | unary _ op operand =>
    obtain ⟨t, back, rfl, hat, hoperand⟩ := hmade
    rw [List.forall_mem_cons] at hwritten
    rw [List.map_cons, Expr.tokens_unary, List.cons.injEq] at hcore
    obtain ⟨_, hback⟩ := hcore
    rw [Expr.parts, List.forall_mem_cons, Expr.keepsOperands]
    -- an operand that is not simple stands in parentheses, which must not be read as a cast
    by_cases hsimple : operand.isSimple = true
    · rw [if_pos hsimple, ← wrapped_zero operand.tokens] at hback
      exact ⟨by rw [hsimple]; rfl, keeps_of_derives operand hoperand hwritten.2 hback⟩
    · rw [if_neg hsimple] at hback
      have hbegins := hoperand.beginsType_of_enclosed hwritten.2 hback
      refine ⟨by rw [hbegins, Bool.not_false, Bool.or_true], ?_⟩
      rw [← wrapped_one] at hback
      exact keeps_of_derives operand hoperand hwritten.2 hback
  | stepAfter _ op operand =>
    obtain ⟨front, t, rfl, hoperand, hat⟩ := hmade
    rw [List.forall_mem_append, List.forall_mem_singleton] at hwritten
    rw [List.map_append, List.map_singleton, hwritten.2.sign hat op.text_mem_signs,
      Expr.tokens_stepAfter] at hcore
    obtain ⟨hfront, _⟩ := hoperand.split hwritten.1 (isRound_step op) (isRound_step op) hcore
    rw [Expr.parts, List.forall_mem_cons]
    refine ⟨hoperand.fits_of_tokens hwritten.1 hfront, ?_⟩
    rw [← wrapped_zero operand.tokens] at hfront
    exact keeps_of_derives operand hoperand hwritten.1 hfront
  | cast _ type operand =>
    obtain ⟨opener, inner, closer, back, rfl, _, htype, _, hoperand⟩ := hmade
    rw [List.forall_mem_cons, List.forall_mem_append, List.forall_mem_cons] at hwritten
    rw [List.map_cons, List.map_append, List.map_cons, Expr.tokens_cast,
      reads_type_alone htype hwritten.2.1, List.cons.injEq, List.append_cancel_left_eq,
      List.cons.injEq] at hcore
    obtain ⟨_, _, hback⟩ := hcore
    rw [Expr.parts, List.forall_mem_cons]
    refine ⟨hoperand.fits_of_tokens hwritten.2.2.2 hback, ?_⟩
    rw [← wrapped_zero operand.tokens] at hback
    exact keeps_of_derives operand hoperand hwritten.2.2.2 hback
  | sizeOf _ operand =>
    obtain ⟨t, back, rfl, _, hoperand⟩ := hmade
    rw [List.forall_mem_cons] at hwritten
    rw [List.map_cons, Expr.tokens_sizeOf, List.cons.injEq] at hcore
    obtain ⟨_, hback⟩ := hcore
    rw [Expr.parts, List.forall_mem_cons, Expr.keepsOperands]
    refine ⟨by rw [hoperand.beginsType_of_enclosed hwritten.2 hback]; rfl, ?_⟩
    rw [← wrapped_one] at hback
    exact keeps_of_derives operand hoperand hwritten.2 hback
  | binary _ op left right =>
    obtain ⟨front, t, back, rfl, hleft, hat, hright⟩ := hmade
    rw [List.forall_mem_append, List.forall_mem_cons] at hwritten
    rw [List.map_append, List.map_cons, hwritten.2.1.sign hat op.text_mem_signs,
      Expr.tokens_binary] at hcore
    obtain ⟨hfront, hback⟩ :=
      hleft.split hwritten.1 (isRound_binary op) (isRound_binary op) hcore
    have hfits := hleft.fits_of_tokens hwritten.1 hfront
    rw [← wrapped_zero left.tokens] at hfront
    rw [Expr.parts, List.forall_mem_cons, List.forall_mem_append, Expr.keepsOperands,
      Bool.and_eq_true]
    -- only a sum or shift on the right of a product or sum is put in parentheses
    by_cases hgroups : (Expr.groupsRight op && (right.isAdditive || right.isShift)) = true
    · rw [if_pos hgroups] at hback ⊢
      refine ⟨⟨hfits, by rw [hright.beginsType_of_enclosed hwritten.2.2 hback]; rfl⟩,
        keeps_of_derives left hleft hwritten.1 hfront, ?_⟩
      rw [← wrapped_one] at hback
      exact keeps_of_derives right hright hwritten.2.2 hback
    · rw [if_neg hgroups] at hback ⊢
      refine ⟨⟨hfits, hright.fits_of_tokens hwritten.2.2 hback⟩,
        keeps_of_derives left hleft hwritten.1 hfront, ?_⟩
      rw [← wrapped_zero right.tokens] at hback
      exact keeps_of_derives right hright hwritten.2.2 hback
  | logic _ op left right =>
    obtain ⟨front, t, back, rfl, hleft, hat, hright⟩ := hmade
    rw [List.forall_mem_append, List.forall_mem_cons] at hwritten
    rw [List.map_append, List.map_cons, hwritten.2.1.sign hat op.text_mem_signs,
      Expr.tokens_logic] at hcore
    obtain ⟨hfront, hback⟩ := hleft.split hwritten.1 (isRound_logic op) (isRound_logic op) hcore
    rw [Expr.parts, List.forall_mem_cons, List.forall_mem_append, Expr.keepsOperands,
      Bool.and_eq_true]
    refine ⟨⟨hleft.fits_of_tokens hwritten.1 hfront, hright.fits_of_tokens hwritten.2.2 hback⟩, ?_⟩
    rw [← wrapped_zero left.tokens] at hfront
    rw [← wrapped_zero right.tokens] at hback
    exact ⟨keeps_of_derives left hleft hwritten.1 hfront,
      keeps_of_derives right hright hwritten.2.2 hback⟩
  | conditional _ condition whenTrue whenFalse =>
    obtain ⟨front, t, middle, colon, back, rfl, h₁, hat, h₂, hcolon, h₃⟩ := hmade
    rw [List.forall_mem_append, List.forall_mem_cons, List.forall_mem_append,
      List.forall_mem_cons] at hwritten
    obtain ⟨hwritten₁, ht, hwritten₂, hcolon', hwritten₃⟩ := hwritten
    rw [List.map_append, List.map_cons, List.map_append, List.map_cons, ht.sign hat (by decide),
      hcolon'.sign hcolon (by decide), Expr.tokens_conditional] at hcore
    obtain ⟨hfront, hrest⟩ :=
      h₁.split hwritten₁ (isRound_sign (by decide)) (isRound_sign (by decide)) hcore
    obtain ⟨hmiddle, hback⟩ :=
      h₂.split hwritten₂ (isRound_sign (by decide)) (isRound_sign (by decide)) hrest
    rw [Expr.parts, List.forall_mem_cons, List.forall_mem_append, List.forall_mem_append,
      Expr.keepsOperands, Bool.and_eq_true]
    refine ⟨⟨h₁.fits_of_tokens hwritten₁ hfront, h₃.fits_of_tokens hwritten₃ hback⟩, ?_⟩
    rw [← wrapped_zero condition.tokens] at hfront
    rw [← wrapped_zero whenTrue.tokens] at hmiddle
    rw [← wrapped_zero whenFalse.tokens] at hback
    exact ⟨⟨keeps_of_derives condition h₁ hwritten₁ hfront,
      keeps_of_derives whenTrue h₂ hwritten₂ hmiddle⟩,
      keeps_of_derives whenFalse h₃ hwritten₃ hback⟩
  | assign _ op target value =>
    obtain ⟨front, t, back, rfl, htarget, hat, hvalue⟩ := hmade
    rw [List.forall_mem_append, List.forall_mem_cons] at hwritten
    rw [List.map_append, List.map_cons, hwritten.2.1.sign hat (assignText_mem_signs op),
      Expr.tokens_assign] at hcore
    obtain ⟨hfront, hback⟩ :=
      htarget.split hwritten.1 (isRound_assign op) (isRound_assign op) hcore
    rw [Expr.parts, List.forall_mem_cons, List.forall_mem_append]
    refine ⟨htarget.fits_of_tokens hwritten.1 hfront, ?_⟩
    rw [← wrapped_zero target.tokens] at hfront
    rw [← wrapped_zero value.tokens] at hback
    exact ⟨keeps_of_derives target htarget hwritten.1 hfront,
      keeps_of_derives value hvalue hwritten.2.2 hback⟩

theorem keepsAll_of_derives (es : List Expr)
    (h : ∀ e ∈ es, ∃ s : List Token, (∀ t ∈ s, t.Written) ∧ s.map unplaced = e.tokens ∧
      Derives .assignment s e) :
    ∀ part ∈ Expr.partsOfAll es, part.keepsOperands = true := by
  match es with
  | [] =>
    intro part hpart
    cases hpart
  | e :: rest =>
    rw [List.forall_mem_cons] at h
    obtain ⟨⟨s, hwritten, hs, hderives⟩, hrest⟩ := h
    rw [← wrapped_zero e.tokens] at hs
    rw [Expr.partsOfAll, List.forall_mem_append]
    exact ⟨keeps_of_derives e hderives hwritten hs, keepsAll_of_derives rest hrest⟩

end

end Grammar

/-! ## The text of an expression read back -/

theorem Expr.fragments_ne_nil (e : Expr) : e.fragments ≠ [] := by
  cases e <;> simp [fragments]

/-- The text of an expression holds the tokens it is meant to have, if the operands keep their
places and no field is selected from digits. -/
theorem Expr.reads_source {e : Expr} (hgood : ∀ p ∈ e.fragments, p.Good)
    (hkeeps : ∀ part ∈ e.parts, part.keepsOperands = true)
    (hdots : ∀ part ∈ e.parts, part.dotsDigits = false) : reads e.source.toList = e.tokens := by
  have hafter : e.Precedes [] := by
    intro c hc
    cases hc
  have halone := Expr.alone hgood hkeeps hdots hafter
  rw [Alone, List.append_nil] at halone
  rw [toList_source, halone, reads_nil, List.append_nil]
  rfl

/-- If the tokens of the text are, round brackets aside, those it is meant to have, then they are
those, and no field is selected from digits. -/
theorem Expr.reads_source_of_bare {e : Expr} (hgood : ∀ p ∈ e.fragments, p.Good)
    (hbare : bare (reads e.source.toList) = bare e.tokens) :
    reads e.source.toList = e.tokens ∧ ∀ part ∈ e.parts, part.dotsDigits = false := by
  rw [toList_source] at hbare ⊢
  have hpre : bare (e.fragments.flatMap Fragment.tokens) <+:
      bare (reads (e.fragments.flatMap Fragment.text ++ [])) := by
    rw [List.append_nil, hbare]
    exact List.prefix_rfl
  obtain ⟨hreads, hdigits⟩ := reads_of_bare hgood hpre
  rw [List.append_nil, reads_nil, List.append_nil] at hreads
  refine ⟨hreads, fun part hpart => ?_⟩
  rw [← Bool.not_eq_true]
  intro hdots
  obtain ⟨text, htext, hwithin⟩ := Expr.fragments_of_dotsDigits hdots
  exact hdigits text htext (hwithin.trans (Expr.part_within_fragments e part hpart))

/-- Expressions alike but for their lines keep their operands alike. -/
theorem Expr.keeps_of_unlined {e e' : Expr} (hsame : e'.unlined = e.unlined)
    (h : ∀ part ∈ e'.parts, part.keepsOperands = true) :
    ∀ part ∈ e.parts, part.keepsOperands = true := by
  intro part hpart
  have hmem : part.unlined ∈ e'.parts.map unlined := by
    rw [← parts_unlined, hsame, parts_unlined]
    exact List.mem_map_of_mem hpart
  obtain ⟨part', hpart', hunlined⟩ := List.mem_map.1 hmem
  rw [← keepsOperands_unlined, ← hunlined, keepsOperands_unlined]
  exact h part' hpart'

/-- **The text of an expression is read back as the expression, but for its lines, just when in all
its parts the operands keep their places and no field is selected from digits.** -/
theorem reread_iff_keeps {tokens : List Token} {e : Expr} (hwritten : ∀ t ∈ tokens, t.Written)
    (h : parseExpr tokens = .ok e) :
    (∃ e', parseExpr (tokenize e.source) = .ok e' ∧ e'.unlined = e.unlined) ↔
      ∀ part ∈ e.parts, part.keepsOperands = true ∧ part.dotsDigits = false := by
  have hderives := (parseExpr_eq_ok_iff fun t ht => (hwritten t ht).regular).1 h
  have hgood := hderives.good hwritten
  have hundirected := undirected_of_good (Expr.toList_source e) e.fragments_ne_nil hgood
  have hreads := hundirected.map_unplaced
  constructor
  · rintro ⟨e', he', hsame⟩
    have hderives' := (parseExpr_eq_ok_iff hundirected.regular).1 he'
    have halike := (hderives'.alike hundirected.written).same
    have htokens : e'.tokens = e.tokens := by
      rw [← Expr.tokens_unlined e', hsame, Expr.tokens_unlined]
    rw [hreads, htokens] at halike
    obtain ⟨hmeant, hdots⟩ := Expr.reads_source_of_bare hgood halike
    have hkeeps := Grammar.keeps_of_derives e' hderives' hundirected.written
      (by rw [hreads, hmeant, htokens, Grammar.wrapped_zero])
    exact fun part hpart => ⟨Expr.keeps_of_unlined hsame hkeeps part hpart, hdots part hpart⟩
  · intro hparts
    have hkeeps : ∀ part ∈ e.parts, part.keepsOperands = true := fun part hpart =>
      (hparts part hpart).1
    have hmeant := Expr.reads_source hgood hkeeps fun part hpart => (hparts part hpart).2
    have hrebuilt := (hderives.rebuilt hwritten hkeeps).of_fits (Grammar.fits_assignment _)
    obtain ⟨e', hderives', hsame⟩ := hrebuilt.placed (hreads.trans hmeant)
    exact ⟨e', (parseExpr_eq_ok_iff hundirected.regular).2 hderives', hsame⟩

/-- A sum on the right of a product is written in parentheses, so it is read back. -/
theorem product_of_sum_is_reread :
    Token.Undirected "-n * ((long)b + c)" ∧
    ∃ e e' : Expr, parseExpr (tokenize "-n * ((long)b + c)") = .ok e ∧
      parseExpr (tokenize e.source) = .ok e' ∧ e'.unlined = e.unlined := by
  have hundirected : Token.Undirected "-n * ((long)b + c)" := by decide
  have htokens : tokenize "-n * ((long)b + c)" =
      [⟨.operator, "-", 1, 1⟩, ⟨.identifier, "n", 1, 2⟩, ⟨.operator, "*", 1, 4⟩,
        ⟨.punctuation, "(", 1, 6⟩, ⟨.punctuation, "(", 1, 7⟩, ⟨.keyword, "long", 1, 8⟩,
        ⟨.punctuation, ")", 1, 12⟩, ⟨.identifier, "b", 1, 13⟩, ⟨.operator, "+", 1, 15⟩,
        ⟨.identifier, "c", 1, 17⟩, ⟨.punctuation, ")", 1, 18⟩] :=
    Token.tokenize_of_sorted (by decide +kernel) (by decide +kernel)
  have hread : parseExpr (tokenize "-n * ((long)b + c)") =
      .ok (.binary 1 (.arith .mul) (.unary 1 .minus (.name 1 "n"))
        (.binary 1 (.arith .add) (.cast 1 ⟨"long"⟩ (.name 1 "b")) (.name 1 "c"))) := by
    rw [htokens]
    decide +kernel
  obtain ⟨e', he', hsame⟩ := (reread_iff_keeps hundirected.written hread).2 (by decide)
  exact ⟨hundirected, _, e', hread, he', hsame⟩

/-- A sum on the left of a product is written without its parentheses, and is read as another
expression. -/
theorem sum_loses_parentheses :
    ∃ e e' : Expr, parseExpr (tokenize "(a + b) * c") = .ok e ∧ e.source = "a + b * c" ∧
      parseExpr (tokenize e.source) = .ok e' ∧ e'.unlined ≠ e.unlined := by
  have htokens : tokenize "(a + b) * c" =
      [⟨.punctuation, "(", 1, 1⟩, ⟨.identifier, "a", 1, 2⟩, ⟨.operator, "+", 1, 4⟩,
        ⟨.identifier, "b", 1, 6⟩, ⟨.punctuation, ")", 1, 7⟩, ⟨.operator, "*", 1, 9⟩,
        ⟨.identifier, "c", 1, 11⟩] :=
    Token.tokenize_of_sorted (by decide +kernel) (by decide +kernel)
  have htokens' : tokenize "a + b * c" =
      [⟨.identifier, "a", 1, 1⟩, ⟨.operator, "+", 1, 3⟩, ⟨.identifier, "b", 1, 5⟩,
        ⟨.operator, "*", 1, 7⟩, ⟨.identifier, "c", 1, 9⟩] :=
    Token.tokenize_of_sorted (by decide +kernel) (by decide +kernel)
  have hsource : (Expr.binary 1 (.arith .mul) (.binary 1 (.arith .add) (.name 1 "a") (.name 1 "b"))
      (.name 1 "c")).source = "a + b * c" := by decide
  refine ⟨_, .binary 1 (.arith .add) (.name 1 "a") (.binary 1 (.arith .mul) (.name 1 "b")
    (.name 1 "c")), ?_, hsource, ?_, ?_⟩
  · rw [htokens]
    decide +kernel
  · rw [hsource, htokens']
    decide +kernel
  · simp [Expr.unlined]

end Stepwise
