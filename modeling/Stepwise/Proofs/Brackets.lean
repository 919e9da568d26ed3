/-
What a derivation keeps of the text of an expression.

The tokens of an expression's text are those it is derived from, round brackets
aside, and the round brackets are balanced in both (`Derives.alike`); what its text is
made of is what its tokens are made of (`Derives.good`). And the grammar does not look
at places, so an expression is derived from tokens with places just when it is derived
from the tokens without them, lines aside (`Derives.placed`).
-/
import Stepwise.Proofs.Spelling

set_option autoImplicit false

namespace Stepwise

open Token

/-! ## Lines aside -/

namespace Expr

mutual

/-- The expression with all its lines left out. -/
def unlined : Expr → Expr
  | literal _ text => literal 0 text
  | name _ n => name 0 n
  | call _ callee arguments => call 0 callee (unlinedAll arguments)
  | index _ array position => index 0 array position.unlined
  | member _ arrow object m => member 0 arrow object.unlined m
  | unary _ op operand => unary 0 op operand.unlined
  | stepAfter _ op operand => stepAfter 0 op operand.unlined
  | cast _ type operand => cast 0 type operand.unlined
  | sizeOfType _ type => sizeOfType 0 type
  | sizeOf _ operand => sizeOf 0 operand.unlined
  | binary _ op left right => binary 0 op left.unlined right.unlined
  | logic _ op left right => logic 0 op left.unlined right.unlined
  | conditional _ condition whenTrue whenFalse =>
    conditional 0 condition.unlined whenTrue.unlined whenFalse.unlined
  | assign _ op target value => assign 0 op target.unlined value.unlined

/-- Expressions with all their lines left out. -/
def unlinedAll : List Expr → List Expr
  | [] => []
  | e :: rest => e.unlined :: unlinedAll rest

end

theorem unlinedAll_eq_map (es : List Expr) : unlinedAll es = es.map unlined := by
  induction es with
  | nil => rfl
  | cons e es ih => rw [unlinedAll, ih, List.map_cons]

@[simp] theorem isSimple_unlined (e : Expr) : e.unlined.isSimple = e.isSimple := by
  cases e <;> rfl

@[simp] theorem rank_unlined (e : Expr) : e.unlined.rank = e.rank := by
  cases e <;> rfl

@[simp] theorem fits_unlined (e : Expr) (r : Grammar.Rank) : e.unlined.fits r = e.fits r := by
  rw [fits, fits, rank_unlined]

@[simp] theorem isAdditive_unlined (e : Expr) : e.unlined.isAdditive = e.isAdditive := by
  cases e with
  | binary _ op => rcases op with op | op <;> cases op <;> rfl
  | _ => rfl

@[simp] theorem isShift_unlined (e : Expr) : e.unlined.isShift = e.isShift := by
  cases e with
  | binary _ op => rcases op with op | op <;> cases op <;> rfl
  | _ => rfl

@[simp] theorem beginsType_unlined (e : Expr) : e.unlined.beginsType = e.beginsType := by
  induction e using beginsType.induct with
  | _ => simp_all [unlined, beginsType]

@[simp] theorem keepsOperands_unlined (e : Expr) : e.unlined.keepsOperands = e.keepsOperands := by
  cases e <;> simp [unlined, keepsOperands]

mutual

theorem fragments_unlined (e : Expr) : e.unlined.fragments = e.fragments := by
  cases e with
  | literal | name | sizeOfType => rfl
  | call _ _ arguments => simp [unlined, fragments, fragments_unlinedAll arguments]
  | index _ _ e | member _ _ e _ | unary _ _ e | stepAfter _ _ e | cast _ _ e | sizeOf _ e =>
    simp [unlined, fragments, fragments_unlined e]
  | binary _ _ left right | logic _ _ left right | assign _ _ left right =>
    simp [unlined, fragments, fragments_unlined left, fragments_unlined right]
  | conditional _ c a b =>
    simp [unlined, fragments, fragments_unlined c, fragments_unlined a, fragments_unlined b]

theorem fragments_unlinedAll (es : List Expr) :
    fragmentsOfAll (unlinedAll es) = fragmentsOfAll es := by
  match es with
  | [] => rfl
  | [e] => exact fragments_unlined e
  | e :: e' :: rest =>
    have hrest := fragments_unlinedAll (e' :: rest)
    rw [unlinedAll] at hrest
    simp [unlinedAll, fragmentsOfAll, fragments_unlined e, hrest]

end

mutual

theorem parts_unlined (e : Expr) : e.unlined.parts = e.parts.map unlined := by
  cases e with
  | literal | name | sizeOfType => rfl
  | call _ _ arguments => simp [unlined, parts, parts_unlinedAll arguments]
  | index _ _ e | member _ _ e _ | unary _ _ e | stepAfter _ _ e | cast _ _ e | sizeOf _ e =>
    simp [unlined, parts, parts_unlined e]
  | binary _ _ left right | logic _ _ left right | assign _ _ left right =>
    simp [unlined, parts, parts_unlined left, parts_unlined right]
  | conditional _ c a b =>
    simp [unlined, parts, parts_unlined c, parts_unlined a, parts_unlined b]

theorem parts_unlinedAll (es : List Expr) :
    partsOfAll (unlinedAll es) = (partsOfAll es).map unlined := by
  match es with
  | [] => rfl
  | e :: rest => simp [unlinedAll, partsOfAll, parts_unlined e, parts_unlinedAll rest]

end

end Expr

/-! ## The tokens of an expression -/

/-- Tokens in parentheses. -/
def enclosed (s : List Token) : List Token :=
  ofSign "(" :: (s ++ [ofSign ")"])

namespace Expr

/-- The tokens that the texts of expressions, parted by commas, are meant to have. -/
def tokensOfAll (es : List Expr) : List Token :=
  (fragmentsOfAll es).flatMap Fragment.tokens

theorem tokensOfAll_cons_cons (e e' : Expr) (rest : List Expr) :
    tokensOfAll (e :: e' :: rest) = e.tokens ++ ofSign "," :: tokensOfAll (e' :: rest) := by
  simp [tokensOfAll, fragmentsOfAll, tokens, Fragment.tokens]

variable (line : Nat)

@[simp] theorem tokens_literal (text : String) : (literal line text).tokens = [ofLiteral text] :=
  rfl

@[simp] theorem tokens_name (n : String) : (name line n).tokens = [ofWord n] := rfl

@[simp] theorem tokens_call (callee : String) (arguments : List Expr) :
    (call line callee arguments).tokens = ofWord callee :: enclosed (tokensOfAll arguments) := by
  simp [tokens, tokensOfAll, fragments, Fragment.tokens, enclosed]

@[simp] theorem tokens_index (array : String) (e : Expr) :
    (index line array e).tokens = ofWord array :: ofSign "[" :: (e.tokens ++ [ofSign "]"]) := by
  simp [tokens, fragments, Fragment.tokens]

@[simp] theorem tokens_member (arrow : Bool) (e : Expr) (m : String) :
    (member line arrow e m).tokens =
      e.tokens ++ [ofSign (if arrow then "->" else "."), ofWord m] := by
  simp [tokens, fragments, Fragment.tokens]

@[simp] theorem tokens_unary (op : UnaryOp) (e : Expr) :
    (unary line op e).tokens =
      ofSign op.text :: (if e.isSimple then e.tokens else enclosed e.tokens) := by
  rw [tokens, fragments, tokens, enclosed]
  split <;> simp [Fragment.tokens]

@[simp] theorem tokens_stepAfter (op : StepOp) (e : Expr) :
    (stepAfter line op e).tokens = e.tokens ++ [ofSign op.text] := by
  simp [tokens, fragments, Fragment.tokens]

@[simp] theorem tokens_cast (type : CType) (e : Expr) :
    (cast line type e).tokens =
      ofSign "(" :: (reads type.text.toList ++ ofSign ")" :: e.tokens) := by
  simp [tokens, fragments, Fragment.tokens]

@[simp] theorem tokens_sizeOfType (type : CType) :
    (sizeOfType line type).tokens = ofWord "sizeof" :: enclosed (reads type.text.toList) := by
  simp [tokens, fragments, Fragment.tokens, enclosed]

@[simp] theorem tokens_sizeOf (e : Expr) :
    (sizeOf line e).tokens = ofWord "sizeof" :: enclosed e.tokens := by
  simp [tokens, fragments, Fragment.tokens, enclosed]

@[simp] theorem tokens_binary (op : BinaryOp) (left right : Expr) :
    (binary line op left right).tokens = left.tokens ++ ofSign op.text ::
      (if groupsRight op && (right.isAdditive || right.isShift) then enclosed right.tokens
        else right.tokens) := by
  rw [tokens, fragments, tokens, tokens, enclosed]
  split <;> simp [Fragment.tokens]

@[simp] theorem tokens_logic (op : LogicOp) (left right : Expr) :
    (logic line op left right).tokens = left.tokens ++ ofSign op.text :: right.tokens := by
  simp [tokens, fragments, Fragment.tokens]

@[simp] theorem tokens_conditional (c a b : Expr) :
    (conditional line c a b).tokens =
      c.tokens ++ ofSign "?" :: (a.tokens ++ ofSign ":" :: b.tokens) := by
  simp [tokens, fragments, Fragment.tokens]

@[simp] theorem tokens_assign (op : Option ArithOp) (target value : Expr) :
    (assign line op target value).tokens =
      target.tokens ++ ofSign (assignText op) :: value.tokens := by
  simp [tokens, fragments, Fragment.tokens]

theorem tokens_unlined (e : Expr) : e.unlined.tokens = e.tokens := by
  rw [tokens, tokens, fragments_unlined]

end Expr

/-! ## Operators are signs -/

theorem BinaryOp.text_mem_signs (op : BinaryOp) : op.text ∈ signs := by
  rcases op with op | op <;> cases op <;> decide

theorem LogicOp.text_mem_signs (op : LogicOp) : op.text ∈ signs := by
  cases op <;> decide

theorem StepOp.text_mem_signs (op : StepOp) : op.text ∈ signs := by
  cases op <;> decide

theorem UnaryOp.text_mem_signs (op : UnaryOp) : op.text ∈ signs := by
  cases op with
  | step op => exact op.text_mem_signs
  | _ => decide

theorem assignText_mem_signs (op : Option ArithOp) : assignText op ∈ signs := by
  rcases op with _ | op
  · decide
  · cases op <;> decide

theorem selector_mem_signs (arrow : Bool) : (if arrow then "->" else ".") ∈ signs := by
  cases arrow <;> decide

/-! ## Places aside -/

namespace Grammar

variable {s : List Token} {r : Rank} {e : Expr}

/-- Tokens that without their places are a list with a token in it. -/
theorem map_unplaced_split {front back : List Token} {t : Token}
    (h : s.map unplaced = front ++ t :: back) :
    ∃ front' t' back', s = front' ++ t' :: back' ∧ front'.map unplaced = front ∧
      t'.unplaced = t ∧ back'.map unplaced = back := by
  obtain ⟨front', rest, rfl, hfront, hrest⟩ := List.map_eq_append_iff.1 h
  obtain ⟨t', back', rfl, ht, hback⟩ := List.map_eq_cons_iff.1 hrest
  exact ⟨front', t', back', rfl, hfront, ht, hback⟩

theorem typeWords_unplaced {words : List String} :
    TypeWords (s.map unplaced) words ↔ TypeWords s words := by
  constructor
  · intro h
    generalize hs : s.map unplaced = s₀ at h
    induction h generalizing s with
    | nil =>
      rw [List.map_eq_nil_iff.1 hs]
      exact .nil
    | keyword hkind hword _ ih =>
      obtain ⟨t, rest, rfl, rfl, hrest⟩ := List.map_eq_cons_iff.1 hs
      exact .keyword (t := t) hkind hword (ih hrest)
    | tag hkind hword htag _ ih =>
      obtain ⟨t, rest, rfl, rfl, hrest⟩ := List.map_eq_cons_iff.1 hs
      obtain ⟨tag, rest, rfl, rfl, htail⟩ := List.map_eq_cons_iff.1 hrest
      exact @TypeWords.tag t tag _ _ hkind hword htag (ih htail)
    | header hkind hword =>
      obtain ⟨t, rest, rfl, rfl, hrest⟩ := List.map_eq_cons_iff.1 hs
      rw [List.map_eq_nil_iff.1 hrest]
      exact .header (t := t) hkind hword
  · intro h
    induction h with
    | nil => exact .nil
    | @keyword t _ _ hkind hword _ ih => exact .keyword (t := t.unplaced) hkind hword ih
    | @tag t tag _ _ hkind hword htag _ ih =>
      exact @TypeWords.tag t.unplaced tag.unplaced _ _ hkind hword htag ih
    | @header t hkind hword => exact .header (t := t.unplaced) hkind hword

theorem isType_unplaced {type : CType} : IsType (s.map unplaced) type ↔ IsType s type := by
  constructor
  · rintro ⟨front, back, words, hs, hne, hfront, hback, rfl⟩
    obtain ⟨front', back', rfl, rfl, rfl⟩ := List.map_eq_append_iff.1 hs
    refine ⟨front', back', words, rfl, fun hnil => hne (by rw [hnil]; rfl),
      typeWords_unplaced.1 hfront, fun star hstar => ?_, by rw [List.length_map]⟩
    exact hback star.unplaced (List.mem_map_of_mem hstar)
  · rintro ⟨front, back, words, rfl, hne, hfront, hback, rfl⟩
    refine ⟨front.map unplaced, back.map unplaced, words, List.map_append, ?_,
      typeWords_unplaced.2 hfront, fun star hstar => ?_, by rw [List.length_map]⟩
    · exact fun hnil => hne (List.map_eq_nil_iff.1 hnil)
    · obtain ⟨star, hmem, rfl⟩ := List.mem_map.1 hstar
      exact hback star hmem

theorem headStartsType_unplaced (s : List Token) :
    headStartsType (s.map unplaced) = headStartsType s := by
  cases s <;> rfl

theorem opensType_unplaced (s : List Token) : opensType (s.map unplaced) = opensType s := by
  cases s with
  | nil => rfl
  | cons t s =>
    rw [List.map_cons, opensType, opensType, headStartsType_unplaced]
    rfl

/-- Stretches of tokens that are joined without their places are joined with them. -/
theorem Joined.placed {stretches : List (List Token)} {s₀ : List Token} (h : Joined stretches s₀)
    (hs : s.map unplaced = s₀) :
    ∃ stretches', stretches = stretches'.map (List.map unplaced) ∧ Joined stretches' s := by
  induction h generalizing s with
  | nil =>
    rw [List.map_eq_nil_iff.1 hs]
    exact ⟨[], rfl, .nil⟩
  | one s₀ => exact ⟨[s], by rw [← hs]; rfl, .one s⟩
  | @more _ next _ comma others hcomma hjoined ih =>
    obtain ⟨front, t, back, rfl, rfl, rfl, hback⟩ := map_unplaced_split hs
    obtain ⟨stretches, hstretches, hjoined'⟩ := ih hback
    cases stretches with
    | nil => cases hstretches
    | cons first stretches =>
      refine ⟨front :: first :: stretches, by rw [List.map_cons, hstretches], ?_⟩
      exact @Joined.more front first _ t stretches hcomma hjoined'

/-- Expressions that are derived without places are derived with them. -/
theorem exists_arguments {arguments : List (List Token × Expr)} {stretches : List (List Token)}
    (hstretches : arguments.map Prod.fst = stretches.map (List.map unplaced))
    (h : ∀ argument ∈ arguments, ∀ s : List Token, s.map unplaced = argument.1 →
      ∃ e, Derives .assignment s e ∧ e.unlined = argument.2) :
    ∃ arguments' : List (List Token × Expr), arguments'.map Prod.fst = stretches ∧
      (∀ argument ∈ arguments', Derives .assignment argument.1 argument.2) ∧
      (arguments'.map Prod.snd).map Expr.unlined = arguments.map Prod.snd := by
  induction arguments generalizing stretches with
  | nil =>
    rw [List.map_eq_nil_iff.1 hstretches.symm]
    exact ⟨[], rfl, fun argument h => (by cases h), rfl⟩
  | cons argument arguments ih =>
    obtain ⟨stretch, stretches, rfl, hfirst, hrest⟩ := List.map_eq_cons_iff.1 hstretches.symm
    rw [List.forall_mem_cons] at h
    obtain ⟨e, he, hunlined⟩ := h.1 stretch hfirst
    obtain ⟨arguments', hfst, hderives, hsnd⟩ := ih hrest.symm h.2
    refine ⟨(stretch, e) :: arguments', by rw [List.map_cons, hfst], ?_, ?_⟩
    · rw [List.forall_mem_cons]
      exact ⟨he, hderives⟩
    · rw [List.map_cons, List.map_cons, hunlined, hsnd, List.map_cons]

/-- The grammar does not look at places: what is derived without them is derived with them, lines
aside. -/
theorem Derives.placed {s₀ : List Token} (h : Derives r s₀ e) (hs : s.map unplaced = s₀) :
    ∃ e', Derives r s e' ∧ e'.unlined = e := by
  -- each rule cuts the tokens where it does without their places; then its parts follow
  induction h generalizing s with
  | tighter hnext _ ih =>
    obtain ⟨e', he', hunlined⟩ := ih hs
    exact ⟨e', .tighter hnext he', hunlined⟩
  | @assign _ _ _ op _ _ _ hat _ ihtarget ihvalue =>
    obtain ⟨front, t, back, rfl, hfront, rfl, hback⟩ := map_unplaced_split hs
    obtain ⟨target, htarget, rfl⟩ := ihtarget hfront
    obtain ⟨value, hvalue, rfl⟩ := ihvalue hback
    exact ⟨.assign t.line op target value, .assign htarget hat hvalue, rfl⟩
  | conditional _ hquestion _ hcolon _ ih₁ ih₂ ih₃ =>
    obtain ⟨front, t, back, rfl, hfront, rfl, hback⟩ := map_unplaced_split hs
    obtain ⟨middle, colon, last, rfl, hmiddle, rfl, hlast⟩ := map_unplaced_split hback
    obtain ⟨e₁, he₁, rfl⟩ := ih₁ hfront
    obtain ⟨e₂, he₂, rfl⟩ := ih₂ hmiddle
    obtain ⟨e₃, he₃, rfl⟩ := ih₃ hlast
    exact ⟨.conditional t.line e₁ e₂ e₃, .conditional he₁ hquestion he₂ hcolon he₃, rfl⟩
  | @logic _ _ _ op _ _ _ hat _ ihleft ihright =>
    obtain ⟨front, t, back, rfl, hfront, rfl, hback⟩ := map_unplaced_split hs
    obtain ⟨left, hleft, rfl⟩ := ihleft hfront
    obtain ⟨right, hright, rfl⟩ := ihright hback
    exact ⟨.logic t.line op left right, .logic hleft hat hright, rfl⟩
  | @binary _ _ _ op _ _ _ hat _ ihleft ihright =>
    obtain ⟨front, t, back, rfl, hfront, rfl, hback⟩ := map_unplaced_split hs
    obtain ⟨left, hleft, rfl⟩ := ihleft hfront
    obtain ⟨right, hright, rfl⟩ := ihright hback
    exact ⟨.binary t.line op left right, .binary hleft hat hright, rfl⟩
  | @unary _ _ op _ hat _ ih =>
    obtain ⟨t, back, rfl, rfl, hback⟩ := List.map_eq_cons_iff.1 hs
    obtain ⟨operand, hoperand, rfl⟩ := ih hback
    exact ⟨.unary t.line op operand, .unary hat hoperand, rfl⟩
  | @sizeOfType _ _ _ _ type hsize hopener htype hcloser =>
    obtain ⟨t, back, rfl, rfl, hback⟩ := List.map_eq_cons_iff.1 hs
    obtain ⟨opener, inner, rfl, rfl, hinner⟩ := List.map_eq_cons_iff.1 hback
    obtain ⟨middle, closer, last, rfl, rfl, rfl, hlast⟩ := map_unplaced_split hinner
    rw [List.map_eq_nil_iff.1 hlast]
    exact ⟨.sizeOfType t.line type,
      .sizeOfType hsize hopener (isType_unplaced.1 htype) hcloser, rfl⟩
  | sizeOf hsize _ hopens ih =>
    obtain ⟨t, back, rfl, rfl, rfl⟩ := List.map_eq_cons_iff.1 hs
    obtain ⟨operand, hoperand, rfl⟩ := ih rfl
    rw [opensType_unplaced] at hopens
    exact ⟨.sizeOf t.line operand, .sizeOf hsize hoperand hopens, rfl⟩
  | @cast _ _ _ _ type _ hopener htype hcloser _ ih =>
    obtain ⟨opener, back, rfl, rfl, hback⟩ := List.map_eq_cons_iff.1 hs
    obtain ⟨middle, closer, last, rfl, rfl, rfl, hlast⟩ := map_unplaced_split hback
    obtain ⟨operand, hoperand, rfl⟩ := ih hlast
    exact ⟨.cast opener.line type operand,
      .cast hopener (isType_unplaced.1 htype) hcloser hoperand, rfl⟩
  | @member _ _ _ arrow _ _ hat hkind ih =>
    obtain ⟨front, t, back, rfl, hfront, rfl, hback⟩ := map_unplaced_split hs
    obtain ⟨m, last, rfl, rfl, hlast⟩ := List.map_eq_cons_iff.1 hback
    rw [List.map_eq_nil_iff.1 hlast]
    obtain ⟨object, hobject, rfl⟩ := ih hfront
    exact ⟨.member t.line arrow object m.text, .member hobject hat hkind, rfl⟩
  | @stepAfter _ _ op _ _ hat ih =>
    obtain ⟨front, t, back, rfl, hfront, rfl, hback⟩ := map_unplaced_split hs
    rw [List.map_eq_nil_iff.1 hback]
    obtain ⟨operand, hoperand, rfl⟩ := ih hfront
    exact ⟨.stepAfter t.line op operand, .stepAfter hoperand hat, rfl⟩
  | literal hkind =>
    obtain ⟨t, rest, rfl, rfl, hrest⟩ := List.map_eq_cons_iff.1 hs
    rw [List.map_eq_nil_iff.1 hrest]
    exact ⟨.literal t.line t.text, .literal hkind, rfl⟩
  | name hname =>
    obtain ⟨t, rest, rfl, rfl, hrest⟩ := List.map_eq_cons_iff.1 hs
    rw [List.map_eq_nil_iff.1 hrest]
    exact ⟨.name t.line t.text, .name hname, rfl⟩
  | call hname hopener _ hjoined hcloser ih =>
    obtain ⟨t, back, rfl, rfl, hback⟩ := List.map_eq_cons_iff.1 hs
    obtain ⟨opener, inner, rfl, rfl, hinner⟩ := List.map_eq_cons_iff.1 hback
    obtain ⟨middle, closer, last, rfl, hmiddle, rfl, hlast⟩ := map_unplaced_split hinner
    rw [List.map_eq_nil_iff.1 hlast]
    -- the commas are found first, then the arguments between them, one by one
    obtain ⟨stretches, hstretches, hjoined'⟩ := hjoined.placed hmiddle
    obtain ⟨arguments, rfl, hderives, hsnd⟩ :=
      exists_arguments hstretches fun argument h s hs => ih argument h hs
    refine ⟨.call t.line t.text (arguments.map Prod.snd),
      .call hname hopener hderives hjoined' hcloser, ?_⟩
    rw [Expr.unlined, Expr.unlinedAll_eq_map, hsnd]
    rfl
  | index hname hopener _ hcloser ih =>
    obtain ⟨t, back, rfl, rfl, hback⟩ := List.map_eq_cons_iff.1 hs
    obtain ⟨opener, inner, rfl, rfl, hinner⟩ := List.map_eq_cons_iff.1 hback
    obtain ⟨middle, closer, last, rfl, hmiddle, rfl, hlast⟩ := map_unplaced_split hinner
    rw [List.map_eq_nil_iff.1 hlast]
    obtain ⟨position, hposition, rfl⟩ := ih hmiddle
    exact ⟨.index t.line t.text position, .index hname hopener hposition hcloser, rfl⟩
  | parens hopener hstarts _ hcloser ih =>
    obtain ⟨opener, back, rfl, rfl, hback⟩ := List.map_eq_cons_iff.1 hs
    obtain ⟨middle, closer, last, rfl, rfl, rfl, hlast⟩ := map_unplaced_split hback
    rw [List.map_eq_nil_iff.1 hlast]
    obtain ⟨e', he', rfl⟩ := ih rfl
    rw [headStartsType_unplaced] at hstarts
    exact ⟨e', .parens hopener hstarts he' hcloser, rfl⟩

/-! ## The fragments are good -/

theorem good_fragmentsOfAll {es : List Expr} (h : ∀ e ∈ es, ∀ p ∈ e.fragments, p.Good) :
    ∀ p ∈ Expr.fragmentsOfAll es, p.Good := by
  match es with
  | [] =>
    intro p hp
    cases hp
  | [e] => exact h e List.mem_cons_self
  | e :: e' :: rest =>
    rw [List.forall_mem_cons] at h
    rw [Expr.fragmentsOfAll, List.forall_mem_append, List.forall_mem_cons]
    · exact ⟨h.1, trivial, good_fragmentsOfAll h.2⟩
    · exact List.cons_ne_nil _ _

theorem good_enclosed {parts : List Fragment} (h : ∀ p ∈ parts, p.Good) {opener closer : String}
    (hsigns : (opener, closer) ∈ [("(", ")"), ("[", "]")]) :
    ∀ p ∈ .sign opener :: (parts ++ [.sign closer]), Fragment.Good p := by
  have hgood : ∀ pair ∈ [("(", ")"), ("[", "]")],
      (pair.1 ∈ signs ∧ pair.1.toList.head? ≠ some '/') ∧
        pair.2 ∈ signs ∧ pair.2.toList.head? ≠ some '/' := by decide
  rw [List.forall_mem_cons, List.forall_mem_append, List.forall_mem_singleton]
  exact ⟨(hgood _ hsigns).1, h, (hgood _ hsigns).2⟩

/-- The text of a derived expression is made of what its tokens are made of. -/
theorem Derives.good (h : Derives r s e) (hwritten : ∀ t ∈ s, t.Written) :
    ∀ p ∈ e.fragments, p.Good := by
  induction h with
  | tighter _ _ ih => exact ih hwritten
  | @assign _ _ _ op _ _ _ _ _ ihtarget ihvalue =>
    rw [List.forall_mem_append, List.forall_mem_cons] at hwritten
    rw [Expr.fragments, List.forall_mem_append, List.forall_mem_cons]
    exact ⟨ihtarget hwritten.1, assignText_mem_signs op, ihvalue hwritten.2.2⟩
  | conditional _ _ _ _ _ ih₁ ih₂ ih₃ =>
    rw [List.forall_mem_append, List.forall_mem_cons, List.forall_mem_append,
      List.forall_mem_cons] at hwritten
    obtain ⟨hs₁, _, hs₂, _, hs₃⟩ := hwritten
    rw [Expr.fragments, List.forall_mem_append, List.forall_mem_cons, List.forall_mem_append,
      List.forall_mem_cons]
    exact ⟨ih₁ hs₁, show "?" ∈ signs by decide, ih₂ hs₂, show ":" ∈ signs by decide, ih₃ hs₃⟩
  | @logic _ _ _ op _ _ _ _ _ ihleft ihright =>
    rw [List.forall_mem_append, List.forall_mem_cons] at hwritten
    rw [Expr.fragments, List.forall_mem_append, List.forall_mem_cons]
    exact ⟨ihleft hwritten.1, op.text_mem_signs, ihright hwritten.2.2⟩
  | @binary _ _ _ op _ _ _ _ _ ihleft ihright =>
    rw [List.forall_mem_append, List.forall_mem_cons] at hwritten
    rw [Expr.fragments, List.forall_mem_append, List.forall_mem_cons]
    refine ⟨ihleft hwritten.1, op.text_mem_signs, ?_⟩
    split
    · exact good_enclosed (ihright hwritten.2.2) (by decide)
    · exact ihright hwritten.2.2
  | @unary _ _ op _ _ _ ih =>
    rw [List.forall_mem_cons] at hwritten
    rw [Expr.fragments, List.forall_mem_cons]
    -- the sign is one of the language, and no comment begins with it
    refine ⟨⟨op.text_mem_signs, ?_⟩, ?_⟩
    · cases op with
      | step op => cases op <;> decide
      | _ => decide
    · split
      · exact ih hwritten.2
      · exact good_enclosed (ih hwritten.2) (by decide)
  | sizeOfType _ _ htype _ =>
    rw [List.forall_mem_cons, List.forall_mem_cons, List.forall_mem_append] at hwritten
    rw [Expr.fragments, List.forall_mem_cons, List.forall_mem_singleton]
    exact ⟨⟨by decide, by decide, by decide⟩, _, hwritten.2.2.1, htype⟩
  | sizeOf _ _ _ ih =>
    rw [List.forall_mem_cons] at hwritten
    rw [Expr.fragments, List.forall_mem_cons]
    exact ⟨⟨by decide, by decide, by decide⟩, good_enclosed (ih hwritten.2) (by decide)⟩
  | cast _ htype _ _ ih =>
    rw [List.forall_mem_cons, List.forall_mem_append, List.forall_mem_cons] at hwritten
    rw [Expr.fragments, List.forall_mem_cons]
    exact ⟨⟨_, hwritten.2.1, htype⟩, ih hwritten.2.2.2⟩
  | @member _ _ _ arrow _ _ _ hkind ih =>
    rw [List.forall_mem_append, List.forall_mem_cons, List.forall_mem_singleton] at hwritten
    rw [Expr.fragments, List.forall_mem_append, List.forall_mem_cons, List.forall_mem_singleton]
    have hword := hwritten.2.2.word (by rw [hkind]; decide) (by rw [hkind]; decide)
    refine ⟨ih hwritten.1, ?_, hword.1⟩
    cases arrow <;> exact ⟨by decide, by decide⟩
  | @stepAfter _ _ op _ _ _ ih =>
    rw [List.forall_mem_append] at hwritten
    rw [Expr.fragments, List.forall_mem_append, List.forall_mem_singleton]
    refine ⟨ih hwritten.1, ?_⟩
    cases op <;> exact ⟨by decide, by decide⟩
  | literal hkind =>
    rw [List.forall_mem_singleton] at hwritten
    rw [Expr.fragments, List.forall_mem_singleton]
    exact hwritten.literal hkind
  | name hname =>
    rw [List.forall_mem_singleton] at hwritten
    rw [Expr.fragments, List.forall_mem_singleton]
    exact (hwritten.name hname).1
  | call hname _ _ hjoined _ ih =>
    rw [List.forall_mem_cons, List.forall_mem_cons, List.forall_mem_append] at hwritten
    rw [Expr.fragments, List.forall_mem_cons]
    refine ⟨(hwritten.1.name hname).1, good_enclosed (good_fragmentsOfAll ?_) (by decide)⟩
    intro e he
    obtain ⟨argument, hargument, rfl⟩ := List.mem_map.1 he
    refine ih argument hargument fun t ht => hwritten.2.2.1 t ?_
    exact hjoined.mem (List.mem_map_of_mem hargument) ht
  | index hname _ _ _ ih =>
    rw [List.forall_mem_cons, List.forall_mem_cons, List.forall_mem_append] at hwritten
    rw [Expr.fragments, List.forall_mem_cons]
    exact ⟨(hwritten.1.name hname).1, good_enclosed (ih hwritten.2.2.1) (by decide)⟩
  | parens _ _ _ _ ih =>
    rw [List.forall_mem_cons, List.forall_mem_append] at hwritten
    -- round brackets do not show in the text of what they enclose
    exact ih hwritten.2.1

end Grammar

/-! ## Round brackets are balanced -/

/-- How many more round brackets are opened than closed. -/
def net (s : List Token) : Int :=
  s.countP (Grammar.isAt "(") - s.countP (Grammar.isAt ")")

@[simp] theorem net_nil : net [] = 0 := rfl

@[simp] theorem net_append (s s' : List Token) : net (s ++ s') = net s + net s' := by
  rw [net, net, net, List.countP_append, List.countP_append]
  omega

theorem net_cons (t : Token) (s : List Token) : net (t :: s) = net [t] + net s :=
  net_append [t] s

theorem net_token {t : Token} (h : t.isRound = false) : net [t] = 0 := by
  rw [Token.isRound, Bool.or_eq_false_iff] at h
  simp [net, h]

theorem net_opener : net [ofSign "("] = 1 := by decide

theorem net_closer : net [ofSign ")"] = -1 := by decide

theorem isRound_opener : (ofSign "(").isRound = true := by decide

theorem isRound_closer : (ofSign ")").isRound = true := by decide

/-- Tokens that are the same but for their round brackets, which are balanced in both. -/
structure Alike (s s' : List Token) : Prop where
  /-- The other tokens are the same. -/
  same : bare s = bare s'
  /-- The first tokens are balanced. -/
  left : net s = 0
  /-- The second tokens are balanced. -/
  right : net s' = 0

namespace Alike

variable {s s' u u' : List Token}

theorem nil : Alike [] [] := ⟨rfl, rfl, rfl⟩

theorem append (h : Alike s s') (h' : Alike u u') : Alike (s ++ u) (s' ++ u') := by
  refine ⟨?_, ?_, ?_⟩
  · rw [bare_append, bare_append, h.same, h'.same]
  · rw [net_append, h.left, h'.left]
    rfl
  · rw [net_append, h.right, h'.right]
    rfl

theorem cons {t : Token} (ht : t.isRound = false) (h : Alike s s') : Alike (t :: s) (t :: s') :=
  .append ⟨rfl, net_token ht, net_token ht⟩ h

theorem symm (h : Alike s s') : Alike s' s :=
  ⟨h.same.symm, h.right, h.left⟩

theorem enclosed_left (h : Alike s s') : Alike (enclosed s) s' := by
  refine ⟨?_, ?_, h.right⟩
  · rw [enclosed, bare_cons_round isRound_opener, bare_append, bare_cons_round isRound_closer,
      bare_nil, List.append_nil, h.same]
  · rw [enclosed, net_cons, net_append, net_opener, net_closer, h.left]
    rfl

theorem enclosed_right (h : Alike s s') : Alike s (enclosed s') :=
  h.symm.enclosed_left.symm

theorem enclosed (h : Alike s s') : Alike (enclosed s) (Stepwise.enclosed s') :=
  h.enclosed_left.enclosed_right

/-- Tokens without round brackets. -/
theorem refl (h : ∀ t ∈ s, t.isRound = false) : Alike s s := by
  induction s with
  | nil => exact .nil
  | cons t s ih =>
    rw [List.forall_mem_cons] at h
    exact .cons h.1 (ih h.2)

end Alike

/-! ## Tokens that are no round brackets -/

theorem isRound_sign {text : String} (h : text ≠ "(" ∧ text ≠ ")") :
    (ofSign text).isRound = false :=
  isRound_eq_false (Or.inr h)

theorem isRound_binary (op : BinaryOp) : (ofSign op.text).isRound = false := by
  rcases op with op | op <;> cases op <;> exact isRound_sign (by decide)

theorem isRound_logic (op : LogicOp) : (ofSign op.text).isRound = false := by
  cases op <;> exact isRound_sign (by decide)

theorem isRound_step (op : StepOp) : (ofSign op.text).isRound = false := by
  cases op <;> exact isRound_sign (by decide)

theorem isRound_unary (op : UnaryOp) : (ofSign op.text).isRound = false := by
  cases op with
  | step op => exact isRound_step op
  | _ => exact isRound_sign (by decide)

theorem isRound_assign (op : Option ArithOp) : (ofSign (assignText op)).isRound = false := by
  rcases op with _ | op
  · exact isRound_sign (by decide)
  · cases op <;> exact isRound_sign (by decide)

theorem isRound_selector (arrow : Bool) :
    (ofSign (if arrow then "->" else ".")).isRound = false := by
  cases arrow <;> exact isRound_sign (by decide)

theorem isRound_word {text : String} (h : IsWord text.toList) : (ofWord text).isRound = false :=
  isRound_eq_false (Or.inr (IsWord.not_round h))

theorem isRound_sizeOf : (ofWord "sizeof").isRound = false := by decide

namespace Grammar

variable {s : List Token} {r : Rank} {e : Expr}

theorem unplaced_of_isSizeOf {t : Token} (h : isSizeOf t = true) :
    t.unplaced = ofWord "sizeof" := by
  rw [isSizeOf, Bool.and_eq_true, beq_iff_eq, beq_iff_eq] at h
  rw [Token.unplaced, h.1, h.2]
  rfl

theorem IsType.not_round {type : CType} (h : IsType s type) (hwritten : ∀ t ∈ s, t.Written) :
    ∀ t ∈ s.map unplaced, t.isRound = false := by
  obtain ⟨front, back, words, rfl, _, hfront, hback, rfl⟩ := h
  rw [List.forall_mem_append] at hwritten
  rw [List.map_append, List.forall_mem_append]
  obtain ⟨hmap, hwords⟩ := hfront.words hwritten.1
  constructor
  · rw [hmap]
    intro t ht
    obtain ⟨word, hword, rfl⟩ := List.mem_map.1 ht
    exact isRound_word (hwords word hword)
  · intro t ht
    obtain ⟨star, hstar, rfl⟩ := List.mem_map.1 ht
    rw [(hwritten.2 star hstar).sign (hback star hstar) (by decide)]
    exact isRound_sign (by decide)

theorem Joined.alike {arguments : List (List Token × Expr)} {used : List Token}
    (h : Joined (arguments.map Prod.fst) used) (hwritten : ∀ t ∈ used, t.Written)
    (halike : ∀ argument ∈ arguments, Alike (argument.1.map unplaced) argument.2.tokens) :
    Alike (used.map unplaced) (Expr.tokensOfAll (arguments.map Prod.snd)) := by
  match arguments, h with
  | [], .nil => exact .nil
  | [argument], .one _ => exact halike argument List.mem_cons_self
  | argument :: next :: rest, .more hcomma hjoined =>
    rw [List.forall_mem_cons] at halike
    rw [List.forall_mem_append, List.forall_mem_cons] at hwritten
    have hrest := @Joined.alike (next :: rest) _ hjoined hwritten.2.2 halike.2
    rw [List.map_cons, List.map_cons, Expr.tokensOfAll_cons_cons, List.map_append, List.map_cons,
      hwritten.2.1.sign hcomma (by decide)]
    exact halike.1.append (.cons (isRound_sign (by decide)) hrest)

/-- Round brackets aside, a derivation is from the tokens of the text. -/
theorem Derives.alike (h : Derives r s e) (hwritten : ∀ t ∈ s, t.Written) :
    Alike (s.map unplaced) e.tokens := by
  induction h with
  | tighter _ _ ih => exact ih hwritten
  | @assign _ _ _ op _ _ _ hat _ ihtarget ihvalue =>
    rw [List.forall_mem_append, List.forall_mem_cons] at hwritten
    rw [List.map_append, List.map_cons, Expr.tokens_assign,
      hwritten.2.1.sign hat (assignText_mem_signs op)]
    exact (ihtarget hwritten.1).append (.cons (isRound_assign op) (ihvalue hwritten.2.2))
  | conditional _ hquestion _ hcolon _ ih₁ ih₂ ih₃ =>
    rw [List.forall_mem_append, List.forall_mem_cons, List.forall_mem_append,
      List.forall_mem_cons] at hwritten
    obtain ⟨hs₁, ht, hs₂, hcolon', hs₃⟩ := hwritten
    rw [List.map_append, List.map_cons, List.map_append, List.map_cons, Expr.tokens_conditional,
      ht.sign hquestion (by decide), hcolon'.sign hcolon (by decide)]
    refine (ih₁ hs₁).append (.cons (isRound_sign (by decide)) ((ih₂ hs₂).append ?_))
    exact .cons (isRound_sign (by decide)) (ih₃ hs₃)
  | @logic _ _ _ op _ _ _ hat _ ihleft ihright =>
    rw [List.forall_mem_append, List.forall_mem_cons] at hwritten
    rw [List.map_append, List.map_cons, Expr.tokens_logic, hwritten.2.1.sign hat op.text_mem_signs]
    exact (ihleft hwritten.1).append (.cons (isRound_logic op) (ihright hwritten.2.2))
  | @binary _ _ _ op _ _ _ hat _ ihleft ihright =>
    rw [List.forall_mem_append, List.forall_mem_cons] at hwritten
    rw [List.map_append, List.map_cons, Expr.tokens_binary, hwritten.2.1.sign hat op.text_mem_signs]
    refine (ihleft hwritten.1).append (.cons (isRound_binary op) ?_)
    -- the text may have round brackets where the tokens have none
    split
    · exact (ihright hwritten.2.2).enclosed_right
    · exact ihright hwritten.2.2
  | @unary _ _ op _ hat _ ih =>
    rw [List.forall_mem_cons] at hwritten
    rw [List.map_cons, Expr.tokens_unary, hwritten.1.sign hat op.text_mem_signs]
    refine .cons (isRound_unary op) ?_
    split
    · exact ih hwritten.2
    · exact (ih hwritten.2).enclosed_right
  | sizeOfType hsize hopener htype hcloser =>
    rw [List.forall_mem_cons, List.forall_mem_cons, List.forall_mem_append,
      List.forall_mem_singleton] at hwritten
    obtain ⟨_, hopener', hs, hcloser'⟩ := hwritten
    rw [Expr.tokens_sizeOfType, reads_type_alone htype hs, List.map_cons, List.map_cons,
      List.map_append, List.map_singleton, unplaced_of_isSizeOf hsize,
      hopener'.sign hopener (by decide), hcloser'.sign hcloser (by decide)]
    exact .cons isRound_sizeOf (Alike.refl (htype.not_round hs)).enclosed
  | sizeOf hsize _ _ ih =>
    rw [List.forall_mem_cons] at hwritten
    rw [List.map_cons, Expr.tokens_sizeOf, unplaced_of_isSizeOf hsize]
    exact .cons isRound_sizeOf (ih hwritten.2).enclosed_right
  | cast hopener htype hcloser _ ih =>
    rw [List.forall_mem_cons, List.forall_mem_append, List.forall_mem_cons] at hwritten
    obtain ⟨hopener', hs, hcloser', hs'⟩ := hwritten
    rw [Expr.tokens_cast, reads_type_alone htype hs, List.map_cons, List.map_append, List.map_cons,
      hopener'.sign hopener (by decide), hcloser'.sign hcloser (by decide)]
    have hinner := (Alike.refl (htype.not_round hs)).enclosed.append (ih hs')
    simpa [enclosed] using hinner
  | @member _ _ _ arrow _ _ hat hkind ih =>
    rw [List.forall_mem_append, List.forall_mem_cons, List.forall_mem_singleton] at hwritten
    obtain ⟨hs, ht, hm⟩ := hwritten
    obtain ⟨hword, hm⟩ := hm.word (by rw [hkind]; decide) (by rw [hkind]; decide)
    rw [List.map_append, List.map_cons, List.map_singleton, Expr.tokens_member,
      ht.sign hat (selector_mem_signs arrow), hm]
    exact (ih hs).append (.cons (isRound_selector arrow) (.cons (isRound_word hword) .nil))
  | @stepAfter _ _ op _ _ hat ih =>
    rw [List.forall_mem_append, List.forall_mem_singleton] at hwritten
    rw [List.map_append, List.map_singleton, Expr.tokens_stepAfter,
      hwritten.2.sign hat op.text_mem_signs]
    exact (ih hwritten.1).append (.cons (isRound_step op) .nil)
  | @literal t hkind =>
    have ht : t.unplaced = ofLiteral t.text := by
      rw [Token.unplaced, hkind]
      rfl
    rw [List.map_singleton, Expr.tokens_literal, ht]
    exact .cons (isRound_eq_false (Or.inl rfl)) .nil
  | name hname =>
    rw [List.forall_mem_singleton] at hwritten
    obtain ⟨hword, ht⟩ := hwritten.name hname
    rw [List.map_singleton, Expr.tokens_name, ht]
    exact .cons (isRound_word hword) .nil
  | call hname hopener _ hjoined hcloser ih =>
    rw [List.forall_mem_cons, List.forall_mem_cons, List.forall_mem_append,
      List.forall_mem_singleton] at hwritten
    obtain ⟨ht, hopener', hs, hcloser'⟩ := hwritten
    obtain ⟨hword, ht⟩ := ht.name hname
    rw [Expr.tokens_call, List.map_cons, List.map_cons, List.map_append, List.map_singleton, ht,
      hopener'.sign hopener (by decide), hcloser'.sign hcloser (by decide)]
    refine .cons (isRound_word hword) (hjoined.alike hs fun argument h => ?_).enclosed
    exact ih argument h fun t ht => hs t (hjoined.mem (List.mem_map_of_mem h) ht)
  | index hname hopener _ hcloser ih =>
    rw [List.forall_mem_cons, List.forall_mem_cons, List.forall_mem_append,
      List.forall_mem_singleton] at hwritten
    obtain ⟨ht, hopener', hs, hcloser'⟩ := hwritten
    obtain ⟨hword, ht⟩ := ht.name hname
    rw [Expr.tokens_index, List.map_cons, List.map_cons, List.map_append, List.map_singleton, ht,
      hopener'.sign hopener (by decide), hcloser'.sign hcloser (by decide)]
    refine .cons (isRound_word hword) (.cons (isRound_sign (by decide)) ((ih hs).append ?_))
    exact .cons (isRound_sign (by decide)) .nil
  | parens hopener _ _ hcloser ih =>
    rw [List.forall_mem_cons, List.forall_mem_append, List.forall_mem_singleton] at hwritten
    obtain ⟨hopener', hs, hcloser'⟩ := hwritten
    rw [List.map_cons, List.map_append, List.map_singleton, hopener'.sign hopener (by decide),
      hcloser'.sign hcloser (by decide)]
    -- and the tokens may have some that the text has not
    exact (ih hs).enclosed_left

end Grammar

end Stepwise
