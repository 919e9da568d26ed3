/-
Which operators make a program one about bits.

A program is said to work on bits if one of its expressions does. The expressions of a
program do not include the sizes of its arrays, and of the brackets of a parameter the
tree has nothing at all. So the operators on bits that are seen are those among the code
(`bits_are_seen_in_code`): every one that stands there is found, and none that stands in
the size of a declared array, in the brackets of a parameter or in a directive. Between
operands `&` is such an operator, in front of one it takes an address.
-/
import Mathlib.Data.List.Permutation
import Stepwise.Category
import Stepwise.Proofs.Uses
import Stepwise.Syntax.Equality

set_option autoImplicit false

namespace Stepwise

open Grammar

/-! ## Operators on bits -/

/-- The operators on bits, except for the one that takes an address in front of its operand. -/
def Token.bitSigns : List String :=
  ["|", "^", "~", "<<", ">>", "&=", "|=", "^=", "<<=", ">>="]

namespace Use

/-- Is the token used as an operator on bits, wherever it stands? -/
def isBitSign (u : Use) : Bool :=
  u.token.kind == .operator &&
    (Token.bitSigns.contains u.token.text || (u.token.text == "&" && u.between))

/-- Is it such an operator among the code? -/
def worksOnBits (u : Use) : Bool :=
  u.spot == .code && u.isBitSign

variable {t : Token} {text : String}

theorem worksOnBits_plain_of_kind (h : t.kind ≠ .operator) : (plain t).worksOnBits = false := by
  simp [worksOnBits, isBitSign, plain, h]

theorem worksOnBits_plain_of_text (h : t.text ∉ Token.bitSigns) : (plain t).worksOnBits = false := by
  simp [worksOnBits, isBitSign, plain, h]

theorem worksOnBits_plain_of_isAt (hat : isAt text t = true) (h : text ∉ Token.bitSigns) :
    (plain t).worksOnBits = false :=
  worksOnBits_plain_of_text (by rwa [(isAt_iff.1 hat).1])

theorem worksOnBits_plain_of_isName (h : isName t = true) : (plain t).worksOnBits = false := by
  refine worksOnBits_plain_of_kind fun hkind => ?_
  rw [isName, hkind] at h
  cases h

theorem worksOnBits_plain_of_signs (h : t.Signs text) :
    (plain t).worksOnBits = Token.bitSigns.contains text := by
  obtain ⟨hkind, rfl⟩ := h
  simp [worksOnBits, isBitSign, plain, hkind]

theorem worksOnBits_operator (h : t.Signs text) :
    (operator t).worksOnBits = (Token.bitSigns.contains text || text == "&") := by
  obtain ⟨hkind, rfl⟩ := h
  simp [worksOnBits, isBitSign, operator, hkind]

/-- Brackets and what else is written around tokens are no operators on bits. -/
theorem any_enclosed {opener closer : Token} {front back : String}
    (hopener : isAt front opener = true) (hfront : front ∉ Token.bitSigns)
    (hcloser : isAt back closer = true) (hback : back ∉ Token.bitSigns) (us : List Use) :
    (plain opener :: (us ++ [plain closer])).any worksOnBits = us.any worksOnBits := by
  simp [worksOnBits_plain_of_isAt hopener hfront, worksOnBits_plain_of_isAt hcloser hback]

/-- Nor is what parts tokens. -/
theorem any_parted {sign : Token} (hsign : isAt text sign = true) (htext : text ∉ Token.bitSigns)
    (us vs : List Use) :
    (us ++ plain sign :: vs).any worksOnBits = (us.any worksOnBits || vs.any worksOnBits) := by
  simp [worksOnBits_plain_of_isAt hsign htext]

/-- Nor is what stands behind tokens. -/
theorem any_ended {sign : Token} (hsign : isAt text sign = true) (htext : text ∉ Token.bitSigns)
    (us : List Use) :
    (us ++ [plain sign]).any worksOnBits = us.any worksOnBits := by
  rw [any_parted hsign htext, List.any_nil, Bool.or_false]

/-- What stands elsewhere does not count. -/
theorem any_moved {spot : Spot} (h : spot ≠ .code) (us : List Use) :
    (us.map (moved spot)).any worksOnBits = false := by
  simp [worksOnBits, moved, h]

theorem any_standing {spot : Spot} (h : spot ≠ .code) (s : List Token) :
    (s.map (standing spot)).any worksOnBits = false := by
  simp [worksOnBits, standing, h]

end Use

theorem Grammar.TypeWords.any_worksOnBits {s : List Token} {words : List String}
    (h : TypeWords s words) :
    (s.map Use.plain).any Use.worksOnBits = false := by
  induction h with
  | nil => rfl
  | keyword hkind _ _ ih =>
    rw [List.map_cons, List.any_cons, Use.worksOnBits_plain_of_kind (by rw [hkind]; decide), ih]
    rfl
  | tag hkind _ htag _ ih =>
    rw [List.map_cons, List.map_cons, List.any_cons, List.any_cons,
      Use.worksOnBits_plain_of_kind (by rw [hkind]; decide),
      Use.worksOnBits_plain_of_kind (by rw [htag]; decide), ih]
    rfl
  | header hkind _ =>
    rw [List.map_singleton, List.any_cons, Use.worksOnBits_plain_of_kind (by rw [hkind]; decide)]
    rfl

theorem any_worksOnBits_stars {s : List Token} (h : ∀ star ∈ s, isAt "*" star = true) :
    (s.map Use.plain).any Use.worksOnBits = false := by
  rw [List.any_map, List.any_eq_false]
  intro star hstar
  rw [Function.comp_apply, Use.worksOnBits_plain_of_isAt (h star hstar) (by decide)]
  decide

theorem Grammar.IsType.any_worksOnBits {s : List Token} {type : CType} (h : IsType s type) :
    (s.map Use.plain).any Use.worksOnBits = false := by
  obtain ⟨front, back, words, rfl, _, hfront, hback, _⟩ := h
  rw [List.map_append, List.any_append, hfront.any_worksOnBits, any_worksOnBits_stars hback]
  rfl

/-! ## Expressions -/

/-- Does one of the expressions work on bits? -/
def bitsIn (es : List Expr) : Bool :=
  es.any fun e => e.parts.any Expr.worksOnBits

@[simp] theorem bitsIn_nil : bitsIn [] = false := rfl

@[simp] theorem bitsIn_cons (e : Expr) (es : List Expr) :
    bitsIn (e :: es) = (e.parts.any Expr.worksOnBits || bitsIn es) := rfl

@[simp] theorem bitsIn_append (es es' : List Expr) :
    bitsIn (es ++ es') = (bitsIn es || bitsIn es') :=
  List.any_append

/-- The operators of the tree are those of the tokens: what works on bits is written so, and between
operands or in front of one. -/
theorem worksOnBits_signs :
    (∀ op line left right, (Token.bitSigns.contains (BinaryOp.text op) || op.text == "&")
      = Expr.worksOnBits (.binary line op left right)) ∧
    (∀ op, (Token.bitSigns.contains (LogicOp.text op) || op.text == "&") = false) ∧
    (∀ op line target value, (Token.bitSigns.contains (assignText op) || assignText op == "&")
      = Expr.worksOnBits (.assign line op target value)) ∧
    (∀ op line operand, Token.bitSigns.contains (UnaryOp.text op)
      = Expr.worksOnBits (.unary line op operand)) ∧
    ∀ op, Token.bitSigns.contains (StepOp.text op) = false := by
  refine ⟨?_, ?_, ?_, ?_, ?_⟩
  · rintro (op | op) _ _ _ <;> cases op <;> rfl
  · rintro (_ | _) <;> rfl
  · rintro (_ | op) _ _ _
    · rfl
    · cases op <;> rfl
  · rintro (_ | _ | _ | _ | _ | _ | op) _ _
    all_goals first | rfl | (cases op <;> rfl)
  · rintro (_ | _) <;> rfl

mutual

/-- An expression works on bits if and only if it is written with an operator on bits. -/
theorem Expr.Uses.any_worksOnBits {e : Expr} {us : List Use} (h : e.Uses us) :
    us.any Use.worksOnBits = e.parts.any Expr.worksOnBits := by
  obtain ⟨hbinary, hlogic, hassign, hunary, hstep⟩ := worksOnBits_signs
  match h with
  | .literal hliteral =>
    rw [List.any_cons, Use.worksOnBits_plain_of_kind (by rw [hliteral]; decide)]
    rfl
  | .name hname =>
    rw [List.any_cons, Use.worksOnBits_plain_of_isName hname]
    rfl
  | .bareCall hname hopener hcloser =>
    rw [List.any_cons, Use.worksOnBits_plain_of_isName hname, Bool.false_or]
    exact Use.any_enclosed hopener (by decide) hcloser (by decide) []
  | .call hname hopener hus hcloser =>
    rw [List.any_cons, Use.worksOnBits_plain_of_isName hname,
      Use.any_enclosed hopener (by decide) hcloser (by decide), hus.any_worksOnBits]
    rfl
  | .index hname hopener hus hcloser =>
    rw [List.any_cons, Use.worksOnBits_plain_of_isName hname,
      Use.any_enclosed hopener (by decide) hcloser (by decide), hus.any_worksOnBits]
    rfl
  | .parens hopener hus hcloser =>
    rw [Use.any_enclosed hopener (by decide) hcloser (by decide), hus.any_worksOnBits]
  | @Expr.Uses.member _ _ _ arrow _ hus hdot hm =>
    have hdot' : (if arrow then "->" else ".") ∉ Token.bitSigns := by cases arrow <;> decide
    rw [Use.any_parted hdot hdot', List.any_cons,
      Use.worksOnBits_plain_of_kind (by rw [hm]; decide), hus.any_worksOnBits]
    simp [parts, worksOnBits]
  | .stepAfter hus hop =>
    rw [List.any_append, List.any_cons, Use.worksOnBits_plain_of_signs hop, hstep,
      hus.any_worksOnBits]
    simp [parts, worksOnBits]
  | .unary hop hus =>
    -- in front of its operand `&` takes an address, and `~` is an operator on bits
    rw [List.any_cons, Use.worksOnBits_plain_of_signs hop, hunary, hus.any_worksOnBits, parts,
      List.any_cons]
  | .sizeOfType hsize hopener htype hcloser =>
    rw [List.any_cons, Use.worksOnBits_plain_of_kind (by rw [kind_of_isSizeOf hsize]; decide),
      Use.any_enclosed hopener (by decide) hcloser (by decide), htype.any_worksOnBits]
    rfl
  | .sizeOf hsize hus =>
    rw [List.any_cons, Use.worksOnBits_plain_of_kind (by rw [kind_of_isSizeOf hsize]; decide),
      hus.any_worksOnBits]
    rfl
  | .cast hopener htype hcloser hus =>
    rw [List.any_cons, Use.worksOnBits_plain_of_isAt hopener (by decide),
      Use.any_parted hcloser (by decide), htype.any_worksOnBits, hus.any_worksOnBits]
    rfl
  | .binary hus hop hvs =>
    -- the operator stands between its operands, and comes first among the parts
    rw [List.any_append, List.any_cons, Use.worksOnBits_operator hop, hus.any_worksOnBits,
      hvs.any_worksOnBits, parts, List.any_cons, ← hbinary, List.any_append, Bool.or_left_comm]
  | .logic hus hop hvs =>
    rw [List.any_append, List.any_cons, Use.worksOnBits_operator hop, hlogic, hus.any_worksOnBits,
      hvs.any_worksOnBits, parts, List.any_cons, List.any_append]
    rfl
  | .conditional hus hquestion hvs hcolon hws =>
    rw [Use.any_parted hquestion (by decide), Use.any_parted hcolon (by decide),
      hus.any_worksOnBits, hvs.any_worksOnBits, hws.any_worksOnBits, parts, List.any_cons,
      List.any_append, List.any_append, Bool.or_assoc]
    rfl
  | .assign hus hop hvs =>
    rw [List.any_append, List.any_cons, Use.worksOnBits_operator hop, hus.any_worksOnBits,
      hvs.any_worksOnBits, parts, List.any_cons, ← hassign, List.any_append, Bool.or_left_comm]

theorem Expr.UsesAll.any_worksOnBits {es : List Expr} {us : List Use} (h : Expr.UsesAll es us) :
    us.any Use.worksOnBits = (Expr.partsOfAll es).any Expr.worksOnBits := by
  match h with
  | .one hus => rw [hus.any_worksOnBits, Expr.partsOfAll, Expr.partsOfAll, List.append_nil]
  | .more hus hcomma hvs =>
    rw [Expr.partsOfAll, List.any_append, List.any_append, List.any_cons,
      Use.worksOnBits_plain_of_isAt hcomma (by decide), hus.any_worksOnBits, hvs.any_worksOnBits]
    rfl

end

/-! ## Declarations -/

section

variable {us : List Use}

theorem Expr.Uses.bitsIn {e : Expr} (h : e.Uses us) : us.any Use.worksOnBits = bitsIn [e] := by
  rw [h.any_worksOnBits, bitsIn_cons, bitsIn_nil, Bool.or_false]

theorem CType.Uses.any_worksOnBits {type : CType} (h : type.Uses us) :
    us.any Use.worksOnBits = false := by
  obtain ⟨s, words, hwords, rfl, _⟩ := h
  exact hwords.any_worksOnBits

theorem StarUses.any_worksOnBits {depth : Nat} (h : StarUses depth us) :
    us.any Use.worksOnBits = false := by
  obtain ⟨s, hstars, rfl, _⟩ := h
  exact any_worksOnBits_stars hstars

mutual

theorem Init.Uses.bitsIn {i : Init} {us : List Use} (h : i.Uses us) :
    us.any Use.worksOnBits = bitsIn i.exprs := by
  match h with
  | .expr hus => exact hus.bitsIn
  | .list hopener hus hcloser =>
    rw [Use.any_enclosed hopener (by decide) hcloser (by decide), hus.bitsIn, exprs]

theorem Init.UsesAll.bitsIn {is : List Init} {us : List Use} (h : Init.UsesAll is us) :
    us.any Use.worksOnBits = bitsIn (Init.exprsOfAll is) := by
  match h with
  | .nil => rfl
  | .one hus => rw [hus.bitsIn, Init.exprsOfAll, Init.exprsOfAll, List.append_nil]
  | .more hus hcomma hvs =>
    rw [Use.any_parted hcomma (by decide), hus.bitsIn, hvs.bitsIn, Init.exprsOfAll, bitsIn_append]

end

/-- The size in the brackets behind a declared name is not seen. -/
theorem Brackets.Uses.any_worksOnBits {brackets : Brackets} (h : brackets.Uses us) :
    us.any Use.worksOnBits = false := by
  cases h with
  | none => rfl
  | unsized hopener hcloser => exact Use.any_enclosed hopener (by decide) hcloser (by decide) []
  | sized hopener _ hcloser =>
    -- the size may work on bits: its tokens are no code
    rw [Use.any_enclosed hopener (by decide) hcloser (by decide), Use.any_moved (by decide)]

theorem Variable.Uses.bitsIn {v : Variable} (h : v.Uses us) :
    us.any Use.worksOnBits = bitsIn v.exprs := by
  cases h with
  | mk hstars hname hbrackets hinit =>
    rw [List.any_append, hstars.any_worksOnBits, List.any_cons,
      Use.worksOnBits_plain_of_kind (by rw [hname]; decide), List.any_append,
      hbrackets.any_worksOnBits, Bool.false_or, Bool.false_or, Bool.false_or]
    cases hinit with
    | none => rfl
    | some hequals hus =>
      rw [List.any_cons, Use.worksOnBits_plain_of_isAt hequals (by decide), hus.bitsIn]
      rfl

theorem Variable.UsesAll.bitsIn {vars : List Variable} (h : Variable.UsesAll vars us) :
    us.any Use.worksOnBits = bitsIn (vars.flatMap Variable.exprs) := by
  induction h with
  | one hus => rw [hus.bitsIn, List.flatMap_singleton]
  | more hus hcomma _ ih =>
    rw [Use.any_parted hcomma (by decide), hus.bitsIn, ih, List.flatMap_cons, bitsIn_append]

theorem Decl.Uses.bitsIn {d : Decl} (h : d.Uses us) : us.any Use.worksOnBits = bitsIn d.exprs := by
  cases h with
  | mk line htype hvars =>
    rw [List.any_append, htype.any_worksOnBits, hvars.bitsIn]
    rfl

/-! ## Statements -/

theorem Directive.Uses.any_worksOnBits {d : Directive} (h : d.Uses us) :
    us.any Use.worksOnBits = false := by
  cases h with
  | mk _ _ => exact Use.any_standing (by decide) _

theorem Expr.UsesOption.bitsIn {e : Option Expr} (h : Expr.UsesOption e us) :
    us.any Use.worksOnBits = bitsIn e.toList := by
  cases h with
  | none => rfl
  | some hus => exact hus.bitsIn

theorem Expr.UsesInParens.bitsIn {e : Expr} (h : e.UsesInParens us) :
    us.any Use.worksOnBits = bitsIn [e] := by
  cases h with
  | mk hopener hus hcloser =>
    rw [Use.any_enclosed hopener (by decide) hcloser (by decide), hus.bitsIn]

theorem ForInit.Uses.bitsIn {init : ForInit} (h : init.Uses us) :
    us.any Use.worksOnBits = bitsIn init.exprs := by
  cases h with
  | none => rfl
  | decl hus => exact hus.bitsIn
  | expr hus => exact hus.bitsIn

theorem kind_of_leading? {t : Token} {l : Leading} (h : leading? t = some l) :
    t.kind = .keyword := by
  by_contra hkind
  rw [leading?, if_neg hkind] at h
  cases h

theorem any_leading {t : Token} {l : Leading} (h : leading? t = some l) (us : List Use) :
    (Use.plain t :: us).any Use.worksOnBits = us.any Use.worksOnBits := by
  rw [List.any_cons, Use.worksOnBits_plain_of_kind (by rw [kind_of_leading? h]; decide),
    Bool.false_or]

mutual

/-- Every expression of a statement is seen. -/
theorem Stmt.Uses.bitsIn {s : Stmt} {us : List Use} (h : s.Uses us) :
    us.any Use.worksOnBits = bitsIn s.exprs := by
  -- keywords and marks are no operators on bits, so only the expressions between them count
  match h with
  | .directive hus => rw [hus.any_worksOnBits, exprs, bitsIn_nil]
  | .block hopener hus hcloser =>
    rw [Use.any_enclosed hopener (by decide) hcloser (by decide), hus.bitsIn, exprs]
  | .empty hsemicolon =>
    rw [List.any_cons, Use.worksOnBits_plain_of_isAt hsemicolon (by decide), exprs]
    rfl
  | .decl hus hsemicolon => rw [Use.any_ended hsemicolon (by decide), hus.bitsIn, exprs]
  | .expr _ hus hsemicolon => rw [Use.any_ended hsemicolon (by decide), hus.bitsIn, exprs]
  | .cond hlead hus hvs =>
    rw [any_leading hlead, List.any_append, hus.bitsIn, hvs.bitsIn]
    simp [exprs, exprsOfOption]
  | .condElse hlead hus hvs helse hws =>
    rw [any_leading hlead, List.any_append, Use.any_parted helse (by decide), hus.bitsIn,
      hvs.bitsIn, hws.bitsIn]
    simp [exprs, exprsOfOption]
  | .forLoop hlead hopener hinit hfirst hcondition hsecond hupdate hcloser hbody =>
    rw [any_leading hlead, List.any_cons, Use.worksOnBits_plain_of_isAt hopener (by decide),
      Use.any_parted hfirst (by decide), Use.any_parted hsecond (by decide),
      Use.any_parted hcloser (by decide), hinit.bitsIn, hcondition.bitsIn, hupdate.bitsIn,
      hbody.bitsIn]
    simp [exprs]
  | .whileLoop hlead hus hvs =>
    rw [any_leading hlead, List.any_append, hus.bitsIn, hvs.bitsIn]
    simp [exprs]
  | .doLoop hlead hus hwhile hvs hsemicolon =>
    rw [any_leading hlead, List.any_append, List.any_cons,
      Use.worksOnBits_plain_of_text (by rw [hwhile]; decide), Use.any_ended hsemicolon (by decide),
      hus.bitsIn, hvs.bitsIn]
    simp [exprs]
  | .switch hlead hus hvs =>
    rw [any_leading hlead, List.any_append, hus.bitsIn, hvs.bitsIn]
    simp [exprs]
  | .caseLabel hlead hus hcolon =>
    rw [any_leading hlead, Use.any_ended hcolon (by decide), hus.bitsIn, exprs]
  | .defaultLabel hlead hcolon =>
    rw [any_leading hlead, exprs]
    exact Use.any_ended hcolon (by decide) []
  | .breakOut hlead hsemicolon =>
    rw [any_leading hlead, exprs]
    exact Use.any_ended hsemicolon (by decide) []
  | .continueOn hlead hsemicolon =>
    rw [any_leading hlead, exprs]
    exact Use.any_ended hsemicolon (by decide) []
  | .ret hlead hus hsemicolon =>
    rw [any_leading hlead, Use.any_ended hsemicolon (by decide), hus.bitsIn, exprs]

theorem Stmt.UsesAll.bitsIn {body : List Stmt} {us : List Use} (h : Stmt.UsesAll body us) :
    us.any Use.worksOnBits = bitsIn (Stmt.exprsOfAll body) := by
  match h with
  | .nil => rfl
  | .cons hus hvs => rw [List.any_append, hus.bitsIn, hvs.bitsIn, Stmt.exprsOfAll, bitsIn_append]

end

/-! ## Programs -/

/-- What stands in the brackets of a parameter is not seen. -/
theorem Parameter.Uses.any_worksOnBits {p : Parameter} (h : p.Uses us) :
    us.any Use.worksOnBits = false := by
  cases h with
  | dots hdots =>
    rw [List.any_cons, Use.worksOnBits_plain_of_isAt hdots (by decide)]
    rfl
  | declared htype hstars hname hbrackets =>
    -- a type and stars never do, which leaves the name and the brackets
    rw [List.any_append, htype.any_worksOnBits, List.any_append, hstars.any_worksOnBits,
      List.any_append, Bool.false_or, Bool.false_or, Bool.or_eq_false_iff]
    constructor
    · cases hname with
      | none => rfl
      | some hname =>
        rw [List.any_cons, Use.worksOnBits_plain_of_kind (by rw [hname]; decide)]
        rfl
    · cases hbrackets with
      | none => rfl
      | some hopener hcloser =>
        rw [Use.any_enclosed hopener (by decide) hcloser (by decide),
          Use.any_standing (by decide)]

theorem Parameter.UsesList.any_worksOnBits {ps : List Parameter} (h : Parameter.UsesList ps us) :
    us.any Use.worksOnBits = false := by
  cases h with
  | none => rfl
  | void hvoid =>
    rw [List.any_cons, Use.worksOnBits_plain_of_isAt hvoid (by decide)]
    rfl
  | some hall =>
    induction hall with
    | one hus => exact hus.any_worksOnBits
    | more hus hcomma _ ih =>
      rw [Use.any_parted hcomma (by decide), hus.any_worksOnBits, ih, Bool.or_false]

theorem Function.Uses.bitsIn {f : Function} (h : f.Uses us) :
    us.any Use.worksOnBits = bitsIn f.exprs := by
  cases h with
  | mk line htype hstars hname hopener hparameters hcloser hbrace hbody hclosing =>
    rw [List.any_append, htype.any_worksOnBits, List.any_append, hstars.any_worksOnBits,
      List.any_cons, Use.worksOnBits_plain_of_isName hname, List.any_cons,
      Use.worksOnBits_plain_of_isAt hopener (by decide), Use.any_parted hcloser (by decide),
      hparameters.any_worksOnBits, Use.any_enclosed hbrace (by decide) hclosing (by decide),
      hbody.bitsIn]
    rfl

theorem Decl.UsesFields.bitsIn {fields : List Decl} (h : Decl.UsesFields fields us) :
    us.any Use.worksOnBits = bitsIn (fields.flatMap Decl.exprs) := by
  induction h with
  | nil => rfl
  | cons hus hsemicolon _ ih =>
    rw [Use.any_parted hsemicolon (by decide), hus.bitsIn, ih, List.flatMap_cons, bitsIn_append]

theorem Struct.Uses.bitsIn {d : Struct} (h : d.Uses us) :
    us.any Use.worksOnBits = bitsIn (d.fields.flatMap Decl.exprs) := by
  cases h with
  | mk hstruct htag hopener hfields hcloser hsemicolon =>
    rw [List.any_cons, Use.worksOnBits_plain_of_isAt hstruct (by decide), List.any_cons,
      Use.worksOnBits_plain_of_kind (by rw [htag]; decide), List.any_cons,
      Use.worksOnBits_plain_of_isAt hopener (by decide), Use.any_parted hcloser (by decide),
      hfields.bitsIn, List.any_cons, Use.worksOnBits_plain_of_isAt hsemicolon (by decide)]
    simp

theorem Item.Uses.bitsIn {i : Item} (h : i.Uses us) : us.any Use.worksOnBits = bitsIn i.exprs := by
  cases h with
  | directive hus =>
    rw [hus.any_worksOnBits]
    rfl
  | struct hus => exact hus.bitsIn
  | function hus => exact hus.bitsIn
  | decl hus hsemicolon =>
    rw [Use.any_ended hsemicolon (by decide), hus.bitsIn]
    rfl

theorem Program.Uses.any_worksOnBits {p : Program} (h : p.Uses us) :
    us.any Use.worksOnBits = p.usesBits := by
  obtain ⟨items⟩ := p
  show _ = bitsIn (items.flatMap Item.exprs)
  have hitems : Item.UsesAll items us := h
  clear h
  induction hitems with
  | nil => rfl
  | cons hus _ ih => rw [List.any_append, hus.bitsIn, ih, List.flatMap_cons, bitsIn_append]

end

/-- **The operators on bits that are seen.** A program that is accepted uses all its tokens, and it
is said to work on bits if and only if there is an operator on bits among those that are code: not in
a directive, and not in the brackets behind a declared name or a parameter. -/
theorem bits_are_seen_in_code {tokens : List Token} {p : Program} (h : parse tokens = .ok p) :
    (∃ us, us.map Use.token = tokens ∧ p.Uses us) ∧
      ∀ us, us.map Use.token = tokens → p.Uses us →
        (p.usesBits = true ↔ ∃ u ∈ us, u.spot = .code ∧ u.isBitSign = true) := by
  refine ⟨parse_uses h, ?_⟩
  intro us _ hus
  rw [← hus.any_worksOnBits, List.any_eq_true]
  simp [Use.worksOnBits]

namespace BitPrograms

/-- The tokens of a declaration with an operator on bits in its initializer. -/
def masked : List Token :=
  [⟨.keyword, "int", 1, 1⟩, ⟨.identifier, "x", 1, 5⟩, ⟨.operator, "=", 1, 7⟩,
    ⟨.literal, "6", 1, 9⟩, ⟨.operator, "&", 1, 11⟩, ⟨.literal, "3", 1, 13⟩,
    ⟨.punctuation, ";", 1, 14⟩]

/-- That declaration. -/
def mask : Program :=
  ⟨[.decl ⟨1, .int, [⟨1, "x", 0, .none,
    some (.expr (.binary 1 (.arith .bitAnd) (.literal 1 "6") (.literal 1 "3")))⟩]⟩]⟩

/-- The tokens of a program with an operator on bits in the size of an array. -/
def sized : List Token :=
  [⟨.keyword, "int", 1, 1⟩, ⟨.identifier, "main", 1, 5⟩, ⟨.punctuation, "(", 1, 9⟩,
    ⟨.punctuation, ")", 1, 10⟩, ⟨.punctuation, "\x7b", 1, 12⟩, ⟨.keyword, "int", 1, 14⟩,
    ⟨.identifier, "a", 1, 18⟩, ⟨.punctuation, "[", 1, 19⟩, ⟨.literal, "1", 1, 20⟩,
    ⟨.operator, "<<", 1, 22⟩, ⟨.literal, "2", 1, 25⟩, ⟨.punctuation, "]", 1, 26⟩,
    ⟨.punctuation, ";", 1, 27⟩, ⟨.keyword, "return", 1, 29⟩, ⟨.literal, "0", 1, 36⟩,
    ⟨.punctuation, ";", 1, 37⟩, ⟨.punctuation, "\x7d", 1, 39⟩]

/-- That program. -/
def size : Program :=
  ⟨[.function
    { line := 1, name := "main", returnType := .int, parameters := [], bodyLine := 1
      body :=
        [.decl ⟨1, .int, [⟨1, "a", 0,
          .sized (.binary 1 (.arith .shiftLeft) (.literal 1 "1") (.literal 1 "2")), none⟩]⟩,
          .ret 1 (some (.literal 1 "0"))] }]⟩

end BitPrograms

/-- Between operands `&` is seen. -/
theorem mask_is_seen :
    parse BitPrograms.masked = .ok BitPrograms.mask ∧
      ∃ us : List Use, us.map Use.token = BitPrograms.masked ∧
        ∃ u ∈ us, u.spot = .code ∧ u.isBitSign = true := by
  have hparse : parse BitPrograms.masked = .ok BitPrograms.mask := by decide +kernel
  obtain ⟨⟨us, htokens, hus⟩, hseen⟩ := bits_are_seen_in_code hparse
  exact ⟨hparse, us, htokens, (hseen us htokens hus).1 rfl⟩

/-- A shift in the size of an array is not seen, although it stands in no directive. -/
theorem shift_in_size_is_not_seen :
    tokenize "int main() \x7b int a[1 << 2]; return 0; \x7d" = BitPrograms.sized ∧
      parse BitPrograms.sized = .ok BitPrograms.size ∧
      (∃ t ∈ BitPrograms.sized, t.kind = .operator ∧ t.text = "<<") ∧
      (∀ t ∈ BitPrograms.sized, t.kind ≠ .preprocessor) ∧
      BitPrograms.size.usesBits = false :=
  ⟨Token.tokenize_of_chars rfl (by decide +kernel) (by decide), by decide +kernel, by decide, by decide, rfl⟩

end Stepwise
