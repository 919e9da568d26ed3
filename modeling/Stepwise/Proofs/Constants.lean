/-
Constant expressions.

The size in an array's brackets is evaluated in two places: for the layout of a struct it
is evaluated where nothing but macros and sizes are known, and for a variable it is
evaluated on the running machine. Both come to the same if the expression is closed, that
is, if it is made of literals, names and macros by operators that neither read nor change
an object, if the same holds of the bodies of its macros, and if no name that it looks for
is that of a variable. What is left of the evaluation on the machine are the steps that
show the macros with parameters.

In the body of a macro the parameters are bound, and a bound name is not looked for among
the variables, with one exception: the operand of a size is. So there a parameter with the
name of a variable has the size of that variable, whatever it stands for.
-/
import Stepwise.Proofs.Increments
import Stepwise.Proofs.Renaming
import Stepwise.Proofs.Settling
import Stepwise.Proofs.Tags
import Stepwise.Syntax.Equality
import Mathlib.Data.List.Permutation

set_option autoImplicit false

namespace Stepwise

/-! ## Closed expressions -/

namespace Expr

mutual

/-- The names that are looked for among variables and macros: the bound ones are not, unless they are
called. -/
def free (bound : List String) : Expr → List String
  | literal .. | sizeOfType .. => []
  | name _ n => if n ∈ bound then [] else [n]
  | call _ callee arguments => callee :: freeOf bound arguments
  | index _ array e => (if array ∈ bound then [] else [array]) ++ free bound e
  | member _ _ e _ | unary _ _ e | stepAfter _ _ e | cast _ _ e | sizeOf _ e => free bound e
  | binary _ _ left right | logic _ _ left right | assign _ _ left right =>
    free bound left ++ free bound right
  | conditional _ condition whenTrue whenFalse =>
    free bound condition ++ (free bound whenTrue ++ free bound whenFalse)

/-- The names in several expressions that are looked for. -/
def freeOf (bound : List String) : List Expr → List String
  | [] => []
  | e :: rest => free bound e ++ freeOf bound rest

end

mutual

/-- Is the expression made of literals, names, sizes and macros, by operators that neither read nor
change an object? -/
def isConstant (macros : Macros) : Expr → Bool
  | literal .. | name .. | sizeOfType .. => true
  | call _ callee arguments =>
    (macros.find? callee).any (fun m => m.parameters.isSome) && areConstant macros arguments
  | unary _ .plus e | unary _ .minus e | unary _ .not e | unary _ .complement e
  | cast _ _ e | sizeOf _ e => isConstant macros e
  | binary _ _ left right | logic _ _ left right =>
    isConstant macros left && isConstant macros right
  | conditional _ condition whenTrue whenFalse =>
    isConstant macros condition && (isConstant macros whenTrue && isConstant macros whenFalse)
  | unary .. | index .. | member .. | stepAfter .. | assign .. => false

/-- Are these expressions? -/
def areConstant (macros : Macros) : List Expr → Bool
  | [] => true
  | e :: rest => isConstant macros e && areConstant macros rest

end

/-- No part of an object is designated. -/
theorem not_designatesPart {macros : Macros} {e : Expr} (h : e.isConstant macros = true) :
    e.designatesPart = false := by
  cases e with
  | unary _ op _ => cases op <;> first | rfl | cases h
  | index | member => cases h
  | _ => rfl

/-- What is evaluated along with an expression, and the names that are bound for it: the expression
itself, and the bodies of the macros it comes to use. -/
inductive Expands (macros : Macros) (e : Expr) : List String → Expr → Prop
  | self : Expands macros e [] e
  | body {bound : List String} {f body : Expr} {name : String} {m : Macro}
      (h : Expands macros e bound f) (hname : name ∈ f.free bound)
      (hm : macros.find? name = some m) (hbody : m.expression = .ok body) :
      Expands macros e (m.parameters.getD []) body

/-- A list that has the expression and, with every entry, the bodies of its macros has all that is
evaluated along with the expression. -/
theorem Expands.mem {macros : Macros} {e f : Expr} {bound : List String}
    (h : e.Expands macros bound f) {all : List (List String × Expr)} (hself : ([], e) ∈ all)
    (hbody : ∀ entry ∈ all, ∀ name ∈ entry.2.free entry.1, ∀ m body, macros.find? name = some m →
      m.expression = .ok body → (m.parameters.getD [], body) ∈ all) : (bound, f) ∈ all := by
  induction h with
  | self => exact hself
  | body _ hname hm hread ih => exact hbody _ ih _ hname _ _ hm hread

/-- All that is evaluated along with the expression is constant, and nothing that it looks for among
the variables is there. The name of an object is looked for even if it is bound. -/
structure Closed (macros : Macros) (hidden : String → Prop) (e : Expr) : Prop where
  constant : ∀ {bound f}, e.Expands macros bound f → f.isConstant macros = true
  free : ∀ {bound f}, e.Expands macros bound f → ∀ n ∈ f.free bound, hidden n
  fixed : ∀ {bound f}, e.Expands macros bound f → ∀ n ∈ f.fixed, hidden n

end Expr

/-! ## A computation without surroundings and one on the machine -/

/-- On a machine that differs from `m` in its record only, the second computation comes to what the
first comes to without any surroundings, and it leaves such a machine. -/
structure Mirrors {α : Type} (m : Machine) (c : Eval Unit α) (d : Run α) : Prop where
  ok : ∀ {a m₁}, m.SameEffects m₁ → c () = .ok (a, ()) →
    ∃ m₂, m.SameEffects m₂ ∧ d m₁ = .ok (a, m₂)
  error : ∀ {fault m₁}, m.SameEffects m₁ → c () = .error fault → d m₁ = .error fault

namespace Mirrors

variable {α β : Type} {m : Machine}

theorem pure (a : α) : Mirrors m (Pure.pure a) (Pure.pure a) where
  ok hm h := by
    obtain ⟨rfl, _⟩ := Eval.pure_eq_ok.1 h
    exact ⟨_, hm, rfl⟩
  error _ h := by cases h

theorem lift (r : Except Fault α) : Mirrors m (Eval.lift r) (Eval.lift r) := by
  cases r with
  | ok a => exact .pure a
  | error fault =>
    exact
      { ok := fun _ h => by cases h
        error := fun _ h => by
          obtain rfl := Except.error.inj h
          rfl }

/-- What follows may count on what has been found. -/
theorem bind_of {c : Eval Unit α} {d : Run α} {k : α → Eval Unit β} {l : α → Run β}
    (h : Mirrors m c d) (hk : ∀ a, c () = .ok (a, ()) → Mirrors m (k a) (l a)) :
    Mirrors m (c >>= k) (d >>= l) where
  ok hm hb := by
    obtain ⟨a, ⟨⟩, ha, hb⟩ := Eval.bind_eq_ok.1 hb
    obtain ⟨m₂, hm₂, hd⟩ := h.ok hm ha
    obtain ⟨m₃, hm₃, hl⟩ := (hk a ha).ok hm₂ hb
    exact ⟨m₃, hm₃, Eval.bind_eq_ok.2 ⟨a, m₂, hd, hl⟩⟩
  error {fault m₁} hm hb := by
    cases hc : c () with
    | error other =>
      rw [Eval.bind_eq_error hc] at hb
      obtain rfl := Except.error.inj hb
      exact Eval.bind_eq_error (h.error hm hc)
    | ok found =>
      obtain ⟨a, ⟨⟩⟩ := found
      obtain ⟨m₂, hm₂, hd⟩ := h.ok hm hc
      have hk' : k a () = .error fault := by
        have heq : (c >>= k) () = (c () >>= fun p => k p.1 p.2) := rfl
        rw [heq, hc] at hb
        exact hb
      show (d m₁ >>= fun p => l p.1 p.2) = _
      rw [hd]
      exact (hk a hc).error hm₂ hk'

theorem bind {c : Eval Unit α} {d : Run α} {k : α → Eval Unit β} {l : α → Run β}
    (h : Mirrors m c d) (hk : ∀ a, Mirrors m (k a) (l a)) : Mirrors m (c >>= k) (d >>= l) :=
  h.bind_of fun a _ => hk a

theorem lift_bind {r : Except Fault α} {k : α → Eval Unit β} {l : α → Run β}
    (hk : ∀ a, r = .ok a → Mirrors m (k a) (l a)) :
    Mirrors m (Eval.lift r >>= k) (Eval.lift r >>= l) :=
  (lift r).bind_of fun a ha => hk a (Eval.lift_eq_ok.1 ha).1

theorem map {c : Eval Unit α} {d : Run α} (f : α → β) (h : Mirrors m c d) :
    Mirrors m (f <$> c) (f <$> d) := by
  rw [map_eq_pure_bind, map_eq_pure_bind]
  exact h.bind fun a => .pure (f a)

/-- On a machine that holds nothing back, a step without a change is no more than a record. -/
theorem emit (setup : Setup) (hidle : m.hasPending = false) (kind : StepKind) (line : Int)
    (description : String) :
    Mirrors m (Pure.pure ()) (Run.emit setup kind line description) where
  ok hm _ := by
    obtain ⟨m₂, hemit, hsame⟩ := Machine.emit_nothing (hm.hasPending.trans hidle) kind
      (setup.analysis.clamp line) description
    exact ⟨m₂, hm.trans hsame, Run.emit_eq_ok.2 hemit⟩
  error _ h := by cases h

end Mirrors

/-! ## Evaluation -/

section Evaluation

variable {setup : Setup} {call : Caller} {m : Machine}

/-- The surroundings of constant expressions in this program. -/
abbrev Setup.constants (setup : Setup) : Host Unit :=
  constantHost setup.analysis.macros setup.analysis.sizes

theorem find_constants {name : String} {found : Option Place}
    (h : setup.constants.find name () = .ok (found, ())) : found = none :=
  (Prod.mk.injEq .. ▸ Except.ok.inj h).1.symm

theorem find_mirrors {name : String} (h : m.lookup name = none) :
    Mirrors m (setup.constants.find name) ((machineHost setup call).find name) where
  ok {a m₁} hm ha := by
    obtain ⟨rfl, _⟩ := Prod.mk.injEq .. ▸ Except.ok.inj ha
    obtain ⟨steps, journal, rfl⟩ := hm
    refine ⟨_, ⟨steps, journal, rfl⟩, ?_⟩
    show Except.ok (m.lookup name, _) = _
    rw [h]
    rfl
  error _ ha := by cases ha

/-- The bodies that the names stand for are evaluated alike, with the parameters bound. -/
def ExpandsMirrored (m : Machine) (macros : Macros) (x : Expand Unit) (y : Expand Machine)
    (name : String) : Prop :=
  ∀ {mac body}, macros.find? name = some mac → mac.expression = .ok body →
    ∀ {scope : Scope}, scope.Binds (mac.parameters.getD []) → Mirrors m (x scope body) (y scope body)

theorem valueMacro?_eq_some {σ : Type} {h : Host σ} {name : String} {mac : Macro}
    (hmac : h.valueMacro? name = some mac) :
    h.macros.find? name = some mac ∧ mac.parameters = none := by
  unfold Host.valueMacro? at hmac
  cases hfind : h.macros.find? name with
  | none =>
    rw [hfind] at hmac
    cases hmac
  | some found =>
    rw [hfind] at hmac
    dsimp only at hmac
    split at hmac
    · next hnone =>
      obtain rfl := Option.some.inj hmac
      exact ⟨rfl, Option.isNone_iff_eq_none.1 hnone⟩
    · cases hmac

variable {x : Expand Unit} {y : Expand Machine} {scope : Scope} {bound : List String}

theorem nameValue_mirrors (hscope : scope.Binds bound) {line : Nat} {n : String}
    (hfree : ∀ n' ∈ (Expr.name line n).free bound, m.lookup n' = none)
    (hx : ∀ n' ∈ (Expr.name line n).free bound, ExpandsMirrored m setup.analysis.macros x y n') :
    Mirrors m (setup.constants.nameValue x scope n) ((machineHost setup call).nameValue y scope n) := by
  unfold Host.nameValue
  cases hbound : scope.lookup n with
  | some v => exact .pure v
  | none =>
    have hn : n ∈ (Expr.name line n).free bound := by
      rw [Expr.free, if_neg fun hmem => hscope n hmem hbound]
      exact List.mem_singleton_self n
    refine (find_mirrors (hfree n hn)).bind_of fun found hfound => ?_
    obtain rfl := find_constants hfound
    have hsame : setup.constants.valueMacro? n = (machineHost setup call).valueMacro? n := rfl
    rw [hsame]
    cases hmac : (machineHost setup call).valueMacro? n with
    | some mac =>
      obtain ⟨hfind, hvalue⟩ := valueMacro?_eq_some hmac
      refine .lift_bind fun body hbody => hx n hn hfind hbody ?_
      rw [hvalue]
      exact fun _ hmem => absurd hmem (List.not_mem_nil)
    | none =>
      dsimp only
      split
      · exact .pure _
      · split
        · exact .pure _
        · exact .lift _

mutual

theorem eval_mirrors (hidle : m.hasPending = false) (hscope : scope.Binds bound) {e : Expr}
    (hconstant : e.isConstant setup.analysis.macros = true)
    (hfree : ∀ n ∈ e.free bound, m.lookup n = none) (hfixed : ∀ n ∈ e.fixed, m.lookup n = none)
    (hx : ∀ n ∈ e.free bound, ExpandsMirrored m setup.analysis.macros x y n) :
    Mirrors m (eval setup.constants x scope e) (eval (machineHost setup call) y scope e) := by
  match e with
  | .literal _ text =>
    rw [eval, eval]
    exact .lift _
  | .name line n =>
    rw [eval, eval]
    exact nameValue_mirrors hscope hfree hx
  | .conditional _ condition whenTrue whenFalse =>
    simp only [Expr.isConstant, Bool.and_eq_true] at hconstant
    simp only [Expr.free, Expr.fixed, List.forall_mem_append] at hfree hfixed hx
    rw [eval, eval]
    refine (eval_mirrors hidle hscope hconstant.1 hfree.1 hfixed.1 hx.1).bind fun c => ?_
    refine (Mirrors.lift _).bind fun holds => ?_
    cases holds with
    | true => exact eval_mirrors hidle hscope hconstant.2.1 hfree.2.1 hfixed.2.1 hx.2.1
    | false => exact eval_mirrors hidle hscope hconstant.2.2 hfree.2.2 hfixed.2.2 hx.2.2
  | .logic _ op left right =>
    simp only [Expr.isConstant, Bool.and_eq_true] at hconstant
    simp only [Expr.free, Expr.fixed, List.forall_mem_append] at hfree hfixed hx
    rw [eval, eval]
    refine (eval_mirrors hidle hscope hconstant.1 hfree.1 hfixed.1 hx.1).bind fun l => ?_
    refine (Mirrors.lift _).bind fun holds => ?_
    split
    · exact .pure _
    · exact .pure _
    · refine (eval_mirrors hidle hscope hconstant.2 hfree.2 hfixed.2 hx.2).bind fun r => ?_
      exact (Mirrors.lift _).bind fun _ => .pure _
  | .binary _ op left right =>
    simp only [Expr.isConstant, Bool.and_eq_true] at hconstant
    simp only [Expr.free, Expr.fixed, List.forall_mem_append] at hfree hfixed hx
    rw [eval, eval]
    refine (eval_mirrors hidle hscope hconstant.1 hfree.1 hfixed.1 hx.1).bind fun l => ?_
    exact (eval_mirrors hidle hscope hconstant.2 hfree.2 hfixed.2 hx.2).bind fun r => .lift _
  | .unary _ .minus operand | .unary _ .not operand | .unary _ .complement operand
  | .unary _ .plus operand =>
    rw [Expr.isConstant] at hconstant
    rw [Expr.free] at hfree hx
    rw [Expr.fixed] at hfixed
    rw [eval, eval]
    · exact (eval_mirrors hidle hscope hconstant hfree hfixed hx).bind fun v => .lift _
    all_goals simp
  | .cast _ type operand =>
    rw [Expr.isConstant] at hconstant
    rw [Expr.free] at hfree hx
    rw [Expr.fixed] at hfixed
    rw [eval, eval]
    refine (eval_mirrors hidle hscope hconstant hfree hfixed hx).bind fun v => ?_
    exact (Mirrors.lift _).bind fun _ => .pure _
  | .sizeOfType _ type =>
    rw [eval, eval]
    exact (Mirrors.lift _).bind fun _ => .pure _
  | .sizeOf _ operand =>
    rw [Expr.isConstant] at hconstant
    rw [Expr.free] at hfree hx
    rw [Expr.fixed, List.forall_mem_append] at hfixed
    rw [eval, eval]
    have hsize : ∀ type : CType, Mirrors m
        (do return (⟨.int (← Eval.lift (type.size setup.constants.sizes)), ⟨"size_t"⟩⟩ : Typed))
        (do return (⟨.int (← Eval.lift (type.size setup.constants.sizes)), ⟨"size_t"⟩⟩ : Typed)) :=
      fun type => (Mirrors.lift _).bind fun _ => .pure _
    -- a constant operand is no part of an object, so its value is measured
    have hpart : ¬operand.designatesPart = true := by
      rw [Expr.not_designatesPart hconstant]
      decide
    have hmeasured : Mirrors m (Typed.type <$> eval setup.constants x scope operand)
        (Typed.type <$> eval (machineHost setup call) y scope operand) :=
      (eval_mirrors hidle hscope hconstant hfree hfixed.2 hx).map Typed.type
    cases hname : operand.name? with
    | none =>
      refine (Mirrors.pure none).bind_of fun known hknown => ?_
      obtain rfl := (Eval.pure_eq_ok.1 hknown).1
      dsimp only
      rw [if_neg hpart, if_neg hpart]
      exact hmeasured.bind hsize
    | some n =>
      refine (find_mirrors (hfixed.1 n (by simp [hname]))).bind_of fun known hknown => ?_
      obtain rfl := find_constants hknown
      dsimp only
      rw [if_neg hpart, if_neg hpart]
      exact hmeasured.bind hsize
  | .call line callee arguments =>
    rw [Expr.isConstant, Bool.and_eq_true, Option.any_eq_true] at hconstant
    rw [Expr.free, List.forall_mem_cons] at hfree hx
    rw [Expr.fixed, List.forall_mem_cons] at hfixed
    obtain ⟨⟨mac, hfind, hparameters⟩, harguments⟩ := hconstant
    obtain ⟨parameters, hparameters⟩ := Option.isSome_iff_exists.1 hparameters
    -- the callee of a constant call is a macro, and both hosts find the same one
    have hmacro : ∀ {σ : Type} {h : Host σ}, h.macros = setup.analysis.macros →
        h.callMacro? callee = some (mac, parameters) := by
      intro σ h hmacros
      rw [Host.callMacro?, hmacros, hfind]
      dsimp only
      rw [hparameters]
      rfl
    rw [eval, eval, hmacro rfl, hmacro rfl]
    dsimp only
    split
    · exact .lift _
    · next hlength =>
      refine (Mirrors.emit setup hidle _ _ _).bind fun _ => ?_
      refine (evalAll_mirrors hidle hscope harguments hfree.2 hfixed.2 hx.2).bind_of
        fun values hvalues => ?_
      refine .lift_bind fun body hbody => hx.1 hfind hbody ?_
      rw [hparameters]
      refine Scope.binds_bindParameters ?_
      rw [length_of_evalAll hvalues]
      omega
  | .unary _ .addressOf _ | .unary _ .deref _ | .unary _ (.step _) _ | .index .. | .member ..
  | .stepAfter .. | .assign .. =>
    cases hconstant

theorem evalAll_mirrors (hidle : m.hasPending = false) (hscope : scope.Binds bound)
    {es : List Expr} (hconstant : Expr.areConstant setup.analysis.macros es = true)
    (hfree : ∀ n ∈ Expr.freeOf bound es, m.lookup n = none)
    (hfixed : ∀ n ∈ Expr.fixedOf es, m.lookup n = none)
    (hx : ∀ n ∈ Expr.freeOf bound es, ExpandsMirrored m setup.analysis.macros x y n) :
    Mirrors m (evalAll setup.constants x scope es) (evalAll (machineHost setup call) y scope es) := by
  match es with
  | [] =>
    rw [evalAll, evalAll]
    exact .pure _
  | e :: rest =>
    rw [Expr.areConstant, Bool.and_eq_true] at hconstant
    rw [Expr.freeOf, List.forall_mem_append] at hfree hx
    rw [Expr.fixedOf, List.forall_mem_append] at hfixed
    rw [evalAll, evalAll]
    refine (eval_mirrors hidle hscope hconstant.1 hfree.1 hfixed.1 hx.1).bind fun v => ?_
    refine (evalAll_mirrors hidle hscope hconstant.2 hfree.2 hfixed.2 hx.2).bind fun more => ?_
    exact .pure _

end

/-- So is everything that is evaluated along with a closed expression, within the same budget. -/
theorem evalWithin_mirrors (hidle : m.hasPending = false) {e : Expr}
    (hclosed : e.Closed setup.analysis.macros fun n => m.lookup n = none) (budget : Nat) {f : Expr}
    (hf : e.Expands setup.analysis.macros bound f) (hscope : scope.Binds bound) :
    Mirrors m (evalWithin setup.constants budget scope f)
      (evalWithin (machineHost setup call) budget scope f) := by
  induction budget generalizing bound scope f with
  | zero => exact .lift (.error .endless)
  | succ budget ih =>
    refine eval_mirrors hidle hscope (hclosed.constant hf) (hclosed.free hf) (hclosed.fixed hf) ?_
    intro n hn mac body hmac hbody scope' hscope'
    exact ih (hf.body hn hmac hbody) hscope'

end Evaluation

/-- Without surroundings an expression is evaluated within a budget that all macros are counted in. -/
theorem evaluate_constantHost (macros : Macros) (sizes : StructSizes) (spare : Nat) (e : Expr) :
    evaluate (constantHost macros sizes) spare (Scope.apart []) e ()
      = evalWithin (constantHost macros sizes) (macros.length + spare) [] e () :=
  rfl

theorem evalConstant_of_ok {macros : Macros} {sizes : StructSizes} {spare : Nat} {e : Expr} {v : Typed}
    (h : evalWithin (constantHost macros sizes) (macros.length + spare) [] e () = .ok (v, ())) :
    evalConstant macros sizes [] e spare = .ok v := by
  rw [evalConstant, evaluate_constantHost, h]

theorem evalConstant_of_error {macros : Macros} {sizes : StructSizes} {spare : Nat} {e : Expr}
    {fault : Fault}
    (h : evalWithin (constantHost macros sizes) (macros.length + spare) [] e () = .error fault) :
    evalConstant macros sizes [] e spare = .error fault := by
  rw [evalConstant, evaluate_constantHost, h]

/-- **A closed expression means the same to the layout of a struct and to the running machine.** If
none of the names it looks for among the variables is there, then on a machine that holds nothing back
it has the value and the type, or the fault, that it has without any surroundings, and the machine is
left as it was, apart from its record. -/
theorem closed_expressions_are_constant {setup : Setup} {m : Machine} {e : Expr}
    (hidle : m.hasPending = false)
    (hclosed : e.Closed setup.analysis.macros fun n => m.lookup n = none) (call : Caller) :
    (∃ v m', evalConstant setup.analysis.macros setup.analysis.sizes [] e setup.analysis.spare = .ok v ∧
      evaluateWith setup call [] e m = .ok (v, m') ∧ m.SameEffects m') ∨
    (∃ fault,
      evalConstant setup.analysis.macros setup.analysis.sizes [] e setup.analysis.spare
        = .error fault ∧
      evaluateWith setup call [] e m = .error fault) := by
  have hbinds : Scope.Binds [] [] := fun _ hn => absurd hn List.not_mem_nil
  have hmirrors : Mirrors m
      (evalWithin setup.constants (setup.analysis.macros.length + setup.analysis.spare) [] e)
      (evaluateWith setup call [] e) :=
    evalWithin_mirrors hidle hclosed _ .self hbinds
  cases hfound : evalWithin setup.constants (setup.analysis.macros.length + setup.analysis.spare) []
      e () with
  | ok found =>
    obtain ⟨v, ⟨⟩⟩ := found
    obtain ⟨m', hsame, hrun⟩ := hmirrors.ok (.refl m) hfound
    exact Or.inl ⟨v, m', evalConstant_of_ok hfound, hrun, hsame⟩
  | error fault =>
    exact Or.inr ⟨fault, evalConstant_of_error hfound, hmirrors.error (.refl m) hfound⟩

namespace Measured

/-- A program with macros whose parameter has the name of a variable. -/
def source : String :=
  "#define SQ(x) x * x\n#define SZ(x) sizeof(x)\ndouble x;\nint main() \x7b\n  return SZ(3);\n\x7d\n"

/-- Its tokens. -/
def tokens : List Token :=
  [⟨.preprocessor, "#define", 1, 1⟩, ⟨.identifier, "SQ", 1, 9⟩, ⟨.literal, "(x) x * x", 1, 11⟩,
    ⟨.preprocessor, "#define", 2, 1⟩, ⟨.identifier, "SZ", 2, 9⟩, ⟨.literal, "(x) sizeof(x)", 2, 11⟩,
    ⟨.keyword, "double", 3, 1⟩, ⟨.identifier, "x", 3, 8⟩, ⟨.punctuation, ";", 3, 9⟩,
    ⟨.keyword, "int", 4, 1⟩, ⟨.identifier, "main", 4, 5⟩, ⟨.punctuation, "(", 4, 9⟩,
    ⟨.punctuation, ")", 4, 10⟩, ⟨.punctuation, "\x7b", 4, 12⟩, ⟨.keyword, "return", 5, 3⟩,
    ⟨.identifier, "SZ", 5, 10⟩, ⟨.punctuation, "(", 5, 12⟩, ⟨.literal, "3", 5, 13⟩,
    ⟨.punctuation, ")", 5, 14⟩, ⟨.punctuation, ";", 5, 15⟩, ⟨.punctuation, "\x7d", 6, 1⟩]

/-- The square of three, by the macro for it. -/
def square : Expr := .call 5 "SQ" [.literal 5 "3"]

/-- The size of three, by the macro for it. -/
def size : Expr := .call 5 "SZ" [.literal 5 "3"]

/-- The program. -/
def program : Program :=
  ⟨[.directive ⟨1, "#define", ["SQ", "(x) x * x"]⟩, .directive ⟨2, "#define", ["SZ", "(x) sizeof(x)"]⟩,
    .decl ⟨3, ⟨"double"⟩, [⟨3, "x", 0, .none, none⟩]⟩,
    .function ⟨4, "main", .int, [], 4, [.ret 5 (some size)]⟩]⟩

/-- Its macros. -/
def macros : Macros :=
  [("SQ", ⟨"SQ", some ["x"], "x * x", 1⟩), ("SZ", ⟨"SZ", some ["x"], "sizeof(x)", 2⟩)]

/-- What is known about it. -/
def analysis : Analysis where
  program := program
  source := source
  tokens := tokens
  lines := Text.lines source
  macros := macros
  layouts := []

/-- What it runs under. -/
def setup : Setup := ⟨analysis, {}⟩

theorem parse_tokens : parse tokens = .ok program := by
  decide +kernel

/-- The tokens of the text, and the macros it defines. -/
theorem readings : tokenize source = tokens ∧ program.macros (Text.lines source) = macros := by
  have hsource : source = String.ofList _ := rfl
  refine ⟨Token.tokenize_of_chars hsource (by decide +kernel) (by decide), ?_⟩
  rw [Text.lines_of_chars hsource]
  decide +kernel

theorem analyze_program : analyze program source tokens = .ok analysis :=
  analyze_of_layouts readings.2 rfl

/-- How the expressions of its main function are evaluated. -/
def evaluateInMain : Expr → Run Typed :=
  evaluateWith setup (callAt setup noCommentary 1) []

/-- The machine on which the variable has been declared. -/
def declared : Except Fault Machine := do
  let (_, m) ← declareGlobals setup evaluateInMain (Machine.start {})
  return m

/-- The machine holds nothing back, and it knows the variable and no other name. -/
def sees (m : Machine) : Bool :=
  !m.hasPending && (m.lookup "SQ").isNone && (m.lookup "SZ").isNone &&
    (m.lookup "x").map Place.type == some ⟨"double"⟩

theorem declared_sees :
    (match declared with
      | .ok m => sees m
      | .error _ => false) = true := by
  decide +kernel

/-- What is read of the bodies of the two macros. -/
theorem expressions :
    (Macro.mk "SQ" (some ["x"]) "x * x" 1).expression
      = .ok (.binary 1 (.arith .mul) (.name 1 "x") (.name 1 "x")) ∧
    (Macro.mk "SZ" (some ["x"]) "sizeof(x)" 2).expression = .ok (.sizeOf 1 (.name 1 "x")) := by
  have hsquare : tokenize "x * x"
      = [⟨.identifier, "x", 1, 1⟩, ⟨.operator, "*", 1, 3⟩, ⟨.identifier, "x", 1, 5⟩] :=
    Token.tokenize_of_chars rfl (by decide +kernel) (by decide)
  have hsize : tokenize "sizeof(x)"
      = [⟨.keyword, "sizeof", 1, 1⟩, ⟨.punctuation, "(", 1, 7⟩, ⟨.identifier, "x", 1, 8⟩,
        ⟨.punctuation, ")", 1, 9⟩] :=
    Token.tokenize_of_chars rfl (by decide +kernel) (by decide)
  rw [Macro.expression, Macro.expression, if_neg (by decide), if_neg (by decide), hsquare, hsize]
  constructor <;> decide +kernel

/-- With the parameter bound to three, the body of a macro is evaluated. -/
theorem evalWithin_call {σ : Type} {h : Host σ} (hmacros : h.macros = macros) {name : String}
    {mac : Macro} (hfind : macros.find? name = some mac) (hparameters : mac.parameters = some ["x"])
    {body : Expr} (hbody : mac.expression = .ok body) {s s' : σ}
    (hnote : h.noteMacro mac.name (mac.substitute [("x", "3")]) 5 s = .ok ((), s')) (budget : Nat) :
    evalWithin h (budget + 2) [] (.call 5 name [.literal 5 "3"]) s
      = evalWithin h (budget + 1) [("x", ⟨.int 3, .int⟩)] body s' := by
  have hmacro : h.callMacro? name = some (mac, ["x"]) := by
    rw [Host.callMacro?, hmacros, hfind]
    dsimp only
    rw [hparameters]
    rfl
  rw [evalWithin, eval, hmacro]
  dsimp only
  rw [if_neg (by decide), hbody]
  show ((h.noteMacro mac.name (mac.substitute [("x", "3")]) 5 s).bind fun _ => _) = _
  rw [hnote]
  rfl

theorem evalWithin_square {σ : Type} {h : Host σ} {s : σ} (budget : Nat) :
    evalWithin h (budget + 1) [("x", ⟨.int 3, .int⟩)]
      (.binary 1 (.arith .mul) (.name 1 "x") (.name 1 "x")) s = .ok (⟨.int 9, .int⟩, s) :=
  rfl

/-- A size is that of the variable if there is one, and else that of the parameter. -/
theorem evalWithin_size {σ : Type} {h : Host σ} {s : σ} {n : Int}
    (hsize : (((h.lookup "x" s).map Place.type).getD .int).size h.sizes = .ok n) (budget : Nat) :
    evalWithin h (budget + 1) [("x", ⟨.int 3, .int⟩)] (.sizeOf 1 (.name 1 "x")) s
      = .ok (⟨.int n, ⟨"size_t"⟩⟩, s) := by
  rw [evalWithin, eval]
  refine Eval.bind_eq_ok.2 ⟨h.lookup "x" s, s, rfl, ?_⟩
  cases hfound : h.lookup "x" s with
  | some p =>
    rw [hfound] at hsize
    exact Eval.bind_eq_ok.2 ⟨p.type, s, rfl,
      Eval.bind_eq_ok.2 ⟨n, s, Eval.lift_eq_ok.2 ⟨hsize, rfl⟩, rfl⟩⟩
  | none =>
    rw [hfound] at hsize
    exact Eval.bind_eq_ok.2 ⟨.int, s, rfl,
      Eval.bind_eq_ok.2 ⟨n, s, Eval.lift_eq_ok.2 ⟨hsize, rfl⟩, rfl⟩⟩

/-- Along with a call of a macro, its body is evaluated. -/
theorem expands_call {name : String} {mac : Macro} (hfind : macros.find? name = some mac)
    (hparameters : mac.parameters = some ["x"]) {body : Expr} (hbody : mac.expression = .ok body)
    (hfree : body.free ["x"] = []) {bound : List String} {f : Expr}
    (h : (Expr.call 5 name [.literal 5 "3"]).Expands macros bound f) :
    (bound, f) = ([], .call 5 name [.literal 5 "3"]) ∨ (bound, f) = (["x"], body) := by
  have hmem : (bound, f) ∈ [([], .call 5 name [.literal 5 "3"]), (["x"], body)] := by
    refine h.mem List.mem_cons_self ?_
    rintro entry hentry called hcalled m body' hm hbody'
    rcases List.mem_cons.1 hentry with rfl | hentry
    · obtain rfl : called = name := List.mem_singleton.1 hcalled
      obtain rfl := Option.some.inj (hfind.symm.trans hm)
      obtain rfl := Except.ok.inj (hbody.symm.trans hbody')
      rw [hparameters]
      exact List.mem_cons_of_mem _ List.mem_cons_self
    · obtain rfl := List.mem_singleton.1 hentry
      rw [hfree] at hcalled
      cases hcalled
  rcases List.mem_cons.1 hmem with h | h
  · exact Or.inl h
  · exact Or.inr (List.mem_singleton.1 h)

theorem square_closed {m : Machine} (hm : m.lookup "SQ" = none) :
    square.Closed macros fun n => m.lookup n = none := by
  have hall := @expands_call "SQ" _ rfl rfl _ expressions.1 rfl
  constructor
  · intro bound f hf
    rcases hall hf with h | h <;> obtain ⟨rfl, rfl⟩ := Prod.mk.injEq .. ▸ h <;> rfl
  · intro bound f hf n hn
    rcases hall hf with h | h <;> obtain ⟨rfl, rfl⟩ := Prod.mk.injEq .. ▸ h
    · rwa [List.mem_singleton.1 hn]
    · cases hn
  · intro bound f hf n hn
    rcases hall hf with h | h <;> obtain ⟨rfl, rfl⟩ := Prod.mk.injEq .. ▸ h
    · rwa [List.mem_singleton.1 hn]
    · cases hn

/-- The machine on which the variable has been declared. -/
theorem exists_declared :
    ∃ m, declareGlobals setup evaluateInMain (Machine.start {}) = .ok ((), m) ∧
      m.hasPending = false ∧ m.lookup "SQ" = none ∧ m.lookup "SZ" = none ∧
      (m.lookup "x").map Place.type = some ⟨"double"⟩ := by
  have hsees := declared_sees
  cases hdeclared : declared with
  | error fault =>
    rw [hdeclared] at hsees
    cases hsees
  | ok m =>
    rw [hdeclared] at hsees
    obtain ⟨⟨_, m₁⟩, hrun, hdone⟩ := bind_eq_ok.1 hdeclared
    obtain rfl := Except.ok.inj hdone
    simp only [sees, Bool.and_eq_true, Bool.not_eq_true', Option.isNone_iff_eq_none,
      beq_iff_eq] at hsees
    obtain ⟨⟨⟨hidle, hsquare⟩, hsize⟩, htype⟩ := hsees
    exact ⟨m₁, hrun, hidle, hsquare, hsize, htype⟩

end Measured

/-- The square of three is nine for the layout of a struct and on the machine, although there is a
variable with the name of the parameter. -/
theorem square_is_constant :
    parse (tokenize Measured.source) = .ok Measured.program ∧
    analyze Measured.program Measured.source (tokenize Measured.source) = .ok Measured.analysis ∧
    ∃ m m', declareGlobals Measured.setup Measured.evaluateInMain (Machine.start {}) = .ok ((), m) ∧
      m.hasPending = false ∧ Measured.square.Closed Measured.macros (fun n => m.lookup n = none) ∧
      (m.lookup "x").map Place.type = some ⟨"double"⟩ ∧
      evalConstant Measured.macros [] [] Measured.square = .ok ⟨.int 9, .int⟩ ∧
      Measured.evaluateInMain Measured.square m = .ok (⟨.int 9, .int⟩, m') ∧ m.SameEffects m' := by
  obtain ⟨m, hdeclared, hidle, hsquare, _, htype⟩ := Measured.exists_declared
  have hclosed := Measured.square_closed hsquare
  have hconstant : evalConstant Measured.macros [] [] Measured.square = .ok ⟨.int 9, .int⟩ := by
    have hfound : evalWithin (constantHost Measured.macros []) (2 + 1000) [] Measured.square ()
        = .ok (⟨.int 9, .int⟩, ()) :=
      (Measured.evalWithin_call rfl rfl rfl Measured.expressions.1 rfl 1000).trans
        (Measured.evalWithin_square 1000)
    exact evalConstant_of_ok hfound
  rcases @closed_expressions_are_constant Measured.setup m _ hidle hclosed
    (callAt Measured.setup noCommentary 1) with ⟨v, m', hv, hrun, hsame⟩ | ⟨fault, hfault, _⟩
  · obtain rfl := Except.ok.inj (hconstant.symm.trans hv)
    refine ⟨?_, ?_, m, m', hdeclared, hidle, hclosed, htype, hconstant, hrun, hsame⟩
    · rw [Measured.readings.1]
      exact Measured.parse_tokens
    · rw [Measured.readings.1]
      exact Measured.analyze_program
  · cases hconstant.symm.trans hfault

/-- The size of three is that of an integer for the layout of a struct; on the machine it is the size
of the variable that has the name of the parameter. -/
theorem measured_parameter_is_no_constant :
    parse (tokenize Measured.source) = .ok Measured.program ∧
    analyze Measured.program Measured.source (tokenize Measured.source) = .ok Measured.analysis ∧
    ∃ m m', declareGlobals Measured.setup Measured.evaluateInMain (Machine.start {}) = .ok ((), m) ∧
      m.hasPending = false ∧
      (∀ {bound f}, Measured.size.Expands Measured.macros bound f →
        f.isConstant Measured.macros = true ∧ ∀ n ∈ f.free bound, m.lookup n = none) ∧
      evalConstant Measured.macros [] [] Measured.size = .ok ⟨.int 4, ⟨"size_t"⟩⟩ ∧
      Measured.evaluateInMain Measured.size m = .ok (⟨.int 8, ⟨"size_t"⟩⟩, m') := by
  obtain ⟨m, hdeclared, hidle, _, hname, htype⟩ := Measured.exists_declared
  have hconstant : evalWithin (constantHost Measured.macros []) (2 + 1000) [] Measured.size ()
      = .ok (⟨.int 4, ⟨"size_t"⟩⟩, ()) :=
    (Measured.evalWithin_call rfl rfl rfl Measured.expressions.2 rfl 1000).trans
      (Measured.evalWithin_size (by decide +kernel) 1000)
  -- the expansion is noted in a step of its own, which leaves the variables alone
  have hnote : Mirrors m (pure ())
      ((machineHost Measured.setup (callAt Measured.setup noCommentary 1)).noteMacro "SZ"
        ((Macro.mk "SZ" (some ["x"]) "sizeof(x)" 2).substitute [("x", "3")]) 5) :=
    .emit _ hidle _ _ _
  obtain ⟨m', ⟨steps, journal, hm'⟩, hemit⟩ := hnote.ok (.refl m) rfl
  have hlookup : (m'.lookup "x").map Place.type = some ⟨"double"⟩ := by
    rw [hm']
    exact htype
  -- the variable with the name of the parameter is of eight bytes
  have hsize : (((m'.lookup "x").map Place.type).getD .int).size [] = .ok 8 := by
    rw [hlookup]
    decide +kernel
  have hrun : evalWithin (machineHost Measured.setup (callAt Measured.setup noCommentary 1))
      (2 + 1000) [] Measured.size m = .ok (⟨.int 8, ⟨"size_t"⟩⟩, m') :=
    (Measured.evalWithin_call rfl rfl rfl Measured.expressions.2 hemit 1000).trans
      (Measured.evalWithin_size hsize 1000)
  refine ⟨?_, ?_, m, m', hdeclared, hidle, ?_, evalConstant_of_ok hconstant, hrun⟩
  · rw [Measured.readings.1]
    exact Measured.parse_tokens
  · rw [Measured.readings.1]
    exact Measured.analyze_program
  · intro bound f hf
    rcases Measured.expands_call rfl rfl Measured.expressions.2 rfl hf with h | h
    · obtain ⟨rfl, rfl⟩ := Prod.mk.injEq .. ▸ h
      refine ⟨rfl, fun n hn => ?_⟩
      rwa [List.mem_singleton.1 hn]
    · obtain ⟨rfl, rfl⟩ := Prod.mk.injEq .. ▸ h
      exact ⟨rfl, fun n hn => absurd hn List.not_mem_nil⟩

end Stepwise
