/-
Evaluation under other names.

The parameters of a macro are names that its body looks up among the bound ones. If
they are called something else, in the list of parameters and in the body, and the
values are bound under the new names, then the body is evaluated to the same: it
finds under the new name what it found under the old one. That is so as long as each
name means the same in both evaluations when it is not bound, and as long as the
names that are not looked up among the bound ones (those of called functions, and of
objects that are assigned to, stepped, measured or pointed at) have kept theirs.

One evaluation is held against the other here, for one expression and one pair of
scopes. What a name can lead to when it is not bound (a macro, a function) is left
to those who use it.
-/
import Stepwise.Proofs.Effect
import Stepwise.Proofs.Phrasing

set_option autoImplicit false

namespace Stepwise

/-! ## Other names -/

namespace Expr

mutual

/-- The expression under other names of variables, arrays and functions. -/
def rename (ρ : String → String) : Expr → Expr
  | literal line text => literal line text
  | name line n => name line (ρ n)
  | call line callee arguments => call line (ρ callee) (renameAll ρ arguments)
  | index line array position => index line (ρ array) (rename ρ position)
  | member line arrow object m => member line arrow (rename ρ object) m
  | unary line op operand => unary line op (rename ρ operand)
  | stepAfter line op operand => stepAfter line op (rename ρ operand)
  | cast line type operand => cast line type (rename ρ operand)
  | sizeOfType line type => sizeOfType line type
  | sizeOf line operand => sizeOf line (rename ρ operand)
  | binary line op left right => binary line op (rename ρ left) (rename ρ right)
  | logic line op left right => logic line op (rename ρ left) (rename ρ right)
  | conditional line condition whenTrue whenFalse =>
    conditional line (rename ρ condition) (rename ρ whenTrue) (rename ρ whenFalse)
  | assign line op target value => assign line op (rename ρ target) (rename ρ value)

/-- Several expressions under other names. -/
def renameAll (ρ : String → String) : List Expr → List Expr
  | [] => []
  | e :: rest => rename ρ e :: renameAll ρ rest

end

mutual

/-- The names that are not looked up among the bound ones: those of functions that are called, and
those that stand for an object themselves. -/
def fixed : Expr → List String
  | literal .. | name .. | sizeOfType .. => []
  | call _ callee arguments => callee :: fixedOf arguments
  | index _ _ e | member _ true e _ | cast _ _ e => fixed e
  | unary _ .deref e | unary _ .plus e | unary _ .minus e | unary _ .not e
  | unary _ .complement e => fixed e
  | member _ false e _ | unary _ .addressOf e | unary _ (.step _) e | stepAfter _ _ e
  | sizeOf _ e => e.name?.toList ++ fixed e
  | binary _ _ left right | logic _ _ left right => fixed left ++ fixed right
  | conditional _ condition whenTrue whenFalse =>
    fixed condition ++ (fixed whenTrue ++ fixed whenFalse)
  | assign _ _ target value => (target.name?.toList ++ fixed target) ++ fixed value

/-- The names in several expressions that are not looked up among the bound ones. -/
def fixedOf : List Expr → List String
  | [] => []
  | e :: rest => fixed e ++ fixedOf rest

end

variable {ρ : String → String}

theorem length_renameAll (es : List Expr) : (renameAll ρ es).length = es.length := by
  induction es with
  | nil => rw [renameAll]
  | cons e es ih => rw [renameAll, List.length_cons, ih, List.length_cons]

theorem name?_rename (e : Expr) : (e.rename ρ).name? = e.name?.map ρ := by
  cases e <;> rw [rename] <;> rfl

theorem designatesPart_rename (e : Expr) : (e.rename ρ).designatesPart = e.designatesPart := by
  cases e <;> rw [rename]
  case unary op _ => cases op <;> rfl
  all_goals rfl

mutual

theorem rename_id (e : Expr) : e.rename id = e := by
  cases e with
  | literal | sizeOfType => rw [rename]
  | name =>
    rw [rename]
    rfl
  | call _ _ arguments =>
    rw [rename, renameAll_id arguments]
    rfl
  | index _ _ e =>
    rw [rename, rename_id e]
    rfl
  | member _ _ e _ | unary _ _ e | stepAfter _ _ e | cast _ _ e | sizeOf _ e =>
    rw [rename, rename_id e]
  | binary _ _ left right | logic _ _ left right | assign _ _ left right =>
    rw [rename, rename_id left, rename_id right]
  | conditional _ condition whenTrue whenFalse =>
    rw [rename, rename_id condition, rename_id whenTrue, rename_id whenFalse]

theorem renameAll_id (es : List Expr) : renameAll id es = es := by
  match es with
  | [] => rw [renameAll]
  | e :: rest => rw [renameAll, rename_id e, renameAll_id rest]

end

theorem name?_toList_subset (e : Expr) : e.name?.toList ⊆ e.names := by
  cases e with
  | name _ n =>
    rw [names]
    exact List.Subset.refl _
  | _ => exact List.nil_subset _

theorem append_subset_append {a b c d : List String} (h : a ⊆ c) (h' : b ⊆ d) :
    a ++ b ⊆ c ++ d :=
  List.append_subset.2 ⟨List.subset_append_of_subset_left d h, List.subset_append_of_subset_right c h'⟩

mutual

/-- The names that are not looked up among the bound ones are names. -/
theorem fixed_subset (e : Expr) : e.fixed ⊆ e.names := by
  match e with
  | .literal .. | .name .. | .sizeOfType .. =>
    rw [fixed]
    exact List.nil_subset _
  | .call _ callee arguments =>
    rw [fixed, names]
    exact List.cons_subset_cons callee (fixedOf_subset arguments)
  | .index _ array e =>
    rw [fixed, names]
    exact List.subset_cons_of_subset array (fixed_subset e)
  | .member _ true e _ | .cast _ _ e | .unary _ .deref e | .unary _ .plus e | .unary _ .minus e
  | .unary _ .not e | .unary _ .complement e =>
    rw [fixed, names]
    exact fixed_subset e
  | .member _ false e _ | .unary _ .addressOf e | .unary _ (.step _) e | .stepAfter _ _ e
  | .sizeOf _ e =>
    rw [fixed, names]
    exact List.append_subset_of_subset_of_subset (name?_toList_subset e) (fixed_subset e)
  | .binary _ _ left right | .logic _ _ left right =>
    rw [fixed, names]
    exact append_subset_append (fixed_subset left) (fixed_subset right)
  | .conditional _ condition whenTrue whenFalse =>
    rw [fixed, names]
    exact append_subset_append (fixed_subset condition)
      (append_subset_append (fixed_subset whenTrue) (fixed_subset whenFalse))
  | .assign _ _ target value =>
    rw [fixed, names]
    refine append_subset_append ?_ (fixed_subset value)
    exact List.append_subset_of_subset_of_subset (name?_toList_subset target) (fixed_subset target)

theorem fixedOf_subset (es : List Expr) : fixedOf es ⊆ namesOf es := by
  match es with
  | [] =>
    rw [fixedOf]
    exact List.nil_subset _
  | e :: rest =>
    rw [fixedOf, namesOf]
    exact append_subset_append (fixed_subset e) (fixedOf_subset rest)

end

end Expr

/-! ## Bound names -/

section Bound

variable {ρ : String → String} {parameters : List String} {values : List Typed} {scope : Scope}

/-- What is bound is found in the scope. -/
abbrev Scope.Binds (scope : Scope) (bound : List String) : Prop :=
  ∀ n ∈ bound, scope.lookup n ≠ none

theorem Scope.binds_bindParameters (hlength : values.length = parameters.length) :
    (Host.bindParameters parameters values scope).Binds parameters := by
  intro n hn hnone
  obtain ⟨i, hi, rfl⟩ := List.getElem_of_mem hn
  rw [Host.bindParameters, List.lookup_eq_none_iff] at hnone
  have hmem : (parameters[i], values[i]) ∈ (parameters.zip values).reverse ++ scope := by
    refine List.mem_append_left _ (List.mem_reverse.2 (List.mem_iff_getElem.2 ⟨i, ?_, ?_⟩))
    · rw [List.length_zip]
      omega
    · exact List.getElem_zip
  simpa using hnone _ hmem

/-- What is bound does not hide other names. -/
theorem Scope.lookup_bindParameters_of_not_mem {n : String} (hn : n ∉ parameters) :
    (Host.bindParameters parameters values scope).lookup n = scope.lookup n := by
  rw [Host.bindParameters, List.lookup_append, List.lookup_eq_none_iff.2, Option.none_or]
  rintro ⟨x, v⟩ hmem
  have hx : x ∈ parameters := (List.of_mem_zip (List.mem_reverse.1 hmem)).1
  exact bne_iff_ne.2 fun h => hn (h ▸ hx)

/-- Under its new name an entry is found, if no other entry gets that name. -/
theorem Scope.lookup_map {n : String} (hapart : ∀ entry ∈ scope, ρ entry.1 = ρ n → entry.1 = n) :
    List.lookup (ρ n) (scope.map (Prod.map ρ id)) = List.lookup n scope := by
  induction scope with
  | nil => rfl
  | cons entry scope ih =>
    obtain ⟨x, v⟩ := entry
    rw [List.forall_mem_cons] at hapart
    rw [List.map_cons, Prod.map_apply, List.lookup_cons, List.lookup_cons, ih hapart.2]
    have hsame : (ρ n == ρ x) = (n == x) := by
      rw [Bool.eq_iff_iff, beq_iff_eq, beq_iff_eq]
      exact ⟨fun h => (hapart.1 h.symm).symm, fun h => h ▸ rfl⟩
    rw [hsame]
    rfl

/-- A parameter finds under its new name the value it is bound to, whatever else is bound. -/
theorem Scope.lookup_bindParameters_map {other : Scope} (hlength : values.length = parameters.length)
    (hapart : ∀ x ∈ parameters, ∀ y ∈ parameters, ρ x = ρ y → x = y) {n : String}
    (hn : n ∈ parameters) :
    (Host.bindParameters (parameters.map ρ) values other).lookup (ρ n)
      = (Host.bindParameters parameters values scope).lookup n := by
  have hbound : List.lookup n (parameters.zip values).reverse ≠ none := by
    have hbinds : List.lookup n (Host.bindParameters parameters values []) ≠ none :=
      Scope.binds_bindParameters hlength n hn
    rwa [Host.bindParameters, List.append_nil] at hbinds
  obtain ⟨v, hv⟩ := Option.ne_none_iff_exists'.1 hbound
  have hv' : List.lookup (ρ n) ((parameters.map ρ).zip values).reverse = some v := by
    rw [List.zip_map_left, ← List.map_reverse, Scope.lookup_map, hv]
    rintro ⟨x, _⟩ hmem
    exact hapart x (List.of_mem_zip (List.mem_reverse.1 hmem)).1 n hn
  rw [Host.bindParameters, Host.bindParameters, List.lookup_append, List.lookup_append, hv, hv']
  rfl

end Bound

/-! ## Evaluation -/

section Evaluation

variable {σ : Type} {L : Likeness σ}

/-- Two hosts that know the same, and are asked alike. Functions are called alike where their names
can be met under the two scopes; how an expansion is worded does not matter. -/
structure Host.Renamed (L : Likeness σ) (meets : Scope → Scope → String → Prop) (h g : Host σ) :
    Prop extends h.Serves L g where
  call : ∀ s t name arguments line, meets s t name →
    L.rel (h.call s name arguments line) (g.call t name arguments line)
  noteMacro : ∀ name text text' line,
    L.rel (h.noteMacro name text line) (g.noteMacro name text' line)

/-- The body of a macro, read and expanded. -/
def Macro.expanded (m : Macro) (x : Expand σ) (scope : Scope) : Eval σ Typed := do
  x scope (← Eval.lift m.expression)

/-- The macros that a name stands for under two scopes, if there are any, are of the same form and
are expanded alike. -/
inductive Expansion (L : Likeness σ) (x y : Expand σ) (s t : Scope) :
    Option Macro → Option Macro → Prop
  | none : Expansion L x y s t none none
  | value {m m' : Macro} (hm : m.parameters = none) (hm' : m'.parameters = none)
      (h : L.rel (m.expanded x s) (m'.expanded y t)) : Expansion L x y s t (some m) (some m')
  | call {m m' : Macro} {parameters parameters' : List String}
      (hm : m.parameters = some parameters) (hm' : m'.parameters = some parameters')
      (hname : m'.name = m.name) (hlength : parameters'.length = parameters.length)
      (h : ∀ values : List Typed, values.length = parameters.length →
        L.rel (m.expanded x (Host.bindParameters parameters values s))
          (m'.expanded y (Host.bindParameters parameters' values t))) :
      Expansion L x y s t (some m) (some m')

/-- A name, under its new name, finds what it found, and if it is not bound it has kept its name and
can be met. -/
def Seen (s t : Scope) (meets : String → Prop) (ρ : String → String) (name : String) : Prop :=
  s.lookup name = t.lookup (ρ name) ∧ (s.lookup name = none → ρ name = name ∧ meets name)

variable {meets : Scope → Scope → String → Prop} {h g : Host σ} {x y : Expand σ} {s t : Scope}
  {ρ : String → String}

/-- What the evaluation of several expressions gives has as many values. -/
theorem length_of_evalAll {es : List Expr} {values : List Typed} {u u' : σ}
    (hvalues : evalAll h x s es u = .ok (values, u')) : values.length = es.length := by
  induction es generalizing values u u' with
  | nil =>
    rw [evalAll] at hvalues
    obtain ⟨rfl, _⟩ := Eval.pure_eq_ok.1 hvalues
    rfl
  | cons e es ih =>
    rw [evalAll] at hvalues
    obtain ⟨v, u₁, _, hrest⟩ := Eval.bind_eq_ok.1 hvalues
    obtain ⟨more, u₂, hmore, hdone⟩ := Eval.bind_eq_ok.1 hrest
    obtain ⟨rfl, _⟩ := Eval.pure_eq_ok.1 hdone
    rw [List.length_cons, ih hmore, List.length_cons]

/-- So what follows may count on it. -/
theorem evalAll_bind {α : Type} (es : List Expr) (k : List Typed → Eval σ α) :
    evalAll h x s es >>= k = (do
      let values ← evalAll h x s es
      if values.length = es.length then k values else Eval.fail .badValue) := by
  funext u
  show Except.bind (evalAll h x s es u) _ = Except.bind (evalAll h x s es u) _
  cases hvalues : evalAll h x s es u with
  | error fault => rfl
  | ok found =>
    show k found.1 found.2 = (if found.1.length = es.length then k found.1 else _) found.2
    rw [if_pos (length_of_evalAll hvalues)]

theorem applyUnary_reworded (hL : L.Rewords) (op : UnaryOp) (e e' : Expr) (v : Typed) :
    L.rel (Eval.lift (Host.applyUnary op e v)) (Eval.lift (Host.applyUnary op e' v)) := by
  refine hL.lift ?_
  unfold Host.applyUnary
  split
  · exact .error rfl
  · exact .refl _

theorem nameValue_renamed (hh : h.Renamed L meets g) {name : String}
    (hseen : Seen s t (meets s t) ρ name)
    (hx : ∀ n, meets s t n → Expansion L x y s t (h.macros.find? n) (g.macros.find? n)) :
    L.rel (h.nameValue x s name) (g.nameValue y t (ρ name)) := by
  unfold Host.nameValue
  rw [← hseen.1]
  cases hbound : s.lookup name with
  | some bound => exact L.pure _
  | none =>
    obtain ⟨hkept, hmeets⟩ := hseen.2 hbound
    rw [hkept]
    refine L.bind (hh.find name) fun found => ?_
    cases found with
    | some p => exact load_alike hh.toServes p
    | none =>
      -- a name that is no macro of a value is one of two constants or unknown
      have hnone : L.rel
          (if name = "NULL" then return ⟨.int 0, ⟨"void*"⟩⟩
            else if name = "EOF" then return ⟨.int (-1), .int⟩
            else Eval.fail (.unknownIdentifier name) : Eval σ Typed)
          (if name = "NULL" then return ⟨.int 0, ⟨"void*"⟩⟩
            else if name = "EOF" then return ⟨.int (-1), .int⟩
            else Eval.fail (.unknownIdentifier name)) :=
        L.ite (fun _ => L.pure _) fun _ => L.ite (fun _ => L.pure _) fun _ => L.fail _ (by simp)
      have hexpansion := hx name hmeets
      dsimp only
      unfold Host.valueMacro?
      generalize h.macros.find? name = m, g.macros.find? name = m' at hexpansion
      cases hexpansion with
      | none => exact hnone
      | value hm hm' halike =>
        dsimp only
        rw [hm, hm']
        exact halike
      | call hm hm' =>
        dsimp only
        rw [hm, hm']
        exact hnone

theorem elementPlace_renamed (hh : h.Renamed L meets g) {array : String}
    (hseen : Seen s t (meets s t) ρ array)
    (hx : ∀ n, meets s t n → Expansion L x y s t (h.macros.find? n) (g.macros.find? n))
    {c d : Eval σ Typed} (hposition : L.rel c d) :
    L.rel (h.elementPlace x s array c) (g.elementPlace y t (ρ array) d) := by
  refine L.bind (nameValue_renamed hh hseen hx) fun _ => L.bind hposition fun _ => ?_
  rw [hh.sizes]
  exact L.lift (by simp)

/-- The expansion of a macro with parameters, or the call of a function, once its arguments are
evaluated alike. -/
theorem call_renamed (hh : h.Renamed L meets g) {callee : String} (hmeets : meets s t callee)
    (hx : ∀ n, meets s t n → Expansion L x y s t (h.macros.find? n) (g.macros.find? n))
    (line : Nat) {arguments arguments' : List Expr}
    (hlength : arguments'.length = arguments.length)
    (harguments : L.rel (evalAll h x s arguments) (evalAll g y t arguments')) :
    L.rel (eval h x s (.call line callee arguments)) (eval g y t (.call line callee arguments')) := by
  rw [eval, eval]
  have hexpansion := hx callee hmeets
  have hcall : L.rel (do h.call s callee (← evalAll h x s arguments) line)
      (do g.call t callee (← evalAll g y t arguments') line) :=
    L.bind harguments fun _ => hh.call _ _ _ _ _ hmeets
  unfold Host.callMacro?
  generalize h.macros.find? callee = m, g.macros.find? callee = m' at hexpansion
  cases hexpansion with
  | none => exact hcall
  | value hm hm' =>
    dsimp only
    rw [hm, hm']
    exact hcall
  | @call m m' parameters parameters' hm hm' hname hsame halike =>
    dsimp only
    rw [hm, hm']
    dsimp only [Option.map_some]
    rw [hname, hsame, hlength]
    refine L.ite (fun _ => L.fail _ (by simp)) fun harity => ?_
    refine L.bind (hh.noteMacro _ _ _ _) fun _ => ?_
    rw [evalAll_bind arguments, evalAll_bind arguments']
    refine L.bind harguments fun values => ?_
    rw [hlength]
    refine L.ite (fun hvalues => halike values ?_) fun _ => L.fail _ (by simp)
    rw [hvalues, Decidable.not_not.1 harity]

/-- The name under which an object is found is the same. -/
theorem namePlace_renamed (hh : h.Renamed L meets g) {name : String} (hkept : ρ name = name) :
    L.rel (h.namePlace name) (g.namePlace (ρ name)) := by
  rw [hkept]
  exact namePlace_alike hh.toServes name

mutual

/-- An expression is evaluated under other names to what it is evaluated to, if it finds the same
under them. The induction is on the expression. -/
theorem eval_renamed (hL : L.Rewords) (hh : h.Renamed L meets g)
    (hx : ∀ n, meets s t n → Expansion L x y s t (h.macros.find? n) (g.macros.find? n)) {e : Expr}
    (hn : ∀ n ∈ e.names, Seen s t (meets s t) ρ n) (hf : ∀ n ∈ e.fixed, ρ n = n ∧ meets s t n) :
    L.rel (eval h x s e) (eval g y t (e.rename ρ)) := by
  match e with
  | .literal _ text =>
    rw [Expr.rename, eval, eval]
    exact L.lift (by simp)
  | .name _ n =>
    rw [Expr.names, List.forall_mem_singleton] at hn
    rw [Expr.rename, eval, eval]
    exact nameValue_renamed hh hn hx
  | .assign _ op target value =>
    rw [Expr.names, List.forall_mem_append] at hn
    rw [Expr.fixed, List.forall_mem_append] at hf
    rw [Expr.rename, eval, eval]
    refine L.bind (place_renamed hL hh hx hn.1 hf.1) fun p =>
      L.bind (eval_renamed hL hh hx hn.2 hf.2) fun v => ?_
    -- what is stored is the same for all operators; only what comes before it differs
    have hstore : ∀ v : Typed, L.rel
        (do h.store p v.value; return (⟨← Eval.lift (v.value.coerce p.type), p.type⟩ : Typed))
        (do g.store p v.value; return (⟨← Eval.lift (v.value.coerce p.type), p.type⟩ : Typed)) :=
      fun v => L.bind (store_alike hh.toServes p v.value) fun _ =>
        L.bind (L.lift (by simp)) fun _ => L.pure _
    cases op with
    | none => exact L.bind (L.pure _) hstore
    | some op =>
      rw [← hh.sizes]
      exact L.bind (hh.read _) fun _ => L.bind (L.lift (by simp)) hstore
  | .conditional _ condition whenTrue whenFalse =>
    rw [Expr.names, List.forall_mem_append, List.forall_mem_append] at hn
    rw [Expr.fixed, List.forall_mem_append, List.forall_mem_append] at hf
    rw [Expr.rename, eval, eval]
    refine L.bind (eval_renamed hL hh hx hn.1 hf.1) fun c => L.bind (L.lift (by simp)) fun _ => ?_
    exact L.ite (fun _ => eval_renamed hL hh hx hn.2.1 hf.2.1) fun _ =>
      eval_renamed hL hh hx hn.2.2 hf.2.2
  | .logic _ op left right =>
    rw [Expr.names, List.forall_mem_append] at hn
    rw [Expr.fixed, List.forall_mem_append] at hf
    rw [Expr.rename, eval, eval]
    refine L.bind (eval_renamed hL hh hx hn.1 hf.1) fun l => L.bind (L.lift (by simp)) fun _ => ?_
    split
    · exact L.pure _
    · exact L.pure _
    · exact L.bind (eval_renamed hL hh hx hn.2 hf.2) fun r => L.bind (L.lift (by simp)) fun _ =>
        L.pure _
  | .binary _ op left right =>
    rw [Expr.names, List.forall_mem_append] at hn
    rw [Expr.fixed, List.forall_mem_append] at hf
    rw [Expr.rename, eval, eval, ← hh.sizes]
    exact L.bind (eval_renamed hL hh hx hn.1 hf.1) fun l =>
      L.bind (eval_renamed hL hh hx hn.2 hf.2) fun r => L.lift (by simp)
  | .unary _ .addressOf operand =>
    rw [Expr.names] at hn
    rw [Expr.fixed] at hf
    rw [Expr.rename, eval, eval]
    exact L.bind (place_renamed hL hh hx hn hf) fun p => L.pure _
  | .unary _ .deref operand =>
    rw [Expr.names] at hn
    rw [Expr.fixed] at hf
    rw [Expr.rename, eval, eval]
    exact L.bind (eval_renamed hL hh hx hn hf) fun pointer => L.bind (L.lift (by simp)) fun p =>
      load_alike hh.toServes p
  | .unary _ (.step op) operand =>
    rw [Expr.names] at hn
    rw [Expr.fixed] at hf
    rw [Expr.rename, eval, eval, hh.stepped]
    exact L.bind (place_renamed hL hh hx hn hf) fun p => L.bind (hh.read _) fun old =>
      L.bind (L.lift (by simp)) fun new => L.bind (store_alike hh.toServes p _) fun _ => L.pure _
  | .unary _ .minus operand | .unary _ .not operand | .unary _ .complement operand
  | .unary _ .plus operand =>
    rw [Expr.names] at hn
    rw [Expr.fixed] at hf
    rw [Expr.rename, eval, eval]
    · exact L.bind (eval_renamed hL hh hx hn hf) fun v => applyUnary_reworded hL _ _ _ v
    all_goals simp
  | .stepAfter _ op operand =>
    rw [Expr.names] at hn
    rw [Expr.fixed] at hf
    rw [Expr.rename, eval, eval, hh.stepped]
    exact L.bind (place_renamed hL hh hx hn hf) fun p => L.bind (hh.read _) fun old =>
      L.bind (L.lift (by simp)) fun new => L.bind (store_alike hh.toServes p _) fun _ => L.pure _
  | .cast _ type operand =>
    rw [Expr.names] at hn
    rw [Expr.fixed] at hf
    rw [Expr.rename, eval, eval]
    exact L.bind (eval_renamed hL hh hx hn hf) fun v => L.bind (L.lift (by simp)) fun _ => L.pure _
  | .sizeOfType _ type =>
    rw [Expr.rename, eval, eval, ← hh.sizes]
    exact L.bind (L.lift (by simp)) fun _ => L.pure _
  | .sizeOf _ operand =>
    rw [Expr.names] at hn
    rw [Expr.fixed] at hf
    -- the operand of a size is looked up as a variable, so its name is one that is kept
    have hknown : operand.name?.map ρ = operand.name? := by
      cases hname : operand.name? with
      | none => rfl
      | some n =>
        have hmem : n ∈ operand.name?.toList ++ operand.fixed := by
          rw [hname]
          exact List.mem_cons_self
        rw [Option.map_some, (hf n hmem).1]
    rw [Expr.rename, eval, eval, ← hh.sizes, Expr.name?_rename, Expr.designatesPart_rename, hknown]
    have hsize : ∀ type : CType, L.rel
        (do return (⟨.int (← Eval.lift (type.size h.sizes)), ⟨"size_t"⟩⟩ : Typed))
        (do return (⟨.int (← Eval.lift (type.size h.sizes)), ⟨"size_t"⟩⟩ : Typed)) := fun type =>
      L.bind (L.lift (by simp)) fun _ => L.pure _
    have hvalue := eval_renamed hL hh hx hn (List.forall_mem_append.1 hf).2
    split
    case' h_1 => refine L.bind (hh.find _) ?_
    case' h_2 => refine L.bind (L.pure _) ?_
    all_goals
      -- a variable, a part of one, or else something whose value is measured
      intro known
      cases known with
      | some p => exact L.bind (L.pure _) hsize
      | none =>
        exact L.ite (fun _ => L.bind (L.map _ (place_renamed hL hh hx hn hf)) hsize) fun _ =>
          L.bind (L.map _ hvalue) hsize
  | .index _ array position =>
    rw [Expr.names, List.forall_mem_cons] at hn
    rw [Expr.fixed] at hf
    rw [Expr.rename, eval, eval]
    exact L.bind (elementPlace_renamed hh hn.1 hx (eval_renamed hL hh hx hn.2 hf)) fun p =>
      load_alike hh.toServes p
  | .member _ true object m =>
    rw [Expr.names] at hn
    rw [Expr.fixed] at hf
    rw [Expr.rename, eval, eval]
    refine L.bind (memberPlace_alike hh.toServes ?_ m) fun p => load_alike hh.toServes p
    exact L.bind (eval_renamed hL hh hx hn hf) fun pointer => L.lift (by simp)
  | .member _ false object m =>
    rw [Expr.names] at hn
    rw [Expr.fixed] at hf
    rw [Expr.rename, eval, eval]
    exact L.bind (memberPlace_alike hh.toServes (place_renamed hL hh hx hn hf) m) fun p =>
      load_alike hh.toServes p
  | .call line callee arguments =>
    rw [Expr.names, List.forall_mem_cons] at hn
    rw [Expr.fixed, List.forall_mem_cons] at hf
    rw [Expr.rename, hf.1.1]
    exact call_renamed hh hf.1.2 hx line (Expr.length_renameAll arguments)
      (evalAll_renamed hL hh hx hn.2 hf.2)

/-- So is the object that it designates. -/
theorem place_renamed (hL : L.Rewords) (hh : h.Renamed L meets g)
    (hx : ∀ n, meets s t n → Expansion L x y s t (h.macros.find? n) (g.macros.find? n)) {e : Expr}
    (hn : ∀ n ∈ e.names, Seen s t (meets s t) ρ n)
    (hf : ∀ n ∈ e.name?.toList ++ e.fixed, ρ n = n ∧ meets s t n) :
    L.rel (place h x s e) (place g y t (e.rename ρ)) := by
  match e with
  | .name _ n =>
    rw [Expr.rename, place, place]
    exact namePlace_renamed hh (hf n List.mem_cons_self).1
  | .unary _ .deref operand =>
    rw [Expr.names] at hn
    rw [Expr.fixed] at hf
    rw [Expr.rename, place, place]
    exact L.bind (eval_renamed hL hh hx hn hf) fun pointer => L.lift (by simp)
  | .index _ array position =>
    rw [Expr.names, List.forall_mem_cons] at hn
    rw [Expr.fixed] at hf
    rw [Expr.rename, place, place]
    exact elementPlace_renamed hh hn.1 hx (eval_renamed hL hh hx hn.2 hf)
  | .member _ true object m =>
    rw [Expr.names] at hn
    rw [Expr.fixed] at hf
    rw [Expr.rename, place, place]
    exact memberPlace_alike hh.toServes
      (L.bind (eval_renamed hL hh hx hn hf) fun pointer => L.lift (by simp)) m
  | .member _ false object m =>
    rw [Expr.names] at hn
    rw [Expr.fixed] at hf
    rw [Expr.rename, place, place]
    exact memberPlace_alike hh.toServes (place_renamed hL hh hx hn hf) m
  | .literal .. | .call .. | .unary _ .addressOf _ | .unary _ .plus _ | .unary _ .minus _
  | .unary _ .not _ | .unary _ .complement _ | .unary _ (.step _) _ | .stepAfter .. | .cast ..
  | .sizeOfType .. | .sizeOf .. | .binary .. | .logic .. | .conditional .. | .assign .. =>
    rw [Expr.rename, place, place]
    -- nothing else designates an object, under either name
    · exact hL rfl
    all_goals simp

/-- So are several expressions. -/
theorem evalAll_renamed (hL : L.Rewords) (hh : h.Renamed L meets g)
    (hx : ∀ n, meets s t n → Expansion L x y s t (h.macros.find? n) (g.macros.find? n))
    {es : List Expr} (hn : ∀ n ∈ Expr.namesOf es, Seen s t (meets s t) ρ n)
    (hf : ∀ n ∈ Expr.fixedOf es, ρ n = n ∧ meets s t n) :
    L.rel (evalAll h x s es) (evalAll g y t (Expr.renameAll ρ es)) := by
  match es with
  | [] =>
    rw [Expr.renameAll, evalAll, evalAll]
    exact L.pure _
  | e :: rest =>
    rw [Expr.namesOf, List.forall_mem_append] at hn
    rw [Expr.fixedOf, List.forall_mem_append] at hf
    rw [Expr.renameAll, evalAll, evalAll]
    exact L.bind (eval_renamed hL hh hx hn.1 hf.1) fun v =>
      L.bind (evalAll_renamed hL hh hx hn.2 hf.2) fun more => L.pure _

end

end Evaluation

end Stepwise
