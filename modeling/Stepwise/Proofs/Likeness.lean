/-
Two computations that do alike.

A *likeness* relates computations, and it holds of two that are put together in the
same way from parts it holds of. So two evaluations of an expression are alike as
soon as what they ask their hosts for is, and what stands behind the macros that
the expression uses.

One pass over expressions serves for several arguments. A likeness may say that two
computations are equal, that the second does what the first does unless that is cut
short, or something about the first alone.
-/
import Stepwise.Proofs.Faults

set_option autoImplicit false

namespace Stepwise

variable {σ α β : Type}

/-- A relation between computations that holds of what is put together from related parts. Of faults
that are not usual nothing is said. -/
structure Likeness (σ : Type) where
  /-- The relation. -/
  rel : {α : Type} → Eval σ α → Eval σ α → Prop
  pure : ∀ {α : Type} (a : α), rel (Pure.pure a) (Pure.pure a)
  fail : ∀ {α : Type} (fault : Fault), fault.IsUsual →
    rel (Eval.fail fault : Eval σ α) (Eval.fail fault)
  bind : ∀ {α β : Type} {c d : Eval σ α} {k l : α → Eval σ β}, rel c d →
    (∀ a, rel (k a) (l a)) → rel (c >>= k) (d >>= l)

namespace Likeness

variable (L : Likeness σ)

theorem lift {r : Except Fault α} (h : Usual r) :
    L.rel (Eval.lift r : Eval σ α) (Eval.lift r) := by
  cases r with
  | error fault => exact L.fail fault (usual_error.1 h)
  | ok a => exact L.pure a

theorem lift_bind {r : Except Fault α} {k l : α → Eval σ β} (h : Usual r)
    (hk : ∀ a, r = .ok a → L.rel (k a) (l a)) :
    L.rel (Eval.lift r >>= k) (Eval.lift r >>= l) := by
  cases r with
  | error fault => exact L.fail fault (usual_error.1 h)
  | ok a => exact hk a rfl

theorem ite {p : Prop} [Decidable p] {c d c' d' : Eval σ α} (h : p → L.rel c d)
    (h' : ¬p → L.rel c' d') : L.rel (if p then c else c') (if p then d else d') := by
  split
  · exact h ‹_›
  · exact h' ‹_›

theorem map {c d : Eval σ α} (f : α → β) (h : L.rel c d) : L.rel (f <$> c) (f <$> d) := by
  rw [map_eq_pure_bind, map_eq_pure_bind]
  exact L.bind h fun a => L.pure (f a)

theorem forM {items : List α} {f g : α → Eval σ Unit} (h : ∀ a ∈ items, L.rel (f a) (g a)) :
    L.rel (items.forM f) (items.forM g) := by
  induction items with
  | nil => exact L.pure ()
  | cons a items ih =>
    exact L.bind (h a List.mem_cons_self) fun _ => ih fun b hb => h b (List.mem_cons_of_mem a hb)

theorem forM_option {item : Option α} {f g : α → Eval σ Unit}
    (h : ∀ a ∈ item, L.rel (f a) (g a)) : L.rel (item.forM f) (item.forM g) := by
  cases item with
  | none => exact L.pure ()
  | some a => exact h a rfl

theorem mapM {items : List α} {f g : α → Eval σ β} (h : ∀ a ∈ items, L.rel (f a) (g a)) :
    L.rel (items.mapM f) (items.mapM g) := by
  induction items with
  | nil =>
    rw [List.mapM_nil, List.mapM_nil]
    exact L.pure []
  | cons a items ih =>
    rw [List.mapM_cons, List.mapM_cons]
    refine L.bind (h a List.mem_cons_self) fun b => ?_
    exact L.bind (ih fun b hb => h b (List.mem_cons_of_mem a hb)) fun bs => L.pure (b :: bs)

end Likeness

/-! ## Names -/

namespace Expr

mutual

/-- The names that the expression uses as variables, arrays and functions. -/
def names : Expr → List String
  | literal .. | sizeOfType .. => []
  | name _ n => [n]
  | call _ callee arguments => callee :: namesOf arguments
  | index _ array position => array :: names position
  | member _ _ e _ | unary _ _ e | stepAfter _ _ e | cast _ _ e | sizeOf _ e => names e
  | binary _ _ left right | logic _ _ left right => names left ++ names right
  | conditional _ condition whenTrue whenFalse =>
    names condition ++ (names whenTrue ++ names whenFalse)
  | assign _ _ target value => names target ++ names value

/-- The names that several expressions use. -/
def namesOf : List Expr → List String
  | [] => []
  | e :: rest => names e ++ namesOf rest

end

mutual

/-- Every part of the expression stands on a line of the given kind. -/
def Lined (lines : Nat → Prop) : Expr → Prop
  | literal line _ | name line _ | sizeOfType line _ => lines line
  | call line _ arguments => lines line ∧ LinedAll lines arguments
  | index line _ e | member line _ e _ | unary line _ e | stepAfter line _ e | cast line _ e
  | sizeOf line e => lines line ∧ Lined lines e
  | binary line _ left right | logic line _ left right | assign line _ left right =>
    lines line ∧ Lined lines left ∧ Lined lines right
  | conditional line condition whenTrue whenFalse =>
    lines line ∧ Lined lines condition ∧ Lined lines whenTrue ∧ Lined lines whenFalse

/-- So does every part of several expressions. -/
def LinedAll (lines : Nat → Prop) : List Expr → Prop
  | [] => True
  | e :: rest => Lined lines e ∧ LinedAll lines rest

end

variable {lines : Nat → Prop}

theorem linedAll_iff {es : List Expr} : LinedAll lines es ↔ ∀ e ∈ es, e.Lined lines := by
  induction es with
  | nil => simp [LinedAll]
  | cons e es ih => rw [LinedAll, ih, List.forall_mem_cons]

mutual

theorem lined_of_forall (h : ∀ line, lines line) (e : Expr) : e.Lined lines := by
  cases e with
  | literal | name | sizeOfType => exact h _
  | call _ _ arguments => exact ⟨h _, linedAll_of_forall h arguments⟩
  | index _ _ e | member _ _ e _ | unary _ _ e | stepAfter _ _ e | cast _ _ e | sizeOf _ e =>
    exact ⟨h _, lined_of_forall h e⟩
  | binary _ _ left right | logic _ _ left right | assign _ _ left right =>
    exact ⟨h _, lined_of_forall h left, lined_of_forall h right⟩
  | conditional _ condition whenTrue whenFalse =>
    exact ⟨h _, lined_of_forall h condition, lined_of_forall h whenTrue,
      lined_of_forall h whenFalse⟩

theorem linedAll_of_forall (h : ∀ line, lines line) (es : List Expr) : LinedAll lines es := by
  match es with
  | [] => exact trivial
  | e :: rest => exact ⟨lined_of_forall h e, linedAll_of_forall h rest⟩

end

mutual

/-- Every call in the expression stands on a line of the given kind. -/
def CallsOn (lines : Nat → Prop) : Expr → Prop
  | literal .. | name .. | sizeOfType .. => True
  | call line _ arguments => lines line ∧ CallsOnAll lines arguments
  | index _ _ e | member _ _ e _ | unary _ _ e | stepAfter _ _ e | cast _ _ e | sizeOf _ e =>
    CallsOn lines e
  | binary _ _ left right | logic _ _ left right | assign _ _ left right =>
    CallsOn lines left ∧ CallsOn lines right
  | conditional _ condition whenTrue whenFalse =>
    CallsOn lines condition ∧ CallsOn lines whenTrue ∧ CallsOn lines whenFalse

/-- So does every call in several expressions. -/
def CallsOnAll (lines : Nat → Prop) : List Expr → Prop
  | [] => True
  | e :: rest => CallsOn lines e ∧ CallsOnAll lines rest

end

mutual

theorem Lined.callsOn {e : Expr} (h : e.Lined lines) : e.CallsOn lines := by
  cases e with
  | literal | name | sizeOfType => exact trivial
  | call => exact ⟨h.1, LinedAll.callsOnAll h.2⟩
  | index _ _ e | member _ _ e _ | unary _ _ e | stepAfter _ _ e | cast _ _ e | sizeOf _ e =>
    exact (show e.Lined lines from h.2).callsOn
  | binary | logic | assign => exact ⟨Lined.callsOn h.2.1, Lined.callsOn h.2.2⟩
  | conditional =>
    exact ⟨Lined.callsOn h.2.1, Lined.callsOn h.2.2.1, Lined.callsOn h.2.2.2⟩

theorem LinedAll.callsOnAll {es : List Expr} (h : LinedAll lines es) : CallsOnAll lines es := by
  match es with
  | [] => exact trivial
  | _ :: _ => exact ⟨Lined.callsOn h.1, LinedAll.callsOnAll h.2⟩

end

end Expr

/-! ## Evaluation -/

/-- Two hosts that serve objects alike. -/
structure Host.Serves (L : Likeness σ) (h g : Host σ) : Prop where
  members : ∀ type, L.rel (Eval.lift (h.members type)) (Eval.lift (g.members type))
  sizes : h.sizes = g.sizes
  find : ∀ name, L.rel (h.find name) (g.find name)
  read : ∀ address, L.rel (h.read address) (g.read address)
  write : ∀ address value, L.rel (h.write address value) (g.write address value)

/-- Two hosts that know the same, and are asked alike on lines of a kind. -/
structure Host.AlikeOn (L : Likeness σ) (lines : Nat → Prop) (h g : Host σ) : Prop
    extends h.Serves L g where
  macros : h.macros = g.macros
  call : ∀ scope name arguments line, lines line →
    L.rel (h.call scope name arguments line) (g.call scope name arguments line)
  noteMacro : ∀ name text line, lines line →
    L.rel (h.noteMacro name text line) (g.noteMacro name text line)

/-- Two hosts that know the same, and are asked alike on all lines. -/
abbrev Host.Alike (L : Likeness σ) (h g : Host σ) : Prop :=
  h.AlikeOn L (fun _ => True) g

/-- The body of the macro with this name, if there is one, is expanded alike. -/
def ExpandsAlike (L : Likeness σ) (macros : Macros) (x y : Expand σ) (name : String) : Prop :=
  ∀ m body, macros.find? name = some m → m.expression = .ok body →
    ∀ scope, L.rel (x scope body) (y scope body)

section Evaluation

variable {L : Likeness σ} {lines : Nat → Prop} {h g : Host σ} {x y : Expand σ} {scope : Scope}

theorem Host.Serves.stepped (hh : h.Serves L g) : g.stepped = h.stepped := by
  funext op current
  unfold Host.stepped
  rw [hh.sizes]

theorem load_alike (hh : h.Serves L g) (p : Place) : L.rel (h.load p) (g.load p) := by
  unfold Host.load
  refine L.ite (fun _ => ?_) fun _ => L.ite (fun _ => ?_) fun _ => ?_
  · exact L.bind (L.lift (by simp)) fun _ => L.pure _
  · exact L.pure _
  · exact L.bind (hh.read _) fun _ => L.pure _

theorem store_alike (hh : h.Serves L g) (p : Place) (value : Value) :
    L.rel (h.store p value) (g.store p value) :=
  L.bind (L.lift (by simp)) fun _ => hh.write _ _

/-- What a name stands for if it is neither bound nor a variable. -/
theorem macroValue_alike (hh : h.AlikeOn L lines g) {name : String}
    (he : ExpandsAlike L h.macros x y name) :
    L.rel
      (match h.valueMacro? name with
        | some m => do x scope (← Eval.lift m.expression)
        | none =>
          if name = "NULL" then return ⟨.int 0, ⟨"void*"⟩⟩
          else if name = "EOF" then return ⟨.int (-1), .int⟩
          else Eval.fail (.unknownIdentifier name))
      (match g.valueMacro? name with
        | some m => do y scope (← Eval.lift m.expression)
        | none =>
          if name = "NULL" then return ⟨.int 0, ⟨"void*"⟩⟩
          else if name = "EOF" then return ⟨.int (-1), .int⟩
          else Eval.fail (.unknownIdentifier name)) := by
  have hsame : g.valueMacro? name = h.valueMacro? name := by
    rw [Host.valueMacro?, Host.valueMacro?, hh.macros]
  rw [hsame]
  cases hmacro : h.valueMacro? name with
  | none =>
    exact L.ite (fun _ => L.pure _) fun _ => L.ite (fun _ => L.pure _) fun _ => L.fail _ (by simp)
  | some m =>
    have hfound : h.macros.find? name = some m := by
      unfold Host.valueMacro? at hmacro
      split at hmacro
      · split at hmacro
        · obtain rfl := Option.some.inj hmacro
          assumption
        · cases hmacro
      · cases hmacro
    exact L.lift_bind (by simp) fun body hbody => he m body hfound hbody scope

theorem nameValue_alike (hh : h.AlikeOn L lines g) {name : String}
    (he : ExpandsAlike L h.macros x y name) :
    L.rel (h.nameValue x scope name) (g.nameValue y scope name) := by
  unfold Host.nameValue
  split
  · exact L.pure _
  · refine L.bind (hh.find name) fun found => ?_
    cases found with
    | some p => exact load_alike hh.toServes p
    | none => exact macroValue_alike hh he

theorem namePlace_alike (hh : h.Serves L g) (name : String) :
    L.rel (h.namePlace name) (g.namePlace name) := by
  refine L.bind (hh.find name) fun found => ?_
  split
  · exact L.pure _
  · exact L.fail _ (by simp)

theorem elementPlace_alike (hh : h.AlikeOn L lines g) {array : String}
    (he : ExpandsAlike L h.macros x y array) {c d : Eval σ Typed} (hposition : L.rel c d) :
    L.rel (h.elementPlace x scope array c) (g.elementPlace y scope array d) := by
  refine L.bind (nameValue_alike hh he) fun _ => L.bind hposition fun _ => ?_
  rw [hh.sizes]
  exact L.lift (by simp)

theorem memberPlace_alike (hh : h.Serves L g) {c d : Eval σ Place} (hstruct : L.rel c d)
    (member : String) : L.rel (h.memberPlace c member) (g.memberPlace d member) := by
  refine L.bind hstruct fun object => L.bind (hh.members _) fun members => ?_
  split
  · exact L.bind (L.lift (by simp)) fun _ => L.pure _
  · exact L.fail _ (by simp)

mutual

/-- Evaluations of an expression are alike if what they ask for is. The induction is on the
expression; the macros come in by the names that the expression uses. -/
theorem eval_alike (hh : h.AlikeOn L lines g) {e : Expr} (hl : e.CallsOn lines)
    (he : ∀ n ∈ e.names, ExpandsAlike L h.macros x y n) :
    L.rel (eval h x scope e) (eval g y scope e) := by
  match e with
  | .literal _ text =>
    rw [eval, eval]
    exact L.lift (by simp)
  | .name _ n =>
    rw [Expr.names, List.forall_mem_singleton] at he
    rw [eval, eval]
    exact nameValue_alike hh he
  | .assign _ op target value =>
    rw [Expr.names, List.forall_mem_append] at he
    rw [eval, eval]
    refine L.bind (place_alike hh hl.1 he.1) fun p => L.bind (eval_alike hh hl.2 he.2) fun v => ?_
    -- what is stored is the same for all operators; only what comes before it differs
    have hstore : ∀ v : Typed, L.rel
        (do h.store p v.value; return (⟨← Eval.lift (v.value.coerce p.type), p.type⟩ : Typed))
        (do g.store p v.value; return (⟨← Eval.lift (v.value.coerce p.type), p.type⟩ : Typed)) :=
      fun v => L.bind (store_alike hh.toServes p v.value) fun _ => L.bind (L.lift (by simp)) fun _ =>
        L.pure _
    cases op with
    | none => exact L.bind (L.pure _) hstore
    | some op =>
      rw [← hh.sizes]
      exact L.bind (hh.read _) fun _ => L.bind (L.lift (by simp)) hstore
  | .conditional _ condition whenTrue whenFalse =>
    rw [Expr.names, List.forall_mem_append, List.forall_mem_append] at he
    rw [eval, eval]
    refine L.bind (eval_alike hh hl.1 he.1) fun c => L.bind (L.lift (by simp)) fun holds => ?_
    exact L.ite (fun _ => eval_alike hh hl.2.1 he.2.1) fun _ => eval_alike hh hl.2.2 he.2.2
  | .logic _ op left right =>
    rw [Expr.names, List.forall_mem_append] at he
    rw [eval, eval]
    refine L.bind (eval_alike hh hl.1 he.1) fun l => L.bind (L.lift (by simp)) fun holds => ?_
    split
    · exact L.pure _
    · exact L.pure _
    · exact L.bind (eval_alike hh hl.2 he.2) fun r => L.bind (L.lift (by simp)) fun _ => L.pure _
  | .binary _ op left right =>
    rw [Expr.names, List.forall_mem_append] at he
    rw [eval, eval, ← hh.sizes]
    exact L.bind (eval_alike hh hl.1 he.1) fun l => L.bind (eval_alike hh hl.2 he.2) fun r =>
      L.lift (by simp)
  | .unary _ .addressOf operand =>
    rw [Expr.names] at he
    rw [eval, eval]
    exact L.bind (place_alike hh hl he) fun p => L.pure _
  | .unary _ .deref operand =>
    rw [Expr.names] at he
    rw [eval, eval]
    exact L.bind (eval_alike hh hl he) fun pointer => L.bind (L.lift (by simp)) fun p =>
      load_alike hh.toServes p
  | .unary _ (.step op) operand =>
    rw [Expr.names] at he
    rw [eval, eval, hh.stepped]
    exact L.bind (place_alike hh hl he) fun p => L.bind (hh.read _) fun old =>
      L.bind (L.lift (by simp)) fun new => L.bind (store_alike hh.toServes p _) fun _ => L.pure _
  | .unary _ .minus operand | .unary _ .not operand | .unary _ .complement operand
  | .unary _ .plus operand =>
    rw [Expr.names] at he
    rw [eval, eval]
    · exact L.bind (eval_alike hh hl he) fun v => L.lift (by simp)
    all_goals simp
  | .stepAfter _ op operand =>
    rw [Expr.names] at he
    rw [eval, eval, hh.stepped]
    exact L.bind (place_alike hh hl he) fun p => L.bind (hh.read _) fun old =>
      L.bind (L.lift (by simp)) fun new => L.bind (store_alike hh.toServes p _) fun _ => L.pure _
  | .cast _ type operand =>
    rw [Expr.names] at he
    rw [eval, eval]
    exact L.bind (eval_alike hh hl he) fun v => L.bind (L.lift (by simp)) fun _ => L.pure _
  | .sizeOfType _ type =>
    rw [eval, eval, ← hh.sizes]
    exact L.bind (L.lift (by simp)) fun _ => L.pure _
  | .sizeOf _ operand =>
    rw [Expr.names] at he
    rw [eval, eval, ← hh.sizes]
    have hsize : ∀ type : CType, L.rel
        (do return (⟨.int (← Eval.lift (type.size h.sizes)), ⟨"size_t"⟩⟩ : Typed))
        (do return (⟨.int (← Eval.lift (type.size h.sizes)), ⟨"size_t"⟩⟩ : Typed)) := fun type =>
      L.bind (L.lift (by simp)) fun _ => L.pure _
    split
    case' h_1 => refine L.bind (hh.find _) ?_
    case' h_2 => refine L.bind (L.pure _) ?_
    all_goals
      -- a variable, a part of one, or else something whose value is measured
      intro known
      cases known with
      | some p => exact L.bind (L.pure _) hsize
      | none =>
        exact L.ite (fun _ => L.bind (L.map _ (place_alike hh hl he)) hsize) fun _ =>
          L.bind (L.map _ (eval_alike hh hl he)) hsize
  | .index _ array position =>
    rw [Expr.names, List.forall_mem_cons] at he
    rw [eval, eval]
    exact L.bind (elementPlace_alike hh he.1 (eval_alike hh hl he.2)) fun p => load_alike hh.toServes p
  | .member _ true object m =>
    rw [Expr.names] at he
    rw [eval, eval]
    refine L.bind (memberPlace_alike hh.toServes ?_ m) fun p => load_alike hh.toServes p
    exact L.bind (eval_alike hh hl he) fun pointer => L.lift (by simp)
  | .member _ false object m =>
    rw [Expr.names] at he
    rw [Expr.CallsOn] at hl
    rw [eval, eval]
    exact L.bind (memberPlace_alike hh.toServes (place_alike hh hl he) m) fun p =>
      load_alike hh.toServes p
  | .call line callee arguments =>
    rw [Expr.names, List.forall_mem_cons] at he
    rw [eval, eval]
    -- both hosts have the same macros, so both call the same one or both call a function
    have hsame : g.callMacro? callee = h.callMacro? callee := by
      rw [Host.callMacro?, Host.callMacro?, hh.macros]
    rw [hsame]
    cases hmacro : h.callMacro? callee with
    | none => exact L.bind (evalAll_alike hh hl.2 he.2) fun values => hh.call _ _ _ _ hl.1
    | some found =>
      obtain ⟨m, parameters⟩ := found
      have hfound : h.macros.find? callee = some m := by
        unfold Host.callMacro? at hmacro
        split at hmacro
        · obtain ⟨_, _, heq⟩ := Option.map_eq_some_iff.1 hmacro
          rw [← (Prod.mk.inj heq).1]
          assumption
        · cases hmacro
      refine L.ite (fun _ => L.fail _ (by simp)) fun _ => ?_
      exact L.bind (hh.noteMacro _ _ _ hl.1) fun _ => L.bind (evalAll_alike hh hl.2 he.2) fun values =>
        L.lift_bind (by simp) fun body hbody => he.1 m body hfound hbody _
termination_by sizeOf e
decreasing_by
  all_goals simp
  all_goals omega

theorem place_alike (hh : h.AlikeOn L lines g) {e : Expr} (hl : e.CallsOn lines)
    (he : ∀ n ∈ e.names, ExpandsAlike L h.macros x y n) :
    L.rel (place h x scope e) (place g y scope e) := by
  unfold place
  split
  · exact namePlace_alike hh.toServes _
  · rw [Expr.names] at he
    exact L.bind (eval_alike hh hl he) fun pointer => L.lift (by simp)
  · rw [Expr.names, List.forall_mem_cons] at he
    exact elementPlace_alike hh he.1 (eval_alike hh hl he.2)
  · rw [Expr.names] at he
    rw [Expr.CallsOn] at hl
    exact memberPlace_alike hh.toServes (L.bind (eval_alike hh hl he) fun pointer => L.lift (by simp)) _
  · rw [Expr.names] at he
    rw [Expr.CallsOn] at hl
    exact memberPlace_alike hh.toServes (place_alike hh hl he) _
  · exact L.fail _ (by simp)
termination_by sizeOf e
decreasing_by
  all_goals subst_vars
  all_goals simp
  all_goals omega

theorem evalAll_alike (hh : h.AlikeOn L lines g) {es : List Expr}
    (hl : Expr.CallsOnAll lines es)
    (he : ∀ n ∈ Expr.namesOf es, ExpandsAlike L h.macros x y n) :
    L.rel (evalAll h x scope es) (evalAll g y scope es) := by
  match es with
  | [] =>
    rw [evalAll, evalAll]
    exact L.pure _
  | e :: rest =>
    rw [Expr.namesOf, List.forall_mem_append] at he
    rw [evalAll, evalAll]
    exact L.bind (eval_alike hh hl.1 he.1) fun v => L.bind (evalAll_alike hh hl.2 he.2) fun more =>
      L.pure _
termination_by sizeOf es
decreasing_by
  all_goals simp
  all_goals omega

end

/-- Where two nestings that have no end are alike, expressions are evaluated alike whatever the macros
are, as long as their bodies stand on the given lines, too. -/
theorem evaluate_alikeOn
    (hendless : L.rel (Eval.fail .endless : Eval σ Typed) (Eval.fail .endless))
    (hh : h.AlikeOn L lines g)
    (hmacros : ∀ name m body, h.macros.find? name = some m → m.expression = .ok body →
      body.Lined lines)
    (spare : Nat) (scope : Scope) {e : Expr} (hl : e.Lined lines) :
    L.rel (evaluate h spare scope e) (evaluate g spare scope e) := by
  unfold evaluate
  rw [← hh.macros]
  generalize h.macros.length + spare = budget
  induction budget generalizing scope e with
  | zero => exact hendless
  | succ budget ih =>
    exact eval_alike hh hl.callsOn fun name _ m body hm hbody scope =>
      ih scope (hmacros name m body hm hbody)

theorem evaluate_alike
    (hendless : L.rel (Eval.fail .endless : Eval σ Typed) (Eval.fail .endless))
    (hh : h.Alike L g) (spare : Nat) (scope : Scope) (e : Expr) :
    L.rel (evaluate h spare scope e) (evaluate g spare scope e) :=
  evaluate_alikeOn hendless hh (fun _ _ body _ _ => body.lined_of_forall fun _ => trivial) spare
    scope (e.lined_of_forall fun _ => trivial)

end Evaluation

end Stepwise
