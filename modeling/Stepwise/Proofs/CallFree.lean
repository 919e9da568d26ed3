/-
Expressions that call nothing.

An expression calls something if a call stands in it, or in the body of a macro that one
of its names stands for, or of a macro in that body. An expression that calls nothing is
evaluated without a step: whatever calls would do, all that is left behind are values to
be written, output and notes, which the next step shows.
-/
import Stepwise.Proofs.Execution

set_option autoImplicit false

namespace Stepwise

namespace Expr

variable {lines : Nat → Prop} {macros : Macros}

mutual

theorem callsOn_of_calls {e : Expr} (h : ∀ c ∈ e.calls, lines c.line) : e.CallsOn lines := by
  cases e with
  | literal | name | sizeOfType => exact trivial
  | call line callee arguments =>
    rw [calls, parts, List.filterMap_cons_some (show call? _ = some ⟨line, callee, arguments⟩ from rfl),
      List.forall_mem_cons] at h
    exact ⟨h.1, callsOnAll_of_calls h.2⟩
  | index _ _ e | member _ _ e _ | unary _ _ e | stepAfter _ _ e | cast _ _ e | sizeOf _ e =>
    rw [calls, parts, List.filterMap_cons_none rfl] at h
    exact (show e.CallsOn lines from callsOn_of_calls h)
  | binary _ _ left right | logic _ _ left right | assign _ _ left right =>
    rw [calls, parts, List.filterMap_cons_none rfl, List.filterMap_append, List.forall_mem_append] at h
    exact ⟨callsOn_of_calls h.1, callsOn_of_calls h.2⟩
  | conditional _ condition whenTrue whenFalse =>
    rw [calls, parts, List.filterMap_cons_none rfl, List.filterMap_append, List.filterMap_append,
      List.forall_mem_append, List.forall_mem_append] at h
    exact ⟨callsOn_of_calls h.1.1, callsOn_of_calls h.1.2, callsOn_of_calls h.2⟩

theorem callsOnAll_of_calls {es : List Expr}
    (h : ∀ c ∈ (partsOfAll es).filterMap call?, lines c.line) : CallsOnAll lines es := by
  match es with
  | [] => exact trivial
  | e :: rest =>
    rw [partsOfAll, List.filterMap_append, List.forall_mem_append] at h
    exact ⟨callsOn_of_calls h.1, callsOnAll_of_calls h.2⟩

end

theorem mem_namesOf {n : String} {es : List Expr} (h : n ∈ namesOf es) : ∃ e ∈ es, n ∈ e.names := by
  induction es with
  | nil => cases h
  | cons e es ih =>
    rw [namesOf, List.mem_append] at h
    rcases h with h | h
    · exact ⟨e, List.mem_cons_self, h⟩
    · obtain ⟨f, hf, hn⟩ := ih h
      exact ⟨f, List.mem_cons_of_mem _ hf, hn⟩

/-- A call stands in the expression, or in what one of its names stands for. -/
inductive Calling (macros : Macros) : Expr → Prop
  | call {e : Expr} (h : e.calls ≠ []) : Calling macros e
  | expansion {e body : Expr} {name : String} {m : Macro} (hname : name ∈ e.names)
      (hm : macros.find? name = some m) (hbody : m.expression = .ok body)
      (h : Calling macros body) : Calling macros e

theorem not_calling {e : Expr} (hcalls : e.calls = [])
    (hnames : ∀ name ∈ e.names, macros.find? name = none) : ¬e.Calling macros := by
  intro h
  cases h with
  | call h => exact h hcalls
  | expansion hname hm _ _ =>
    rw [hnames _ hname] at hm
    cases hm

/-- No call stands in an expression that calls nothing. -/
theorem callsOn_of_not_calling {e : Expr} (h : ¬e.Calling macros) : e.CallsOn lines := by
  refine callsOn_of_calls fun c hc => ?_
  exact absurd (.call (List.ne_nil_of_mem hc)) h

theorem callsOnAll_of_not_calling {es : List Expr} (h : ∀ e ∈ es, ¬e.Calling macros) :
    CallsOnAll lines es := by
  induction es with
  | nil => exact trivial
  | cons e es ih =>
    exact ⟨callsOn_of_not_calling (h e List.mem_cons_self),
      ih fun f hf => h f (List.mem_cons_of_mem e hf)⟩

end Expr

/-! ## Evaluation -/

section Evaluation

variable {σ : Type} {L : Likeness σ} {h g : Host σ}

/-- An expression that calls nothing is evaluated alike, whatever calls would do. -/
theorem evalWithin_alike_of_not_calling
    (hendless : L.rel (Eval.fail .endless : Eval σ Typed) (Eval.fail .endless))
    (hh : h.AlikeOn L (fun _ => False) g) (budget : Nat) (scope : Scope) {e : Expr}
    (he : ¬e.Calling h.macros) :
    L.rel (evalWithin h budget scope e) (evalWithin g budget scope e) := by
  induction budget generalizing scope e with
  | zero => exact hendless
  | succ budget ih =>
    refine eval_alike hh (Expr.callsOn_of_not_calling he) ?_
    intro name hname m body hm hbody scope
    exact ih scope fun hcalls => he (.expansion hname hm hbody hcalls)

/-- So are the arguments of a call. -/
theorem evalAll_alike_of_not_calling
    (hendless : L.rel (Eval.fail .endless : Eval σ Typed) (Eval.fail .endless))
    (hh : h.AlikeOn L (fun _ => False) g) (budget : Nat) (scope : Scope) {es : List Expr}
    (hes : ∀ e ∈ es, ¬e.Calling h.macros) :
    L.rel (evalAll h (evalWithin h budget) scope es) (evalAll g (evalWithin g budget) scope es) := by
  refine evalAll_alike hh (Expr.callsOnAll_of_not_calling hes) ?_
  intro name hname m body hm hbody scope
  obtain ⟨e, he, hmem⟩ := Expr.mem_namesOf hname
  exact evalWithin_alike_of_not_calling hendless hh budget scope fun hcalls =>
    hes e he (.expansion hmem hm hbody hcalls)

end Evaluation

/-! ## On the machine -/

/-- From the one machine to the other, only values, output and notes were held back. -/
structure Machine.HoldsBack (m m' : Machine) : Prop where
  steps : m'.steps = m.steps
  state : m'.state = m.state
  blocks : m'.blocks = m.blocks
  active : m'.active = m.active

instance : IsPreorder Machine Machine.HoldsBack where
  refl _ := ⟨rfl, rfl, rfl, rfl⟩
  trans _ _ _ h h' :=
    ⟨h'.steps.trans h.steps, h'.state.trans h.state, h'.blocks.trans h.blocks,
      h'.active.trans h.active⟩

section HoldsBack

variable {setup : Setup} {call : Caller}

theorem machineHost_holdsBack : (machineHost setup call).AlikeOn (.following Machine.HoldsBack)
    (fun _ => False) (machineHost setup call) where
  members _ := Follows.lift _
  sizes := rfl
  find name := Run.ask_follows fun m => m.lookup name
  read address := Run.query_follows fun m => m.read address
  write address value := by
    refine Run.attempt_follows fun m m' h => ?_
    obtain ⟨a, _, _, rfl⟩ := Machine.write_eq_ok.1 h
    exact ⟨rfl, rfl, rfl, rfl⟩
  macros := rfl
  call _ _ _ _ hline := hline.elim
  noteMacro _ _ _ hline := hline.elim

theorem printf_holdsBack (arguments : List Typed) :
    Follows Machine.HoldsBack (Library.printf arguments) := by
  have hformatted : Follows Machine.HoldsBack (Library.formatted arguments) := by
    unfold Library.formatted
    split
    · exact Run.query_follows _
    · exact Follows.fail _
  refine hformatted.bind fun text => Follows.bind ?_ fun _ => Follows.pure _
  exact (Run.change_follows fun m => ⟨rfl, rfl, rfl, rfl⟩).bind fun _ =>
    Run.change_follows fun m => ⟨rfl, rfl, rfl, rfl⟩

/-- **A call of `printf` whose arguments call nothing shows no step**, unless a macro with parameters
has taken the name. -/
theorem evaluate_printf_holdsBack {invoke : Invoker} {line : Nat} {arguments : List Expr}
    (hprintf : ∀ m, setup.analysis.macros.find? "printf" = some m → m.parameters = none)
    (harguments : ∀ e ∈ arguments, ¬e.Calling setup.analysis.macros) (scope : Scope) :
    Follows Machine.HoldsBack
      (evaluateWith setup (callBy setup invoke) scope (.call line "printf" arguments)) := by
  have hmacro : (machineHost setup (callBy setup invoke)).callMacro? "printf" = none := by
    unfold Host.callMacro?
    split
    · next m hm => rw [hprintf m hm, Option.map_none]
    · rfl
  unfold evaluateWith evaluate
  generalize (machineHost setup (callBy setup invoke)).macros.length + setup.analysis.spare = budget
  cases budget with
  | zero => exact Follows.fail _
  | succ budget =>
    rw [evalWithin, eval, hmacro]
    have hvalues : Follows Machine.HoldsBack (evalAll (machineHost setup (callBy setup invoke))
        (evalWithin (machineHost setup (callBy setup invoke)) budget) scope arguments) :=
      evalAll_alike_of_not_calling (L := .following Machine.HoldsBack) (Follows.fail _)
        machineHost_holdsBack budget scope harguments
    exact hvalues.bind fun values => printf_holdsBack values

end HoldsBack

end Stepwise
