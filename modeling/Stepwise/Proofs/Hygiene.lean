/-
Parameters that nothing else is called like.

The parameters of a macro are bound while its body is evaluated, and they stay bound in
whatever the body calls: a function that is called from it, or another macro that it
uses, looks its own names up among them. So what a parameter is called can matter, but
only to a name that the body leads to, in one step or in several.

If neither the old names nor the new ones are met on the way, then the parameters may
be called something else. The two executions bind different names, so they are compared
from scope to scope. What holds between the scopes is relative to the name that is
looked at next: whatever that name leads to is bound to the same in both. It is handed
on to what is called, it is trivial where nothing is bound yet, and it lets the scopes
differ in the parameters.
-/
import Stepwise.Proofs.Renaming
import Stepwise.Proofs.Table
import Mathlib.Logic.Relation

set_option autoImplicit false

namespace Stepwise

/-! ## What a name leads to -/

/-- The names that the body of a macro leads to. A parameter is one of them only where it is not
looked up among the bound names. -/
def Macro.leads (m : Macro) : List String :=
  match m.expression with
  | .ok e => e.fixed ++ e.names.filter fun n => !(m.parameters.getD []).contains n
  | .error _ => []

/-- The names that the expressions of a function lead to. -/
def Function.leads (f : Function) : List String :=
  f.asked.flatMap Expr.names

namespace Program

/-- The names that a name leads to in one step: by the function that is called by it, and by the
macro that it stands for. -/
def leads (p : Program) (macros : Macros) (name : String) : List String :=
  ((p.function? name).map Function.leads).getD [] ++ ((macros.find? name).map Macro.leads).getD []

/-- A name leads to another in one step or more. -/
def LeadsTo (p : Program) (macros : Macros) : String → String → Prop :=
  Relation.TransGen fun name next => next ∈ p.leads macros name

/-- Whatever the name leads to is bound to the same in both scopes. -/
def Agree (p : Program) (macros : Macros) (s t : Scope) (name : String) : Prop :=
  ∀ met, p.LeadsTo macros name met → s.lookup met = t.lookup met

variable {p : Program} {macros : Macros} {name met : String} {m : Macro} {f : Function} {e : Expr}

theorem mem_leads_of_function (hf : p.function? name = some f) (he : e ∈ f.asked)
    (hmet : met ∈ e.names) : met ∈ p.leads macros name := by
  unfold leads
  rw [hf]
  exact List.mem_append_left _ (List.mem_flatMap.2 ⟨e, he, hmet⟩)

theorem mem_leads_of_body (hm : macros.find? name = some m) (he : m.expression = .ok e)
    (hmet : met ∈ e.fixed ∨ met ∈ e.names ∧ met ∉ m.parameters.getD []) :
    met ∈ p.leads macros name := by
  unfold leads
  rw [hm]
  refine List.mem_append_right _ ?_
  show met ∈ m.leads
  unfold Macro.leads
  rw [he]
  refine List.mem_append.2 (hmet.imp id fun hfree => ?_)
  exact List.mem_filter.2 ⟨hfree.1, by simpa using hfree.2⟩

theorem Agree.refl (s : Scope) (name : String) : p.Agree macros s s name :=
  fun _ _ => rfl

theorem Agree.lookup {s t : Scope} (h : p.Agree macros s t name) (hmet : met ∈ p.leads macros name) :
    s.lookup met = t.lookup met :=
  h met (.single hmet)

/-- What scopes agree on is handed on to what the name leads to. -/
theorem Agree.step {s t : Scope} (h : p.Agree macros s t name) (hmet : met ∈ p.leads macros name) :
    p.Agree macros s t met :=
  fun later hlater => h later (.head hmet hlater)

/-- Names that lead to nothing outside a list lead to names of the list, however many steps it
takes. -/
theorem mem_of_leadsTo {names : List String} (hfirst : ∀ met ∈ p.leads macros name, met ∈ names)
    (hnext : ∀ n ∈ names, ∀ met ∈ p.leads macros n, met ∈ names)
    (h : p.LeadsTo macros name met) : met ∈ names := by
  induction h with
  | single hmet => exact hfirst _ hmet
  | tail _ hmet ih => exact hnext _ ih _ hmet

end Program

/-! ## A macro with other parameters -/

/-- The second macro is the first with its parameters called something else, in their list and in
the body. A body that is a number stays that number. -/
structure Macro.Renames (parameters : List String) (ρ : String → String) (m m' : Macro) : Prop where
  takes : m.parameters = some parameters
  takes' : m'.parameters = some (parameters.map ρ)
  name : m'.name = m.name
  expression : m'.expression = Expr.rename ρ <$> m.expression
  number : Directive.conditionValue [] m'.body = Directive.conditionValue [] m.body

/-- Parameters that a macro may call something else: they stay apart from one another, nothing else
is called differently, and neither their old names nor their new ones are met by what the macro
leads to. -/
structure Program.Hygienic (p : Program) (macros : Macros) (name : String)
    (parameters : List String) (ρ : String → String) : Prop where
  apart : ∀ x ∈ parameters, ∀ y ∈ parameters, ρ x = ρ y → x = y
  others : ∀ n, n ∉ parameters → ρ n = n
  unmet : ∀ met, p.LeadsTo macros name met → met ∉ parameters ∧ met ∉ parameters.map ρ

section Tables

variable {macros : Macros} {m m' : Macro} {parameters : List String} {ρ : String → String}

theorem Table.length_put_of_find? (h : macros.find? m.name = some m) :
    (macros.put m.name m').length = macros.length := by
  have hkeys := macros.keys_put m.name m'
  rw [if_pos (Table.has_eq_true_iff.2 ⟨m, h⟩)] at hkeys
  have hlength := congrArg List.length hkeys
  rwa [Table.keys, Table.keys, List.length_map, List.length_map] at hlength

/-- Conditions are decided alike. -/
theorem conditionValue_put (h : macros.find? m.name = some m) (hm : m.Renames parameters ρ m')
    (argument : String) :
    Directive.conditionValue (macros.put m.name m') argument
      = Directive.conditionValue macros argument := by
  -- a condition looks at the text of the body alone
  have hbody : ∀ (macros : Macros) (m : Macro),
      macros.find? (String.ofList (Text.trim argument.toList)) = some m →
        Directive.conditionValue macros argument = Directive.conditionValue [] m.body := by
    intro macros m hm
    unfold Directive.conditionValue
    rw [hm]
    rfl
  by_cases hname : m.name = String.ofList (Text.trim argument.toList)
  · rw [hname] at h
    rw [hname, hbody _ m' (Table.find?_put_self h), hbody _ m h, hm.number]
  · unfold Directive.conditionValue
    rw [Table.find?_put_of_ne (beq_false_of_ne hname)]

theorem has_put (h : macros.find? m.name = some m) (name : String) :
    (macros.put m.name m').has name = macros.has name := by
  rw [Table.has, Table.find?_put, Table.has]
  split
  · next hname => rw [← eq_of_beq hname, h, Option.isSome_some, Option.isSome_some]
  · rfl

end Tables

/-! ## Evaluation -/

/-- Expressions that find the same under other names are expanded alike. -/
def ExpandsRenamed {σ : Type} (L : Likeness σ) (meets : Scope → Scope → String → Prop)
    (x y : Expand σ) : Prop :=
  ∀ ⦃ρ : String → String⦄ ⦃s t : Scope⦄ ⦃e : Expr⦄, (∀ n ∈ e.names, Seen s t (meets s t) ρ n) →
    (∀ n ∈ e.fixed, ρ n = n ∧ meets s t n) → L.rel (x s e) (y t (e.rename ρ))

section Evaluation

variable {σ : Type} {L : Likeness σ} {p : Program} {macros : Macros} {m m' : Macro}
  {parameters : List String} {ρ : String → String} {x y : Expand σ} {h g : Host σ}

/-- A body is expanded alike under other names of the parameters, if these find what they found,
and if whatever the macro leads to has kept its name and finds the same. -/
theorem expanded_renamed (hL : L.Rewords) (hxy : ExpandsRenamed L (p.Agree macros) x y)
    {name : String} (hm : macros.find? name = some m)
    (hexpression : m'.expression = Expr.rename ρ <$> m.expression) {s t : Scope}
    (hown : ∀ n ∈ m.parameters.getD [], s.lookup n = t.lookup (ρ n) ∧ s.lookup n ≠ none)
    (hmet : ∀ met, p.LeadsTo macros name met → ρ met = met ∧ s.lookup met = t.lookup met) :
    L.rel (m.expanded x s) (m'.expanded y t) := by
  unfold Macro.expanded
  rw [hexpression]
  cases he : m.expression with
  | error fault => exact hL rfl
  | ok e =>
    have hnext : ∀ n ∈ p.leads macros name, ρ n = n ∧ p.Agree macros s t n := fun n hn =>
      ⟨(hmet n (.single hn)).1, fun met hlater => (hmet met (.head hn hlater)).2⟩
    refine hxy (fun n hn => ?_) fun n hn => hnext n (Program.mem_leads_of_body hm he (.inl hn))
    -- a parameter finds its argument under its new name, and any other name has kept its own,
    -- because the macro leads to it
    by_cases hparameter : n ∈ m.parameters.getD []
    · exact ⟨(hown n hparameter).1, fun hunbound => absurd hunbound (hown n hparameter).2⟩
    · have hleads : n ∈ p.leads macros name :=
        Program.mem_leads_of_body hm he (.inr ⟨hn, hparameter⟩)
      refine ⟨?_, fun _ => hnext n hleads⟩
      rw [(hnext n hleads).1]
      exact (hmet n (.single hleads)).2

/-- A macro that has kept its parameters is expanded alike, if the scopes agree on what it leads
to. -/
theorem expansion_kept (hL : L.Rewords) (hxy : ExpandsRenamed L (p.Agree macros) x y)
    {name : String} (hm : macros.find? name = some m) {s t : Scope}
    (hagree : p.Agree macros s t name) : Expansion L x y s t (some m) (some m) := by
  have hkept : m.expression = Expr.rename id <$> m.expression := by
    cases m.expression with
    | error fault => rfl
    | ok e => exact congrArg Except.ok e.rename_id.symm
  cases hparameters : m.parameters with
  | none =>
    refine .value hparameters hparameters ?_
    refine expanded_renamed hL hxy hm hkept (fun n hn => ?_) fun met hmet => ⟨rfl, hagree met hmet⟩
    rw [hparameters] at hn
    exact absurd hn List.not_mem_nil
  | some parameters =>
    refine .call hparameters hparameters rfl rfl fun values hlength => ?_
    -- where a name is bound, it is bound to the same argument in both scopes
    have hbound : ∀ n ∈ parameters, (Host.bindParameters parameters values s).lookup n
        = (Host.bindParameters parameters values t).lookup n := by
      intro n hn
      have hsame : (Host.bindParameters (parameters.map id) values t).lookup (id n)
          = (Host.bindParameters parameters values s).lookup n :=
        Scope.lookup_bindParameters_map hlength (fun _ _ _ _ hxy => hxy) hn
      rw [List.map_id] at hsame
      exact hsame.symm
    refine expanded_renamed hL hxy hm hkept (fun n hn => ?_) fun met hmet => ⟨rfl, ?_⟩
    · rw [hparameters] at hn
      exact ⟨hbound n hn, Scope.binds_bindParameters hlength n hn⟩
    -- the names that are not bound here are looked up in the scopes behind the arguments
    · by_cases hn : met ∈ parameters
      · exact hbound met hn
      · rw [Scope.lookup_bindParameters_of_not_mem hn, Scope.lookup_bindParameters_of_not_mem hn]
        exact hagree met hmet

/-- The macro whose parameters are called something else is expanded alike as well: what it leads to
does not notice that they are bound. -/
theorem expansion_renamed (hL : L.Rewords) (hxy : ExpandsRenamed L (p.Agree macros) x y)
    (hfound : macros.find? m.name = some m) (hm : m.Renames parameters ρ m')
    (hsafe : p.Hygienic macros m.name parameters ρ) {s t : Scope}
    (hagree : p.Agree macros s t m.name) : Expansion L x y s t (some m) (some m') := by
  refine .call hm.takes hm.takes' hm.name (List.length_map ρ) fun values hlength => ?_
  refine expanded_renamed hL hxy hfound hm.expression (fun n hn => ?_) fun met hmet => ?_
  · rw [hm.takes] at hn
    exact ⟨(Scope.lookup_bindParameters_map hlength hsafe.apart hn).symm,
      Scope.binds_bindParameters hlength n hn⟩
  -- the one scope binds the old names and the other one the new ones, and neither is looked up
  · obtain ⟨hold, hnew⟩ := hsafe.unmet met hmet
    refine ⟨hsafe.others met hold, ?_⟩
    rw [Scope.lookup_bindParameters_of_not_mem hold, Scope.lookup_bindParameters_of_not_mem hnew]
    exact hagree met hmet

/-- Expressions are evaluated alike under other names, with a macro whose parameters are called
something else. The induction is on the budget for expansions inside expansions. -/
theorem evalWithin_renamed (hL : L.Rewords) (hh : h.Renamed L (p.Agree h.macros) g)
    (hg : g.macros = h.macros.put m.name m') (hfound : h.macros.find? m.name = some m)
    (hm : m.Renames parameters ρ m') (hsafe : p.Hygienic h.macros m.name parameters ρ)
    (budget : Nat) :
    ExpandsRenamed L (p.Agree h.macros) (evalWithin h budget) (evalWithin g budget) := by
  induction budget with
  | zero => exact fun _ _ _ _ _ _ => hL rfl
  | succ budget ih =>
    intro ρ' s t e hnames hfixed
    refine eval_renamed hL hh (fun n hagree => ?_) hnames hfixed
    rw [hg, Table.find?_put]
    -- only one entry of the table has changed
    split
    · next hname =>
      obtain rfl := eq_of_beq hname
      rw [hfound]
      exact expansion_renamed hL ih hfound hm hsafe hagree
    · cases hfind : h.macros.find? n with
      | none => exact .none
      | some other => exact expansion_kept hL ih hfind hagree

/-- So an expression is evaluated alike, if the scopes agree on its names and on what they lead
to. -/
theorem evaluate_renamed (hL : L.Rewords) (hh : h.Renamed L (p.Agree h.macros) g)
    (hg : g.macros = h.macros.put m.name m') (hfound : h.macros.find? m.name = some m)
    (hm : m.Renames parameters ρ m') (hsafe : p.Hygienic h.macros m.name parameters ρ)
    (spare : Nat) {s t : Scope} {e : Expr}
    (hnames : ∀ n ∈ e.names, s.lookup n = t.lookup n ∧ p.Agree h.macros s t n) :
    L.rel (evaluate h spare s e) (evaluate g spare t e) := by
  have hexpands := evalWithin_renamed hL hh hg hfound hm hsafe (h.macros.length + spare)
  have hsame := hexpands (ρ := id) (e := e)
    (fun n hn => ⟨(hnames n hn).1, fun _ => ⟨rfl, (hnames n hn).2⟩⟩)
    fun n hn => ⟨rfl, (hnames n (e.fixed_subset hn)).2⟩
  rw [Expr.rename_id] at hsame
  unfold evaluate
  rw [hg, Table.length_put_of_find? hfound]
  exact hsame

end Evaluation

/-! ## Calls -/

/-- Two setups of one program, which differ in what the parameters of a macro are called. -/
structure Setup.Renames (parameters : List String) (ρ : String → String) (m m' : Macro)
    (S T : Setup) : Prop where
  program : S.analysis.program.Redefines T.analysis.program
  lastLine : T.analysis.lastLine = S.analysis.lastLine
  height : T.analysis.lines.length = S.analysis.lines.length
  layouts : T.analysis.layouts = S.analysis.layouts
  spare : T.analysis.spare = S.analysis.spare
  settings : T.settings = S.settings
  found : S.analysis.macros.find? m.name = some m
  macros : T.analysis.macros = S.analysis.macros.put m.name m'
  renames : m.Renames parameters ρ m'
  safe : S.analysis.program.Hygienic S.analysis.macros m.name parameters ρ

namespace Setup.Renames

variable {parameters : List String} {ρ : String → String} {m m' : Macro} {S T : Setup}
  {s t : Scope}

theorem kindred (h : S.Renames parameters ρ m m' T) : S.Kindred T where
  program := h.program
  lastLine := h.lastLine
  height := h.height
  layouts := h.layouts
  condition argument := by
    rw [h.macros]
    exact conditionValue_put h.found h.renames argument
  defined name := by
    rw [h.macros]
    exact has_put h.found name

theorem operates (h : S.Renames parameters ρ m m' T) : wording.Operates S T :=
  wording_operates h.kindred h.settings h.spare

/-- The scopes agree on what a name leads to in the program. -/
abbrev Agree (S : Setup) (s t : Scope) (name : String) : Prop :=
  S.analysis.program.Agree S.analysis.macros s t name

variable {call call' : Caller}

theorem machineHost_renamed (h : S.Renames parameters ρ m m' T)
    (hcall : ∀ s t name arguments line, Agree S s t name →
      wording.rel (call s name arguments line) (call' t name arguments line)) :
    (machineHost S call).Renamed wording (Agree S) (machineHost T call') where
  toServes := Parallel.machineHost_serves (Operations.acts h.operates)
  call := hcall
  noteMacro _ _ _ line := Run.emitDelta_resembles h.kindred .preprocessing line _ _ {}

/-- Expressions are evaluated alike under scopes that agree on their names and on what these lead
to, if functions are called alike under scopes that agree on them. -/
theorem evaluateWith_renamed (h : S.Renames parameters ρ m m' T)
    (hcall : ∀ s t name arguments line, Agree S s t name →
      wording.rel (call s name arguments line) (call' t name arguments line))
    {e : Expr} (hnames : ∀ n ∈ e.names, s.lookup n = t.lookup n ∧ Agree S s t n) :
    wording.rel (evaluateWith S call s e) (evaluateWith T call' t e) := by
  unfold evaluateWith
  rw [h.spare]
  exact evaluate_renamed (Likeness.resembling_rewords _) (h.machineHost_renamed hcall) h.macros
    h.found h.renames h.safe _ hnames

/-- **Functions are invoked alike under scopes that agree on them.** The induction is on the budget
for calls inside calls: the expressions of a function are among what its name leads to, and so is
what these call. -/
theorem invoke_renamed (h : S.Renames parameters ρ m m' T) (category : Category) (budget : Nat)
    {f : Function} (hf : S.analysis.program.function? f.name = some f)
    (hagree : Agree S s t f.name) (arguments : List Typed) (line : Nat) :
    wording.rel (invoke S category.commentary budget f s arguments line)
      (invoke T category.commentary budget f t arguments line) := by
  induction budget generalizing f s t arguments line with
  | zero =>
    rw [invoke, invoke, h.settings]
    exact wording.fail _ (by simp)
  | succ budget ih =>
    have hplays := Operations.plays h.operates
    rw [invoke, invoke]
    refine Parallel.invocation_alike hplays f arguments line
      (Parallel.runBody_alike hplays.toExecutes
        (Parallel.commentary_alike hplays.toExecutes category) (fun e he => ?_)
        fun d _ => Likeness.resembling_rewords _ rfl)
    refine h.evaluateWith_renamed (fun s t name arguments line hname => ?_) fun n hn => ?_
    -- what is called is looked up by a name of the function, so the scopes agree on it as well
    · refine Parallel.callBy_alike hplays.toActs fun g hg => ?_
      obtain rfl := Parallel.name_of_function? hg
      exact ih (Parallel.function?_name hg) hname arguments line
    · have hleads : n ∈ S.analysis.program.leads S.analysis.macros f.name :=
        Program.mem_leads_of_function hf he hn
      exact ⟨hagree.lookup hleads, hagree.step hleads⟩

theorem callAt_renamed (h : S.Renames parameters ρ m m' T) (category : Category) (active : Nat)
    (s t : Scope) (name : String) (arguments : List Typed) (line : Nat) (hagree : Agree S s t name) :
    wording.rel (callAt S category.commentary active s name arguments line)
      (callAt T category.commentary active t name arguments line) := by
  unfold callAt
  rw [h.settings]
  refine Parallel.callBy_alike (Operations.acts h.operates) fun f hf => ?_
  obtain rfl := Parallel.name_of_function? hf
  exact h.invoke_renamed category _ (Parallel.function?_name hf) hagree arguments line

/-- What is evaluated with nothing bound, or with the same names bound, is evaluated alike. -/
theorem evaluateWith_alike (h : S.Renames parameters ρ m m' T) (category : Category) (active : Nat)
    (scope : Scope) (e : Expr) :
    wording.rel (evaluateWith S (callAt S category.commentary active) scope e)
      (evaluateWith T (callAt T category.commentary active) scope e) :=
  h.evaluateWith_renamed (h.callAt_renamed category active) fun n _ => ⟨rfl, .refl scope n⟩

end Setup.Renames

end Stepwise
