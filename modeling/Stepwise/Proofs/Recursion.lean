/-
Which functions are recursive.

A search along the calls is right about what it is for because of one invariant: the
function that it looks for is not among those that it has seen, and whoever a seen
function calls has been seen or is pending. So every chain of calls that begins where
the search has been goes through something that is still pending, and dropping what was
seen before loses no chain. When nothing is pending there is no chain left.

The graph is any table of names. Callees that it has no entry for, names that are
pending more than once and chains around the start are not excluded.
-/
import Stepwise.CallGraph
import Stepwise.Proofs.Table
import Mathlib.Logic.Relation

set_option autoImplicit false

namespace Stepwise

namespace CallGraph

/-- One function calls another. -/
def Calls (graph : CallGraph) (caller callee : String) : Prop :=
  callee ∈ graph.callees caller

theorem mem_keys_of_calls {graph : CallGraph} {caller callee : String}
    (h : graph.Calls caller callee) : caller ∈ graph.keys := by
  cases hfound : graph.find? caller with
  | none =>
    rw [Calls, callees, hfound] at h
    exact absurd h List.not_mem_nil
  | some names =>
    obtain ⟨key, hmem, hkey⟩ := Table.mem_of_find? hfound
    obtain rfl : key = caller := eq_of_beq hkey
    exact List.mem_map_of_mem hmem

end CallGraph

namespace Search

variable {graph : CallGraph} {target : String} {s later : Search}

/-- What every search for a function keeps. -/
structure Sound (graph : CallGraph) (target : String) (s : Search) : Prop where
  /-- The function is not among those that were seen. -/
  missing : target ∉ s.seen
  /-- The callees of what was seen were seen or are pending. -/
  closed : ∀ caller ∈ s.seen, ∀ callee, graph.Calls caller callee →
    callee ∈ s.seen ∨ callee ∈ s.pending

/-- A chain of calls leads from something that is pending to a function. -/
def Reaches (graph : CallGraph) (target : String) (s : Search) : Prop :=
  ∃ name ∈ s.pending, Relation.ReflTransGen graph.Calls name target

/-- A step keeps the invariant. -/
theorem Sound.next (h : s.Sound graph target) (hnext : graph.next? target s = some later) :
    later.Sound graph target := by
  obtain ⟨name, rest, hpending, htarget, ⟨hseen, rfl⟩ | ⟨-, rfl⟩⟩ := CallGraph.next?_cases hnext
  · refine ⟨h.missing, fun caller hcaller callee hcall => ?_⟩
    -- what is dropped was seen, so nobody's callee is lost with it
    by_cases hname : callee = name
    · exact Or.inl (hname ▸ hseen)
    · have hclosed := h.closed caller hcaller callee hcall
      rw [hpending, List.mem_cons] at hclosed
      simpa [hname] using hclosed
  · refine ⟨?_, fun caller hcaller callee hcall => ?_⟩
    · rw [List.mem_cons, not_or]
      exact ⟨fun hname => htarget hname.symm, h.missing⟩
    · dsimp only at hcaller ⊢
      rw [List.mem_cons, List.mem_append]
      by_cases hname : caller = name
      · exact Or.inr (Or.inl (hname ▸ hcall))
      · have hbefore : caller ∈ s.seen := by simpa [hname] using hcaller
        have hclosed := h.closed caller hbefore callee hcall
        rw [hpending, List.mem_cons] at hclosed
        grind

/-- A chain of calls that begins with what was seen goes through something that is pending. -/
theorem Sound.reaches_of_seen (h : s.Sound graph target) {name : String}
    (hchain : Relation.ReflTransGen graph.Calls name target) (hseen : name ∈ s.seen) :
    s.Reaches graph target := by
  induction hchain using Relation.ReflTransGen.head_induction_on with
  | refl => exact absurd hseen h.missing
  | head hcall hchain ih =>
    rcases h.closed _ hseen _ hcall with hcallee | hcallee
    · exact ih hcallee
    · exact ⟨_, hcallee, hchain⟩

/-- A step loses no chain of calls, and makes none. -/
theorem Sound.reaches_next (h : s.Sound graph target)
    (hnext : graph.next? target s = some later) :
    later.Reaches graph target ↔ s.Reaches graph target := by
  have hlater := h.next hnext
  obtain ⟨name, rest, hpending, htarget, ⟨hseen, rfl⟩ | ⟨-, rfl⟩⟩ := CallGraph.next?_cases hnext
  · constructor
    · rintro ⟨other, hother, hchain⟩
      exact ⟨other, by rw [hpending]; exact List.mem_cons_of_mem _ hother, hchain⟩
    · rintro ⟨other, hother, hchain⟩
      rw [hpending, List.mem_cons] at hother
      rcases hother with rfl | hother
      · exact hlater.reaches_of_seen hchain hseen
      · exact ⟨other, hother, hchain⟩
  · constructor
    · rintro ⟨other, hother, hchain⟩
      dsimp only at hother
      rw [List.mem_append] at hother
      rcases hother with hcallee | hother
      · exact ⟨name, by rw [hpending]; exact List.mem_cons_self, hchain.head hcallee⟩
      · exact ⟨other, by rw [hpending]; exact List.mem_cons_of_mem _ hother, hchain⟩
    · rintro ⟨other, hother, hchain⟩
      rw [hpending, List.mem_cons] at hother
      rcases hother with rfl | hother
      · exact hlater.reaches_of_seen hchain List.mem_cons_self
      · exact ⟨other, List.mem_append_right _ hother, hchain⟩

/-- A search that has come to its end has found the function, or has nothing pending. -/
theorem reaches_iff_of_next?_eq_none (h : graph.next? target s = none) :
    s.Reaches graph target ↔ s.pending ≠ [] := by
  obtain ⟨seen, pending⟩ := s
  cases pending with
  | nil => simp [Reaches]
  | cons name rest =>
    have hname : name = target := by
      by_cases hname : name = target
      · exact hname
      · by_cases hseen : name ∈ seen <;> simp [CallGraph.next?, hname, hseen] at h
    simp only [ne_eq, reduceCtorEq, not_false_eq_true, iff_true]
    exact ⟨name, List.mem_cons_self, hname ▸ .refl⟩

/-- A whole search ends with something pending exactly if a chain of calls leads to the function. -/
theorem Sound.search_pending (h : s.Sound graph target) :
    (graph.search target s).pending ≠ [] ↔ s.Reaches graph target := by
  fun_induction CallGraph.search graph target s with
  | case1 s hend => exact (reaches_iff_of_next?_eq_none hend).symm
  | case2 s later hnext ih => exact (ih (h.next hnext)).trans (h.reaches_next hnext)

/-- No search goes on for ever. -/
theorem next?_wellFounded (graph : CallGraph) (target : String) :
    WellFounded fun later s : Search => graph.next? target s = some later :=
  Subrelation.wf CallGraph.next?_shrinks
    (measure fun s : Search => graph.unseen s.seen + s.pending.length).wf

end Search

namespace CallGraph

theorem leadsBack_iff {graph : CallGraph} {name : String} :
    graph.leadsBack name = true ↔ Relation.TransGen graph.Calls name name := by
  have hsound : Search.Sound graph name { seen := [], pending := graph.callees name } :=
    ⟨List.not_mem_nil, fun _ hseen => absurd hseen List.not_mem_nil⟩
  rw [leadsBack, Bool.not_eq_true', List.isEmpty_eq_false_iff, hsound.search_pending,
    Relation.TransGen.head'_iff]
  rfl

theorem mem_recursive {graph : CallGraph} {name : String} :
    name ∈ graph.recursive ↔ Relation.TransGen graph.Calls name name := by
  rw [recursive, List.mem_filter, leadsBack_iff]
  refine ⟨And.right, fun hback => ⟨?_, hback⟩⟩
  obtain ⟨callee, hcall, -⟩ := Relation.TransGen.head'_iff.1 hback
  exact mem_keys_of_calls hcall

theorem mem_selfCalling {graph : CallGraph} {name : String} :
    name ∈ graph.selfCalling ↔ graph.Calls name name := by
  rw [selfCalling, List.mem_filter, List.contains_iff_mem]
  exact ⟨And.right, fun hcall => ⟨mem_keys_of_calls hcall, hcall⟩⟩

end CallGraph

/-! ## The graph of a program -/

theorem Function.mem_callees {names : List String} {f : Function} {name : String} :
    name ∈ f.callees names ↔ name ∈ names ∧ ∃ call ∈ f.calls, call.callee = name := by
  simp [Function.callees, and_comm]

/-- The last of several functions with one name says who is called. -/
theorem Program.callGraph_calls {p : Program} {front back : List Function} {f : Function}
    (hsplit : p.functions = front ++ f :: back) (hlast : ∀ other ∈ back, other.name ≠ f.name)
    (callee : String) :
    p.callGraph.Calls f.name callee ↔
      (∃ other ∈ p.functions, other.name = callee) ∧ ∃ call ∈ f.calls, call.callee = callee := by
  have hfound : p.callGraph.find? f.name
      = some (f.callees (p.functions.map Function.name)) := by
    rw [Program.callGraph]
    generalize p.functions.map Function.name = names
    rw [hsplit, List.map_append, List.map_cons]
    refine Table.find?_ofEntries_last (beq_self_eq_true f.name) fun e he => ?_
    obtain ⟨other, hother, rfl⟩ := List.mem_map.1 he
    exact beq_eq_false_iff_ne.2 (hlast other hother)
  rw [CallGraph.Calls, CallGraph.callees, hfound, Option.getD_some, Function.mem_callees,
    List.mem_map]

/-! ## The main result -/

/-- **Recursion is detected exactly.** A search ends on every graph, whatever it has seen and has
pending. A function of a program counts as recursive exactly if a chain of one or more calls leads
from it back to itself, and as calling itself exactly if the chain can be a single call. -/
theorem recursion_is_detected (p : Program) :
    (∀ (graph : CallGraph) (target : String),
      WellFounded fun later s : Search => graph.next? target s = some later) ∧
    (∀ name, name ∈ p.callGraph.recursive ↔ Relation.TransGen p.callGraph.Calls name name) ∧
    (∀ name, name ∈ p.callGraph.selfCalling ↔
      name ∈ p.callGraph.recursive ∧ p.callGraph.Calls name name) ∧
    ∀ front f back, p.functions = front ++ f :: back → (∀ other ∈ back, other.name ≠ f.name) →
      ∀ callee, p.callGraph.Calls f.name callee ↔
        (∃ other ∈ p.functions, other.name = callee) ∧ ∃ call ∈ f.calls, call.callee = callee := by
  refine ⟨Search.next?_wellFounded, fun name => CallGraph.mem_recursive, fun name => ?_,
    fun front f back => Program.callGraph_calls⟩
  rw [CallGraph.mem_selfCalling, CallGraph.mem_recursive]
  exact ⟨fun hcall => ⟨.single hcall, hcall⟩, And.right⟩

end Stepwise
