/-
Which functions of a program call which.

A function is recursive if a chain of one or more calls leads from it back to
itself. A search for such a chain knows which functions it has seen and which it
has yet to look at; it adds the callees of a function when it sees it for the
first time. What is pending may grow, so it is not what ends the search: there
are only so many functions to be seen, and each adds its callees once.
-/
import Stepwise.Syntax.Program
import Stepwise.Table

set_option autoImplicit false

namespace Stepwise

/-- The program's functions that each function calls, by name. -/
abbrev CallGraph := Table String (List String)

/-- How far a search along the calls has come. -/
structure Search where
  /-- The functions whose callees have been added. -/
  seen : List String
  /-- The functions that are yet to be looked at, the next one first. -/
  pending : List String
deriving Repr, DecidableEq

namespace CallGraph

/-- The functions that a function calls. -/
def callees (graph : CallGraph) (name : String) : List String :=
  (graph.find? name).getD []

/-- What the search for a function is after it has looked at the next one. It has come to its end if
nothing is pending or the function stands next. -/
def next? (graph : CallGraph) (target : String) (s : Search) : Option Search :=
  match s.pending with
  | [] => none
  | name :: rest =>
    if name = target then none
    else if s.seen.contains name then some { s with pending := rest }
    else some { seen := name :: s.seen, pending := graph.callees name ++ rest }

/-- How much a search can still look at: each function that it has not seen, with its callees. -/
def unseen (graph : CallGraph) (seen : List String) : Nat :=
  match graph with
  | [] => 0
  | (name, callees) :: rest =>
    (if seen.contains name then 0 else callees.length + 1) + unseen rest seen

theorem unseen_cons_le (graph : CallGraph) (name : String) (seen : List String) :
    graph.unseen (name :: seen) ≤ graph.unseen seen := by
  induction graph with
  | nil => exact Nat.le_refl 0
  | cons e rest ih =>
    rw [unseen, unseen]
    refine Nat.add_le_add ?_ ih
    by_cases hseen : e.1 ∈ seen
    · simp [hseen]
    · by_cases hname : e.1 = name <;> simp [hseen, hname]

/-- A function that is seen for the first time takes its callees with it. -/
theorem unseen_cons_of_callees {graph : CallGraph} {name : String} {seen : List String}
    (hseen : name ∉ seen) (hcallees : graph.callees name ≠ []) :
    graph.unseen (name :: seen) + ((graph.callees name).length + 1) ≤ graph.unseen seen := by
  induction graph with
  | nil => exact absurd rfl hcallees
  | cons e rest ih =>
    by_cases hname : e.1 = name
    · have hfirst : callees (e :: rest) name = e.2 := by
        simp [callees, Table.find?, hname]
      have hrest := unseen_cons_le rest name seen
      rw [hfirst, unseen, unseen]
      simp [hname, hseen]
      omega
    · have hlater : callees (e :: rest) name = callees rest name := by
        simp [callees, Table.find?, hname]
      rw [hlater] at hcallees ⊢
      have hrest := ih hcallees
      rw [unseen, unseen]
      simp [hname]
      omega

/-- A step of a search looks at a function that is not the one it is for: one that was seen is
dropped, any other is seen and its callees are added. -/
theorem next?_cases {graph : CallGraph} {target : String} {s later : Search}
    (h : graph.next? target s = some later) :
    ∃ name rest, s.pending = name :: rest ∧ name ≠ target ∧
      (name ∈ s.seen ∧ later = ⟨s.seen, rest⟩ ∨
        name ∉ s.seen ∧ later = ⟨name :: s.seen, graph.callees name ++ rest⟩) := by
  obtain ⟨seen, pending⟩ := s
  cases pending with
  | nil => simp [next?] at h
  | cons name rest =>
    by_cases htarget : name = target
    · simp [next?, htarget] at h
    · by_cases hseen : name ∈ seen
      · exact ⟨name, rest, rfl, htarget, Or.inl
          ⟨hseen, by simpa [next?, htarget, hseen, eq_comm] using h⟩⟩
      · exact ⟨name, rest, rfl, htarget, Or.inr
          ⟨hseen, by simpa [next?, htarget, hseen, eq_comm] using h⟩⟩

/-- With every step of a search less is left. -/
theorem next?_shrinks {graph : CallGraph} {target : String} {s later : Search}
    (h : graph.next? target s = some later) :
    graph.unseen later.seen + later.pending.length < graph.unseen s.seen + s.pending.length := by
  obtain ⟨name, rest, hpending, -, ⟨-, rfl⟩ | ⟨hseen, rfl⟩⟩ := next?_cases h
  · simp [hpending]
  · rw [hpending, List.length_append, List.length_cons]
    by_cases hcallees : graph.callees name = []
    · -- nothing is added, and what is left to be seen has not grown
      have hunseen := unseen_cons_le graph name s.seen
      simp [hcallees]
      omega
    · have hunseen := unseen_cons_of_callees hseen hcallees
      dsimp only
      omega

/-- Where a search ends. -/
def search (graph : CallGraph) (target : String) (s : Search) : Search :=
  match _h : graph.next? target s with
  | none => s
  | some later => graph.search target later
termination_by graph.unseen s.seen + s.pending.length
decreasing_by exact next?_shrinks _h

/-- Does a chain of one or more calls lead from a function to itself? -/
def leadsBack (graph : CallGraph) (name : String) : Bool :=
  -- a search that does not find the function ends with nothing pending
  !(graph.search name { seen := [], pending := graph.callees name }).pending.isEmpty

/-- The functions from which a chain of calls leads back. -/
def recursive (graph : CallGraph) : List String :=
  graph.keys.filter graph.leadsBack

/-- The functions that call themselves. -/
def selfCalling (graph : CallGraph) : List String :=
  graph.keys.filter fun name => (graph.callees name).contains name

end CallGraph

/-- The program's functions that a function calls, each named once. -/
def Function.callees (names : List String) (f : Function) : List String :=
  ((f.calls.map Call.callee).filter names.contains).eraseDups

/-- The call graph of a program; of two functions with one name the later counts. -/
def Program.callGraph (p : Program) : CallGraph :=
  let names := p.functions.map Function.name
  Table.ofEntries (p.functions.map fun f => (f.name, f.callees names))

end Stepwise
