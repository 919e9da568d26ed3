/-
Space that a cursor grants.

A cursor is asked for space of the stack and of the heap, in any order. Stack space is granted from
the stack's base on, each range right behind the one before, as long as it does not reach the heap;
what would reach it is refused, and the cursor stays where it is. Heap space is always granted, from
the heap's base on, and a request for nothing moves the cursor too. So ranges never overlap, in
whatever order the requests come.

What one request does is said once, by the relation `Cursor.Answers`: a cursor, and answers that it
gives one after the other. Everything else is an induction on it.

The machine asks for whole sizes only. A cursor that can be asked for any size gives the same answers
to such requests, so what holds of them holds for it as well.
-/
import Stepwise.Machine.Request
import Stepwise.Proofs.Moves
import Mathlib

set_option autoImplicit false

namespace Stepwise

/-! ## Requests and ranges -/

/-- A request for so many bytes. -/
inductive Request where
  /-- Of the stack. -/
  | stack (size : Nat)
  /-- Of the heap. -/
  | heap (size : Nat)
deriving Repr, DecidableEq

/-- A request, and the address of the space that was granted or the fault of one that was not. -/
abbrev Answer := Request × Except Fault Int

/-- A range of addresses that was granted. -/
structure Grant where
  /-- Where it begins. -/
  start : Int
  /-- The bytes that were asked for. -/
  size : Nat
deriving Repr, DecidableEq

namespace Grant

/-- The address behind the last byte. -/
def stop (g : Grant) : Int :=
  g.start + g.size

/-- The addresses of the bytes. -/
def bytes (g : Grant) : Set Int :=
  Set.Ico g.start g.stop

variable {g h : Grant}

theorem start_le_stop (g : Grant) : g.start ≤ g.stop := by
  unfold stop
  omega

/-- A range has no byte in common with one that begins behind it. -/
theorem disjoint_of_le (hle : g.stop ≤ h.start) : Disjoint g.bytes h.bytes := by
  rw [bytes, bytes, Set.Ico_disjoint_Ico]
  exact (min_le_left _ _).trans (hle.trans (le_max_right _ _))

/-- Each range begins where the one before it stops, and the first one at this address. -/
def Consecutive (start : Int) : List Grant → Prop
  | [] => True
  | g :: rest => g.start = start ∧ Consecutive g.stop rest

namespace Consecutive

variable {start : Int} {grants : List Grant}

theorem start_le (hgrants : Consecutive start grants) : ∀ g ∈ grants, start ≤ g.start := by
  induction grants generalizing start with
  | nil => exact fun g hg => by cases hg
  | cons g rest ih =>
    obtain ⟨rfl, hrest⟩ := hgrants
    rw [List.forall_mem_cons]
    exact ⟨le_rfl, fun h hh => g.start_le_stop.trans (ih hrest h hh)⟩

theorem pairwise (hgrants : Consecutive start grants) :
    grants.Pairwise fun g h => g.stop ≤ h.start := by
  induction grants generalizing start with
  | nil => exact List.Pairwise.nil
  | cons g rest ih => exact List.pairwise_cons.2 ⟨hgrants.2.start_le, ih hgrants.2⟩

end Consecutive

end Grant

namespace Answer

/-- The stack space that was granted. -/
def onStack? : Answer → Option Grant
  | (.stack size, .ok start) => some ⟨start, size⟩
  | _ => none

/-- The heap space that was granted. -/
def onHeap? : Answer → Option Grant
  | (.heap size, .ok start) => some ⟨start, size⟩
  | _ => none

/-- The stack space that was granted, first to last. -/
def onStack (answers : List Answer) : List Grant :=
  answers.filterMap onStack?

/-- The heap space that was granted, first to last. -/
def onHeap (answers : List Answer) : List Grant :=
  answers.filterMap onHeap?

/-- The bytes of the stack that were granted. -/
def stackBytes (answers : List Answer) : Nat :=
  ((onStack answers).map Grant.size).sum

end Answer

/-! ## One request -/

namespace Cursor

/-- The answer to a request and the cursor afterwards, which is the same one if nothing was
granted. -/
def answer (c : Cursor) : Request → Except Fault Int × Cursor
  | .stack size =>
    match c.stack size with
    | .ok (address, next) => (.ok address, next)
    | .error fault => (.error fault, c)
  | .heap size => (.ok (c.heap size).1, (c.heap size).2)

/-- The answers to requests, one after the other. -/
def answers (c : Cursor) : List Request → List Answer
  | [] => []
  | request :: rest => (request, (c.answer request).1) :: (c.answer request).2.answers rest

/-- Answers that a cursor may give: stack space is granted where the cursor stands if it fits below
the heap and refused if it does not, and heap space is granted where the cursor stands. -/
inductive Answers : Cursor → List Answer → Prop where
  | nil (c : Cursor) : Answers c []
  | granted {c : Cursor} {size : Nat} {rest : List Answer}
      (hroom : c.nextStack + size ≤ c.heapBase)
      (h : Answers { c with nextStack := c.nextStack + size } rest) :
      Answers c ((.stack size, .ok c.nextStack) :: rest)
  | refused {c : Cursor} {size : Nat} {rest : List Answer} (fault : Fault)
      (hfull : c.heapBase < c.nextStack + size) (h : Answers c rest) :
      Answers c ((.stack size, .error fault) :: rest)
  | heap {c : Cursor} {size : Nat} {rest : List Answer}
      (h : Answers { c with nextHeap := c.nextHeap + max (size : Int) 1 } rest) :
      Answers c ((.heap size, .ok c.nextHeap) :: rest)

/-- **What a cursor answers.** -/
theorem answers_spec (c : Cursor) (requests : List Request) : c.Answers (c.answers requests) := by
  induction requests generalizing c with
  | nil => exact .nil c
  | cons request rest ih =>
    cases request with
    | stack size =>
      rw [answers, answer]
      cases hstack : c.stack size with
      | ok granted =>
        obtain ⟨address, next⟩ := granted
        obtain ⟨hroom, rfl, rfl⟩ := stack_eq_ok.1 hstack
        exact .granted hroom (ih _)
      | error fault =>
        -- the cursor goes on from where it stands
        refine .refused fault ?_ (ih c)
        by_contra hroom
        rw [stack_eq_ok.2 ⟨Int.not_lt.1 hroom, rfl, rfl⟩] at hstack
        cases hstack
    | heap size => exact .heap (ih _)

theorem map_fst_answers (c : Cursor) (requests : List Request) :
    (c.answers requests).map Prod.fst = requests := by
  induction requests generalizing c with
  | nil => rfl
  | cons request rest ih => rw [answers, List.map_cons, ih]

end Cursor

/-! ## Requests of any size -/

namespace RequestCursor

/-- The answer to a request and the cursor afterwards, which is the same one if nothing was
granted. -/
def answer (c : RequestCursor) (request : Request) : Except Fault Number × RequestCursor :=
  let granted :=
    match request with
    | .stack size => c.stack (.int size)
    | .heap size => c.heap (.int size)
  match granted with
  | .ok (address, next) => (.ok address, next)
  | .error fault => (.error fault, c)

/-- The answers to requests, one after the other. -/
def answers (c : RequestCursor) : List Request → List (Request × Except Fault Number)
  | [] => []
  | request :: rest => (request, (c.answer request).1) :: (c.answer request).2.answers rest

theorem answer_requests (c : Cursor) (request : Request) :
    c.requests.answer request
      = ((c.answer request).1.map Number.int, (c.answer request).2.requests) := by
  cases request with
  | stack size =>
    simp only [answer, Cursor.answer, stack_requests]
    cases c.stack size with
    | ok granted => rfl
    | error fault => rfl
  | heap size =>
    simp only [answer, Cursor.answer, heap_requests]
    rfl

/-- Asked for whole sizes, a cursor for sizes of any kind gives the answers of the machine's. -/
theorem answers_requests (c : Cursor) (requests : List Request) :
    c.requests.answers requests
      = (c.answers requests).map fun given => (given.1, given.2.map Number.int) := by
  induction requests generalizing c with
  | nil => rfl
  | cons request rest ih =>
    rw [answers, Cursor.answers, List.map_cons, answer_requests]
    exact congrArg (List.cons _) (ih _)

end RequestCursor

/-! ## All requests -/

namespace Cursor.Answers

open Answer

variable {c : Cursor} {answers : List Answer}

theorem consecutive (h : c.Answers answers) : Grant.Consecutive c.nextStack (onStack answers) := by
  induction h with
  | nil => trivial
  | granted hroom _ ih => exact ⟨rfl, ih⟩
  | refused _ _ _ ih => exact ih
  | heap _ ih => exact ih

theorem stop_le (h : c.Answers answers) : ∀ g ∈ onStack answers, g.stop ≤ c.heapBase := by
  induction h with
  | nil => exact fun g hg => by cases hg
  | granted hroom _ ih => exact List.forall_mem_cons.2 ⟨hroom, ih⟩
  | refused _ _ _ ih => exact ih
  | heap _ ih => exact ih

theorem nextHeap_le (h : c.Answers answers) : ∀ g ∈ onHeap answers, c.nextHeap ≤ g.start := by
  induction h with
  | nil => exact fun g hg => by cases hg
  | granted _ _ ih => exact ih
  | refused _ _ _ ih => exact ih
  | heap _ ih =>
    refine List.forall_mem_cons.2 ⟨le_rfl, fun g hg => ?_⟩
    have hbehind := ih g hg
    dsimp only at hbehind
    omega

/-- Heap space begins behind the heap space granted before, also where that takes no byte. -/
theorem heap_pairwise (h : c.Answers answers) :
    (onHeap answers).Pairwise fun g g' => g.start < g'.start ∧ g.stop ≤ g'.start := by
  induction h with
  | nil => exact List.Pairwise.nil
  | granted _ _ ih => exact ih
  | refused _ _ _ ih => exact ih
  | heap hrest ih =>
    refine List.pairwise_cons.2 ⟨fun g hg => ?_, ih⟩
    have hbehind := hrest.nextHeap_le g hg
    dsimp only [Grant.stop] at hbehind ⊢
    omega

theorem heap_granted (h : c.Answers answers) {size : Nat} {answer : Except Fault Int}
    (hmem : (.heap size, answer) ∈ answers) : ∃ address, answer = .ok address := by
  induction h with
  | nil => cases hmem
  | granted _ _ ih | refused _ _ _ ih =>
    rcases List.mem_cons.1 hmem with heq | hmem
    · cases heq
    · exact ih hmem
  | heap _ ih =>
    rcases List.mem_cons.1 hmem with heq | hmem
    · exact ⟨_, (Prod.mk.inj heq).2⟩
    · exact ih hmem

/-- Stack space is refused exactly if it does not fit with what was granted before. -/
theorem refused_iff (h : c.Answers answers) {front back : List Answer} {size : Nat}
    {answer : Except Fault Int} (hsplit : answers = front ++ (.stack size, answer) :: back) :
    (∃ fault, answer = .error fault) ↔
      c.heapBase - c.nextStack < stackBytes front + size := by
  -- the request is the first one, or what is granted first counts among what was granted before it
  induction h generalizing front with
  | nil => simp at hsplit
  | @granted c asked rest hroom _ ih =>
    cases front with
    | nil =>
      obtain ⟨heq, _⟩ := List.cons.inj hsplit
      obtain ⟨⟨⟩, rfl⟩ := Prod.mk.inj heq
      refine iff_of_false (fun ⟨_, herror⟩ => by cases herror) ?_
      show ¬c.heapBase - c.nextStack < ((0 : Nat) : Int) + size
      omega
    | cons first front =>
      obtain ⟨rfl, hrest⟩ := List.cons.inj hsplit
      rw [ih hrest]
      have hbytes : stackBytes ((.stack asked, .ok c.nextStack) :: front)
          = asked + stackBytes front := rfl
      dsimp only
      omega
  | @refused c asked rest fault hfull _ ih =>
    cases front with
    | nil =>
      obtain ⟨heq, _⟩ := List.cons.inj hsplit
      obtain ⟨⟨⟩, rfl⟩ := Prod.mk.inj heq
      refine iff_of_true ⟨fault, rfl⟩ ?_
      show c.heapBase - c.nextStack < ((0 : Nat) : Int) + size
      omega
    | cons first front =>
      obtain ⟨rfl, hrest⟩ := List.cons.inj hsplit
      exact (ih hrest :)
  | heap _ ih =>
    cases front with
    | nil => cases hsplit
    | cons first front =>
      obtain ⟨rfl, hrest⟩ := List.cons.inj hsplit
      exact (ih hrest :)

end Cursor.Answers

/-- **What a cursor grants never overlaps, and the stack is used up to its last byte.** All requests
are answered. Stack space is consecutive from the stack's base on and ends below the heap; heap space
is always granted, from the heap's base on and at rising addresses; and no two ranges have a byte in
common. Stack space is refused exactly if it is more than what the requests before it have left
between the two bases. -/
theorem grants_stay_apart (stackBase heapBase : Int) (requests : List Request) :
    let answers := (Cursor.startingAt stackBase heapBase).answers requests
    let stack := Answer.onStack answers
    let heap := Answer.onHeap answers
    answers.map Prod.fst = requests ∧
    Grant.Consecutive stackBase stack ∧
    stack.Pairwise (fun g g' => Disjoint g.bytes g'.bytes) ∧
    (∀ g ∈ stack, stackBase ≤ g.start ∧ g.stop ≤ heapBase) ∧
    heap.Pairwise (fun g g' => g.start < g'.start ∧ Disjoint g.bytes g'.bytes) ∧
    (∀ g ∈ heap, heapBase ≤ g.start) ∧
    (∀ g ∈ stack, ∀ g' ∈ heap, Disjoint g.bytes g'.bytes) ∧
    (∀ size answer, (.heap size, answer) ∈ answers → ∃ address, answer = .ok address) ∧
    ∀ front (size : Nat) answer back, answers = front ++ (.stack size, answer) :: back →
      ((∃ fault, answer = .error fault) ↔
        heapBase - stackBase < Answer.stackBytes front + size) := by
  intro answers stack heap
  have h : (Cursor.startingAt stackBase heapBase).Answers answers := Cursor.answers_spec _ requests
  have hstack : Grant.Consecutive stackBase stack := h.consecutive
  have hstop : ∀ g ∈ stack, g.stop ≤ heapBase := h.stop_le
  have hheap : ∀ g ∈ heap, heapBase ≤ g.start := h.nextHeap_le
  refine ⟨Cursor.map_fst_answers _ requests, hstack,
    hstack.pairwise.imp fun hle => Grant.disjoint_of_le hle,
    fun g hg => ⟨hstack.start_le g hg, hstop g hg⟩,
    h.heap_pairwise.imp fun hle => ⟨hle.1, Grant.disjoint_of_le hle.2⟩, hheap,
    fun g hg g' hg' => Grant.disjoint_of_le ((hstop g hg).trans (hheap g' hg')),
    fun size answer hmem => h.heap_granted hmem,
    fun front size answer back hsplit => h.refused_iff hsplit⟩

/-- A stack of eight bytes has room for eight bytes and then for nothing more, whatever the heap is
asked for in between. -/
theorem full_stack_refuses :
    (Cursor.startingAt 0x100 0x108).answers [.stack 8, .heap 0, .stack 1, .stack 0, .heap 4]
      = [(.stack 8, .ok 0x100), (.heap 0, .ok 0x108)] ++
          (.stack 1, .error (.stackOverflow "1" 0x108 0x108)) ::
            [(.stack 0, .ok 0x108), (.heap 4, .ok 0x109)] ∧
    (0x108 - 0x100 : Int)
      < Answer.stackBytes [(.stack 8, .ok 0x100), (.heap 0, .ok 0x108)] + (1 : Nat) := by
  obtain ⟨_, _, _, _, _, _, _, _, hrefused⟩ :=
    grants_stay_apart 0x100 0x108 [.stack 8, .heap 0, .stack 1, .stack 0, .heap 4]
  refine ⟨?answered, (hrefused _ _ _ _ ?answered).1 ⟨_, rfl⟩⟩
  rfl

end Stepwise
