/-
Requests for space of any size.

The machine asks for whole numbers of bytes, and its cursor counts in them.
Here a request may be any value: a double moves the cursor by a double, and
what is no number cannot be asked for. `stack_requests` and `heap_requests`
say that on whole numbers both cursors do the same, so what is granted there
stays apart as it does for the machine's (`RequestCursor.answers_requests`).
-/
import Stepwise.Machine.Cursor
import Stepwise.Value.Arithmetic

set_option autoImplicit false

namespace Stepwise

/-- The next free addresses, which need not be whole. -/
structure RequestCursor where
  /-- The next stack address. -/
  nextStack : Number
  /-- The next heap address. -/
  nextHeap : Number
  /-- Where the heap begins. -/
  heapBase : Number

/-- The cursor for requests of any size that stands where a cursor for whole sizes stands. -/
def Cursor.requests (c : Cursor) : RequestCursor :=
  ⟨.int c.nextStack, .int c.nextHeap, .int c.heapBase⟩

namespace RequestCursor

/-- The cursor of an empty stack and heap. -/
def startingAt (stackBase heapBase : Number) : RequestCursor :=
  ⟨stackBase, heapBase, heapBase⟩

/-- The number a value is. -/
def numberOf : Value → Except Fault Number
  | .num n => .ok n
  | _ => .error .wrongShape

/-- The fault of a request that does not fit; addresses that are not whole cannot be shown. -/
def overflow (size : Number) : Number → Number → Fault
  | .int address, .int heapBase => .stackOverflow size.text address heapBase
  | _, _ => .badValue

/-- Reserves stack space. -/
def stack (c : RequestCursor) (size : Value) : Except Fault (Number × RequestCursor) := do
  let size ← numberOf size
  let stop ← c.nextStack.add size
  if c.heapBase.less stop then .error (overflow size c.nextStack c.heapBase)
  else return (c.nextStack, { c with nextStack := stop })

/-- A size of at least one. -/
def atLeastOne (size : Number) : Number :=
  if size.less (.int 1) then .int 1 else size

/-- Reserves heap space. -/
def heap (c : RequestCursor) (size : Value) : Except Fault (Number × RequestCursor) := do
  let size ← numberOf size
  let next ← c.nextHeap.add (atLeastOne size)
  return (c.nextHeap, { c with nextHeap := next })

end RequestCursor

/-! ## Whole sizes -/

/-- Whole numbers are ordered as they are. -/
theorem Number.less_int (m n : Int) : Number.less (.int m) (.int n) = decide (m < n) := by
  unfold Number.less Number.compare?
  by_cases h : m < n
  · have hc : compare m n = .lt := by simp [compare, compareOfLessAndEq, h]
    simp [hc, h]
  · have hc : compare m n ≠ .lt := by
      intro hc
      simp only [compare, compareOfLessAndEq] at hc
      split at hc
      · contradiction
      · split at hc <;> simp at hc
    simpa [h] using hc

/-- On whole sizes, stack requests are those of the machine's cursor. -/
theorem stack_requests (c : Cursor) (size : Int) :
    c.requests.stack (.int size) = (c.stack size).map fun (a, d) => (.int a, d.requests) := by
  unfold RequestCursor.stack Cursor.stack
  by_cases h : c.heapBase < c.nextStack + size
  · simp [Cursor.requests, RequestCursor.numberOf, Number.add, Number.combine, Number.less_int,
      RequestCursor.overflow, Number.text, bind, Except.bind, Except.map, h]
  · simp [Cursor.requests, RequestCursor.numberOf, Number.add, Number.combine, Number.less_int,
      bind, Except.bind, Except.map, pure, Except.pure, h]

/-- On whole sizes, heap requests are those of the machine's cursor. -/
theorem heap_requests (c : Cursor) (size : Int) :
    c.requests.heap (.int size) = .ok (.int (c.heap size).1, (c.heap size).2.requests) := by
  unfold RequestCursor.heap Cursor.heap
  have hmax : RequestCursor.atLeastOne (.int size) = .int (max size 1) := by
    unfold RequestCursor.atLeastOne
    rw [Number.less_int]
    by_cases h : size < 1
    · have hmax : max size 1 = 1 := by omega
      rw [hmax]
      simp [h]
    · have hmax : max size 1 = size := by omega
      rw [hmax]
      simp [h]
  simp [Cursor.requests, RequestCursor.numberOf, hmax, Number.add, Number.combine, bind,
    Except.bind, pure, Except.pure]

end Stepwise
