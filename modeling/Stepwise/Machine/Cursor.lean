/-
Where the next object goes.

Stack objects are placed one behind the other from the stack's base, and none
may reach the heap. Heap blocks are placed one behind the other from the
heap's base; a request for nothing still gets an address of its own.
-/
import Stepwise.Fault

set_option autoImplicit false

namespace Stepwise

/-- The next free addresses. -/
structure Cursor where
  /-- The next stack address. -/
  nextStack : Int := 0x1000
  /-- The next heap address. -/
  nextHeap : Int := 0x8000
  /-- Where the heap begins. -/
  heapBase : Int := 0x8000
deriving Repr, DecidableEq

namespace Cursor

/-- The cursor of an empty stack and heap. -/
def startingAt (stackBase heapBase : Int) : Cursor :=
  ⟨stackBase, heapBase, heapBase⟩

/-- Reserves stack space. -/
def stack (c : Cursor) (size : Int) : Except Fault (Int × Cursor) :=
  if c.heapBase < c.nextStack + size then
    .error (.stackOverflow (Numeral.decimal size) c.nextStack c.heapBase)
  else .ok (c.nextStack, { c with nextStack := c.nextStack + size })

/-- Reserves heap space. -/
def heap (c : Cursor) (size : Int) : Int × Cursor :=
  (c.nextHeap, { c with nextHeap := c.nextHeap + max size 1 })

end Cursor

end Stepwise
