/-
How large values may get.

Whole numbers, texts and lists have no bound of their own, but they have to be
held somewhere. A count is kept in sixty-four bits with a sign, and what does
not fit there cannot be counted: it is out of range. Far below that the room
itself ends: a text, a list or a number that could be counted but is too large
to be built runs out of memory. Nothing here is built before it is known to
fit.

Where the room ends is up to the host that a program is traced on. The limits
`lengthLimit` and `bitLimit` stand for that: they are thresholds of this library,
far above what a traced program makes and far below what cannot be counted. The
limit of what can be counted, and the groups that the bits of a number are kept
in, are those of the numbers that are counted with.
-/
import Stepwise.Fault

set_option autoImplicit false

namespace Stepwise.Capacity

/-! ## Texts and lists -/

/-- The first number beyond all counts. -/
def countLimit : Nat := Nat.pow 2 63

/-- The shortest length that there is no room for, a threshold of this library. -/
def lengthLimit : Nat := Nat.pow 2 28

/-- Can the number be a count? A count may be negative. -/
def isCount (n : Int) : Bool :=
  -countLimit ≤ n && n < countLimit

/-- Is there room for so many items? `uncounted` is the fault of a length beyond all counts. -/
def room (uncounted : Fault) (length : Nat) : Except Fault Unit :=
  if length < lengthLimit then .ok ()
  else if length < countLimit then .error .outOfMemory
  else .error uncounted

/-- Is there room for `length` items `n` times? -/
def roomForCopies (uncounted : Fault) (length : Nat) (n : Int) : Except Fault Unit :=
  if isCount n then room uncounted (length * n.toNat) else .error .outOfRange

/-- `items` joined `n` times with itself; nothing for a number below one. -/
def copies {α : Type} (uncounted : Fault) (items : List α) (n : Int) : Except Fault (List α) := do
  roomForCopies uncounted items.length n
  -- of nothing there may be any number of copies
  return if items.isEmpty then [] else (List.replicate n.toNat items).flatten

/-! ## Whole numbers -/

/-- The shortest shift to the left that there is no room for, a threshold of this library. -/
def bitLimit : Nat := Nat.pow 2 32

/-- The bits of a number are kept in groups of so many. -/
def groupBits : Nat := 30

/-- The most groups that a number can have: four bytes each, behind a head of twenty-four bytes,
and the bytes have to be counted. -/
def groupLimit : Nat := (countLimit - 1 - 24) / 4

/-- The groups that so many bits take. -/
def groups (bits : Nat) : Nat :=
  (bits + groupBits - 1) / groupBits

/-- Is there room for a number other than zero with so many zero bits behind it? -/
def roomForShift (number : Int) (bits : Nat) : Except Fault Unit :=
  if bits < bitLimit then .ok ()
  else if groups (number.natAbs.log2 + 1) + groups bits ≤ groupLimit then .error .outOfMemory
  else .error .outOfRange

end Stepwise.Capacity
