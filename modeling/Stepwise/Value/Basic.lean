/-
Values of a simulated program.

A value is a number, a text, the items of a braced initializer, the members of
a struct, or nothing yet: an object that was declared without a value is
`uninit`. Whole numbers are unbounded and floating ones are doubles. Two
numbers are equal when they denote the same number, whichever way they are
held; an address may come out of floating arithmetic, and it still finds the
cell of the whole number it equals.

A double that is not a number equals nothing, not even itself. As a part of a
list or a record it is still the same part as itself, so there it is known by
its origin: the object it came in with and its place in that object.
-/
import Stepwise.Decimal.Notation
import Stepwise.Numeral.Writing
import Stepwise.Text.Quoted
import Stepwise.Fault
import Stepwise.Table

set_option autoImplicit false

namespace Stepwise

/-- Where a double that is not a number came from. -/
structure Origin where
  /-- The object it is a part of. -/
  source : Int
  /-- Its place there: positions from the inside out. -/
  path : List Nat
deriving Repr, DecidableEq

/-- A whole number or a double. -/
inductive Number where
  /-- A whole number. -/
  | int (n : Int)
  /-- A double; the origin matters only if it is not a number. -/
  | float (x : Float) (origin : Option Origin := none)
deriving Repr, Inhabited

/-- What an object holds. -/
inductive Value where
  /-- Nothing yet. -/
  | uninit
  /-- A number. -/
  | num (n : Number)
  /-- A text. -/
  | text (s : String)
  /-- The items of a braced initializer. -/
  | list (items : List Value)
  /-- The members of a struct, by name. -/
  | record (members : List (String × Value))
deriving Repr, Inhabited

namespace Number

/-- What a number measures. -/
inductive Measure where
  /-- A fraction. -/
  | fraction (num : Int) (den : Nat)
  /-- An infinity. -/
  | infinite (negative : Bool)
deriving Repr, DecidableEq

/-- The order of two measures. -/
def Measure.compare : Measure → Measure → Ordering
  | fraction a b, fraction c d => Ord.compare (a * d) (c * b)
  | infinite true, infinite true | infinite false, infinite false => .eq
  | infinite true, _ | _, infinite false => .lt
  | infinite false, _ | _, infinite true => .gt

/-- What a number measures, if it is a number at all. -/
def measure? : Number → Option Measure
  | int n => some (.fraction n 1)
  | float x _ =>
    match Decimal.binary? x with
    | some b =>
      let (num, den) := b.fraction
      some (.fraction (if b.negative then -(num : Int) else num) den)
    | none => if x.isNaN then none else some (.infinite (Decimal.isNegative x))

/-- The order of two numbers; nothing compares with what is not a number. -/
def compare? : Number → Number → Option Ordering
  | int m, int n => some (compare m n)
  | a, b =>
    match a.measure?, b.measure? with
    | some x, some y => some (x.compare y)
    | _, _ => none

/-- Do two numbers denote the same number? -/
def equal (a b : Number) : Bool :=
  a.compare? b == some .eq

instance : BEq Number := ⟨equal⟩

/-- Do two numbers have the same origin? What has none shares it with nothing. -/
def sameOrigin : Number → Number → Bool
  | float x (some o), float y (some p) => x.isNaN && y.isNaN && o == p
  | _, _ => false

/-- Are two numbers the same as parts of an object: equal, or of the same origin? -/
def same (a b : Number) : Bool :=
  a == b || a.sameOrigin b

/-- The double with an origin, if it is not a number and has none yet. -/
def withOrigin (origin : Origin) : Number → Number
  | float x none => if x.isNaN then float x (some origin) else float x
  | n => n

/-- Is the first number below the second? -/
def less (a b : Number) : Bool :=
  a.compare? b == some .lt

/-- Is the number zero? -/
def isZero (a : Number) : Bool :=
  a == int 0

/-- The text of a number. -/
def text : Number → String
  | int n => Numeral.decimal n
  | float x _ => Decimal.shortestText x

end Number

namespace Value

/-- A whole number as a value. -/
abbrev int (n : Int) : Value := num (.int n)

/-- A double as a value. -/
abbrev float (x : Float) : Value := num (.float x)

/-! ## Texts -/

mutual

/-- A value as it is dumped: texts are quoted, parts are listed in brackets or braces. Numbers have all
their digits, and printable characters of any script are shown as they are: that the output can encode
them is assumed. -/
def dump : Value → String
  | uninit => "None"
  | num n => n.text
  | text s => Text.quoted s
  | list items => "[" ++ dumpItems items ++ "]"
  | record members => "\x7b" ++ dumpMembers members ++ "\x7d"

/-- The items of a list, dumped and parted by commas. -/
def dumpItems : List Value → String
  | [] => ""
  | [v] => dump v
  | v :: rest => dump v ++ ", " ++ dumpItems rest

/-- The members of a record, dumped and parted by commas. -/
def dumpMembers : List (String × Value) → String
  | [] => ""
  | [(name, v)] => Text.quoted name ++ ": " ++ dump v
  | (name, v) :: rest => Text.quoted name ++ ": " ++ dump v ++ ", " ++ dumpMembers rest

end

/-- A value as it is printed: a text is itself, anything else is dumped. -/
def print : Value → String
  | text s => s
  | v => v.dump

/-! ## Truth and comparison -/

/-- Does a value count as true? Zero and whatever is empty does not. -/
def isTrue : Value → Bool
  | uninit => false
  | num n => !n.isZero
  | text s => !s.isEmpty
  | list items => !items.isEmpty
  | record members => !members.isEmpty

mutual

/-- Are two parts of objects the same? Lists are compared item by item, records by name. -/
def same : Value → Value → Bool
  | uninit, uninit => true
  | num a, num b => a.same b
  | text s, text t => s == t
  | list a, list b => sameItems a b
  | record a, record b => a.length == b.length && sameMembers a b
  | _, _ => false

/-- Are two lists the same item by item? -/
def sameItems : List Value → List Value → Bool
  | [], [] => true
  | v :: a, w :: b => same v w && sameItems a b
  | _, _ => false

/-- Does every member have the same one of its name among the others? -/
def sameMembers : List (String × Value) → List (String × Value) → Bool
  | [], _ => true
  | (name, v) :: a, b =>
    (match b.lookup name with
      | some w => same v w
      | none => false)
      && sameMembers a b

end

/-- Equality of values: numbers as numbers, objects by their parts. -/
def equal : Value → Value → Bool
  | num a, num b => a == b
  | v, w => same v w

instance : BEq Value := ⟨equal⟩

mutual

/-- The order of two values: numbers with numbers, texts with texts, lists with lists. Other pairs
have none, and neither have numbers one of which is not a number. -/
def order : Value → Value → Except Fault (Option Ordering)
  | num a, num b => .ok (a.compare? b)
  | text s, text t => .ok (some (compareOfLessAndEq s t))
  | list a, list b => orderItems a b
  | _, _ => .error .wrongShape

/-- The order of two lists: that of the first items that differ, otherwise the longer is above. -/
def orderItems : List Value → List Value → Except Fault (Option Ordering)
  | [], [] => .ok (some .eq)
  | [], _ :: _ => .ok (some .lt)
  | _ :: _, [] => .ok (some .gt)
  | v :: a, w :: b => if same v w then orderItems a b else order v w

end

/-! ## Origins -/

mutual

/-- The value with origins in an object for every double in it that is not a number. What came
from another object keeps its origin. -/
def withOrigins (source : Int) (path : List Nat) : Value → Value
  | num n => num (n.withOrigin ⟨source, path⟩)
  | list items => list (itemsWithOrigins source path 0 items)
  | record members => record (membersWithOrigins source path 0 members)
  | v => v

/-- Items with origins, from a position on. -/
def itemsWithOrigins (source : Int) (path : List Nat) (position : Nat) : List Value → List Value
  | [] => []
  | v :: rest =>
    withOrigins source (position :: path) v :: itemsWithOrigins source path (position + 1) rest

/-- Members with origins, from a position on. -/
def membersWithOrigins (source : Int) (path : List Nat) (position : Nat) :
    List (String × Value) → List (String × Value)
  | [] => []
  | (name, v) :: rest =>
    (name, withOrigins source (position :: path) v)
      :: membersWithOrigins source path (position + 1) rest

end

end Value

end Stepwise
