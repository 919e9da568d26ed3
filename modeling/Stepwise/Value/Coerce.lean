/-
Conversion on assignment.

Storing into an object converts the value to the object's type: a floating
type makes a number a double, a whole type cuts the fraction off, and a signed
character keeps the low eight bits. Pointers, arrays, structs and texts are
stored as they are, and so is the lack of a value.
-/
import Stepwise.Value.Arithmetic
import Stepwise.CType

set_option autoImplicit false

namespace Stepwise

/-- A value together with its C type. -/
structure Typed where
  /-- The value. -/
  value : Value
  /-- Its type. -/
  type : CType := ⟨"int"⟩
deriving Repr, Inhabited

namespace CType

/-- The type `int`. -/
def int : CType := ⟨"int"⟩

/-- Does the text name a signed character type? -/
def isSignedChar (t : CType) : Bool :=
  Text.occursIn "char".toList t.text.toList && !Text.occursIn "unsigned".toList t.text.toList

end CType

namespace Value

/-- The signed value of the low eight bits. -/
def wrapChar (n : Int) : Int :=
  (n + 128).fmod 256 - 128

/-- The value as an object of the type holds it. -/
def coerce (value : Value) (type : CType) : Except Fault Value :=
  if type.isPointer || type.isArray || type.namesStruct then .ok value
  else
    match value with
    | uninit => .ok uninit
    | text s => .ok (text s)
    | num n =>
      match n with
      | .float .. => if type.isFloating then .ok value else do return int (← n.toInt)
      | .int m =>
        if type.isFloating then do return float (← Number.floatOfInt m)
        else .ok (int (if type.isSignedChar then wrapChar m else m))
    | list items =>
      if type.isFloating || type.isSignedChar then .error .wrongShape else .ok (list items)
    | record members =>
      if type.isFloating || type.isSignedChar then .error .wrongShape else .ok (record members)

end Value

/-- Does a value count as true? It has to have been given one. -/
def Value.truth (value : Value) : Except Fault Bool :=
  match value with
  | .uninit => .error .uninitializedCondition
  | v => .ok v.isTrue

end Stepwise
