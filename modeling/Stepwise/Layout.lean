/-
Layouts of structs.

Members are placed in the order of their declarations, each at the next offset
that is a multiple of its alignment; the size of the struct is the next
multiple of its widest alignment. A struct is laid out with the sizes of the
structs before it, so one that is not yet known takes the space of a pointer.
-/
import Stepwise.Eval.Evaluate

set_option autoImplicit false

namespace Stepwise

/-- The type with stars for each level of indirection. -/
def CType.withStars (t : CType) (stars : Nat) : CType :=
  Grammar.starred t stars

/-- The number of elements that an initializer gives an array without a size. -/
def Init.impliedCount? : Option Init → Option Nat
  | some (.list _ items) => some items.length
  | some (.expr (.literal _ text)) =>
    if text.toList.head? = some '"' then some (text.length - 1) else none
  | _ => none

/-- The type of an array with a count, which may be missing. -/
def CType.arrayOf (t : CType) (count : String) : CType :=
  ⟨t.text ++ "[" ++ count ++ "]"⟩

/-- The count of an array as it is written in its type. -/
def countText : Value → String
  | .uninit => ""
  | v => v.print

/-- The full type of a declared name, where `evaluate` computes the size of an array. -/
def Variable.fullType {m : Type → Type} [Monad m] (v : Variable) (declared : CType)
    (evaluate : Expr → m Value) : m CType :=
  let base := declared.withStars v.stars
  match v.brackets with
  | .none => pure base
  | .unsized =>
    pure (base.arrayOf
      (match Init.impliedCount? v.init with
        | some n => Numeral.decimal n
        | none => ""))
  | .sized size => do return base.arrayOf (countText (← evaluate size))

/-- The layout of a struct. -/
structure Layout where
  /-- The full name of the struct type. -/
  name : String
  /-- Offset and type of each member. -/
  members : Members
  /-- Bytes taken by the struct. -/
  size : Int
deriving Repr

namespace Layout

/-- The layout in words. -/
def describe (l : Layout) : String :=
  l.name ++ " occupies " ++ Numeral.decimal l.size ++ " bytes: "
    ++ ", ".intercalate
      (l.members.map fun (name, offset, type) =>
        name ++ " at +" ++ Numeral.decimal offset ++ " (" ++ type.text ++ ")")

/-- The smallest multiple of an alignment that is not below an offset. -/
def alignUp (offset alignment : Int) : Int :=
  Int.fdiv (offset + alignment - 1) alignment * alignment

/-- A struct being laid out. -/
structure Partial where
  /-- The members placed so far. -/
  members : Members := []
  /-- The end of the last of them. -/
  offset : Int := 0
  /-- The widest alignment so far. -/
  widest : Int := 1

/-- Places the next member. -/
def Partial.place (p : Partial) (sizes : StructSizes) (name : String) (type : CType) :
    Except Fault Partial := do
  let alignment ← type.alignment sizes
  let offset := alignUp p.offset alignment
  return { members := Table.put p.members name (offset, type)
           offset := offset + (← type.size sizes)
           widest := max p.widest alignment }

/-- The declared names of a struct, each with its declaration's type. -/
def fields (s : Struct) : List (CType × Variable) :=
  s.fields.flatMap fun d => d.vars.map fun v => (d.type, v)

/-- Lays a struct out with the sizes of the structs known so far. -/
def ofStruct (spare : Nat) (macros : Macros) (sizes : StructSizes) (s : Struct) :
    Except Fault Layout := do
  let p ← (fields s).foldlM
    (fun (p : Partial) (declared, v) => do
      let type ← v.fullType declared fun e => constantValue macros sizes e spare
      p.place sizes v.name type)
    {}
  return ⟨s.typeName, p.members, alignUp p.offset p.widest⟩

end Layout

/-- The layouts of a program's structs by full name. -/
abbrev Layouts := Table String Layout

/-- The sizes that layouts give. -/
def Layouts.sizes (layouts : Layouts) : StructSizes :=
  List.map (fun entry => (entry.1, entry.2.size)) layouts

/-- Lays the structs of a program out, each with the sizes of those before it. -/
def Program.layouts (p : Program) (spare : Nat) (macros : Macros) : Except Fault Layouts :=
  p.structs.foldlM
    (fun (layouts : Layouts) s => do
      return Table.put layouts s.typeName (← Layout.ofStruct spare macros layouts.sizes s))
    []

end Stepwise
