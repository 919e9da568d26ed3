/-
Evaluation of expressions.

`eval` gives the typed value of an expression and `place` the object it
designates. Both follow the structure of the expression; the body of a macro
is no part of the expression that uses it, so it is evaluated by a function
that is passed in, and `evaluate` ties the knot: every expansion inside an
expansion lowers a budget. A macro that expands to itself for ever runs out of
it, and nothing else does, because a chain of expansions that repeats no macro
is no longer than the table of macros; so it makes no difference how much the
budget allows beyond that.

Reading an array gives the address of its first element, and reading a struct
gives its address.

The size in an array's brackets is evaluated where there is no memory and nothing
can be called: only bound names, macros and the sizes of types are known.
-/
import Stepwise.Eval.Host
import Stepwise.Eval.Operation
import Stepwise.Literal

set_option autoImplicit false

namespace Stepwise

variable {σ : Type}

/-- How much deeper than any other program needs a nesting may be before it counts as endless. -/
def spareDepth : Nat := 1000

/-- How an expression in another text is evaluated. -/
abbrev Expand (σ : Type) := Scope → Expr → Eval σ Typed

namespace Eval

/-- A part that may fail and changes nothing. -/
def lift {α : Type} (result : Except Fault α) : Eval σ α :=
  fun s =>
    match result with
    | .ok a => .ok (a, s)
    | .error fault => .error fault

/-- Stops. -/
def fail {α : Type} (fault : Fault) : Eval σ α :=
  lift (.error fault)

end Eval

namespace Host

/-- The variable with a name. -/
def find (h : Host σ) (name : String) : Eval σ (Option Place) :=
  fun s => .ok (h.lookup name s, s)

/-- The value of an object. -/
def load (h : Host σ) (p : Place) : Eval σ Typed :=
  if p.type.isArray then do
    let element ← Eval.lift p.type.element
    return ⟨p.address, element.pointer⟩
  else if p.type.namesStruct && !p.type.isPointer then return ⟨p.address, p.type⟩
  else do return ⟨← h.read p.address, p.type⟩

/-- Stores a value in an object. -/
def store (h : Host σ) (p : Place) (value : Value) : Eval σ Unit := do
  h.write p.address (← Eval.lift (value.coerce p.type))

/-- The object a pointer designates. -/
def deref (pointer : Typed) : Except Fault Place :=
  match pointer.value with
  | .uninit => .error .uninitializedPointer
  | value =>
    if value == .int 0 then .error .nullPointer
    else do return ⟨value, ← pointer.type.element⟩

/-- The macro without parameters that a name stands for. -/
def valueMacro? (h : Host σ) (name : String) : Option Macro :=
  match h.macros.find? name with
  | some m => if m.parameters.isNone then some m else none
  | none => none

/-- The macro with parameters that a call uses. -/
def callMacro? (h : Host σ) (name : String) : Option (Macro × List String) :=
  match h.macros.find? name with
  | some m => m.parameters.map fun parameters => (m, parameters)
  | none => none

/-- The value a name stands for. -/
def nameValue (h : Host σ) (expand : Expand σ) (scope : Scope) (name : String) : Eval σ Typed :=
  match scope.lookup name with
  | some bound => return bound
  | none => do
    match ← h.find name with
    | some p => h.load p
    | none =>
      match h.valueMacro? name with
      | some m => expand scope (← Eval.lift m.expression)
      | none =>
        if name = "NULL" then return ⟨.int 0, ⟨"void*"⟩⟩
        else if name = "EOF" then return ⟨.int (-1), .int⟩
        else Eval.fail (.unknownIdentifier name)

/-- The variable with a name, which has to exist. -/
def namePlace (h : Host σ) (name : String) : Eval σ Place := do
  match ← h.find name with
  | some p => return p
  | none => Eval.fail (.unknownVariable name)

/-- The element of an array at the position that a computation gives. -/
def elementPlace (h : Host σ) (expand : Expand σ) (scope : Scope) (array : String)
    (position : Eval σ Typed) : Eval σ Place := do
  let base ← h.nameValue expand scope array
  let index ← position
  Eval.lift (do deref (← BinaryOp.apply h.sizes (.arith .add) base ⟨index.value, .int⟩))

/-- The member of the struct that a computation designates. -/
def memberPlace (h : Host σ) (struct : Eval σ Place) (member : String) : Eval σ Place := do
  let object ← struct
  let members ← Eval.lift (h.members object.type)
  match members.find? member with
  | some (offset, type) => return ⟨← Eval.lift (object.address.add (.int offset)), type⟩
  | none => Eval.fail (.unknownMember object.type.text member)

/-- One more or one less than an object's value. -/
def stepped (h : Host σ) (op : StepOp) (current : Typed) : Except Fault Typed :=
  BinaryOp.apply h.sizes (.arith (match op with | .increment => .add | .decrement => .sub)) current
    ⟨.int 1, .int⟩

/-- An operator on the value of its operand. -/
def applyUnary (op : UnaryOp) (operand : Expr) (v : Typed) : Except Fault Typed :=
  match v.value with
  | .uninit => .error (.uninitializedOperand operand.source)
  | value =>
    match op with
    | .minus => do return ⟨← value.neg, v.type⟩
    | .not => .ok ⟨Operation.ofBool (!value.isTrue), .int⟩
    | .complement => do return ⟨.int (Bits.not (← value.toInt)), v.type⟩
    | _ => .ok v

/-- The use of a macro with parameters, given the values of its arguments. -/
def bindParameters (parameters : List String) (values : List Typed) (scope : Scope) : Scope :=
  (parameters.zip values).reverse ++ scope

end Host

/-- Is it an element, a member or the target of a pointer? -/
def Expr.designatesPart : Expr → Bool
  | index .. | member .. | unary _ .deref _ => true
  | _ => false

/-- The name, if the expression is one. -/
def Expr.name? : Expr → Option String
  | name _ n => some n
  | _ => none

mutual

/-- The typed value of an expression. -/
def eval (h : Host σ) (expand : Expand σ) (scope : Scope) : Expr → Eval σ Typed
  | .literal _ text => Eval.lift (literalValue text)
  | .name _ n => h.nameValue expand scope n
  | .assign _ op target value => do
    let p ← place h expand scope target
    let v ← eval h expand scope value
    let v ←
      match op with
      | none => pure v
      | some op => do
        let current ← h.read p.address
        Eval.lift (BinaryOp.apply h.sizes (.arith op) ⟨current, p.type⟩ v)
    h.store p v.value
    return ⟨← Eval.lift (v.value.coerce p.type), p.type⟩
  | .conditional _ condition whenTrue whenFalse => do
    let c ← eval h expand scope condition
    if ← Eval.lift c.value.truth then eval h expand scope whenTrue
    else eval h expand scope whenFalse
  | .logic _ op left right => do
    let l ← eval h expand scope left
    let l ← Eval.lift l.value.truth
    match op, l with
    | .and, false => return ⟨.int 0, .int⟩
    | .or, true => return ⟨.int 1, .int⟩
    | _, _ => do
      let r ← eval h expand scope right
      return ⟨Operation.ofBool (← Eval.lift r.value.truth), .int⟩
  | .binary _ op left right => do
    let l ← eval h expand scope left
    let r ← eval h expand scope right
    Eval.lift (op.apply h.sizes l r)
  | .unary _ .addressOf operand => do
    let p ← place h expand scope operand
    return ⟨p.address, p.type.pointer⟩
  | .unary _ .deref operand => do
    let pointer ← eval h expand scope operand
    h.load (← Eval.lift (Host.deref pointer))
  | .unary _ (.step op) operand => do
    let p ← place h expand scope operand
    let new ← Eval.lift (h.stepped op ⟨← h.read p.address, p.type⟩)
    h.store p new.value
    return new
  | .unary _ op operand => do
    let v ← eval h expand scope operand
    Eval.lift (Host.applyUnary op operand v)
  | .stepAfter _ op operand => do
    let p ← place h expand scope operand
    let old ← h.read p.address
    let new ← Eval.lift (h.stepped op ⟨old, p.type⟩)
    h.store p new.value
    return ⟨old, p.type⟩
  | .cast _ type operand => do
    let v ← eval h expand scope operand
    return ⟨← Eval.lift (v.value.coerce type), type⟩
  | .sizeOfType _ type => do return ⟨.int (← Eval.lift (type.size h.sizes)), ⟨"size_t"⟩⟩
  | .sizeOf _ operand => do
    -- the operand is evaluated only where nothing else tells its type
    let known ←
      match operand.name? with
      | some n => h.find n
      | none => pure none
    let type ←
      match known with
      | some p => pure p.type
      | none =>
        if operand.designatesPart then Place.type <$> place h expand scope operand
        else Typed.type <$> eval h expand scope operand
    return ⟨.int (← Eval.lift (type.size h.sizes)), ⟨"size_t"⟩⟩
  | .index _ array position => do
    h.load (← h.elementPlace expand scope array (eval h expand scope position))
  | .member _ true object m => do
    let struct := do Eval.lift (Host.deref (← eval h expand scope object))
    h.load (← h.memberPlace struct m)
  | .member _ false object m => do
    h.load (← h.memberPlace (place h expand scope object) m)
  | .call line callee arguments => do
    match h.callMacro? callee with
    | some (m, parameters) =>
      if parameters.length ≠ arguments.length then
        Eval.fail (.macroArity m.name parameters.length arguments.length)
      else
        -- the expansion is shown before its arguments are evaluated
        h.noteMacro m.name (m.substitute (parameters.zip (arguments.map Expr.source)).reverse) line
        let values ← evalAll h expand scope arguments
        expand (Host.bindParameters parameters values scope) (← Eval.lift m.expression)
    | none =>
      let values ← evalAll h expand scope arguments
      h.call scope callee values line

/-- The object an expression designates. -/
def place (h : Host σ) (expand : Expand σ) (scope : Scope) : Expr → Eval σ Place
  | .name _ n => h.namePlace n
  | .unary _ .deref operand => do Eval.lift (Host.deref (← eval h expand scope operand))
  | .index _ array position => h.elementPlace expand scope array (eval h expand scope position)
  | .member _ true object m =>
    h.memberPlace (do Eval.lift (Host.deref (← eval h expand scope object))) m
  | .member _ false object m => h.memberPlace (place h expand scope object) m
  | e => Eval.fail (.notAssignable e.source)

/-- The typed values of several expressions, from left to right. -/
def evalAll (h : Host σ) (expand : Expand σ) (scope : Scope) : List Expr → Eval σ (List Typed)
  | [] => return []
  | e :: rest => do
    let v ← eval h expand scope e
    let more ← evalAll h expand scope rest
    return v :: more

end

/-- Evaluates an expression with a budget for expansions inside expansions. -/
def evalWithin (h : Host σ) : Nat → Expand σ
  | 0 => fun _ _ => Eval.fail .endless
  | budget + 1 => eval h (evalWithin h budget)

/-- Evaluates an expression, with one expansion inside another for every macro and some to spare. -/
def evaluate (h : Host σ) (spare : Nat) : Expand σ :=
  evalWithin h (h.macros.length + spare)

/-! ## Constant expressions -/

/-- The surroundings of a constant expression. -/
def constantHost (macros : Macros) (sizes : StructSizes) : Host Unit where
  lookup _ _ := none
  read _ := Eval.fail .constantRead
  write _ _ := Eval.fail .constantWrite
  call _ name _ _ := Eval.fail (.constantCall name)
  members _ := .ok []
  sizes := sizes
  macros := macros
  noteMacro _ _ _ := pure ()

/-- Bound names whose values are objects of their own, told apart by their positions. -/
def Scope.apart (scope : Scope) : Scope :=
  scope.mapIdx fun i (name, v) => (name, ⟨v.value.withOrigins i [], v.type⟩)

/-- The typed value of a constant expression with some names bound. -/
def evalConstant (macros : Macros) (sizes : StructSizes) (bound : Scope) (e : Expr)
    (spare : Nat := spareDepth) : Except Fault Typed :=
  match evaluate (constantHost macros sizes) spare bound.apart e () with
  | .ok (v, _) => .ok v
  | .error fault => .error fault

/-- The value of a constant expression. -/
def constantValue (macros : Macros) (sizes : StructSizes) (e : Expr) (spare : Nat := spareDepth) :
    Except Fault Value := do
  return (← evalConstant macros sizes [] e spare).value

end Stepwise
