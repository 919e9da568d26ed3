/-
Steps and compound assignments.

A step in front of its operand and the compound assignment with a literal one go the same
way: they find the object, read it, compute, convert the result to the type of the object
and store it. So they fail alike and leave the same machine. They part only in what they
give back: the assignment gives what it stored, the step the result as it was before the
conversion. Hence a step has the value of the assignment exactly where the conversion
changes nothing, and a character that steps over its last value is where it does.
-/
import Stepwise.Machine.Call
import Stepwise.Proofs.Moves
import Stepwise.Proofs.Number
import Stepwise.Proofs.Table

set_option autoImplicit false

namespace Stepwise

variable {σ : Type}

/-! ## Values that need no conversion -/

namespace Value

/-- An object of the type holds the value as it is. -/
def Fits (value : Value) (type : CType) : Prop :=
  (type.isPointer || type.isArray || type.namesStruct) = true ∨
    match value with
    | .uninit | .text _ => True
    | .num (.float ..) => type.isFloating = true
    | .num (.int n) =>
      type.isFloating = false ∧ (type.isSignedChar = true → -128 ≤ n ∧ n ≤ 127)
    | .list _ | .record _ => (type.isFloating || type.isSignedChar) = false

theorem wrapChar_eq_self_iff {n : Int} : wrapChar n = n ↔ -128 ≤ n ∧ n ≤ 127 := by
  unfold wrapChar
  rw [Int.fmod_eq_emod_of_nonneg _ (by decide)]
  omega

/-- A conversion changes nothing exactly if the value fits. -/
theorem coerce_eq_self_iff {value : Value} {type : CType} :
    value.coerce type = .ok value ↔ value.Fits type := by
  unfold coerce Fits
  by_cases hplain : (type.isPointer || type.isArray || type.namesStruct) = true
  · simp [hplain]
  · rw [if_neg hplain]
    simp only [hplain]
    cases value with
    | uninit => simp
    | text s => simp
    | num n =>
      cases n with
      | float x origin =>
        by_cases hfloating : type.isFloating = true
        · simp [hfloating]
        · -- a whole number is no double
          cases hint : (Number.float x origin).toInt <;>
            simp [hfloating, hint, bind, Except.bind, pure, Except.pure]
      | int n =>
        by_cases hfloating : type.isFloating = true
        · cases hfloat : Number.floatOfInt n <;>
            simp [hfloating, hfloat, bind, Except.bind, pure, Except.pure]
        · by_cases hchar : type.isSignedChar = true
          · simp [hfloating, hchar, wrapChar_eq_self_iff]
          · simp [hfloating, hchar]
    | list items => cases h : type.isFloating || type.isSignedChar <;> simp
    | record members => cases h : type.isFloating || type.isSignedChar <;> simp

end Value

/-! ## What both do -/

theorem Eval.bind_eq_error {α β : Type} {c : Eval σ α} {k : α → Eval σ β} {s : σ} {fault : Fault}
    (h : c s = .error fault) : (c >>= k) s = .error fault := by
  show (c s >>= fun p => k p.1 p.2) = _
  rw [h]
  rfl

/-- The computing operator of a step. -/
def StepOp.arith : StepOp → ArithOp
  | increment => .add
  | decrement => .sub

theorem literalValue_one : literalValue "1" = .ok ⟨.int 1, .int⟩ := by
  rfl

namespace Host

variable (h : Host σ) (expand : Expand σ) (scope : Scope)

/-- Steps the object that an expression designates, and gives the object and the result before its
conversion. -/
def update (op : StepOp) (e : Expr) : Eval σ (Place × Typed) := do
  let p ← place h expand scope e
  let new ← Eval.lift (h.stepped op ⟨← h.read p.address, p.type⟩)
  h.store p new.value
  return (p, new)

theorem eval_step (line : Nat) (op : StepOp) (e : Expr) :
    eval h expand scope (.unary line (.step op) e) = do
      return (← h.update expand scope op e).2 := by
  simp [eval, update]

theorem eval_compound (line line' : Nat) (op : StepOp) (e : Expr) :
    eval h expand scope (.assign line (some op.arith) e (.literal line' "1")) = do
      let (p, new) ← h.update expand scope op e
      return ⟨← Eval.lift (new.value.coerce p.type), p.type⟩ := by
  have hone : (Eval.lift (literalValue "1") : Eval σ Typed) = pure ⟨.int 1, .int⟩ := by
    rw [literalValue_one]
    rfl
  have hstepped : ∀ current, h.stepped op current =
      BinaryOp.apply h.sizes (.arith op.arith) current ⟨.int 1, .int⟩ := by
    intro current
    cases op <;> rfl
  simp [eval, update, hone, hstepped]

end Host

/-! ## On the machine -/

/-- What was written to an address is read from it. -/
theorem Machine.read_written {m m' : Machine} {address value : Value}
    (h : m.write address value = .ok m') : m'.read address = .ok value := by
  obtain ⟨a, rfl, hmapped, rfl⟩ := Machine.write_eq_ok.1 h
  obtain ⟨cell, hcell⟩ := Table.has_eq_true_iff.1 hmapped
  simp [Machine.read, Machine.addressOf, bind, Except.bind, pure, Except.pure,
    Table.find?_put_of_beq (Table.beq_self_of_find? hcell)]

section Machine

variable (setup : Setup) (call : Caller) (scope : Scope)

/-- A step that succeeds leaves the converted result in the object. -/
theorem update_stores {expand : Expand Machine} {op : StepOp} {e : Expr} {p : Place} {new : Typed}
    {m m' : Machine}
    (h : (machineHost setup call).update expand scope op e m = .ok ((p, new), m')) :
    ∃ m₁ stored, place (machineHost setup call) expand scope e m = .ok (p, m₁) ∧
      new.value.coerce p.type = .ok stored ∧ m'.read p.address = .ok stored := by
  obtain ⟨p', m₁, hplace, h⟩ := Eval.bind_eq_ok.1 h
  obtain ⟨current, m₂, _, h⟩ := Eval.bind_eq_ok.1 h
  obtain ⟨new', m₃, _, h⟩ := Eval.bind_eq_ok.1 h
  obtain ⟨_, m₄, hstore, h⟩ := Eval.bind_eq_ok.1 h
  obtain ⟨hsame, rfl⟩ := Eval.pure_eq_ok.1 h
  obtain ⟨rfl, rfl⟩ := Prod.mk.inj hsame
  obtain ⟨stored, m₅, hlift, hwrite⟩ := Eval.bind_eq_ok.1 hstore
  obtain ⟨hcoerce, _⟩ := Eval.lift_eq_ok.1 hlift
  have hwritten : m₅.write p'.address stored = .ok m₄ :=
    (Run.attempt_eq_ok (f := fun n => n.write p'.address stored)).1 hwrite
  exact ⟨m₁, stored, hplace, hcoerce, Machine.read_written hwritten⟩

/-- The object that an expression designates, which stands by itself. -/
def placeWith (e : Expr) : Run Place :=
  let h := machineHost setup call
  place h (evalWithin h (h.macros.length + setup.analysis.spare - 1)) scope e

/-- **A step is a compound assignment up to the conversion of its value.** For any expression, in
any state of the machine, stepping the object and assigning the sum or difference with one to it
both stop with the same fault, or both succeed and leave the same machine. Then the value of the
assignment is what is read from the object afterwards, and the value of the step is the same
exactly if an object of this type holds it as it is: always for a pointer, for a whole number in a
signed character if it has eight bits. -/
theorem steps_are_assignments_where_they_fit (op : StepOp) (e : Expr) (line line' : Nat)
    (m : Machine) :
    (∃ fault,
      evaluateWith setup call scope (.unary line (.step op) e) m = .error fault ∧
      evaluateWith setup call scope (.assign line (some op.arith) e (.literal line' "1")) m =
        .error fault) ∨
    ∃ p m₁ new stored m',
      placeWith setup call scope e m = .ok (p, m₁) ∧
      evaluateWith setup call scope (.unary line (.step op) e) m = .ok (new, m') ∧
      evaluateWith setup call scope (.assign line (some op.arith) e (.literal line' "1")) m =
        .ok (⟨stored, p.type⟩, m') ∧
      m'.read p.address = .ok stored ∧
      (new.value = stored ↔ new.value.Fits p.type) := by
  unfold evaluateWith evaluate placeWith
  cases (machineHost setup call).macros.length + setup.analysis.spare with
  | zero => exact Or.inl ⟨.endless, rfl, rfl⟩
  | succ budget =>
    simp only [evalWithin, Host.eval_step, Host.eval_compound, Nat.add_sub_cancel]
    cases hupdate : (machineHost setup call).update (evalWithin (machineHost setup call) budget)
      scope op e m with
    | error fault =>
      exact Or.inl ⟨fault, Eval.bind_eq_error hupdate, Eval.bind_eq_error hupdate⟩
    | ok result =>
      obtain ⟨⟨p, new⟩, m'⟩ := result
      obtain ⟨m₁, stored, hplace, hcoerce, hread⟩ := update_stores setup call scope hupdate
      refine Or.inr ⟨p, m₁, new, stored, m', hplace, ?_, ?_, hread, ?_⟩
      · exact Eval.bind_eq_ok.2 ⟨_, m', hupdate, rfl⟩
      · exact Eval.bind_eq_ok.2 ⟨_, m', hupdate, Eval.bind_eq_ok.2
          ⟨stored, m', Eval.lift_eq_ok.2 ⟨hcoerce, rfl⟩, rfl⟩⟩
      · rw [← Value.coerce_eq_self_iff, hcoerce, Except.ok.injEq]
        exact eq_comm

end Machine

namespace LastCharacter

/-- No function can be called. -/
def call : Caller :=
  fun _ name _ _ => Eval.fail (.unknownIdentifier name)

/-- A program of which nothing matters. -/
def setup : Setup :=
  ⟨⟨⟨[]⟩, "", [], [], [], [], 1⟩, {}⟩

/-- A machine with a character that holds its last value. -/
def machine : Machine :=
  { state :=
      { memory := [(.int 4096, ⟨.int 4096, "c", ⟨"char"⟩, .int 127⟩)]
        stack := [⟨"globals", .int 0, [("c", ⟨.int 4096, "c", ⟨"char"⟩, .int 127⟩)]⟩] }
    cursor := {} }

/-- The machine with the first value in the character. -/
def wrapped : Machine :=
  { machine with
    writes := [(.int 4096, .int (-128))]
    journal := [.wrote (.int 4096) (.int (-128))] }

end LastCharacter

/-- A character that steps over its last value gives a value that it does not hold, where the
assignment gives the one that it holds. -/
theorem last_character_steps_too_far :
    evaluateWith LastCharacter.setup LastCharacter.call []
        (.unary 1 (.step .increment) (.name 1 "c")) LastCharacter.machine =
      .ok (⟨.int 128, .int⟩, LastCharacter.wrapped) ∧
    evaluateWith LastCharacter.setup LastCharacter.call []
        (.assign 1 (some .add) (.name 1 "c") (.literal 1 "1")) LastCharacter.machine =
      .ok (⟨.int (-128), ⟨"char"⟩⟩, LastCharacter.wrapped) ∧
    LastCharacter.wrapped.read (.int 4096) = .ok (.int (-128)) :=
  ⟨rfl, rfl, rfl⟩

end Stepwise
