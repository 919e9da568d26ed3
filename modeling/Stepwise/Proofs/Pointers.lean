/-
Laws of pointers.

A pointer is an address with a type, and the type says how far a count of elements is. So
moving a pointer is addition of a multiple of the size of its target, whichever side the
pointer stands on, and the distance between two pointers is that multiple taken back: for
every target that takes space the laws of addition hold of pointers, too.

An element of an array is reached in the same way. In `a[e]` the index is taken for a whole
number, while in `a + e` it keeps the type that it has; that makes no difference where `a`
is an array or a pointer, because what is added to a pointer is only looked at for its value.
-/
import Stepwise.Proofs.Access

set_option autoImplicit false

namespace Stepwise

/-! ## Moving a pointer -/

/-- The sum of two typed values. -/
def Typed.plus (sizes : StructSizes) (a b : Typed) : Except Fault Typed :=
  BinaryOp.apply sizes (.arith .add) a b

/-- Their difference. -/
def Typed.minus (sizes : StructSizes) (a b : Typed) : Except Fault Typed :=
  BinaryOp.apply sizes (.arith .sub) a b

namespace CType

/-- The target of a pointer takes as much space as the type that the pointer was made from: only
blanks at its end are gone. -/
theorem exists_target {sizes : StructSizes} {t : CType} {size : Int} (h : t.size sizes = .ok size) :
    ∃ target, t.pointer.element = .ok target ∧ target.size sizes = .ok size := by
  refine ⟨_, pointer_element t, ?_⟩
  rw [CType.size, String.toList_ofList, sizeOfText_congr sizes (Text.trim_trimRight _)]
  exact h

end CType

section Moving

variable {sizes : StructSizes} {target : CType} {size : Int}

theorem movePointer_eq (h : target.size sizes = .ok size) (back : Bool) (p i : Int) :
    Operation.movePointer sizes back ⟨.int p, target.pointer⟩ (.int i)
      = .ok ⟨.int (p + (if back then -i else i) * size), target.pointer⟩ := by
  obtain ⟨t, ht, hsize⟩ := CType.exists_target h
  rw [Operation.movePointer, ht]
  show Except.bind (t.size sizes) _ = _
  rw [hsize]
  cases back <;> rfl

theorem pointerDistance_eq (h : target.size sizes = .ok size) (hsize : 0 < size) (p q : Int) :
    Operation.pointerDistance sizes ⟨.int p, target.pointer⟩ ⟨.int q, target.pointer⟩
      = .ok ⟨.int (Int.fdiv (p - q) size), ⟨"long"⟩⟩ := by
  obtain ⟨t, ht, htarget⟩ := CType.exists_target h
  have hdiv : (Value.int (p - q)).floorDiv size = .ok (.int (Int.fdiv (p - q) size)) := by
    simp [Value.floorDiv, Number.floorDiv, Int.ne_of_gt hsize, bind, Except.bind, pure, Except.pure]
  rw [Operation.pointerDistance]
  show Except.bind (target.pointer.element) _ = _
  rw [ht]
  show Except.bind (t.size sizes) _ = _
  rw [htarget]
  show Except.bind ((Value.int (p - q)).floorDiv size) _ = _
  rw [hdiv]
  rfl

variable {type : CType}

theorem plus_eq (h : target.size sizes = .ok size) (p i : Int) :
    Typed.plus sizes ⟨.int p, target.pointer⟩ ⟨.int i, type⟩
      = .ok ⟨.int (p + i * size), target.pointer⟩ := by
  have hmove : Typed.plus sizes ⟨.int p, target.pointer⟩ ⟨.int i, type⟩
      = Operation.movePointer sizes false ⟨.int p, target.pointer⟩ (.int i) := by
    simp [Typed.plus, BinaryOp.apply, Value.isInit, Operation.onPointers, CType.isPointer_pointer]
  rw [hmove, movePointer_eq h]
  rfl

theorem plus_eq_right (h : target.size sizes = .ok size) (htype : type.isPointer = false)
    (p i : Int) :
    Typed.plus sizes ⟨.int i, type⟩ ⟨.int p, target.pointer⟩
      = .ok ⟨.int (p + i * size), target.pointer⟩ := by
  have hmove : Typed.plus sizes ⟨.int i, type⟩ ⟨.int p, target.pointer⟩
      = Operation.movePointer sizes false ⟨.int p, target.pointer⟩ (.int i) := by
    simp [Typed.plus, BinaryOp.apply, Value.isInit, Operation.onPointers, CType.isPointer_pointer,
      htype]
  rw [hmove, movePointer_eq h]
  rfl

theorem minus_eq (h : target.size sizes = .ok size) (htype : type.isPointer = false) (p i : Int) :
    Typed.minus sizes ⟨.int p, target.pointer⟩ ⟨.int i, type⟩
      = .ok ⟨.int (p + -i * size), target.pointer⟩ := by
  have hmove : Typed.minus sizes ⟨.int p, target.pointer⟩ ⟨.int i, type⟩
      = Operation.movePointer sizes true ⟨.int p, target.pointer⟩ (.int i) := by
    simp [Typed.minus, BinaryOp.apply, Value.isInit, Operation.onPointers, CType.isPointer_pointer,
      htype]
  rw [hmove, movePointer_eq h]
  rfl

theorem minus_eq_distance (h : target.size sizes = .ok size) (hsize : 0 < size) (p q : Int) :
    Typed.minus sizes ⟨.int p, target.pointer⟩ ⟨.int q, target.pointer⟩
      = .ok ⟨.int (Int.fdiv (p - q) size), ⟨"long"⟩⟩ := by
  rw [← pointerDistance_eq h hsize]
  simp [Typed.minus, BinaryOp.apply, Value.isInit, Operation.onPointers, CType.isPointer_pointer]

/-- The sum of two whole numbers that are no pointers. -/
theorem plus_int {type' : CType} (htype : type.isPointer = false) (htype' : type'.isPointer = false)
    (i j : Int) :
    Typed.plus sizes ⟨.int i, type⟩ ⟨.int j, type'⟩
      = .ok ⟨.int (i + j), Operation.resultType type false⟩ := by
  simp [Typed.plus, BinaryOp.apply, Value.isInit, htype, htype', Operation.isFloat,
    Operation.compute, Value.add, Number.add, Number.combine, bind, Except.bind, pure, Except.pure]

end Moving

/-- The laws of addition for a pointer and two counts. Each says that both sides have a value, and the
same one. -/
structure Typed.PointerLaws (sizes : StructSizes) (p i j : Typed) : Prop where
  comm : ∃ q, Typed.plus sizes p i = .ok q ∧ Typed.plus sizes i p = .ok q
  assoc : ∃ r, (do Typed.plus sizes (← Typed.plus sizes p i) j) = .ok r ∧
    (do Typed.plus sizes p (← Typed.plus sizes i j)) = .ok r
  cancel : (do Typed.minus sizes (← Typed.plus sizes p i) i) = .ok p
  distance : (do Typed.minus sizes (← Typed.plus sizes p i) p) = .ok ⟨i.value, ⟨"long"⟩⟩

theorem pointerLaws {sizes : StructSizes} {target type type' : CType} {size : Int}
    (h : target.size sizes = .ok size) (hsize : 0 < size) (htype : type.isPointer = false)
    (htype' : type'.isPointer = false) (p i j : Int) :
    Typed.PointerLaws sizes ⟨.int p, target.pointer⟩ ⟨.int i, type⟩ ⟨.int j, type'⟩ where
  comm := ⟨_, plus_eq h p i, plus_eq_right h htype p i⟩
  assoc := by
    refine ⟨⟨.int (p + (i + j) * size), target.pointer⟩, bind_eq_ok.2 ⟨_, plus_eq h p i, ?_⟩,
      bind_eq_ok.2 ⟨_, plus_int htype htype' i j, plus_eq h p (i + j)⟩⟩
    rw [plus_eq h, Int.add_mul, Int.add_assoc]
  cancel := by
    refine bind_eq_ok.2 ⟨_, plus_eq h p i, ?_⟩
    rw [minus_eq h htype, Int.neg_mul, Int.add_neg_cancel_right]
  distance := by
    refine bind_eq_ok.2 ⟨_, plus_eq h p i, ?_⟩
    rw [minus_eq_distance h hsize, add_sub_cancel_left, Int.mul_fdiv_cancel i (by omega)]

/-! ## Elements -/

section Elements

variable {σ : Type} {h : Host σ} {expand : Expand σ} {scope : Scope}

/-- What a name stands for is an array or a pointer: it is bound to a pointer, it is a variable that is
an array or a pointer, or it is expanded to a pointer if its expansion has a value. -/
inductive Host.Points (h : Host σ) (expand : Expand σ) (scope : Scope) (s : σ) (name : String) : Prop
  | bound {v : Typed} (hbound : scope.lookup name = some v) (hpointer : v.type.isPointer = true)
  | object {p : Place} (hfree : scope.lookup name = none) (hp : h.lookup name s = some p)
      (htype : p.type.isArray = true ∨ p.type.isPointer = true)
  | expansion (hfree : scope.lookup name = none) (hp : h.lookup name s = none)
      (hvalue : ∀ v s', h.nameValue expand scope name s = .ok (v, s') → v.type.isPointer = true)

/-- An array is read as a pointer to its elements, and a pointer as itself. -/
theorem load_isPointer {p : Place} {s s' : σ} {v : Typed}
    (htype : p.type.isArray = true ∨ p.type.isPointer = true) (hload : h.load p s = .ok (v, s')) :
    v.type.isPointer = true := by
  unfold Host.load at hload
  split at hload
  · obtain ⟨element, s₁, _, hpure⟩ := Eval.bind_eq_ok.1 hload
    obtain ⟨rfl, rfl⟩ := Eval.pure_eq_ok.1 hpure
    exact CType.isPointer_pointer element
  · next harray =>
    have hpointer : p.type.isPointer = true := htype.resolve_left harray
    rw [hpointer, Bool.not_true, Bool.and_false, if_neg Bool.false_ne_true] at hload
    obtain ⟨value, s₁, _, hpure⟩ := Eval.bind_eq_ok.1 hload
    obtain ⟨rfl, rfl⟩ := Eval.pure_eq_ok.1 hpure
    exact hpointer

theorem Host.Points.isPointer {s s' : σ} {name : String} {v : Typed}
    (hpoints : h.Points expand scope s name)
    (hvalue : h.nameValue expand scope name s = .ok (v, s')) : v.type.isPointer = true := by
  cases hpoints with
  | bound hbound hpointer =>
    rw [Host.nameValue, hbound] at hvalue
    obtain ⟨rfl, rfl⟩ := Eval.pure_eq_ok.1 hvalue
    exact hpointer
  | object hfree hp htype =>
    rw [Host.nameValue, hfree] at hvalue
    obtain ⟨found, s₁, hfind, hload⟩ := Eval.bind_eq_ok.1 hvalue
    obtain ⟨rfl, rfl⟩ : h.lookup name s = found ∧ s = s₁ := by
      simpa [Host.find] using hfind
    rw [hp] at hload
    exact load_isPointer htype hload
  | expansion _ _ hpointer => exact hpointer v s' hvalue

/-- Of what is added to a pointer only the value counts. -/
theorem apply_add_of_isPointer (sizes : StructSizes) {pointer : Typed}
    (hpointer : pointer.type.isPointer = true) (v : Typed) (type : CType) :
    BinaryOp.apply sizes (.arith .add) pointer ⟨v.value, type⟩
      = BinaryOp.apply sizes (.arith .add) pointer v := by
  simp [BinaryOp.apply, Operation.onPointers, hpointer]

/-- An element is the target of the pointer to the first one, moved by the index. -/
theorem eval_index_eq {s : σ} {name : String} (hpoints : h.Points expand scope s name) (e : Expr)
    (line line₁ line₂ line₃ : Nat) :
    eval h expand scope (.index line name e) s
      = eval h expand scope
          (.unary line₁ .deref (.binary line₂ (.arith .add) (.name line₃ name) e)) s := by
  simp only [eval, Host.elementPlace, bind_assoc]
  show Except.bind (h.nameValue expand scope name s) _
    = Except.bind (h.nameValue expand scope name s) _
  cases hvalue : h.nameValue expand scope name s with
  | error fault => rfl
  | ok found =>
    obtain ⟨base, s₁⟩ := found
    have hpointer := hpoints.isPointer hvalue
    show Except.bind (eval h expand scope e s₁) _ = Except.bind (eval h expand scope e s₁) _
    cases eval h expand scope e s₁ with
    | error fault => rfl
    | ok index =>
      obtain ⟨v, s₂⟩ := index
      have hsame := apply_add_of_isPointer h.sizes hpointer v .int
      simp only [Except.bind]
      rw [hsame]
      cases BinaryOp.apply h.sizes (.arith .add) base v <;> rfl

end Elements

/-- **Pointers obey the laws of addition, and an index moves a pointer.** A pointer to a type that takes
space can be moved by a count from either side and by two counts in either order, moving it back gives
the pointer again, and its distance from where it was is the count, of type `long`. And wherever a name
stands for an array or a pointer, an element `a[e]` and the target `*(a + e)` are evaluated alike: to
the same typed value with the same effects, or to the same fault. -/
theorem pointers_obey_laws :
    (∀ (sizes : StructSizes) (target : CType) (size : Int),
      target.size sizes = .ok size → 0 < size →
      ∀ type type' : CType, type.isPointer = false → type'.isPointer = false →
      ∀ p i j : Int,
        Typed.PointerLaws sizes ⟨.int p, target.pointer⟩ ⟨.int i, type⟩ ⟨.int j, type'⟩) ∧
    (∀ (σ : Type) (h : Host σ) (expand : Expand σ) (scope : Scope) (s : σ) (name : String),
      h.Points expand scope s name → ∀ (e : Expr) (line line₁ line₂ line₃ : Nat),
        eval h expand scope (.index line name e) s
          = eval h expand scope
              (.unary line₁ .deref (.binary line₂ (.arith .add) (.name line₃ name) e)) s) :=
  ⟨fun _ _ _ h hsize _ _ htype htype' => pointerLaws h hsize htype htype',
    fun _ _ _ _ _ _ hpoints => eval_index_eq hpoints⟩

namespace Row

/-- Three numbers in a row, each of which is the one that was read last, and one more. -/
def host : Host Int :=
  { lookup := fun name _ => if name = "row" then some ⟨.int 4096, ⟨"int[3]"⟩⟩ else none
    read := fun _ n => .ok (.int (n + 1), n + 1)
    write := fun _ _ => Eval.fail .constantWrite
    call := fun _ name _ _ => Eval.fail (.constantCall name)
    members := fun _ => .ok []
    sizes := [("struct Pair", 12)]
    macros := []
    noteMacro := fun _ _ _ => pure () }

end Row

/-- In a row of numbers the element `row[row[0]]` is the target `*(row + row[0])`, and pointers to pairs
obey the laws. -/
theorem row_obeys_laws :
    Typed.PointerLaws Row.host.sizes ⟨.int 4096, ⟨"struct Pair*"⟩⟩ ⟨.int (-3), ⟨"char"⟩⟩
      ⟨.int 5, .int⟩ ∧
    Row.host.Points (evalWithin Row.host 1) [] 0 "row" ∧
    eval Row.host (evalWithin Row.host 1) []
        (.index 1 "row" (.index 1 "row" (.literal 1 "0"))) 0
      = eval Row.host (evalWithin Row.host 1) []
          (.unary 1 .deref (.binary 1 (.arith .add) (.name 1 "row")
            (.index 1 "row" (.literal 1 "0")))) 0 := by
  have hpoints : Row.host.Points (evalWithin Row.host 1) [] 0 "row" :=
    .object rfl (p := ⟨.int 4096, ⟨"int[3]"⟩⟩) rfl (Or.inl rfl)
  have hsize : CType.size Row.host.sizes ⟨"struct Pair"⟩ = .ok 12 := by
    decide +kernel
  exact ⟨pointers_obey_laws.1 _ ⟨"struct Pair"⟩ 12 hsize (by decide) _ _ rfl rfl 4096 (-3) 5,
    hpoints, pointers_obey_laws.2 _ Row.host _ _ 0 "row" hpoints _ _ _ _ _⟩

end Stepwise
