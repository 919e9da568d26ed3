/-
The faults that most things fail with.

Three faults are special. Only the expansion of macros and the cells of a struct can
fail for being nested too deep, only a directive where a statement is needed fails for
being one, and an operator can only be unknown where it is no part of a program.
Everything else fails with another fault, a usual one, and this is gone through here,
function by function, so that what is said later of the special ones need not be said
again of arithmetic, of formats or of steps.
-/
import Stepwise.Script.Remark
import Mathlib.Order.Defs.LinearOrder

set_option autoImplicit false

namespace Stepwise

variable {α β : Type}

/-! ## Results -/

/-- The fault is none that only a nesting, a directive or an operator can be. -/
def Fault.IsUsual (fault : Fault) : Prop :=
  fault ≠ .endless ∧ (∀ line, fault ≠ .directiveAsBody line) ∧
    ∀ operator, fault ≠ .unsupportedOperator operator

@[simp] theorem Fault.isUsual_iff {fault : Fault} :
    fault.IsUsual ↔ fault ≠ .endless ∧ (∀ line, fault ≠ .directiveAsBody line) ∧
      ∀ operator, fault ≠ .unsupportedOperator operator :=
  Iff.rfl

/-- If the result is a fault, then it is a usual one. -/
def Usual (r : Except Fault α) : Prop :=
  ∀ fault, r = .error fault → fault.IsUsual

@[simp] theorem usual_ok (a : α) : Usual (.ok a : Except Fault α) := by
  simp [Usual]

@[simp] theorem usual_pure (a : α) : Usual (pure a : Except Fault α) :=
  usual_ok a

@[simp] theorem usual_error {fault : Fault} :
    Usual (.error fault : Except Fault α) ↔ fault.IsUsual := by
  constructor
  · exact fun h => h fault rfl
  · rintro h _ ⟨⟩
    exact h

@[simp] theorem usual_bind {r : Except Fault α} {k : α → Except Fault β} :
    Usual (r >>= k) ↔ Usual r ∧ ∀ a, r = .ok a → Usual (k a) := by
  cases r with
  | error fault => simp [bind, Except.bind]
  | ok a => simp [bind, Except.bind]

@[simp] theorem usual_map {r : Except Fault α} {f : α → β} : Usual (f <$> r) ↔ Usual r := by
  cases r with
  | error fault => simp [Functor.map, Except.map]
  | ok a => simp [Functor.map, Except.map]

@[simp] theorem usual_ite {p : Prop} [Decidable p] {r r' : Except Fault α} :
    Usual (if p then r else r') ↔ (p → Usual r) ∧ (¬p → Usual r') := by
  split <;> simp [*]

/-! ## Numbers and values -/

namespace Number

@[simp] theorem floatOfInt_usual (n : Int) : Usual (floatOfInt n) := by
  simp [floatOfInt]

@[simp] theorem toFloat_usual (n : Number) : Usual n.toFloat := by
  cases n <;> simp [toFloat]

@[simp] theorem toInt_usual (n : Number) : Usual n.toInt := by
  unfold toInt
  split
  · simp
  · split
    · simp
    · split <;> simp

@[simp] theorem combine_usual (whole : Int → Int → Int) (floating : Float → Float → Float)
    (a b : Number) : Usual (combine whole floating a b) := by
  unfold combine
  split <;> simp

@[simp] theorem floorDiv_usual (n : Number) (size : Int) : Usual (n.floorDiv size) := by
  cases n <;> simp [floorDiv]

end Number

namespace Capacity

theorem room_usual {uncounted : Fault} (h : uncounted.IsUsual) (length : Nat) :
    Usual (room uncounted length) := by
  unfold room
  split
  · simp
  · split
    · simp
    · exact usual_error.2 h

theorem copies_usual {uncounted : Fault} (h : uncounted.IsUsual) (items : List α) (n : Int) :
    Usual (copies uncounted items n) := by
  simp [copies, roomForCopies, room_usual h]

@[simp] theorem roomForShift_usual (number : Int) (bits : Nat) : Usual (roomForShift number bits) := by
  simp [roomForShift]

end Capacity

namespace Value

@[simp] theorem add_usual (v w : Value) : Usual (v.add w) := by
  unfold add Number.add
  split <;> simp

@[simp] theorem sub_usual (v w : Value) : Usual (v.sub w) := by
  unfold sub Number.sub
  split <;> simp

@[simp] theorem mul_usual (v w : Value) : Usual (v.mul w) := by
  unfold mul Number.mul
  split <;> simp [Capacity.copies_usual]

@[simp] theorem neg_usual (v : Value) : Usual v.neg := by
  cases v <;> simp [neg]

@[simp] theorem floorDiv_usual (v : Value) (size : Int) : Usual (v.floorDiv size) := by
  cases v <;> simp [floorDiv]

@[simp] theorem toInt_usual (v : Value) : Usual v.toInt := by
  unfold toInt
  split
  · simp
  · split <;> simp
  · simp

@[simp] theorem hexAddress_usual (v : Value) : Usual v.hexAddress := by
  unfold hexAddress
  split <;> simp

@[simp] theorem coerce_usual (v : Value) (type : CType) : Usual (v.coerce type) := by
  unfold coerce
  split
  · simp
  · split
    · simp
    · simp
    · split <;> simp
    · simp
    · simp

@[simp] theorem truth_usual (v : Value) : Usual v.truth := by
  cases v <;> simp [truth]

@[simp] theorem bits_usual (v : Value) (fixed : Bool) : Usual (v.bits fixed) := by
  unfold bits
  split
  · simp
  · split <;> simp
  · simp

mutual

theorem order_usual (v w : Value) : Usual (v.order w) := by
  unfold order
  split
  · simp
  · exact usual_ok _
  · exact orderItems_usual _ _
  · simp

theorem orderItems_usual (a b : List Value) : Usual (orderItems a b) := by
  unfold orderItems
  split
  · simp
  · simp
  · simp
  · split
    · exact orderItems_usual _ _
    · exact order_usual _ _

end

end Value

namespace Bits

@[simp] theorem shiftLeft_usual (m n : Int) : Usual (shiftLeft m n) := by
  simp [shiftLeft]

@[simp] theorem shiftRight_usual (m n : Int) : Usual (shiftRight m n) := by
  simp [shiftRight]

end Bits

/-! ## Types, literals and operators -/

namespace CType

@[simp] theorem element_usual (t : CType) : Usual t.element := by
  unfold element
  dsimp only
  split
  · split <;> simp
  · simp

@[simp] theorem count_usual (other : Int) (s : List Char) : Usual (count other s) := by
  unfold count
  split
  · split <;> simp
  · simp

@[simp] theorem length_usual (t : CType) : Usual t.length := by
  unfold length
  split <;> simp

theorem sizeOfText_usual (sizes : StructSizes) (text : List Char) :
    Usual (sizeOfText sizes text) := by
  unfold sizeOfText
  dsimp only
  split
  · simp
  · split
    · split
      · next e found =>
        have hlength := Nat.lt_of_lt_of_le (length_beforeBracket?_lt found) (length_trim_le text)
        have hsize := sizeOfText_usual sizes e
        split
        · have hcount := count_usual 1 ((bracketed? (Text.trim text)).getD [])
          split
          · simp
          · next heq =>
            rw [heq] at hcount
            simpa using hcount
        · next heq =>
          rw [heq] at hsize
          simpa using hsize
      · simp
    · simp
termination_by text.length

@[simp] theorem size_usual (sizes : StructSizes) (t : CType) : Usual (t.size sizes) :=
  sizeOfText_usual sizes _

theorem innermostText_usual (text : List Char) : Usual (innermostText text) := by
  fun_induction innermostText text <;> simp_all

@[simp] theorem alignment_usual (sizes : StructSizes) (t : CType) : Usual (t.alignment sizes) := by
  simp [alignment, innermostText_usual, sizeOfText_usual]

end CType

namespace Literal

@[simp] theorem charOfCode_usual (n : Int) : Usual (charOfCode n) := by
  simp [charOfCode]

theorem unescapeFrom_usual (skip : Nat) (s : List Char) : Usual (unescapeFrom skip s) := by
  fun_induction unescapeFrom skip s with
  | case6 d more hx hd digits ih =>
    exact usual_bind.2 ⟨charOfCode_usual _, fun _ _ => usual_bind.2 ⟨ih, fun _ _ => usual_pure _⟩⟩
  | _ => simp_all

@[simp] theorem readInt_usual (base : Nat) (s : List Char) : Usual (readInt base s) := by
  unfold readInt
  split <;> simp

@[simp] theorem number_usual (s : List Char) : Usual (number s) := by
  unfold number
  dsimp only
  split
  · split <;> simp
  · simp

end Literal

@[simp] theorem literalValue_usual (text : String) : Usual (literalValue text) := by
  unfold literalValue
  dsimp only
  split <;> simp [Literal.unescapeFrom_usual]

namespace Operation

@[simp] theorem divideFloats_usual (a b : Value) : Usual (divideFloats a b) := by
  unfold divideFloats
  split <;> simp

theorem onInts_usual {a b : Value} {f : Int → Int → Except Fault Int} (hf : ∀ m n, Usual (f m n)) :
    Usual (onInts a b f) := by
  unfold onInts
  split <;> simp [hf]

@[simp] theorem bitOr_usual (a b : Value) : Usual (bitOr a b) := by
  unfold bitOr
  split
  · simp
  · exact onInts_usual fun m n => by simp

@[simp] theorem divide_usual (op : ArithOp) (a b : Value) : Usual (divide op a b) := by
  unfold divide
  split
  · simp
  · split
    · split <;> simp
    · exact onInts_usual fun m n => by simp

@[simp] theorem bitwise_usual (op : ArithOp) (a b : Value) : Usual (bitwise op a b) := by
  unfold bitwise
  split
  · simp
  · split
    · exact onInts_usual fun m n => by simp
    · exact onInts_usual fun m n => by simp
    · exact onInts_usual fun m n => by simp
    · exact onInts_usual fun m n => by simp
    · simp

@[simp] theorem compute_usual (op : ArithOp) (a b : Value) : Usual (compute op a b) := by
  cases op <;> simp [compute]

@[simp] theorem movePointer_usual (sizes : StructSizes) (back : Bool) (pointer : Typed)
    (count : Value) : Usual (movePointer sizes back pointer count) := by
  simp [movePointer]

@[simp] theorem pointerDistance_usual (sizes : StructSizes) (left right : Typed) :
    Usual (pointerDistance sizes left right) := by
  simp [pointerDistance]

end Operation

@[simp] theorem BinaryOp.apply_usual (sizes : StructSizes) (op : BinaryOp) (left right : Typed) :
    Usual (op.apply sizes left right) := by
  cases op with
  | rel op => simp [BinaryOp.apply, Operation.compare, Value.order_usual]
  | arith op => simp [BinaryOp.apply, Operation.onPointers]

@[simp] theorem Host.deref_usual (pointer : Typed) : Usual (Host.deref pointer) := by
  unfold Host.deref
  split <;> simp

@[simp] theorem Host.stepped_usual {σ : Type} (h : Host σ) (op : StepOp) (current : Typed) :
    Usual (h.stepped op current) :=
  BinaryOp.apply_usual _ _ _ _

@[simp] theorem Host.applyUnary_usual (op : UnaryOp) (operand : Expr) (v : Typed) :
    Usual (Host.applyUnary op operand v) := by
  unfold Host.applyUnary
  split
  · simp
  · split <;> simp

@[simp] theorem Macro.expression_usual (m : Macro) : Usual m.expression := by
  unfold Macro.expression
  split
  · simp
  · split <;> simp

/-! ## Formats -/

namespace Printf

open Capacity in
@[simp] theorem roomForWidth_usual (f : Field) : Usual f.roomForWidth :=
  room_usual (by simp) _

open Capacity in
@[simp] theorem roomForInt_usual (f : Field) : Usual f.roomForInt := by
  simp [Field.roomForInt, room_usual]

open Capacity in
@[simp] theorem roomForFloat_usual (f : Field) (conversion : Char) (x : Float) :
    Usual (f.roomForFloat conversion x) := by
  simp [Field.roomForFloat, room_usual]

@[simp] theorem Content.toInt_usual (c : Content) : Usual c.toInt := by
  cases c <;> simp [Content.toInt]

@[simp] theorem Content.toFloat_usual (c : Content) : Usual c.toFloat := by
  cases c <;> simp [Content.toFloat]

@[simp] theorem Content.toChar_usual (c : Content) : Usual c.toChar := by
  cases c <;> simp [Content.toChar]

@[simp] theorem Field.write_usual (f : Field) (conversion : Char) (content : Content) :
    Usual (f.write conversion content) := by
  unfold Field.write
  split
  case h_8 | h_9 | h_10 => split <;> simp
  all_goals simp

@[simp] theorem starCount_usual (limit : Nat) (content : Option Content) :
    Usual (starCount limit content) := by
  unfold starCount
  split <;> simp

@[simp] theorem readWidth_usual (o : Opening) : Usual o.readWidth := by
  unfold Opening.readWidth
  split <;> simp

@[simp] theorem readPrecision_usual (o : Opening) : Usual o.readPrecision := by
  unfold Opening.readPrecision
  split <;> simp

@[simp] theorem openField_usual (content : Option Content) (s : List Char) :
    Usual (openField content s) := by
  unfold openField
  split
  · simp
  · refine usual_bind.2 ⟨readWidth_usual _, fun o _ => usual_bind.2 ⟨readPrecision_usual o, ?_⟩⟩
    intro o' _
    split <;> simp

theorem fillFrom_usual (fuel : Nat) (content : Option Content) (s : List Char) :
    Usual (fillFrom fuel content s) := by
  induction fuel generalizing content s with
  | zero => simp [fillFrom]
  | succ fuel ih =>
    unfold fillFrom
    dsimp only
    split
    · simp
    · simp [ih]
    · refine usual_bind.2 ⟨openField_usual _ _, fun opened _ => ?_⟩
      split <;> simp [ih]

@[simp] theorem fill_usual (template : List Char) (content : Content) :
    Usual (fill template content) :=
  fillFrom_usual _ _ _

@[simp] theorem take_usual (format : String) (arguments : List Typed) :
    Usual (take format arguments) := by
  cases arguments <;> simp [take]

@[simp] theorem takeSize_usual (format : String) (size : Option Size) (arguments : List Typed) :
    Usual (takeSize format size arguments) := by
  unfold takeSize
  split <;> simp

@[simp] theorem toFloat_usual (v : Value) : Usual (toFloat v) := by
  cases v <;> simp [toFloat]

/-- Where texts can be read at all, reading them fails only with usual faults. -/
def Reader.Usual (reader : Reader) : Prop :=
  ∀ read, reader = some read → ∀ address, Stepwise.Usual (read address)

theorem contentOf_usual {reader : Reader} (hreader : reader.Usual) (letter : Char) (value : Value) :
    Usual (contentOf reader letter value) := by
  unfold contentOf
  split
  · split
    · simp [hreader _ rfl]
    · simp
  · split <;> simp
  · simp
  · split <;> simp

theorem writeConversion_usual {reader : Reader} (hreader : reader.Usual) (format : String)
    (c : Conversion) (arguments : List Typed) :
    Usual (writeConversion format reader c arguments) := by
  unfold writeConversion
  split
  · simp
  · refine usual_bind.2 ⟨takeSize_usual _ _ _, fun width _ => usual_bind.2 ⟨takeSize_usual _ _ _, ?_⟩⟩
    refine fun precision _ => usual_bind.2 ⟨take_usual _ _, fun taken _ => ?_⟩
    obtain ⟨value, rest⟩ := taken
    cases value <;> simp [contentOf_usual hreader]

theorem writePieces_usual {reader : Reader} (hreader : reader.Usual) (format : String)
    (pieces : List Piece) (arguments : List Typed) :
    Usual (writePieces format reader pieces arguments) := by
  induction pieces generalizing arguments with
  | nil => simp [writePieces]
  | cons piece pieces ih =>
    cases piece with
    | plain c => simp [writePieces, ih]
    | conversion c => simp [writePieces, ih, writeConversion_usual hreader]

end Printf

theorem printf_usual {reader : Printf.Reader} (hreader : reader.Usual) (format : String)
    (arguments : List Typed) : Usual (Stepwise.printf format arguments reader) := by
  simp [Stepwise.printf, Printf.writePieces_usual hreader]

/-! ## Steps -/

namespace State

theorem addressFault_usual {fault : Int → Fault} (h : ∀ n, (fault n).IsUsual) (a : Number) :
    (addressFault fault a).IsUsual := by
  cases a with
  | int n => exact h n
  | float => simp [addressFault]

/-- If a step contradicts the state, then the fault is a usual one. -/
def Applied.Usual (r : Applied) : Prop :=
  ∀ stopped, r = .error stopped → stopped.fault.IsUsual

theorem Applied.usual_ite {p : Prop} [Decidable p] {r r' : Applied} (h : p → Applied.Usual r)
    (h' : ¬p → Applied.Usual r') : Applied.Usual (if p then r else r') := by
  split
  · exact h ‹_›
  · exact h' ‹_›

theorem Applied.usual_error {fault : Fault} {s : State} (h : fault.IsUsual) :
    Applied.Usual (.error ⟨fault, s⟩) := by
  intro stopped hstopped
  obtain rfl := Except.error.inj hstopped
  exact h

theorem Applied.usual_ok (s : State) : Applied.Usual (.ok s) := by
  intro stopped h
  cases h

theorem applyVariables_usual (s : State) (frame : String) (action : FrameAction)
    (vars : List FrameVariable) : Applied.Usual (s.applyVariables frame action vars) := by
  induction vars generalizing s with
  | nil => exact Applied.usual_ok s
  | cons v vars ih =>
    rw [applyVariables]
    exact Applied.usual_ite (fun _ => Applied.usual_error (by simp)) fun _ => ih _

theorem applyFrame_usual (s : State) (name : String) (patch : FramePatch) :
    Applied.Usual (s.applyFrame name patch) := by
  unfold applyFrame
  split
  · exact Applied.usual_error (by simp)
  · exact Applied.usual_ok _
  · exact Applied.usual_error (by simp)
  · exact applyVariables_usual _ _ _ _
  · exact applyVariables_usual _ _ _ _

theorem applyStack_usual (s : State) (patches : Table String FramePatch) :
    Applied.Usual (s.applyStack patches) := by
  induction patches generalizing s with
  | nil => exact Applied.usual_ok s
  | cons patch patches ih =>
    rw [applyStack]
    have hframe := applyFrame_usual s patch.1 patch.2
    split
    · exact ih _
    · next heq => exact Applied.usual_error (hframe _ heq)

theorem applyBlock_usual (s : State) (address : Number) (patch : BlockPatch) :
    Applied.Usual (s.applyBlock address patch) := by
  unfold applyBlock
  refine Applied.usual_ite (fun _ => Applied.usual_error (addressFault_usual (by simp) _)) fun _ => ?_
  split
  · exact Applied.usual_ok _
  · exact Applied.usual_ite (fun _ => Applied.usual_error (addressFault_usual (by simp) _)) fun _ =>
      Applied.usual_ok _

theorem applyHeap_usual (s : State) (patches : Table Number BlockPatch) :
    Applied.Usual (s.applyHeap patches) := by
  induction patches generalizing s with
  | nil => exact Applied.usual_ok s
  | cons patch patches ih =>
    rw [applyHeap]
    have hblock := applyBlock_usual s patch.1 patch.2
    split
    · exact ih _
    · next heq => exact Applied.usual_error (hblock _ heq)

theorem apply_usual (s : State) (step : Step) : Applied.Usual (s.apply step) := by
  unfold apply applyDelta
  split
  · next heq => exact Applied.usual_error (applyStack_usual _ _ _ heq)
  · split
    · next heq => exact Applied.usual_error (applyHeap_usual _ _ _ heq)
    · exact Applied.usual_ok _

end State

/-! ## The machine -/

namespace Machine

variable (m : Machine)

theorem emit_usual (kind : StepKind) (line : Int) (description : String) (delta : Delta) :
    Usual (m.emit kind line description delta) := by
  unfold emit
  dsimp only
  split
  · simp
  · next heq =>
    rw [usual_error]
    exact State.apply_usual _ _ _ heq

@[simp] theorem addressOf_usual (v : Value) : Usual (addressOf v) := by
  cases v <;> simp [addressOf]

@[simp] theorem read_usual (address : Value) : Usual (m.read address) := by
  refine usual_bind.2 ⟨addressOf_usual address, fun a _ => ?_⟩
  split
  · simp
  · split
    · simp
    · exact usual_error.2 (State.addressFault_usual (by simp) a)

theorem write_usual (address value : Value) : Usual (m.write address value) := by
  refine usual_bind.2 ⟨addressOf_usual address, fun a _ => ?_⟩
  split
  · simp
  · exact usual_error.2 (State.addressFault_usual (by simp) a)

@[simp] theorem pointeeName?_usual (address : Value) (pointer : CType) :
    Usual (m.pointeeName? address pointer) := by
  unfold pointeeName?
  split <;> simp

@[simp] theorem readText_usual (pointer : Value) : Usual (m.readText pointer) := by
  unfold readText
  split
  · simp
  · refine usual_bind.2 ⟨m.read_usual pointer, fun v _ => ?_⟩
    split <;> simp

theorem textReader_usual : m.textReader.Usual := by
  intro read h
  obtain rfl := Option.some.inj h
  simp

@[simp] theorem openFile_usual (handle : Value) : Usual (m.openFile handle) := by
  refine usual_bind.2 ⟨?_, fun key _ => ?_⟩
  · cases handle <;> simp [handleKey]
  · split
    · simp
    · split <;> simp

end Machine

@[simp] theorem Cursor.stack_usual (c : Cursor) (size : Int) : Usual (c.stack size) := by
  simp [Cursor.stack]

@[simp] theorem Layouts.membersOf_usual (layouts : Layouts) (type : CType) :
    Usual (layouts.membersOf type) := by
  unfold Layouts.membersOf
  split <;> simp

@[simp] theorem isCharElement_usual (element : CType) : Usual (isCharElement element) := by
  unfold isCharElement
  split <;> simp

@[simp] theorem itemValue_usual (items : List Value) (element : CType) (index : Nat) :
    Usual (itemValue items element index) := by
  unfold itemValue
  split <;> simp

theorem describeDeclaration_usual (m : Machine) (name : String) (type : CType) (value : Value) :
    Usual (describeDeclaration m name type value) := by
  unfold describeDeclaration
  split
  · simp
  · split
    · simp
    · split
      · split
        · simp
        · refine usual_bind.2 ⟨m.pointeeName?_usual _ _, fun pointee _ => ?_⟩
          split <;> simp
      · simp

namespace Directive

@[simp] theorem conditionValue_usual (macros : Macros) (argument : String) :
    Usual (conditionValue macros argument) := by
  unfold conditionValue
  exact usual_ite.2 ⟨fun _ => Literal.readInt_usual 10 _, fun _ => usual_ok _⟩

theorem opening?_usual {macros : Macros} {d : Directive} {decision : Except Fault (Bool × String)}
    (h : d.opening? macros = some decision) : Usual decision := by
  unfold opening? at h
  dsimp only at h
  split at h
  · obtain rfl := Option.some.inj h
    simp
  · obtain rfl := Option.some.inj h
    simp
  · obtain rfl := Option.some.inj h
    simp
  · cases h

end Directive

namespace Walker

theorem describe_usual (m : Machine) (e : Expr) (result : Typed) : Usual (describe m e result) := by
  have hstore : ∀ target name, Usual (describeStore m target name result) := by
    intro target name
    unfold describeStore
    split
    · simp
    · dsimp only
      split
      · refine usual_bind.2 ⟨m.pointeeName?_usual _ _, fun pointee _ => ?_⟩
        split <;> simp
      · simp
  have hchange : ∀ operand, Usual (describeChange m e operand result) := by
    intro operand
    unfold describeChange
    split <;> simp
  unfold describe
  split <;> simp [hstore, hchange]

end Walker

end Stepwise
