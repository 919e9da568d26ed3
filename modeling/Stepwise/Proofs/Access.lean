/-
Access to the leaves of an object.

A variable, or an element of one, with members behind it designates a part of an
object, and a leaf if the members lead so far. Two ways to compute its address meet
here: cells are laid out from the type, and an expression is followed from the variable
on, where an element is reached by moving a pointer and a member by its offset. They
meet at the same cell.

There is one exception. An element is reached through a pointer to it, and a pointer to
address zero counts as null, although nothing keeps a variable from being there: names
and members are found at address zero as anywhere else.
-/
import Stepwise.Proofs.Paths
import Stepwise.Proofs.Tags
import Stepwise.Syntax.Equality

set_option autoImplicit false

namespace Stepwise

/-! ## Pointers to elements -/

namespace CType

theorem toList_pointer (t : CType) : t.pointer.text.toList = t.text.toList ++ ['*'] := by
  rw [pointer, String.toList_append]
  rfl

theorem trimRight_pointer (t : CType) :
    Text.trimRight t.pointer.text.toList = t.text.toList ++ ['*'] := by
  rw [toList_pointer]
  exact Text.trimRight_of_getLast? List.getLast?_concat (by decide)

theorem isPointer_pointer (t : CType) : t.pointer.isPointer = true := by
  rw [isPointer, endsIn, trimRight_pointer, List.getLast?_concat]
  rfl

theorem isArray_pointer (t : CType) : t.pointer.isArray = false := by
  rw [isArray, endsIn, trimRight_pointer, List.getLast?_concat]
  rfl

/-- The target of a pointer is the type it was made from, but for blanks at its end. -/
theorem pointer_element (t : CType) :
    t.pointer.element = .ok ⟨String.ofList (Text.trimRight t.text.toList)⟩ := by
  rw [CType.element, isArray_pointer, isPointer_pointer, trimRight_pointer, if_neg (by decide),
    if_pos rfl, List.dropLast_concat]

/-- A pointer to the elements of an array designates what the array is made of: no blank stands at the
end of its text. -/
theorem element_pointer {t element : CType} (harray : t.isArray = true)
    (h : t.element = .ok element) : element.pointer.element = .ok element := by
  obtain ⟨pre, _, _, _, rfl⟩ := element_eq_ok harray h
  rw [pointer_element, String.toList_ofList, Text.trimRight_trimRight]

end CType

theorem Value.int_beq_int (m n : Int) : (Value.int m == Value.int n) = decide (m = n) :=
  Number.int_beq_int

/-- An element of an array is as many sizes behind the first one as its position says. -/
theorem apply_add_pointer {sizes : StructSizes} {element : CType} {size : Int}
    (hpointer : element.pointer.element = .ok element) (hsize : element.size sizes = .ok size)
    (a i : Int) :
    BinaryOp.apply sizes (.arith .add) ⟨.int a, element.pointer⟩ ⟨.int i, .int⟩
      = .ok ⟨.int (a + i * size), element.pointer⟩ := by
  have hmove : Operation.movePointer sizes false ⟨.int a, element.pointer⟩ (.int i)
      = .ok ⟨.int (a + i * size), element.pointer⟩ := by
    rw [Operation.movePointer, hpointer]
    show Except.bind (element.size sizes) _ = _
    rw [hsize]
    rfl
  have hpointers : Operation.onPointers sizes false ⟨.int a, element.pointer⟩ ⟨.int i, .int⟩
      = Operation.movePointer sizes false ⟨.int a, element.pointer⟩ (.int i) := by
    rw [Operation.onPointers, Bool.and_false, if_neg Bool.false_ne_true,
      if_pos (CType.isPointer_pointer element)]
  rw [← hmove, ← hpointers]
  simp only [BinaryOp.apply, CType.isPointer_pointer]
  rfl

/-- A pointer designates the object at its address, unless that is zero. -/
theorem Host.deref_pointer {element : CType} (hpointer : element.pointer.element = .ok element)
    (a : Int) :
    Host.deref ⟨.int a, element.pointer⟩
      = if a = 0 then .error .nullPointer else .ok ⟨.int a, element⟩ := by
  unfold Host.deref
  dsimp only
  rw [Value.int_beq_int]
  by_cases ha : a = 0
  · simp [ha]
  · simp only [ha, decide_false, Bool.false_eq_true, if_false, hpointer]
    rfl

/-! ## Following an expression -/

/-- The expression with members behind it, each with the line it stands on. -/
def Expr.withMembers (e : Expr) (members : List (Nat × String)) : Expr :=
  members.foldl (fun e member => .member member.1 false e member.2) e

/-- The path that members are. -/
def memberPath (members : List (Nat × String)) : Path :=
  members.map fun member => .member member.2

section Following

variable {σ : Type} {h : Host σ} {expand : Expand σ} {scope : Scope} {layouts : Layouts}

theorem place_name {line : Nat} {name : String} {s : σ} {p : Place} (hp : h.lookup name s = some p) :
    place h expand scope (.name line name) s = .ok (p, s) := by
  rw [place, Host.namePlace]
  refine Eval.bind_eq_ok.2 ⟨some p, s, ?_, rfl⟩
  rw [Host.find, hp]

/-- An element of an array is behind the array's address, and there is none at address zero. -/
theorem place_index {line : Nat} {name : String} {position : Expr} {s s' : σ} {a i size : Int}
    {t element type : CType} (hscope : scope.lookup name = none)
    (hname : h.lookup name s = some ⟨.int a, t⟩) (harray : t.isArray = true)
    (helement : t.element = .ok element) (hsize : element.size h.sizes = .ok size)
    (hposition : eval h expand scope position s = .ok (⟨.int i, type⟩, s')) :
    place h expand scope (.index line name position) s
      = if a + i * size = 0 then .error .nullPointer
        else .ok (⟨.int (a + i * size), element⟩, s') := by
  have hpointer := CType.element_pointer harray helement
  have hbase : h.nameValue expand scope name s = .ok (⟨.int a, element.pointer⟩, s) := by
    rw [Host.nameValue, hscope]
    refine Eval.bind_eq_ok.2 ⟨some ⟨.int a, t⟩, s, by rw [Host.find, hname], ?_⟩
    dsimp only
    rw [Host.load, if_pos harray]
    exact Eval.bind_eq_ok.2 ⟨element, s, Eval.lift_eq_ok.2 ⟨helement, rfl⟩, rfl⟩
  rw [place, Host.elementPlace]
  show Except.bind (h.nameValue expand scope name s) _ = _
  rw [hbase]
  show Except.bind (eval h expand scope position s) _ = _
  rw [hposition]
  simp only [Except.bind, apply_add_pointer hpointer hsize, Host.deref_pointer hpointer, bind]
  by_cases hzero : a + i * size = 0
  · rw [if_pos hzero, if_pos hzero]
    rfl
  · rw [if_neg hzero, if_neg hzero]
    rfl

section Members

variable (hmembers : ∀ t, h.members t = layouts.membersOf t)
  (hnames : ∀ e ∈ layouts, e.2.members.Apart)

include hmembers

/-- A member is behind the address of its struct by its offset. -/
theorem place_member {object : Expr} {line : Nat} {s s' : σ} {a : Int} {t : CType}
    {members : Members} {e : String × Int × CType} (hnames : ∀ e ∈ layouts, e.2.members.Apart)
    (hobject : place h expand scope object s = .ok (⟨.int a, t⟩, s'))
    (hlayout : layouts.membersOf t = .ok members) (he : e ∈ members) :
    place h expand scope (.member line false object e.1) s
      = .ok (⟨.int (a + e.2.1), e.2.2⟩, s') := by
  have hfound : members.find? e.1 = some e.2 := by
    obtain ⟨l, hl, rfl⟩ := Layouts.membersOf_eq_ok hlayout
    obtain ⟨key, hkey, _⟩ := Table.mem_of_find? hl
    exact Table.find?_of_mem (hnames _ hkey) (beq_self_eq_true e.1) he
  rw [place, Host.memberPlace]
  refine Eval.bind_eq_ok.2 ⟨_, s', hobject, Eval.bind_eq_ok.2 ⟨members, s', ?_, ?_⟩⟩
  · exact Eval.lift_eq_ok.2 ⟨(hmembers t).trans hlayout, rfl⟩
  · rw [hfound]
    rfl

include hnames

/-- **Members behind an object lead to the address of the leaf at their path.** -/
theorem place_withMembers {members : List (Nat × String)} {object : Expr} {s s' : σ} {a offset : Int}
    {t leaf : CType} (hobject : place h expand scope object s = .ok (⟨.int a, t⟩, s'))
    (hleaf : LeafAt layouts t (memberPath members) offset leaf) :
    place h expand scope (object.withMembers members) s = .ok (⟨.int (a + offset), leaf⟩, s') := by
  induction members generalizing object a offset t with
  | nil =>
    cases hleaf with
    | cell _ =>
      rw [Int.add_zero]
      exact hobject
  | cons member members ih =>
    obtain ⟨line, name⟩ := member
    generalize hpath : memberPath ((line, name) :: members) = path at hleaf
    cases hleaf with
    | cell _ => cases hpath
    | element => cases hpath
    | @member _ _ table e rest inner _ hlayout he hinner =>
      obtain ⟨hname, rfl⟩ := List.cons.inj hpath
      obtain rfl := Part.member.inj hname
      rw [← Int.add_assoc]
      exact ih (place_member hmembers hnames hobject hlayout he) hinner

end Members

/-- Members behind an expression that fails are not reached. -/
theorem place_withMembers_error {members : List (Nat × String)} {object : Expr} {s : σ}
    {fault : Fault} (hobject : place h expand scope object s = .error fault) :
    place h expand scope (object.withMembers members) s = .error fault := by
  induction members generalizing object with
  | nil => exact hobject
  | cons member members ih =>
    refine ih ?_
    rw [place, Host.memberPlace]
    show Except.bind (place h expand scope object s) _ = _
    rw [hobject]
    rfl

end Following

/-! ## The main result -/

/-- Where the expressions end that lead from a variable at an address to one of its leaves. -/
structure ReachesLeaves {σ : Type} (h : Host σ) (expand : Expand σ) (scope : Scope) (layouts : Layouts)
    (name : String) (t : CType) (address : Int) (s : σ) : Prop where
  /-- The name and members. -/
  named : ∀ line members offset leaf, LeafAt layouts t (memberPath members) offset leaf →
    place h expand scope ((Expr.name line name).withMembers members) s
      = .ok (⟨.int (address + offset), leaf⟩, s)
  /-- An element and members, unless the element is at address zero. -/
  indexed : scope.lookup name = none → ∀ line position (i : Nat) type members offset leaf s',
    eval h expand scope position s = .ok (⟨.int i, type⟩, s') →
    LeafAt layouts t (.element i :: memberPath members) offset leaf →
    ∃ element size, t.element = .ok element ∧ element.size layouts.sizes = .ok size ∧
      place h expand scope ((Expr.index line name position).withMembers members) s
        = if address + i * size = 0 then .error .nullPointer
          else .ok (⟨.int (address + offset), leaf⟩, s')

theorem reachesLeaves {σ : Type} {h : Host σ} {layouts : Layouts}
    (hmembers : ∀ t, h.members t = layouts.membersOf t) (hsizes : h.sizes = layouts.sizes)
    (hnames : ∀ e ∈ layouts, e.2.members.Apart) (expand : Expand σ) (scope : Scope) {name : String}
    {t : CType} {address : Int} {s : σ} (hname : h.lookup name s = some ⟨.int address, t⟩) :
    ReachesLeaves h expand scope layouts name t address s where
  named line members offset leaf hleaf :=
    place_withMembers hmembers hnames (place_name hname) hleaf
  indexed hscope line position i type members offset leaf s' hposition hleaf := by
    generalize hpath : Part.element i :: memberPath members = path at hleaf
    cases hleaf with
    | cell _ => cases hpath
    | member => cases hpath
    | @element _ element _ size length inner j rest _ harray helement _ hsize _ _ hinner =>
      obtain ⟨hpart, rfl⟩ := List.cons.inj hpath
      obtain rfl := Part.element.inj hpart
      refine ⟨element, size, helement, hsize, ?_⟩
      have hindex : place h expand scope (.index line name position) s
          = if address + i * size = 0 then .error .nullPointer
            else .ok (⟨.int (address + i * size), element⟩, s') :=
        place_index hscope hname harray helement (hsizes ▸ hsize) hposition
      by_cases hzero : address + i * size = 0
      · rw [if_pos hzero] at hindex ⊢
        exact place_withMembers_error hindex
      · rw [if_neg hzero] at hindex ⊢
        rw [← Int.add_assoc]
        exact place_withMembers hmembers hnames hindex hinner

/-- **Cells are where expressions look for them.** An object that is built from structs of the program
has one cell for each of its leaves, and every expression that leads from the variable to a leaf ends
at its cell, unless it indexes an element at address zero. -/
theorem cells_are_found {source : String} {p : Program} {analysis : Analysis}
    (hparse : parse (tokenize source) = .ok p)
    (ha : analyze p source (tokenize source) = .ok analysis) {t : CType}
    (ht : p.Builds analysis.layouts p.structs.length t) (name : String) (address : Int)
    (value : Value) (settings : Settings) :
    ∃ size cells, t.size analysis.sizes = .ok size ∧
      objectCells analysis.spare analysis.layouts name t address value = .ok cells ∧
      CellsAtLeaves analysis.layouts name t address size cells ∧
      ∀ (call : Caller) (expand : Expand Machine) (scope : Scope) (m : Machine),
        m.lookup name = some ⟨.int address, t⟩ →
        ReachesLeaves (machineHost ⟨analysis, settings⟩ call) expand scope analysis.layouts name t
          address m := by
  have hlayouts := (analyze_layouts ha).1
  obtain ⟨size, cells, hsize, hcells, hleaves⟩ :=
    ht.cellsAtLeaves hlayouts (parse_tagged hparse) analysis.spare name address value
  refine ⟨size, cells, hsize, hcells, hleaves, fun call expand scope m hname => ?_⟩
  exact reachesLeaves (fun _ => rfl) rfl (layouts_members_apart hlayouts) expand scope hname

namespace StructArray

/-- A program with an array of structs. -/
def source : String :=
  "struct p\x7bint x;int y;\x7d;\nint main()\x7bstruct p a[2];a[1].y=5;\x7d\n"

/-- Its tokens. -/
def tokens : List Token :=
  [⟨.keyword, "struct", 1, 1⟩, ⟨.identifier, "p", 1, 8⟩, ⟨.punctuation, "\x7b", 1, 9⟩,
    ⟨.keyword, "int", 1, 10⟩, ⟨.identifier, "x", 1, 14⟩, ⟨.punctuation, ";", 1, 15⟩,
    ⟨.keyword, "int", 1, 16⟩, ⟨.identifier, "y", 1, 20⟩, ⟨.punctuation, ";", 1, 21⟩,
    ⟨.punctuation, "\x7d", 1, 22⟩, ⟨.punctuation, ";", 1, 23⟩,
    ⟨.keyword, "int", 2, 1⟩, ⟨.identifier, "main", 2, 5⟩, ⟨.punctuation, "(", 2, 9⟩,
    ⟨.punctuation, ")", 2, 10⟩, ⟨.punctuation, "\x7b", 2, 11⟩,
    ⟨.keyword, "struct", 2, 12⟩, ⟨.identifier, "p", 2, 19⟩, ⟨.identifier, "a", 2, 21⟩,
    ⟨.punctuation, "[", 2, 22⟩, ⟨.literal, "2", 2, 23⟩, ⟨.punctuation, "]", 2, 24⟩,
    ⟨.punctuation, ";", 2, 25⟩,
    ⟨.identifier, "a", 2, 26⟩, ⟨.punctuation, "[", 2, 27⟩, ⟨.literal, "1", 2, 28⟩,
    ⟨.punctuation, "]", 2, 29⟩, ⟨.punctuation, ".", 2, 30⟩, ⟨.identifier, "y", 2, 31⟩,
    ⟨.operator, "=", 2, 32⟩, ⟨.literal, "5", 2, 33⟩, ⟨.punctuation, ";", 2, 34⟩,
    ⟨.punctuation, "\x7d", 2, 35⟩]

/-- The struct. -/
def struct : Struct :=
  ⟨1, "p", [⟨1, .int, [⟨1, "x", 0, .none, none⟩]⟩, ⟨1, .int, [⟨1, "y", 0, .none, none⟩]⟩]⟩

/-- A member of an element of the array. -/
def part (position member : String) : Expr :=
  (Expr.index 2 "a" (.literal 2 position)).withMembers [(2, member)]

/-- The main function. -/
def main : Function where
  line := 2
  name := "main"
  returnType := .int
  parameters := []
  bodyLine := 2
  body :=
    [.decl ⟨2, ⟨"struct p"⟩, [⟨2, "a", 0, .sized (.literal 2 "2"), none⟩]⟩,
      .expr 2 (.assign 2 none (part "1" "y") (.literal 2 "5"))]

/-- The program. -/
def program : Program :=
  ⟨[.struct struct, .function main]⟩

/-- What is known about it. -/
def analysis : Analysis where
  program := program
  source := source
  tokens := tokens
  lines := Text.lines source
  macros := []
  layouts := [("struct p", ⟨"struct p", [("x", 0, .int), ("y", 4, .int)], 8⟩)]

/-- The type of the array. -/
def type : CType := ⟨"struct p[2]"⟩

theorem tokenize_source : tokenize source = tokens :=
  Token.tokenize_of_chars rfl (by decide +kernel) (by decide)

theorem parse_tokens : parse tokens = .ok program := by
  decide +kernel

theorem analyze_program : analyze program source tokens = .ok analysis :=
  analyze_of_layouts rfl (by decide +kernel)

theorem isCell_int : CType.int.IsCell :=
  ⟨by decide, fun harray => absurd harray (by decide)⟩

theorem builds_type : program.Builds analysis.layouts program.structs.length type := by
  have hint : ∀ n, program.Builds analysis.layouts n .int := by
    intro n
    exact .cell isCell_int (.single (by decide)) (by decide +kernel)
  have hstruct : program.Builds analysis.layouts program.structs.length ⟨"struct p"⟩ := by
    have hsplit : program.structs = [] ++ struct :: [] := rfl
    refine .struct (by decide) (by decide) hsplit (by decide) (fun _ hu => by cases hu) rfl ?_
    intro e he
    rcases List.mem_cons.1 he with rfl | he
    · exact hint 0
    · obtain rfl := List.mem_singleton.1 he
      exact hint 0
  exact .array (by decide) rfl rfl rfl (by decide) hstruct

theorem size_struct : CType.size analysis.layouts.sizes ⟨"struct p"⟩ = .ok 8 := by
  decide +kernel

theorem element_type : type.element = .ok ⟨"struct p"⟩ := rfl

theorem leafAt_part {e : String × Int × CType} (he : e ∈ [("x", (0 : Int), CType.int), ("y", 4, .int)])
    {i : Nat} (hi : i < 2) {leaf : CType} {offset : Int}
    (h : LeafAt analysis.layouts e.2.2 [] offset leaf) :
    LeafAt analysis.layouts type [.element i, .member e.1] (i * 8 + (e.2.1 + offset)) leaf :=
  .element (by decide) (by decide) element_type rfl size_struct rfl hi
    (.member (by decide) rfl he h)

theorem leaf_first : LeafAt analysis.layouts type [.element 0, .member "x"] 0 .int :=
  leafAt_part (e := ("x", 0, .int)) (by decide) (i := 0) (by decide) (.cell isCell_int)

theorem leaf_second : LeafAt analysis.layouts type [.element 1, .member "y"] 12 .int :=
  leafAt_part (e := ("y", 4, .int)) (by decide) (i := 1) (by decide) (.cell isCell_int)

/-- The machine once the array has been declared. -/
def declared (settings : Settings) : Except Fault Machine := do
  let (_, m) ← Invocation.enter ⟨analysis, settings⟩ main "main" [] 2 (Machine.start settings)
  let (_, m) ← declare ⟨analysis, settings⟩ "main" "a" type 2 .uninit
    "Declaration of array a with 2 elements" m
  return m

/-- The array is at an address, and so is the cell of the first member of its first struct. -/
def isAt (m : Machine) (address : Int) : Bool :=
  match m.lookup "a", m.state.memory.find? (.int address) with
  | some ⟨.num (.int n), t⟩, some cell =>
    t == type && n == address && cell.name == "a[0].x" && cell.type == .int
  | _, _ => false

theorem exists_declared (settings : Settings) (address : Int)
    (h : (match declared settings with
      | .ok m => isAt m address
      | .error _ => false) = true) :
    ∃ m cell, declared settings = .ok m ∧ m.lookup "a" = some ⟨.int address, type⟩ ∧
      m.state.memory.find? (.int address) = some cell ∧ cell.name = "a[0].x" ∧ cell.type = .int := by
  split at h
  · next m hm =>
    unfold isAt at h
    split at h
    · next n t cell hlookup hcell =>
      simp only [Bool.and_eq_true, beq_iff_eq] at h
      obtain ⟨⟨⟨rfl, rfl⟩, hname⟩, htype⟩ := h
      exact ⟨m, cell, hm, hlookup, hcell, hname, htype⟩
    · cases h
  · cases h

/-- What expressions in the main function are evaluated against. -/
def host (settings : Settings) : Host Machine :=
  machineHost ⟨analysis, settings⟩ (callAt ⟨analysis, settings⟩ noCommentary 1)

/-- How macros would be expanded there. -/
def expand (settings : Settings) : Expand Machine :=
  evaluate (host settings) analysis.spare

/-- The object that an expression in the main function designates. -/
def placeInMain (settings : Settings) (e : Expr) : Run Place :=
  place (host settings) (expand settings) [] e

theorem eval_position (settings : Settings) {text : String} {i : Int}
    (h : literalValue text = .ok ⟨.int i, .int⟩) (m : Machine) :
    eval (host settings) (expand settings) [] (.literal 2 text) m = .ok (⟨.int i, .int⟩, m) := by
  rw [eval]
  exact Eval.lift_eq_ok.2 ⟨h, rfl⟩

end StructArray

/-- The member of the second struct is twelve bytes behind the beginning of the array. -/
theorem second_struct_is_found :
    parse (tokenize StructArray.source) = .ok StructArray.program ∧
    analyze StructArray.program StructArray.source (tokenize StructArray.source)
      = .ok StructArray.analysis ∧
    StructArray.program.Builds StructArray.analysis.layouts StructArray.program.structs.length
      StructArray.type ∧
    ∃ m, StructArray.declared {} = .ok m ∧
      StructArray.placeInMain {} (StructArray.part "1" "y") m = .ok (⟨.int 4108, .int⟩, m) := by
  have hparse : parse (tokenize StructArray.source) = .ok StructArray.program := by
    rw [StructArray.tokenize_source, StructArray.parse_tokens]
  have hanalyze : analyze StructArray.program StructArray.source (tokenize StructArray.source)
      = .ok StructArray.analysis := by
    rw [StructArray.tokenize_source, StructArray.analyze_program]
  obtain ⟨m, _, hm, hlookup, _⟩ := StructArray.exists_declared {} 4096 (by decide +kernel)
  refine ⟨hparse, hanalyze, StructArray.builds_type, m, hm, ?_⟩
  obtain ⟨_, _, _, _, _, hreaches⟩ := cells_are_found hparse hanalyze
    StructArray.builds_type "a" 4096 .uninit {}
  have hfound : ReachesLeaves (StructArray.host {}) (StructArray.expand {}) []
      StructArray.analysis.layouts "a" StructArray.type 4096 m :=
    hreaches (callAt ⟨StructArray.analysis, {}⟩ noCommentary 1) (StructArray.expand {}) [] m hlookup
  obtain ⟨element, size, helement, hsize, hplace⟩ := hfound.indexed rfl 2 (.literal 2 "1") 1 .int
    [(2, "y")] 12 .int m (StructArray.eval_position {} rfl m) StructArray.leaf_second
  obtain rfl := Except.ok.inj (StructArray.element_type.symm.trans helement)
  obtain rfl := Except.ok.inj (StructArray.size_struct.symm.trans hsize)
  exact hplace

/-- With the array at address zero, which the settings allow, the first member of its first struct has
its cell, and the array is found by its name; but the member is not found, because an element at
address zero counts as the target of a null pointer. -/
theorem first_struct_at_zero_is_not_found :
    StructArray.program.Builds StructArray.analysis.layouts StructArray.program.structs.length
      StructArray.type ∧
    LeafAt StructArray.analysis.layouts StructArray.type [.element 0, .member "x"] 0 .int ∧
    ∃ m cell, StructArray.declared { stackBase := 0 } = .ok m ∧
      m.state.memory.find? (.int 0) = some cell ∧ cell.name = "a[0].x" ∧ cell.type = .int ∧
      StructArray.placeInMain { stackBase := 0 } (.name 2 "a") m
        = .ok (⟨.int 0, StructArray.type⟩, m) ∧
      StructArray.placeInMain { stackBase := 0 } (StructArray.part "0" "x") m
        = .error .nullPointer := by
  obtain ⟨m, cell, hm, hlookup, hcell, hname, htype⟩ :=
    StructArray.exists_declared { stackBase := 0 } 0 (by decide +kernel)
  have hzero : literalValue "0" = .ok ⟨.int 0, .int⟩ := rfl
  have hindex : StructArray.placeInMain { stackBase := 0 } (.index 2 "a" (.literal 2 "0")) m
      = if (0 : Int) + 0 * 8 = 0 then .error .nullPointer
        else .ok (⟨.int (0 + 0 * 8), ⟨"struct p"⟩⟩, m) :=
    place_index rfl hlookup (by decide) StructArray.element_type StructArray.size_struct
      (StructArray.eval_position { stackBase := 0 } hzero m)
  rw [if_pos (by decide)] at hindex
  exact ⟨StructArray.builds_type, StructArray.leaf_first, m, cell, hm, hcell, hname, htype,
    place_name hlookup, place_withMembers_error hindex⟩

end Stepwise
