/-
Structs as values.

A program uses a struct as a value in three places. As the initializer of a variable and as
an argument of a call it is copied, since there a new object is made of it. An assignment
makes no new object, and it reads no members: the value of a struct is its address, and
storing it puts the address into the first cell of the other struct.
-/
import Stepwise.Proofs.Copies
import Stepwise.Syntax.Equality

set_option autoImplicit false

namespace Stepwise

/-! ## Initializers -/

/-- The initializer of a struct variable takes the members of the struct along. -/
theorem typeAndValue_takes {setup : Setup} {evaluate : Expr → Run Typed} {type : CType}
    (hstruct : type.isStruct = true) {line : Nat} {name : String} {e : Expr} {m₀ m m' : Machine}
    {a : Int} {t : CType} {r : CType × Value} (he : evaluate e m₀ = .ok (⟨.int a, t⟩, m))
    (h : typeAndValue setup evaluate type ⟨line, name, 0, .none, some (.expr e)⟩ m₀ = .ok (r, m')) :
    m' = m ∧ r.1 = type ∧ TakesAlong setup.analysis.layouts type a m r.2 := by
  obtain ⟨type', m₁, h₁, h⟩ := Eval.bind_eq_ok.1 h
  obtain ⟨htype, rfl⟩ := Eval.pure_eq_ok.1 h₁
  rw [CType.withStars_zero] at htype
  subst htype
  obtain ⟨value, m₂, h₂, h⟩ := Eval.bind_eq_ok.1 h
  obtain ⟨rfl, rfl⟩ := Eval.pure_eq_ok.1 h
  obtain ⟨typed, m₃, h₃, h₂⟩ := Eval.bind_eq_ok.1 h₂
  obtain ⟨rfl, rfl⟩ := Prod.mk.injEq .. ▸ Except.ok.inj (he.symm.trans h₃)
  rw [copyValue, if_pos hstruct] at h₂
  obtain ⟨rfl, htakes⟩ := readStruct_eq_ok h₂
  exact ⟨rfl, rfl, htakes⟩

section Declarations

variable {setup : Setup} {evaluate : Expr → Run Typed} {type : CType} {line : Nat} {name : String}
  {e : Expr} {m₀ m m' : Machine} {a b : Int} {t type' : CType}

theorem declareVariable_copies (hlayouts : setup.analysis.layouts.Settled)
    (hnames : ∀ e ∈ setup.analysis.layouts, e.2.members.Apart) (hm : setup.Passes m)
    (hfilled : AllFilled m.steps.toList) (hstruct : type.isStruct = true)
    (he : evaluate e m₀ = .ok (⟨.int a, t⟩, m))
    (hdeclared : declareVariable setup evaluate type ⟨line, name, 0, .none, some (.expr e)⟩ m₀
      = .ok ((type', b), m')) :
    Copies setup.analysis.layouts type a b m m' ∧ m'.lookup name = some ⟨.int b, type⟩ := by
  obtain ⟨r, m₁, h₁, h⟩ := Eval.bind_eq_ok.1 hdeclared
  obtain ⟨rfl, htype, htakes⟩ := typeAndValue_takes hstruct he h₁
  obtain ⟨description, m₂, h₂, h⟩ := Eval.bind_eq_ok.1 h
  obtain ⟨_, rfl⟩ := Run.query_eq_ok.1 h₂
  obtain ⟨frame, m₃, h₃, h⟩ := Eval.bind_eq_ok.1 h
  obtain ⟨rfl, rfl⟩ := Run.ask_eq_ok.1 h₃
  obtain ⟨address, m₄, h₄, h⟩ := Eval.bind_eq_ok.1 h
  obtain ⟨heq, rfl⟩ := Eval.pure_eq_ok.1 h
  obtain ⟨rfl, rfl⟩ := Prod.mk.injEq .. ▸ heq
  rw [htype] at h₄
  obtain ⟨hcopies, c, hshown, haddress, hc⟩ :=
    declare_copies hlayouts hnames hm hfilled hstruct htakes h₄
  refine ⟨hcopies, ?_⟩
  have hframe : m₄.currentFrame = m₁.currentFrame := by
    rw [Machine.currentFrame, Machine.currentFrame, declare_active h₄]
  rw [← hframe] at hshown
  rw [Machine.lookup_of_shown hshown, haddress, hc]

theorem declareGlobal_copies (hlayouts : setup.analysis.layouts.Settled)
    (hnames : ∀ e ∈ setup.analysis.layouts, e.2.members.Apart) (hm : setup.Passes m)
    (hfilled : AllFilled m.steps.toList) (hstruct : type.isStruct = true)
    (he : evaluate e m₀ = .ok (⟨.int a, t⟩, m))
    (hdeclared : declareGlobal setup evaluate type ⟨line, name, 0, .none, some (.expr e)⟩ m₀
      = .ok ((), m')) :
    ∃ b, Copies setup.analysis.layouts type a b m m' ∧
      ∃ c, m'.state.shown? globalFrame name = some c ∧ c.address = .int b ∧ c.type = type := by
  obtain ⟨r, m₁, h₁, h⟩ := Eval.bind_eq_ok.1 hdeclared
  obtain ⟨rfl, htype, htakes⟩ := typeAndValue_takes hstruct he h₁
  obtain ⟨description, m₂, h₂, h⟩ := Eval.bind_eq_ok.1 h
  obtain ⟨_, rfl⟩ := Run.query_eq_ok.1 h₂
  obtain ⟨b, m₃, h₃, h⟩ := Eval.bind_eq_ok.1 h
  obtain ⟨_, rfl⟩ := Eval.pure_eq_ok.1 h
  rw [htype] at h₃
  exact ⟨b, declare_copies hlayouts hnames hm hfilled hstruct htakes h₃⟩

end Declarations

/-! ## Assignments -/

/-- The value of a struct is its address. -/
theorem eval_struct_name {setup : Setup} {call : Caller} {expand : Expand Machine} {line : Nat}
    {name : String} {p : Place} {m : Machine} (hlookup : m.lookup name = some p)
    (hstruct : p.type.isStruct = true) :
    eval (machineHost setup call) expand [] (.name line name) m = .ok (⟨p.address, p.type⟩, m) := by
  simp only [CType.isStruct, Bool.and_eq_true, Bool.not_eq_true'] at hstruct
  obtain ⟨⟨hnames, hpointer⟩, harray⟩ := hstruct
  rw [eval, Host.nameValue]
  refine Eval.bind_eq_ok.2 ⟨some p, m, ?_, ?_⟩
  · exact congrArg (fun found => Except.ok (found, m)) hlookup
  · simp only [Host.load, harray, hnames, hpointer]
    rfl

/-- **Assigning a struct stores its address** in the first cell of the other, and nothing else. -/
theorem eval_assign_struct {setup : Setup} {call : Caller} {expand : Expand Machine} {scope : Scope}
    {line : Nat} {target value : Expr} {type t : CType} {m₀ m₁ m : Machine} {a b : Int} {v : Value}
    (hm : m.Faithful) (hstruct : type.isStruct = true)
    (htarget : place (machineHost setup call) expand scope target m₀ = .ok (⟨.int b, type⟩, m₁))
    (hvalue : eval (machineHost setup call) expand scope value m₁ = .ok (⟨.int a, t⟩, m))
    (hb : m.read (.int b) = .ok v) :
    ∃ m', eval (machineHost setup call) expand scope (.assign line none target value) m₀
        = .ok (⟨.int a, type⟩, m') ∧
      m'.read (.int b) = .ok (.int a) ∧ ∀ c, c ≠ b → m'.read (.int c) = m.read (.int c) := by
  have hcoerce : (Value.int a).coerce type = .ok (.int a) := by
    rw [CType.isStruct, Bool.and_eq_true, Bool.and_eq_true] at hstruct
    rw [Value.coerce, hstruct.1.1, Bool.or_true, if_pos rfl]
  obtain ⟨m', hwrite⟩ : ∃ m', m.write (.int b) (.int a) = .ok m' :=
    ⟨_, Machine.write_eq_ok.2 ⟨_, rfl, hm.has_of_read hb, rfl⟩⟩
  have hstore : (machineHost setup call).store ⟨.int b, type⟩ (.int a) m = .ok ((), m') := by
    refine Eval.bind_eq_ok.2 ⟨_, m, Eval.lift_eq_ok.2 ⟨hcoerce, rfl⟩, ?_⟩
    exact Run.attempt_eq_ok (f := fun m : Machine => m.write (.int b) (.int a)) |>.2 hwrite
  refine ⟨m', ?_, ?_, ?_⟩
  · rw [eval]
    refine Eval.bind_eq_ok.2 ⟨_, m₁, htarget, Eval.bind_eq_ok.2 ⟨_, m, hvalue, ?_⟩⟩
    refine Eval.bind_eq_ok.2 ⟨_, m, Eval.pure_eq_ok.2 ⟨rfl, rfl⟩, ?_⟩
    refine Eval.bind_eq_ok.2 ⟨_, m', hstore, ?_⟩
    exact Eval.bind_eq_ok.2 ⟨_, m', Eval.lift_eq_ok.2 ⟨hcoerce, rfl⟩, Eval.pure_eq_ok.2 ⟨rfl, rfl⟩⟩
  · rw [Machine.read_write hwrite, if_pos rfl]
  · intro c hc
    rw [Machine.read_write hwrite, if_neg hc]

/-! ## The main result -/

/-- What comes of a struct at an address `a` where the program uses it as a value; `m` is the machine
once the value has been computed. -/
structure Setup.UsesStruct (setup : Setup) (type : CType) (a : Int) (m : Machine) : Prop where
  /-- A variable in a function that is initialized with it. -/
  declared : ∀ {evaluate : Expr → Run Typed} {line : Nat} {name : String} {e : Expr} {t type' : CType}
    {b : Int} {m₀ m' : Machine}, evaluate e m₀ = .ok (⟨.int a, t⟩, m) →
      declareVariable setup evaluate type ⟨line, name, 0, .none, some (.expr e)⟩ m₀
        = .ok ((type', b), m') →
      Copies setup.analysis.layouts type a b m m' ∧ m'.lookup name = some ⟨.int b, type⟩
  /-- A variable outside functions that is initialized with it. -/
  declaredOutside : ∀ {evaluate : Expr → Run Typed} {line : Nat} {name : String} {e : Expr}
    {t : CType} {m₀ m' : Machine}, evaluate e m₀ = .ok (⟨.int a, t⟩, m) →
      declareGlobal setup evaluate type ⟨line, name, 0, .none, some (.expr e)⟩ m₀ = .ok ((), m') →
      ∃ b, Copies setup.analysis.layouts type a b m m' ∧
        ∃ c, m'.state.shown? globalFrame name = some c ∧ c.address = .int b ∧ c.type = type
  /-- A parameter that it is passed to. -/
  passed : ∀ {f : Function} {arguments : List Typed} {line : Nat} {m' : Machine},
      arguments.length = f.named.length → (f.named.map Parameter.name).Nodup →
      Invocation.enter setup f (m.nextLabel f.name) arguments line m = .ok ((), m') →
      ∀ {parameter : Parameter} {t : CType}, (parameter, ⟨.int a, t⟩) ∈ f.named.zip arguments →
        parameter.fullType = type →
        ∃ b, Copies setup.analysis.layouts type a b m m' ∧
          m'.lookup parameter.name = some ⟨.int b, type⟩
  /-- A struct that it is assigned to, which is not a copy afterwards. -/
  assigned : ∀ {call : Caller} {expand : Expand Machine} {scope : Scope} {line : Nat}
    {target value : Expr} {t : CType} {b : Int} {v : Value} {m₀ m₁ : Machine},
      place (machineHost setup call) expand scope target m₀ = .ok (⟨.int b, type⟩, m₁) →
      eval (machineHost setup call) expand scope value m₁ = .ok (⟨.int a, t⟩, m) →
      m.read (.int b) = .ok v →
      ∃ m', eval (machineHost setup call) expand scope (.assign line none target value) m₀
          = .ok (⟨.int a, type⟩, m') ∧
        m'.read (.int b) = .ok (.int a) ∧ ∀ c, c ≠ b → m'.read (.int c) = m.read (.int c)

/-- **Structs are copied where new objects are made of them.** In a program whose structs are well
defined and whose arrays have elements, a declaration and a call copy the members of a struct that
are in one cell each, so all its leaves if it has no others, and leave the struct as it is; an
assignment copies nothing and stores the address. -/
theorem structs_are_copied_when_made {source : String} {p : Program} {analysis : Analysis}
    {settings : Settings} (hparse : parse (tokenize source) = .ok p)
    (ha : analyze p source (tokenize source) = .ok analysis)
    (hstructs : p.StructsDefined analysis.layouts) {m : Machine}
    (hm : Setup.Passes ⟨analysis, settings⟩ m) (harrays : AllFilled m.steps.toList) {type : CType}
    (hstruct : type.isStruct = true) (a : Int) :
    Setup.UsesStruct ⟨analysis, settings⟩ type a m := by
  have hlayouts := (analyze_layouts ha).1
  have hsettled : analysis.layouts.Settled := hstructs.settled (parse_tagged hparse) hlayouts
  have hnames := layouts_members_apart hlayouts
  refine ⟨?declared, ?declaredOutside, ?passed, ?assigned⟩
  case declared =>
    exact fun he h => declareVariable_copies hsettled hnames hm harrays hstruct he h
  case declaredOutside =>
    exact fun he h => declareGlobal_copies hsettled hnames hm harrays hstruct he h
  case passed =>
    intro f arguments line m' harity hparameters h parameter t hmem htype
    subst htype
    exact Invocation.enter_copies hsettled hnames hm harrays harity hparameters h hmem hstruct
  case assigned =>
    exact fun htarget hvalue hb => eval_assign_struct hm.faithful hstruct htarget hvalue hb

/-! ## Two structs -/

namespace TwoStructs

/-- A program that makes a struct of another and then assigns that to it. -/
def source : String :=
  "struct p\x7bint x;int y;\x7d;\nint main()\x7bstruct p a=\x7b1,2\x7d;struct p b=a;b=a;\x7d\n"

/-- Its tokens. -/
def tokens : List Token :=
  [⟨.keyword, "struct", 1, 1⟩, ⟨.identifier, "p", 1, 8⟩, ⟨.punctuation, "\x7b", 1, 9⟩,
    ⟨.keyword, "int", 1, 10⟩, ⟨.identifier, "x", 1, 14⟩, ⟨.punctuation, ";", 1, 15⟩,
    ⟨.keyword, "int", 1, 16⟩, ⟨.identifier, "y", 1, 20⟩, ⟨.punctuation, ";", 1, 21⟩,
    ⟨.punctuation, "\x7d", 1, 22⟩, ⟨.punctuation, ";", 1, 23⟩,
    ⟨.keyword, "int", 2, 1⟩, ⟨.identifier, "main", 2, 5⟩, ⟨.punctuation, "(", 2, 9⟩,
    ⟨.punctuation, ")", 2, 10⟩, ⟨.punctuation, "\x7b", 2, 11⟩,
    ⟨.keyword, "struct", 2, 12⟩, ⟨.identifier, "p", 2, 19⟩, ⟨.identifier, "a", 2, 21⟩,
    ⟨.operator, "=", 2, 22⟩, ⟨.punctuation, "\x7b", 2, 23⟩, ⟨.literal, "1", 2, 24⟩,
    ⟨.punctuation, ",", 2, 25⟩, ⟨.literal, "2", 2, 26⟩, ⟨.punctuation, "\x7d", 2, 27⟩,
    ⟨.punctuation, ";", 2, 28⟩,
    ⟨.keyword, "struct", 2, 29⟩, ⟨.identifier, "p", 2, 36⟩, ⟨.identifier, "b", 2, 38⟩,
    ⟨.operator, "=", 2, 39⟩, ⟨.identifier, "a", 2, 40⟩, ⟨.punctuation, ";", 2, 41⟩,
    ⟨.identifier, "b", 2, 42⟩, ⟨.operator, "=", 2, 43⟩, ⟨.identifier, "a", 2, 44⟩,
    ⟨.punctuation, ";", 2, 45⟩, ⟨.punctuation, "\x7d", 2, 46⟩]

/-- The type of both structs. -/
def type : CType := ⟨"struct p"⟩

/-- The declaration that makes the second of the first. -/
def copy : Variable := ⟨2, "b", 0, .none, some (.expr (.name 2 "a"))⟩

/-- Its main function. -/
def main : Function where
  line := 2
  name := "main"
  returnType := .int
  parameters := []
  bodyLine := 2
  body :=
    [.decl ⟨2, type,
        [⟨2, "a", 0, .none, some (.list 2 [.expr (.literal 2 "1"), .expr (.literal 2 "2")])⟩]⟩,
      .decl ⟨2, type, [copy]⟩,
      .expr 2 (.assign 2 none (.name 2 "b") (.name 2 "a"))]

/-- The program. -/
def program : Program :=
  ⟨[.struct ⟨1, "p", [⟨1, .int, [⟨1, "x", 0, .none, none⟩]⟩, ⟨1, .int, [⟨1, "y", 0, .none, none⟩]⟩]⟩,
    .function main]⟩

/-- What is known about it. -/
def analysis : Analysis where
  program := program
  source := source
  tokens := tokens
  lines := Text.lines source
  macros := []
  layouts := [("struct p", ⟨"struct p", [("x", 0, .int), ("y", 4, .int)], 8⟩)]

/-- What it runs under. -/
def setup : Setup := ⟨analysis, {}⟩

theorem tokenize_source : tokenize source = tokens :=
  Token.tokenize_of_chars rfl (by decide +kernel) (by decide)

theorem parse_tokens : parse tokens = .ok program := by
  decide +kernel

theorem analyze_program : analyze program source tokens = .ok analysis :=
  analyze_of_layouts rfl (by decide +kernel)

theorem structsDefined : program.StructsDefined analysis.layouts :=
  .of_ints (by decide) (by decide) (by decide)

/-- How the expressions of its main function are evaluated. -/
def evaluateInMain : Expr → Run Typed :=
  evaluateWith setup (callAt setup noCommentary 1) []

/-- The machine in front of the second declaration: the main function has been entered, and the
first struct has been declared. -/
def beforeCopy : Except Fault Machine := do
  let (_, m) ← Invocation.enter setup main "main" [] 2 (Machine.start {})
  let (_, m) ← declare setup "main" "a" type 2 (.record [("x", .int 1), ("y", .int 2)])
    "Declaration of struct p variable a" m
  return m

/-- There is a number at an address. -/
def holds (m : Machine) (address value : Int) : Bool :=
  match m.read (.int address) with
  | .ok (.num (.int n)) => n == value
  | _ => false

theorem read_of_holds {m : Machine} {address value : Int} (h : holds m address value = true) :
    m.read (.int address) = .ok (.int value) := by
  unfold holds at h
  split at h
  · next n hread =>
    rw [hread, eq_of_beq h]
  · cases h

/-- The first struct has its values, and no array has been declared. -/
def ready (m : Machine) : Bool :=
  holds m 4096 1 && holds m 4100 2 &&
    m.steps.toList.all fun step => step.delta.stack.all fun e => e.2.vars.all fun v =>
      !v.type.isArray

/-- The second declaration lays its struct behind the first. -/
def declares (m : Machine) : Bool :=
  match m.lookup "a", declareVariable setup evaluateInMain type copy m with
  | some ⟨.num (.int 4096), t⟩, .ok ((_, b), _) => t == type && b == 4104
  | _, _ => false

theorem beforeCopy_ready :
    (match beforeCopy with
      | .ok m => ready m && declares m
      | .error _ => false) = true := by
  decide +kernel

/-- Execution passes through that machine. -/
theorem exists_beforeCopy :
    ∃ m, setup.Passes m ∧ ready m = true ∧ declares m = true := by
  have hready := beforeCopy_ready
  cases hbefore : beforeCopy with
  | error fault =>
    rw [hbefore] at hready
    cases hready
  | ok m =>
    rw [hbefore] at hready
    obtain ⟨⟨_, m₁⟩, henter, hbefore⟩ := bind_eq_ok.1 hbefore
    obtain ⟨⟨a, m₂⟩, hdeclare, hbefore⟩ := bind_eq_ok.1 hbefore
    obtain rfl := Except.ok.inj hbefore
    have hentered : Walk setup (Machine.start {}) m₁ := .enter main [] 2 rfl rfl henter
    have hframe : m₁.currentFrame = "main" := by
      rw [Machine.currentFrame, Invocation.enter_active henter rfl]
      rfl
    have hdeclared : Walk setup m₁ m₂ := by
      rw [← hframe] at hdeclare
      exact .declare "a" type 2 _ _ a hdeclare
    rw [Bool.and_eq_true] at hready
    exact ⟨m₂, (Relation.ReflTransGen.single hentered).tail hdeclared, hready⟩

theorem allFilled_of_ready {m : Machine} (h : ready m = true) : AllFilled m.steps.toList := by
  rw [ready, Bool.and_eq_true] at h
  intro step hstep f hf _ v hv
  have hvars := List.all_eq_true.1 (List.all_eq_true.1 (List.all_eq_true.1 h.2 step hstep) f hf) v hv
  rw [Bool.not_eq_true'] at hvars
  exact .single hvars

theorem reads_of_ready {m : Machine} (h : ready m = true) :
    m.read (.int 4096) = .ok (.int 1) ∧ m.read (.int 4100) = .ok (.int 2) := by
  rw [ready, Bool.and_eq_true, Bool.and_eq_true] at h
  exact ⟨read_of_holds h.1.1, read_of_holds h.1.2⟩

theorem declareVariable_of_declares {m : Machine} (h : declares m = true) :
    m.lookup "a" = some ⟨.int 4096, type⟩ ∧
      ∃ type' m', declareVariable setup evaluateInMain type copy m = .ok ((type', 4104), m') := by
  unfold declares at h
  split at h
  · next t type' b m' hlookup hdeclared =>
    rw [Bool.and_eq_true, beq_iff_eq, beq_iff_eq] at h
    obtain ⟨rfl, rfl⟩ := h
    exact ⟨hlookup, type', m', hdeclared⟩
  · cases h

theorem evaluateInMain_name {m : Machine} (h : m.lookup "a" = some ⟨.int 4096, type⟩) :
    evaluateInMain (.name 2 "a") m = .ok (⟨.int 4096, type⟩, m) := by
  let call := callAt setup noCommentary 1
  show eval (machineHost setup call) (evalWithin (machineHost setup call) 999) [] (.name 2 "a") m = _
  exact eval_struct_name h (by decide)

/-- The members of both structs. -/
def members : Members := [("x", 0, .int), ("y", 4, .int)]

theorem membersOf_type : setup.analysis.layouts.membersOf type = .ok members :=
  rfl

theorem isCell_of_mem {e : String × Int × CType} (he : e ∈ members) : e.2.2.IsCell := by
  have hint : e.2.2 = .int := by
    rcases List.mem_cons.1 he with rfl | he
    · rfl
    · rw [List.mem_singleton.1 he]
  rw [hint]
  exact ⟨by decide, fun harray => absurd harray (by decide)⟩

/-- A copy of the first struct has its values. -/
theorem read_of_copies {m m' : Machine} {b : Int}
    (h : Copies setup.analysis.layouts type 4096 b m m') {e : String × Int × CType} (he : e ∈ members)
    {n : Int} (hn : m.read (.int (4096 + e.2.1)) = .ok (.int n)) :
    m'.read (.int (b + e.2.1)) = .ok (.int n) := by
  have hcells : ∀ members', setup.analysis.layouts.membersOf type = .ok members' →
      ∀ e ∈ members', e.2.2.IsCell := by
    intro members' hmembers e he
    obtain rfl := Except.ok.inj (membersOf_type.symm.trans hmembers)
    exact isCell_of_mem he
  have hleaf : Leaf setup.analysis.layouts type (e.2.1 + 0) e.2.2 :=
    .member (by decide) membersOf_type he (.cell (isCell_of_mem he))
  rw [Int.add_zero] at hleaf
  obtain ⟨v, w, hv, hw, hbare⟩ := h.whole hcells _ _ hleaf
  obtain rfl : Value.int n = v := Except.ok.inj (hn.symm.trans hv)
  rw [hw, Value.eq_int_of_bare hbare]

/-- What its script comes to. -/
def outcome : Except Fault (Unit × Machine) :=
  Category.structures.play setup (Machine.start {})

theorem outcome_holds :
    (match outcome with
      | .ok (_, m) => holds m 4096 1 && holds m 4100 2 && holds m 4104 4096
      | .error _ => false) = true := by
  have hcalls : Settings.calls {} = 31 + 1 := rfl
  have hmain : setup.analysis.main? = some main := rfl
  unfold outcome Category.play runMain
  rw [hmain]
  dsimp only
  rw [show setup.settings.calls = 31 + 1 from rfl, invoke]
  -- statements are unfolded by their equations; the rest is computed
  simp only [main, Walker.runBody, Walker.items, Walker.run]
  decide +kernel

end TwoStructs

/-- In this program, the second struct is made a copy of the first. -/
theorem second_struct_is_a_copy :
    parse (tokenize TwoStructs.source) = .ok TwoStructs.program ∧
    ∃ m m' type', TwoStructs.setup.Passes m ∧
      declareVariable TwoStructs.setup TwoStructs.evaluateInMain TwoStructs.type TwoStructs.copy m
        = .ok ((type', 4104), m') ∧
      m.read (.int 4096) = .ok (.int 1) ∧ m.read (.int 4100) = .ok (.int 2) ∧
      m'.read (.int 4104) = .ok (.int 1) ∧ m'.read (.int 4108) = .ok (.int 2) := by
  have hparse : parse (tokenize TwoStructs.source) = .ok TwoStructs.program := by
    rw [TwoStructs.tokenize_source]
    exact TwoStructs.parse_tokens
  have hanalyze : analyze TwoStructs.program TwoStructs.source (tokenize TwoStructs.source)
      = .ok TwoStructs.analysis := by
    rw [TwoStructs.tokenize_source]
    exact TwoStructs.analyze_program
  obtain ⟨m, hpasses, hready, hdeclares⟩ := TwoStructs.exists_beforeCopy
  obtain ⟨hlookup, type', m', hdeclared⟩ := TwoStructs.declareVariable_of_declares hdeclares
  have huses : TwoStructs.setup.UsesStruct TwoStructs.type 4096 m :=
    structs_are_copied_when_made hparse hanalyze TwoStructs.structsDefined hpasses
      (TwoStructs.allFilled_of_ready hready) (by decide) 4096
  obtain ⟨hcopies, _⟩ := huses.declared (TwoStructs.evaluateInMain_name hlookup) hdeclared
  obtain ⟨hx, hy⟩ := TwoStructs.reads_of_ready hready
  refine ⟨hparse, m, m', type', hpasses, hdeclared, hx, hy, ?_, ?_⟩
  · exact TwoStructs.read_of_copies hcopies (e := ("x", 0, .int)) (by decide) hx
  · exact TwoStructs.read_of_copies hcopies (e := ("y", 4, .int)) (by decide) hy

/-- After the assignment, the first member of the second struct is the address of the first. -/
theorem assigned_struct_is_an_address :
    parse (tokenize TwoStructs.source) = .ok TwoStructs.program ∧
    ∃ m, Category.structures.play TwoStructs.setup (Machine.start {}) = .ok ((), m) ∧
      m.read (.int 4096) = .ok (.int 1) ∧ m.read (.int 4100) = .ok (.int 2) ∧
      m.read (.int 4104) = .ok (.int 4096) := by
  refine ⟨?_, ?_⟩
  · rw [TwoStructs.tokenize_source]
    exact TwoStructs.parse_tokens
  · have hholds := TwoStructs.outcome_holds
    cases houtcome : TwoStructs.outcome with
    | error fault =>
      rw [houtcome] at hholds
      cases hholds
    | ok result =>
      rw [houtcome] at hholds
      simp only [Bool.and_eq_true] at hholds
      obtain ⟨⟨hx, hy⟩, hb⟩ := hholds
      exact ⟨result.2, houtcome, TwoStructs.read_of_holds hx, TwoStructs.read_of_holds hy,
        TwoStructs.read_of_holds hb⟩

end Stepwise
