/-
Trees that are read back by the kinds of their nodes.

Whoever evaluates a tree goes by the kind of a node: the kind says which children
there are to take apart, and which operators to look for. A node of another kind, an
operator that is none, or a wrong number of children leaves nothing to do but to
refuse the node. Here trees are read back into syntax in this way, and a tree is *well
shaped* if each of its nodes has the number of children and an operator that belong
to its kind.

The trees of programs and of expressions are well shaped, and no node of theirs is ever
refused: each of them is read back as the syntax it is the tree of. So it makes no
difference whether the tree is evaluated or the syntax, and what a reader would say to
a node it refuses is never said.
-/
import Stepwise.Syntax.Tree

set_option autoImplicit false

namespace Stepwise

/-! ## Well-shaped trees -/

namespace Tree

/-- Can a node of the kind have so many children? -/
def Kind.fits : Kind → Nat → Bool
  | forLoop, n => n == 4
  | conditional, n => n == 3
  | cond, n => n == 2 || n == 3
  | whileLoop, n | doLoop, n | switch, n | assign, n | logic, n | bitwise, n | relational, n
  | shift, n | additive, n | multiplicative, n => n == 2
  | unary, n | stepAfter, n | cast, n | index, n | member, n | caseLabel, n | exprStmt, n
  | function, n => n == 1
  | declared, n | ret, n | size, n => n ≤ 1
  | directive, n | defaultLabel, n | breakOut, n | continueOn, n | empty, n | literal, n
  | name, n => n == 0
  | program, _ | struct, _ | decl, _ | block, _ | call, _ | initializers, _ => true

/-- The operators that the nodes of a kind can have. -/
def Kind.operators : Kind → List String
  | logic => ["&&", "||"]
  | bitwise => ["&", "|", "^"]
  | relational => ["==", "!=", "<", ">", "<=", ">="]
  | shift => ["<<", ">>"]
  | additive => ["+", "-"]
  | multiplicative => ["*", "/", "%"]
  | unary => ["+", "-", "!", "~", "++", "--", "*", "&"]
  | stepAfter => ["++", "--"]
  | assign => ["=", "+=", "-=", "*=", "/=", "%=", "&=", "|=", "^=", "<<=", ">>="]
  | _ => []

/-- Every node has the number of children that belongs to its kind, an operator of its kind if the
kind has operators, and, if it is a function, a block for its only child. -/
inductive Shaped : Tree → Prop
  | node {label : Label} {size : Option Tree} {children : List Tree}
      (arity : label.kind.fits children.length)
      (operator : label.kind.operators ≠ [] → ∃ op ∈ label.kind.operators, label.value = some op)
      (body : label.kind = .function → ∀ child ∈ children, child.label.kind = .block)
      (hsize : ∀ t ∈ size, Shaped t) (hchildren : ∀ child ∈ children, Shaped child) :
    Shaped (.node label size children)

/-- A node without a size, of a kind without operators that is no function. -/
theorem Shaped.plain {label : Label} {children : List Tree}
    (arity : label.kind.fits children.length) (hoperators : label.kind.operators = [])
    (hkind : label.kind ≠ .function) (hchildren : ∀ child ∈ children, Shaped child) :
    Shaped (.node label none children) :=
  .node arity (fun h => absurd hoperators h) (fun h => absurd h hkind) (fun _ h => nomatch h)
    hchildren

end Tree

/-! ## Refusals -/

/-- Why a reader of trees refuses a node. -/
inductive Refusal where
  /-- The node is no expression. -/
  | evaluate (kind : Tree.Kind) (line : Nat)
  /-- The text is no operator in front of an operand. -/
  | unaryOperator (text : String)
  /-- The text is no operator between operands. -/
  | operator (text : String)
  /-- The children cannot be taken apart as the kind demands. -/
  | children (kind : Tree.Kind) (line : Nat)
  /-- The node is no statement. -/
  | simulate (kind : Tree.Kind) (line : Nat)
deriving Repr, DecidableEq

namespace Refusal

/-- What is said of a refused node; children that cannot be taken apart are an error of the reader's
own, without words. -/
def message? : Refusal → Option String
  | evaluate kind line => some s!"Cannot evaluate {kind.text} at line {line}"
  | unaryOperator text => some s!"Unsupported unary operator {text}"
  | operator text => some s!"Unsupported operator {text}"
  | children _ _ => none
  | simulate kind line => some s!"Cannot simulate {kind.text} at line {line}"

end Refusal

/-! ## Expressions -/

namespace Tree

/-- The value of a node, empty if it has none. -/
def Label.text (l : Label) : String :=
  l.value.getD ""

/-- Is the member reached through a pointer? -/
def Label.isArrow (l : Label) : Bool :=
  match l.detail with
  | .arrow arrow => arrow
  | _ => false

/-- What a look-up finds, or else a refusal. -/
def orRefuse {α : Type} (found : Option α) (refusal : Refusal) : Except Refusal α :=
  match found with
  | some a => .ok a
  | none => .error refusal

/-- The expression that a node makes of its operands. -/
def Label.expr (l : Label) (operands : List Expr) : Except Refusal Expr :=
  match l.kind with
  | .literal => .ok (.literal l.line l.text)
  | .name => .ok (.name l.line l.text)
  | .call => .ok (.call l.line l.text operands)
  | .index => do
    let [position] := operands | .error (.children l.kind l.line)
    return .index l.line l.text position
  | .member => do
    let [object] := operands | .error (.children l.kind l.line)
    return .member l.line l.isArrow object l.text
  | .unary => do
    let [operand] := operands | .error (.children l.kind l.line)
    return .unary l.line (← orRefuse (UnaryOp.ofText? l.text) (.unaryOperator l.text)) operand
  | .stepAfter => do
    let [operand] := operands | .error (.children l.kind l.line)
    return .stepAfter l.line (← orRefuse (StepOp.ofText? l.text) (.operator l.text)) operand
  | .cast => do
    let [operand] := operands | .error (.children l.kind l.line)
    return .cast l.line ⟨l.text⟩ operand
  | .size =>
    match l.value with
    | some type => .ok (.sizeOfType l.line ⟨type⟩)
    | none => do
      let [operand] := operands | .error (.children l.kind l.line)
      return .sizeOf l.line operand
  | .bitwise | .relational | .shift | .additive | .multiplicative => do
    let [left, right] := operands | .error (.children l.kind l.line)
    return .binary l.line (← orRefuse (BinaryOp.ofText? l.text) (.operator l.text)) left right
  | .logic => do
    let [left, right] := operands | .error (.children l.kind l.line)
    return .logic l.line (← orRefuse (LogicOp.ofText? l.text) (.operator l.text)) left right
  | .conditional => do
    let [condition, whenTrue, whenFalse] := operands | .error (.children l.kind l.line)
    return .conditional l.line condition whenTrue whenFalse
  | .assign => do
    let [target, value] := operands | .error (.children l.kind l.line)
    return .assign l.line (← orRefuse (assignOfText? l.text) (.operator l.text)) target value
  | kind => .error (.evaluate kind l.line)

end Tree

/-- The expressions that an expression is directly made of. -/
def Expr.operands : Expr → List Expr
  | literal .. | name .. | sizeOfType .. => []
  | call _ _ arguments => arguments
  | index _ _ e | member _ _ e _ | unary _ _ e | stepAfter _ _ e | cast _ _ e | sizeOf _ e => [e]
  | binary _ _ left right | logic _ _ left right | assign _ _ left right => [left, right]
  | conditional _ condition whenTrue whenFalse => [condition, whenTrue, whenFalse]

namespace Tree

mutual

/-- The expression that a tree stands for. -/
def readExpr : Tree → Except Refusal Expr
  | node label _ children => do label.expr (← readExprs children)

/-- The expressions that several trees stand for. -/
def readExprs : List Tree → Except Refusal (List Expr)
  | [] => return []
  | t :: rest => do return (← readExpr t) :: (← readExprs rest)

end

end Tree

namespace Expr

theorem tree_eq (e : Expr) : e.tree = .node e.treeLabel none (trees e.operands) := by
  cases e <;> rfl

theorem label_tree (e : Expr) : e.tree.label = e.treeLabel := by
  cases e <;> rfl

/-- The node of an expression makes it of the expressions that its operands stand for. -/
theorem expr_treeLabel (e : Expr) : e.treeLabel.expr e.operands = .ok e := by
  cases e with
  | unary _ op _ =>
    cases op with
    | step op => cases op <;> rfl
    | _ => rfl
  | stepAfter _ op _ => cases op <;> rfl
  | binary _ op _ _ =>
    cases op with
    | arith op => cases op <;> rfl
    | rel op => cases op <;> rfl
  | logic _ op _ _ => cases op <;> rfl
  | assign _ op _ _ =>
    cases op with
    | none => rfl
    | some op => cases op <;> rfl
  | _ => rfl

mutual

/-- **The tree of an expression is read back as the expression.** The induction is on the
expression. -/
theorem readExpr_tree (e : Expr) : e.tree.readExpr = .ok e := by
  have hnode : ∀ ts, Tree.readExprs ts = .ok e.operands →
      (Tree.node e.treeLabel none ts).readExpr = .ok e := by
    intro ts hts
    rw [Tree.readExpr, hts]
    exact e.expr_treeLabel
  match e with
  | literal .. | name .. | sizeOfType .. => exact hnode [] rfl
  | call _ _ arguments => exact hnode _ (readExprs_trees arguments)
  | index _ _ e | member _ _ e _ | unary _ _ e | stepAfter _ _ e | cast _ _ e | sizeOf _ e =>
    refine hnode [e.tree] ?_
    rw [Tree.readExprs, readExpr_tree e]
    rfl
  | binary _ _ left right | logic _ _ left right | assign _ _ left right =>
    refine hnode [left.tree, right.tree] ?_
    rw [Tree.readExprs, Tree.readExprs, readExpr_tree left, readExpr_tree right]
    rfl
  | conditional _ condition whenTrue whenFalse =>
    refine hnode [condition.tree, whenTrue.tree, whenFalse.tree] ?_
    rw [Tree.readExprs, Tree.readExprs, Tree.readExprs, readExpr_tree condition,
      readExpr_tree whenTrue, readExpr_tree whenFalse]
    rfl

theorem readExprs_trees (es : List Expr) : Tree.readExprs (trees es) = .ok es := by
  match es with
  | [] => rfl
  | e :: rest =>
    rw [trees, Tree.readExprs, readExpr_tree e, readExprs_trees rest]
    rfl

end

end Expr

/-! The operators of syntax are those of the nodes they make. -/

theorem StepOp.text_mem_unary (op : StepOp) : op.text ∈ Tree.Kind.operators .unary := by
  cases op <;> decide

theorem UnaryOp.text_mem (op : UnaryOp) : op.text ∈ Tree.Kind.operators .unary := by
  cases op with
  | step op => exact op.text_mem_unary
  | _ => decide

theorem StepOp.text_mem (op : StepOp) : op.text ∈ Tree.Kind.operators .stepAfter := by
  cases op <;> decide

theorem BinaryOp.text_mem (op : BinaryOp) : op.text ∈ op.treeKind.operators := by
  cases op with
  | arith op => cases op <;> decide
  | rel op => cases op <;> decide

theorem LogicOp.text_mem (op : LogicOp) : op.text ∈ Tree.Kind.operators .logic := by
  cases op <;> decide

theorem assignText_mem (op : Option ArithOp) : assignText op ∈ Tree.Kind.operators .assign := by
  cases op with
  | none => decide
  | some op => cases op <;> decide

/-- The kinds of the nodes that binary operators make. -/
theorem BinaryOp.treeKind_mem (op : BinaryOp) :
    op.treeKind ∈ [.bitwise, .relational, .shift, .additive, .multiplicative] := by
  cases op with
  | arith op => cases op <;> decide
  | rel op => simp [treeKind]

namespace Expr

theorem fits_operands (e : Expr) : e.treeKind.fits e.operands.length := by
  cases e with
  | binary _ op _ _ =>
    have h : ∀ kind ∈ [.bitwise, .relational, .shift, .additive, .multiplicative],
        Tree.Kind.fits kind 2 := by decide
    exact h _ op.treeKind_mem
  | _ => rfl

theorem mem_operators (e : Expr) (h : e.treeKind.operators ≠ []) :
    ∃ op ∈ e.treeKind.operators, e.treeValue = some op := by
  cases e with
  | unary _ op _ => exact ⟨_, op.text_mem, rfl⟩
  | stepAfter _ op _ => exact ⟨_, op.text_mem, rfl⟩
  | binary _ op _ _ => exact ⟨_, op.text_mem, rfl⟩
  | logic _ op _ _ => exact ⟨_, op.text_mem, rfl⟩
  | assign _ op _ _ => exact ⟨_, assignText_mem op, rfl⟩
  | _ => exact absurd rfl h

/-- The node of an expression is no function, no braced initializer, no declaration, and nothing
omitted. -/
theorem treeKind_ne (e : Expr) : e.treeKind ≠ .function ∧ e.treeKind ≠ .initializers ∧
    e.treeKind ≠ .decl ∧ e.treeKind ≠ .empty := by
  cases e with
  | binary _ op _ _ =>
    have h : ∀ kind ∈ [Tree.Kind.bitwise, .relational, .shift, .additive, .multiplicative],
        kind ≠ .function ∧ kind ≠ .initializers ∧ kind ≠ .decl ∧ kind ≠ .empty := by decide
    exact h _ op.treeKind_mem
  | _ => simp [treeKind]

theorem length_trees (es : List Expr) : (trees es).length = es.length := by
  induction es with
  | nil => rfl
  | cons e es ih => rw [trees, List.length_cons, List.length_cons, ih]

mutual

/-- The tree of an expression is well shaped. The induction is on the expression. -/
theorem shaped_tree (e : Expr) : e.tree.Shaped := by
  have hnode : ∀ ts : List Tree, ts.length = e.operands.length → (∀ t ∈ ts, t.Shaped) →
      (Tree.node e.treeLabel none ts).Shaped := by
    intro ts hlength hts
    exact .node (hlength ▸ e.fits_operands) e.mem_operators (fun h => absurd h e.treeKind_ne.1)
      (fun _ h => nomatch h) hts
  match e with
  | literal .. | name .. | sizeOfType .. => exact hnode [] rfl fun _ h => nomatch h
  | call _ _ arguments =>
    exact hnode _ (length_trees arguments) (shaped_trees arguments)
  | index _ _ e | member _ _ e _ | unary _ _ e | stepAfter _ _ e | cast _ _ e | sizeOf _ e =>
    exact hnode [e.tree] rfl (List.forall_mem_singleton.2 (shaped_tree e))
  | binary _ _ left right | logic _ _ left right | assign _ _ left right =>
    exact hnode [left.tree, right.tree] rfl
      (List.forall_mem_cons.2 ⟨shaped_tree left, List.forall_mem_singleton.2 (shaped_tree right)⟩)
  | conditional _ condition whenTrue whenFalse =>
    exact hnode [condition.tree, whenTrue.tree, whenFalse.tree] rfl
      (List.forall_mem_cons.2 ⟨shaped_tree condition, List.forall_mem_cons.2
        ⟨shaped_tree whenTrue, List.forall_mem_singleton.2 (shaped_tree whenFalse)⟩⟩)

theorem shaped_trees (es : List Expr) : ∀ t ∈ trees es, t.Shaped := by
  match es with
  | [] => exact fun _ h => nomatch h
  | e :: rest =>
    rw [trees]
    exact List.forall_mem_cons.2 ⟨shaped_tree e, shaped_trees rest⟩

end

end Expr

/-! ## Declarations -/

namespace Tree

/-- The type of a declaration. -/
def Label.type (l : Label) : CType :=
  match l.detail with
  | .type type => type
  | _ => ⟨""⟩

/-- The stars of a declared name. -/
def Label.stars (l : Label) : Nat :=
  match l.detail with
  | .shape stars _ => stars
  | _ => 0

/-- Does the declared name have brackets? -/
def Label.isArray (l : Label) : Bool :=
  match l.detail with
  | .shape _ isArray => isArray
  | _ => false

/-- The directive that a node stands for. -/
def Label.directive (l : Label) : Directive :=
  { line := l.line
    command := l.text
    arguments :=
      match l.detail with
      | .arguments texts => texts
      | _ => [] }

mutual

/-- The initializer that a tree stands for. -/
def readInit : Tree → Except Refusal Init
  | node label size children =>
    if label.kind = .initializers then do return .list label.line (← readInits children)
    else do return .expr (← readExpr (node label size children))

/-- The initializers that several trees stand for. -/
def readInits : List Tree → Except Refusal (List Init)
  | [] => return []
  | t :: rest => do return (← readInit t) :: (← readInits rest)

end

/-- The brackets of a declared name. -/
def readBrackets (isArray : Bool) : Option Tree → Except Refusal Brackets
  | some size => do return .sized (← readExpr size)
  | none => return if isArray then .unsized else .none

/-- The initializer of a declared name, if it has one. -/
def readInitOption (label : Label) : List Tree → Except Refusal (Option Init)
  | [] => return none
  | [init] => do return some (← readInit init)
  | _ => .error (.children label.kind label.line)

/-- The variable that a tree stands for. -/
def readVariable : Tree → Except Refusal Variable
  | node label size children => do
    return ⟨label.line, label.text, label.stars, ← readBrackets label.isArray size,
      ← readInitOption label children⟩

/-- The declaration that a tree stands for. -/
def readDecl : Tree → Except Refusal Decl
  | node label _ children => do return ⟨label.line, label.type, ← children.mapM readVariable⟩

end Tree

mutual

/-- The tree of an initializer is read back as the initializer. -/
theorem Init.readInit_tree (i : Init) : i.tree.readInit = .ok i := by
  match i with
  | .expr e =>
    have hkind : e.treeLabel.kind ≠ .initializers := e.treeKind_ne.2.1
    rw [Init.tree, e.tree_eq, Tree.readInit, if_neg hkind, ← e.tree_eq, e.readExpr_tree]
    rfl
  | .list _ items =>
    rw [Init.tree, Tree.readInit, if_pos rfl, Init.readInits_trees items]
    rfl

theorem Init.readInits_trees (items : List Init) :
    Tree.readInits (Init.trees items) = .ok items := by
  match items with
  | [] => rfl
  | i :: rest =>
    rw [Init.trees, Tree.readInits, Init.readInit_tree i, Init.readInits_trees rest]
    rfl

end

theorem Init.readInitOption_tree (label : Tree.Label) (init : Option Init) :
    Tree.readInitOption label (init.map Init.tree).toList = .ok init := by
  cases init with
  | none => rfl
  | some i =>
    show (do return some (← i.tree.readInit)) = _
    rw [i.readInit_tree]
    rfl

theorem Variable.readVariable_tree (v : Variable) : v.tree.readVariable = .ok v := by
  obtain ⟨line, name, stars, brackets, init⟩ := v
  rw [Variable.tree, Tree.readVariable, Init.readInitOption_tree]
  cases brackets with
  | sized size =>
    have hbrackets : Tree.readBrackets true (some size.tree) = .ok (.sized size) := by
      rw [Tree.readBrackets, size.readExpr_tree]
      rfl
    show (do
      return Variable.mk line name stars (← Tree.readBrackets true (some size.tree)) init) = _
    rw [hbrackets]
    rfl
  | _ => rfl

theorem mapM_read {α : Type} {tree : α → Tree} {read : Tree → Except Refusal α}
    (h : ∀ a, read (tree a) = .ok a) (items : List α) :
    (items.map tree).mapM read = .ok items := by
  induction items with
  | nil => rfl
  | cons a items ih =>
    rw [List.map_cons, List.mapM_cons, h, ih]
    rfl

theorem Decl.readDecl_tree (d : Decl) : d.tree.readDecl = .ok d := by
  rw [Decl.tree, Tree.readDecl, mapM_read Variable.readVariable_tree]
  rfl

/-! ## Statements -/

namespace Tree

/-- The first clause of a loop that a tree stands for. -/
def readForInit (t : Tree) : Except Refusal ForInit :=
  match t.label.kind with
  | .empty => return .none
  | .decl => do return .decl (← t.readDecl)
  | _ => do return .expr (← t.readExpr)

/-- The clause of a loop that a tree stands for, if it is not omitted. -/
def readClause (t : Tree) : Except Refusal (Option Expr) :=
  if t.label.kind = .empty then return none
  else do return some (← t.readExpr)

mutual

/-- The statement that a tree stands for. -/
def readStmt : Tree → Except Refusal Stmt
  | node label size children =>
    match label.kind, children with
    | .directive, _ => .ok (.directive label.directive)
    | .block, body => do return .block label.line (← readStmts body)
    | .empty, _ => .ok (.empty label.line)
    | .decl, _ => do return .decl (← readDecl (node label size children))
    | .exprStmt, [e] => do return .expr label.line (← e.readExpr)
    | .cond, [condition, whenTrue] => do
      return .cond label.line (← condition.readExpr) (← readStmt whenTrue) none
    | .cond, [condition, whenTrue, whenFalse] => do
      return .cond label.line (← condition.readExpr) (← readStmt whenTrue)
        (some (← readStmt whenFalse))
    | .forLoop, [init, condition, update, body] => do
      return .forLoop label.line (← init.readForInit) (← condition.readClause)
        (← update.readClause) (← readStmt body)
    | .whileLoop, [condition, body] => do
      return .whileLoop label.line (← condition.readExpr) (← readStmt body)
    | .doLoop, [body, condition] => do
      return .doLoop label.line (← readStmt body) (← condition.readExpr)
    | .switch, [subject, body] => do
      return .switch label.line (← subject.readExpr) (← readStmt body)
    | .caseLabel, [value] => do return .caseLabel label.line (← value.readExpr)
    | .defaultLabel, _ => .ok (.defaultLabel label.line)
    | .breakOut, _ => .ok (.breakOut label.line)
    | .continueOn, _ => .ok (.continueOn label.line)
    | .ret, [] => .ok (.ret label.line none)
    | .ret, [value] => do return .ret label.line (some (← value.readExpr))
    | .exprStmt, _ | .cond, _ | .forLoop, _ | .whileLoop, _ | .doLoop, _ | .switch, _
    | .caseLabel, _ | .ret, _ => .error (.children label.kind label.line)
    | kind, _ => .error (.simulate kind label.line)

/-- The statements that several trees stand for. -/
def readStmts : List Tree → Except Refusal (List Stmt)
  | [] => return []
  | t :: rest => do return (← readStmt t) :: (← readStmts rest)

end

end Tree

theorem ForInit.readForInit_tree (line : Nat) (init : ForInit) :
    (init.tree line).readForInit = .ok init := by
  cases init with
  | none => rfl
  | decl d =>
    show (do return ForInit.decl (← d.tree.readDecl)) = _
    rw [d.readDecl_tree]
    rfl
  | expr e =>
    rw [ForInit.tree, Tree.readForInit, e.label_tree, e.readExpr_tree]
    split
    · next h => exact absurd h e.treeKind_ne.2.2.2
    · next h => exact absurd h e.treeKind_ne.2.2.1
    · rfl

theorem readClause_tree (line : Nat) (clause : Option Expr) :
    (clauseTree line clause).readClause = .ok clause := by
  cases clause with
  | none => rfl
  | some e =>
    have hkind : e.tree.label.kind ≠ .empty := by
      rw [e.label_tree]
      exact e.treeKind_ne.2.2.2
    rw [clauseTree, Tree.readClause, if_neg hkind, e.readExpr_tree]
    rfl

namespace Stmt

mutual

/-- **The tree of a statement is read back as the statement.** The induction is on the statement. -/
theorem readStmt_tree (s : Stmt) : s.tree.readStmt = .ok s := by
  -- the label of a node tells which statement to build from what is read of its parts
  match s with
  | directive .. | empty _ | defaultLabel _ | breakOut _ | continueOn _ => rfl
  | block line body =>
    show (do return block line (← Tree.readStmts (trees body))) = _
    rw [readStmts_trees body]
    rfl
  | decl d =>
    show (do return decl (← d.tree.readDecl)) = _
    rw [d.readDecl_tree]
    rfl
  | expr line e =>
    show (do return expr line (← e.tree.readExpr)) = _
    rw [e.readExpr_tree]
    rfl
  | cond line condition whenTrue none =>
    show (do return cond line (← condition.tree.readExpr) (← whenTrue.tree.readStmt) none) = _
    rw [condition.readExpr_tree, readStmt_tree whenTrue]
    rfl
  | cond line condition whenTrue (some whenFalse) =>
    show (do
      return cond line (← condition.tree.readExpr) (← whenTrue.tree.readStmt)
        (some (← whenFalse.tree.readStmt))) = _
    rw [condition.readExpr_tree, readStmt_tree whenTrue, readStmt_tree whenFalse]
    rfl
  | forLoop line init condition update body =>
    show (do
      return forLoop line (← (init.tree line).readForInit) (← (clauseTree line condition).readClause)
        (← (clauseTree line update).readClause) (← body.tree.readStmt)) = _
    rw [init.readForInit_tree, readClause_tree, readClause_tree, readStmt_tree body]
    rfl
  | whileLoop line condition body =>
    show (do return whileLoop line (← condition.tree.readExpr) (← body.tree.readStmt)) = _
    rw [condition.readExpr_tree, readStmt_tree body]
    rfl
  | doLoop line body condition =>
    show (do return doLoop line (← body.tree.readStmt) (← condition.tree.readExpr)) = _
    rw [condition.readExpr_tree, readStmt_tree body]
    rfl
  | switch line subject body =>
    show (do return switch line (← subject.tree.readExpr) (← body.tree.readStmt)) = _
    rw [subject.readExpr_tree, readStmt_tree body]
    rfl
  | caseLabel line label =>
    show (do return caseLabel line (← label.tree.readExpr)) = _
    rw [label.readExpr_tree]
    rfl
  | ret line none => rfl
  | ret line (some e) =>
    show (do return ret line (some (← e.tree.readExpr))) = _
    rw [e.readExpr_tree]
    rfl

theorem readStmts_trees (body : List Stmt) : Tree.readStmts (trees body) = .ok body := by
  match body with
  | [] => rfl
  | s :: rest =>
    rw [trees, Tree.readStmts, readStmt_tree s, readStmts_trees rest]
    rfl

end

end Stmt

/-! ## Programs -/

namespace Tree

/-- The function that a node with a block stands for. -/
def Label.function (l : Label) (bodyLine : Nat) (body : List Stmt) : Function :=
  match l.detail with
  | .signature returnType parameters => ⟨l.line, l.text, returnType, parameters, bodyLine, body⟩
  | _ => ⟨l.line, l.text, ⟨""⟩, [], bodyLine, body⟩

/-- The item that a tree stands for. -/
def readItem : Tree → Except Refusal Item
  | node label size children =>
    match label.kind, children with
    | .directive, _ => .ok (.directive label.directive)
    | .struct, fields => do return .struct ⟨label.line, label.text, ← fields.mapM readDecl⟩
    | .function, [node block _ body] => do
      return .function (label.function block.line (← readStmts body))
    | .decl, _ => do return .decl (← readDecl (node label size children))
    | .function, _ => .error (.children label.kind label.line)
    | kind, _ => .error (.simulate kind label.line)

/-- The program that a tree stands for. -/
def readProgram : Tree → Except Refusal Program
  | node _ _ children => do return ⟨← children.mapM readItem⟩

end Tree

theorem Item.readItem_tree (item : Item) : item.tree.readItem = .ok item := by
  cases item with
  | directive d => rfl
  | struct s =>
    show (do return Item.struct ⟨s.line, s.tag, ← (s.fields.map Decl.tree).mapM Tree.readDecl⟩) = _
    rw [mapM_read Decl.readDecl_tree]
    rfl
  | function f =>
    show (do
      let body ← Tree.readStmts (Stmt.trees f.body)
      return Item.function ⟨f.line, f.name, f.returnType, f.parameters, f.bodyLine, body⟩) = _
    rw [Stmt.readStmts_trees]
    rfl
  | decl d =>
    show (do return Item.decl (← d.tree.readDecl)) = _
    rw [d.readDecl_tree]
    rfl

/-- **The tree of a program is read back as the program.** -/
theorem Program.readProgram_tree (p : Program) : p.tree.readProgram = .ok p := by
  show (do return Program.mk (← (p.items.map Item.tree).mapM Tree.readItem)) = _
  rw [mapM_read Item.readItem_tree]
  rfl

/-! ## Trees of syntax are well shaped -/

mutual

theorem Init.shaped_tree (i : Init) : i.tree.Shaped := by
  match i with
  | .expr e => exact e.shaped_tree
  | .list _ items => exact .plain rfl rfl (fun h => nomatch h) (Init.shaped_trees items)

theorem Init.shaped_trees (items : List Init) : ∀ t ∈ Init.trees items, t.Shaped := by
  match items with
  | [] => exact fun _ h => nomatch h
  | i :: rest =>
    rw [Init.trees]
    exact List.forall_mem_cons.2 ⟨Init.shaped_tree i, Init.shaped_trees rest⟩

end

theorem Variable.shaped_tree (v : Variable) : v.tree.Shaped := by
  obtain ⟨line, name, stars, brackets, init⟩ := v
  refine .node ?_ (fun h => absurd rfl h) (fun h => nomatch h) ?_ ?_
  · cases init <;> rfl
  · cases brackets with
    | sized size => exact fun t ht => Option.some.inj ht ▸ size.shaped_tree
    | _ => exact fun _ h => nomatch h
  · cases init with
    | none => exact fun _ h => nomatch h
    | some i => exact List.forall_mem_singleton.2 i.shaped_tree

theorem Decl.shaped_tree (d : Decl) : d.tree.Shaped :=
  .plain rfl rfl (fun h => nomatch h) (List.forall_mem_map.2 fun v _ => v.shaped_tree)

theorem Directive.shaped_tree (d : Directive) : d.tree.Shaped :=
  .plain rfl rfl (fun h => nomatch h) fun _ h => nomatch h

theorem Tree.shaped_omitted (line : Nat) : (Tree.omitted line).Shaped :=
  .plain rfl rfl (fun h => nomatch h) fun _ h => nomatch h

theorem ForInit.shaped_tree (line : Nat) (init : ForInit) : (init.tree line).Shaped := by
  cases init with
  | none => exact Tree.shaped_omitted line
  | decl d => exact d.shaped_tree
  | expr e => exact e.shaped_tree

theorem shaped_clauseTree (line : Nat) (clause : Option Expr) : (clauseTree line clause).Shaped := by
  cases clause with
  | none => exact Tree.shaped_omitted line
  | some e => exact e.shaped_tree

namespace Stmt

mutual

/-- The tree of a statement is well shaped. The induction is on the statement. -/
theorem shaped_tree (s : Stmt) : s.tree.Shaped := by
  match s with
  | directive d => exact d.shaped_tree
  | decl d => exact d.shaped_tree
  | empty line => exact Tree.shaped_omitted line
  | block _ body => exact .plain rfl rfl (fun h => nomatch h) (shaped_trees body)
  | defaultLabel _ | breakOut _ | continueOn _ | ret _ none =>
    exact .plain rfl rfl (fun h => nomatch h) fun _ h => nomatch h
  | expr _ e | caseLabel _ e | ret _ (some e) =>
    exact .plain rfl rfl (fun h => nomatch h) (List.forall_mem_singleton.2 e.shaped_tree)
  | cond _ condition whenTrue none =>
    exact .plain rfl rfl (fun h => nomatch h) (List.forall_mem_cons.2
      ⟨condition.shaped_tree, List.forall_mem_singleton.2 (shaped_tree whenTrue)⟩)
  | cond _ condition whenTrue (some whenFalse) =>
    exact .plain rfl rfl (fun h => nomatch h) (List.forall_mem_cons.2
      ⟨condition.shaped_tree, List.forall_mem_cons.2
        ⟨shaped_tree whenTrue, List.forall_mem_singleton.2 (shaped_tree whenFalse)⟩⟩)
  | forLoop line init condition update body =>
    exact .plain rfl rfl (fun h => nomatch h) (List.forall_mem_cons.2
      ⟨init.shaped_tree line, List.forall_mem_cons.2 ⟨shaped_clauseTree line condition,
        List.forall_mem_cons.2 ⟨shaped_clauseTree line update,
          List.forall_mem_singleton.2 (shaped_tree body)⟩⟩⟩)
  | whileLoop _ e body | switch _ e body =>
    exact .plain rfl rfl (fun h => nomatch h) (List.forall_mem_cons.2
      ⟨e.shaped_tree, List.forall_mem_singleton.2 (shaped_tree body)⟩)
  | doLoop _ body e =>
    exact .plain rfl rfl (fun h => nomatch h) (List.forall_mem_cons.2
      ⟨shaped_tree body, List.forall_mem_singleton.2 e.shaped_tree⟩)

theorem shaped_trees (body : List Stmt) : ∀ t ∈ trees body, t.Shaped := by
  match body with
  | [] => exact fun _ h => nomatch h
  | s :: rest =>
    rw [trees]
    exact List.forall_mem_cons.2 ⟨shaped_tree s, shaped_trees rest⟩

end

end Stmt

theorem Item.shaped_tree (item : Item) : item.tree.Shaped := by
  cases item with
  | directive d => exact d.shaped_tree
  | struct s =>
    exact .plain rfl rfl (fun h => nomatch h) (List.forall_mem_map.2 fun d _ => d.shaped_tree)
  | function f =>
    refine .node rfl (fun h => absurd rfl h) (fun _ => List.forall_mem_singleton.2 rfl)
      (fun _ h => nomatch h) (List.forall_mem_singleton.2 ?_)
    exact .plain rfl rfl (fun h => nomatch h) (Stmt.shaped_trees f.body)
  | decl d => exact d.shaped_tree

/-- **The tree of a program is well shaped.** -/
theorem Program.shaped_tree (p : Program) : p.tree.Shaped :=
  .plain rfl rfl (fun h => nomatch h) (List.forall_mem_map.2 fun item _ => item.shaped_tree)

end Stepwise
