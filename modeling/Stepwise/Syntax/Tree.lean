/-
Programs as trees of labelled nodes.

A viewer shows a program as a tree in which every node has a kind, perhaps a
value (a name, an operator, a type), a line and children in source order. Some
kinds carry more: a directive its arguments, a function its result type and
parameters, a declared name its stars and brackets. The size in a variable's
brackets belongs to its node and is not one of its children.

Every node also keeps its source text: an expression is written back as C, a
declaration as its type and names; anything else goes by the name of its kind.
-/
import Stepwise.Syntax.Program

set_option autoImplicit false

namespace Stepwise

/-- What a node of the tree is. -/
inductive Tree.Kind where
  /-- The whole program. -/
  | program
  /-- A directive. -/
  | directive
  /-- A function definition. -/
  | function
  /-- A struct definition. -/
  | struct
  /-- A declaration. -/
  | decl
  /-- A declared name. -/
  | declared
  /-- A block. -/
  | block
  /-- An expression used as a statement. -/
  | exprStmt
  /-- A choice between statements. -/
  | cond
  /-- A loop with three clauses. -/
  | forLoop
  /-- A loop that checks first. -/
  | whileLoop
  /-- A loop that checks last. -/
  | doLoop
  /-- A jump to a matching label. -/
  | switch
  /-- A label with a value. -/
  | caseLabel
  /-- The label for every other value. -/
  | defaultLabel
  /-- Leaving a loop or switch. -/
  | breakOut
  /-- Going on with the next iteration. -/
  | continueOn
  /-- Leaving a function. -/
  | ret
  /-- An omitted clause or a lone semicolon. -/
  | empty
  /-- An assignment. -/
  | assign
  /-- A choice between expressions. -/
  | conditional
  /-- A logical operation. -/
  | logic
  /-- An operation on bits. -/
  | bitwise
  /-- A comparison. -/
  | relational
  /-- A shift. -/
  | shift
  /-- A sum or difference. -/
  | additive
  /-- A product, quotient or remainder. -/
  | multiplicative
  /-- An operator in front of its operand. -/
  | unary
  /-- A step behind its operand. -/
  | stepAfter
  /-- A conversion. -/
  | cast
  /-- A size. -/
  | size
  /-- A member of a struct. -/
  | member
  /-- A call. -/
  | call
  /-- An element of an array. -/
  | index
  /-- A braced initializer. -/
  | initializers
  /-- A number or text as written. -/
  | literal
  /-- A name. -/
  | name
deriving Repr, DecidableEq

/-- The name of a kind. -/
def Tree.Kind.text : Tree.Kind → String
  | program => "program"
  | directive => "preprocessor_directive"
  | function => "function_definition"
  | struct => "struct_definition"
  | decl => "variable_declaration"
  | declared => "variable"
  | block => "compound_statement"
  | exprStmt => "expression_statement"
  | cond => "if_statement"
  | forLoop => "for_statement"
  | whileLoop => "while_statement"
  | doLoop => "do_while_statement"
  | switch => "switch_statement"
  | caseLabel => "case_label"
  | defaultLabel => "default_label"
  | breakOut => "break_statement"
  | continueOn => "continue_statement"
  | ret => "return_statement"
  | empty => "empty"
  | assign => "assignment_expression"
  | conditional => "conditional_expression"
  | logic => "logical_expression"
  | bitwise => "bitwise_expression"
  | relational => "relational_expression"
  | shift => "shift_expression"
  | additive => "additive_expression"
  | multiplicative => "multiplicative_expression"
  | unary => "unary_expression"
  | stepAfter => "postfix_expression"
  | cast => "cast_expression"
  | size => "sizeof_expression"
  | member => "member_access"
  | call => "call_expression"
  | index => "array_access"
  | initializers => "initializer_list"
  | literal => "literal"
  | name => "identifier"

/-- What a node carries besides its kind, value and line. -/
inductive Tree.Detail where
  /-- Nothing. -/
  | none
  /-- The arguments of a directive. -/
  | arguments (texts : List String)
  /-- The result type and parameters of a function. -/
  | signature (returnType : CType) (parameters : List Parameter)
  /-- The type of a declaration. -/
  | type (type : CType)
  /-- The stars of a declared name, and whether it has brackets. -/
  | shape (stars : Nat) (isArray : Bool)
  /-- Whether a member is reached through a pointer. -/
  | arrow (arrow : Bool)
deriving Repr

/-- What a node says about itself. -/
structure Tree.Label where
  /-- What it is. -/
  kind : Tree.Kind
  /-- Its name, operator or type. -/
  value : Option String
  /-- Its line. -/
  line : Nat
  /-- Its source text. -/
  source : String
  /-- What else it carries. -/
  detail : Tree.Detail := .none
deriving Repr

/-- A node with the size in its brackets, if it has one, and its children. -/
inductive Tree where
  /-- The only form of a node. -/
  | node (label : Tree.Label) (size : Option Tree) (children : List Tree)
deriving Repr

namespace Tree

/-- The label of the root. -/
def label : Tree → Label
  | node label _ _ => label

mutual

/-- The labels of all nodes, depth first in source order. -/
def labels : Tree → List Label
  | node label _ children => label :: labelsOfAll children

/-- The labels of the nodes of several trees. -/
def labelsOfAll : List Tree → List Label
  | [] => []
  | t :: rest => labels t ++ labelsOfAll rest

end

/-- A node that is no expression: its source text is the name of its kind. -/
def plain (kind : Kind) (value : Option String) (line : Nat) (children : List Tree) : Tree :=
  node { kind := kind, value := value, line := line, source := kind.text } none children

/-- The node of something omitted. -/
def omitted (line : Nat) : Tree :=
  node { kind := .empty, value := none, line := line, source := "" } none []

end Tree

/-! ## Expressions -/

/-- The kind of node a binary operator makes. -/
def BinaryOp.treeKind : BinaryOp → Tree.Kind
  | .rel _ => .relational
  | .arith .add | .arith .sub => .additive
  | .arith .mul | .arith .div | .arith .mod => .multiplicative
  | .arith .bitAnd | .arith .bitOr | .arith .bitXor => .bitwise
  | .arith .shiftLeft | .arith .shiftRight => .shift

namespace Expr

/-- The kind of node an expression makes. -/
def treeKind : Expr → Tree.Kind
  | literal .. => .literal
  | name .. => .name
  | call .. => .call
  | index .. => .index
  | member .. => .member
  | unary .. => .unary
  | stepAfter .. => .stepAfter
  | cast .. => .cast
  | sizeOfType .. | sizeOf .. => .size
  | binary _ op _ _ => op.treeKind
  | logic .. => .logic
  | conditional .. => .conditional
  | assign .. => .assign

/-- The value of the node an expression makes. -/
def treeValue : Expr → Option String
  | literal _ text => some text
  | name _ n => some n
  | call _ callee _ => some callee
  | index _ array _ => some array
  | member _ _ _ m => some m
  | unary _ op _ => some op.text
  | stepAfter _ op _ => some op.text
  | cast _ type _ => some type.text
  | sizeOfType _ type => some type.text
  | sizeOf .. => none
  | binary _ op _ _ => some op.text
  | logic _ op _ _ => some op.text
  | conditional .. => none
  | assign _ op _ _ => some (assignText op)

/-- The label of the node an expression makes. -/
def treeLabel (e : Expr) : Tree.Label :=
  { kind := e.treeKind, value := e.treeValue, line := e.line, source := e.source
    detail :=
      match e with
      | member _ arrow _ _ => .arrow arrow
      | _ => .none }

mutual

/-- The tree of an expression. -/
def tree : Expr → Tree
  | literal line text => .node (literal line text).treeLabel none []
  | name line n => .node (name line n).treeLabel none []
  | call line callee arguments =>
    .node (call line callee arguments).treeLabel none (trees arguments)
  | index line array position =>
    .node (index line array position).treeLabel none [tree position]
  | member line arrow object m => .node (member line arrow object m).treeLabel none [tree object]
  | unary line op operand => .node (unary line op operand).treeLabel none [tree operand]
  | stepAfter line op operand => .node (stepAfter line op operand).treeLabel none [tree operand]
  | cast line type operand => .node (cast line type operand).treeLabel none [tree operand]
  | sizeOfType line type => .node (sizeOfType line type).treeLabel none []
  | sizeOf line operand => .node (sizeOf line operand).treeLabel none [tree operand]
  | binary line op left right =>
    .node (binary line op left right).treeLabel none [tree left, tree right]
  | logic line op left right =>
    .node (logic line op left right).treeLabel none [tree left, tree right]
  | conditional line condition whenTrue whenFalse =>
    .node (conditional line condition whenTrue whenFalse).treeLabel none
      [tree condition, tree whenTrue, tree whenFalse]
  | assign line op target value =>
    .node (assign line op target value).treeLabel none [tree target, tree value]

/-- The trees of several expressions. -/
def trees : List Expr → List Tree
  | [] => []
  | e :: rest => tree e :: trees rest

end

end Expr

/-! ## Declarations and statements -/

mutual

/-- The source text of an initializer. -/
def Init.source : Init → String
  | expr e => e.source
  | list _ items => "\x7b" ++ Init.sources items ++ "\x7d"

/-- The source texts of several initializers, parted by commas. -/
def Init.sources : List Init → String
  | [] => ""
  | [i] => i.source
  | i :: rest => i.source ++ ", " ++ Init.sources rest

end

mutual

/-- The tree of an initializer. -/
def Init.tree : Init → Tree
  | expr e => e.tree
  | list line items =>
    .node { kind := .initializers, value := none, line := line, source := (list line items).source }
      none (Init.trees items)

/-- The trees of several initializers. -/
def Init.trees : List Init → List Tree
  | [] => []
  | i :: rest => i.tree :: Init.trees rest

end

/-- The tree of a declared name. -/
def Variable.tree (v : Variable) : Tree :=
  .node
    { kind := .declared, value := some v.name, line := v.line, source := Tree.Kind.text .declared
      detail := .shape v.stars v.brackets.isArray }
    (match v.brackets with
      | .sized size => some size.tree
      | .none | .unsized => none)
    (v.init.map Init.tree).toList

/-- The source text of a declaration: its type and names. -/
def Decl.source (d : Decl) : String :=
  d.type.text ++ " " ++ ", ".intercalate (d.vars.map Variable.name)

/-- The tree of a declaration. -/
def Decl.tree (d : Decl) : Tree :=
  .node
    { kind := .decl, value := none, line := d.line, source := d.source
      detail := .type d.type } none
    (d.vars.map Variable.tree)

/-- The tree of a directive. -/
def Directive.tree (d : Directive) : Tree :=
  .node
    { kind := .directive, value := some d.command, line := d.line
      source := Tree.Kind.text .directive, detail := .arguments d.arguments } none []

/-- The tree of a loop's first clause. -/
def ForInit.tree (line : Nat) : ForInit → Tree
  | none => Tree.omitted line
  | decl d => d.tree
  | expr e => e.tree

/-- The tree of a clause that may be omitted. -/
def clauseTree (line : Nat) : Option Expr → Tree
  | none => Tree.omitted line
  | some e => e.tree

namespace Stmt

mutual

/-- The tree of a statement. -/
def tree : Stmt → Tree
  | directive d => d.tree
  | block line body => Tree.plain .block none line (trees body)
  | empty line => Tree.omitted line
  | decl d => d.tree
  | expr line e => Tree.plain .exprStmt none line [e.tree]
  | cond line condition whenTrue whenFalse =>
    Tree.plain .cond none line (condition.tree :: tree whenTrue :: treeOfOption whenFalse)
  | forLoop line init condition update body =>
    Tree.plain .forLoop none line
      [init.tree line, clauseTree line condition, clauseTree line update, tree body]
  | whileLoop line condition body => Tree.plain .whileLoop none line [condition.tree, tree body]
  | doLoop line body condition => Tree.plain .doLoop none line [tree body, condition.tree]
  | switch line subject body => Tree.plain .switch none line [subject.tree, tree body]
  | caseLabel line label => Tree.plain .caseLabel none line [label.tree]
  | defaultLabel line => Tree.plain .defaultLabel none line []
  | breakOut line => Tree.plain .breakOut none line []
  | continueOn line => Tree.plain .continueOn none line []
  | ret line value => Tree.plain .ret none line (value.map Expr.tree).toList

/-- The trees of several statements. -/
def trees : List Stmt → List Tree
  | [] => []
  | s :: rest => tree s :: trees rest

/-- The tree of a statement, if there is one. -/
def treeOfOption : Option Stmt → List Tree
  | none => []
  | some s => [tree s]

end

end Stmt

/-! ## Programs -/

/-- The tree of a function. -/
def Function.tree (f : Function) : Tree :=
  .node
    { kind := .function, value := some f.name, line := f.line, source := Tree.Kind.text .function
      detail := .signature f.returnType f.parameters } none
    [Tree.plain .block none f.bodyLine (Stmt.trees f.body)]

/-- The source text of a struct definition. One with exactly two declarations is written like an
operation on them. -/
def Struct.source (s : Struct) : String :=
  match s.fields with
  | [a, b] => a.source ++ " " ++ s.tag ++ " " ++ b.source
  | _ => Tree.Kind.text .struct

/-- The tree of a struct definition. -/
def Struct.tree (s : Struct) : Tree :=
  .node { kind := .struct, value := some s.tag, line := s.line, source := s.source } none
    (s.fields.map Decl.tree)

/-- The tree of an item. -/
def Item.tree : Item → Tree
  | directive d => d.tree
  | struct s => s.tree
  | function f => f.tree
  | decl d => d.tree

/-- The tree of a program. -/
def Program.tree (p : Program) : Tree :=
  Tree.plain .program none 1 (p.items.map Item.tree)

end Stepwise
