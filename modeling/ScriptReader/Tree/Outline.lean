import ScriptReader.Tree.Text

/-! # Outlines

A tree read as a flat list of its nodes, parents before children and children in source order. A
name stands in an outline as a node of its own wherever a declaration or a function binds it.
-/

namespace ScriptReader

inductive Node where
  | program (program : Program)
  | statement (statement : Stmt)
  | block (block : Block)
  | expression (expression : Expr)
  | declared (name : Name)
  | parameter (name : Name)

mutual

def Expr.nodes : Expr → List Node
  | .identifier name => [.expression (.identifier name)]
  | .integer token value => [.expression (.integer token value)]
  | .boolean token value => [.expression (.boolean token value)]
  | .unary token operator operand =>
    .expression (.unary token operator operand) :: operand.nodes
  | .binary token operator left right =>
    .expression (.binary token operator left right) :: (left.nodes ++ right.nodes)
  | .conditional token condition consequence alternative =>
    .expression (.conditional token condition consequence alternative) ::
      (condition.nodes ++ consequence.nodes ++ Block.alternativeNodes alternative)
  | .function token parameters body =>
    .expression (.function token parameters body) :: (parameters.map .parameter ++ body.nodes)
  | .call token callee arguments =>
    .expression (.call token callee arguments) :: (callee.nodes ++ Expr.listNodes arguments)

def Expr.listNodes : List Expr → List Node
  | [] => []
  | first :: rest => first.nodes ++ Expr.listNodes rest

def Stmt.nodes : Stmt → List Node
  | .declaration token name value =>
    .statement (.declaration token name value) :: .declared name :: value.nodes
  | .ret token value => .statement (.ret token value) :: value.nodes
  | .expression token value => .statement (.expression token value) :: value.nodes

def Stmt.listNodes : List Stmt → List Node
  | [] => []
  | first :: rest => first.nodes ++ Stmt.listNodes rest

def Block.nodes : Block → List Node
  | .mk token body => .block (.mk token body) :: Stmt.listNodes body

def Block.alternativeNodes : Option Block → List Node
  | none => []
  | some block => block.nodes

end

def Program.nodes (program : Program) : List Node :=
  .program program :: Stmt.listNodes program.statements

namespace Node

/-- What a node is called in an outline. -/
def label : Node → String
  | .program _ => "Program"
  | .statement (.declaration ..) => "VarDeclStmt"
  | .statement (.ret ..) => "ReturnStmt"
  | .statement (.expression ..) => "ExpressionStmt"
  | .block _ => "Block"
  | .expression (.identifier _) => "Identifier"
  | .expression (.integer ..) => "Integer"
  | .expression (.boolean ..) => "Boolean"
  | .expression (.unary ..) => "Prefix"
  | .expression (.binary ..) => "Infix"
  | .expression (.conditional ..) => "If"
  | .expression (.function ..) => "Function"
  | .expression (.call ..) => "Call"
  | .declared _ => "Name"
  | .parameter _ => "Parameter"

/-- The literal of the token that introduced a node. -/
def literal : Node → String
  | .program tree => tree.literal
  | .statement stmt => stmt.token.literal
  | .block body => body.token.literal
  | .expression expr => expr.token.literal
  | .declared name => name.token.literal
  | .parameter name => name.token.literal

def text : Node → String
  | .program tree => tree.text
  | .statement stmt => stmt.text
  | .block body => body.text
  | .expression expr => expr.text
  | .declared name => name.text
  | .parameter name => name.text

/-- The number of statements directly in a node that holds statements. -/
def size? : Node → Option Nat
  | .program tree => some tree.statements.length
  | .block body => some body.body.length
  | _ => none

/-- For an expression, whether it ends with a block. -/
def endsWithBlock? : Node → Option Bool
  | .expression expr => some expr.endsWithBlock
  | _ => none

end Node

end ScriptReader
