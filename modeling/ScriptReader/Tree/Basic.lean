import ScriptReader.Token.Basic

/-! # Syntax trees

Expressions, statements and blocks, each with the token that introduced it. Grouping parentheses
and semicolons leave no node behind. A tree made by hand may disagree with its tokens: a node keeps
its own name, value or operator beside the literal of its token.
-/

namespace ScriptReader

/-- A declared, bound or used name, with the token that spelled it. -/
structure Name where
  token : Token
  text : String
deriving DecidableEq, Repr

/-- The name that a token spells. -/
def Name.ofToken (token : Token) : Name := ⟨token, token.literal⟩

mutual

inductive Expr where
  | identifier (name : Name)
  | integer (token : Token) (value : Int)
  | boolean (token : Token) (value : Bool)
  | unary (token : Token) (operator : String) (operand : Expr)
  | binary (token : Token) (operator : String) (left right : Expr)
  | conditional (token : Token) (condition : Expr) (consequence : Block) (alternative : Option Block)
  | function (token : Token) (parameters : List Name) (body : Block)
  /-- The token is the opening parenthesis of the arguments. -/
  | call (token : Token) (callee : Expr) (arguments : List Expr)

inductive Stmt where
  | declaration (token : Token) (name : Name) (value : Expr)
  | ret (token : Token) (value : Expr)
  /-- The token is the first one of the expression, whatever node the expression is. -/
  | expression (token : Token) (value : Expr)

/-- Statements between braces; the token is the opening brace. -/
inductive Block where
  | mk (token : Token) (body : List Stmt)

end

/-- The statements of a whole source, in order. -/
structure Program where
  statements : List Stmt := []

/-- The token that introduced an expression. -/
def Expr.token : Expr → Token
  | .identifier name => name.token
  | .integer token _ => token
  | .boolean token _ => token
  | .unary token _ _ => token
  | .binary token _ _ _ => token
  | .conditional token _ _ _ => token
  | .function token _ _ => token
  | .call token _ _ => token

/-- The token that introduced a statement. -/
def Stmt.token : Stmt → Token
  | .declaration token _ _ => token
  | .ret token _ => token
  | .expression token _ => token

def Block.token : Block → Token
  | .mk token _ => token

def Block.body : Block → List Stmt
  | .mk _ body => body

/-- Whether an expression is of a form whose last token is a closing brace. -/
def Expr.endsWithBlock : Expr → Bool
  | .conditional .. => true
  | .function .. => true
  | _ => false

/-- The literal that introduced the program: that of its first statement, or nothing. -/
def Program.literal (program : Program) : String :=
  match program.statements with
  | [] => ""
  | first :: _ => first.token.literal

end ScriptReader
