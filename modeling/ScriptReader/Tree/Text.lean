import ScriptReader.Text.Numeral
import ScriptReader.Tree.Basic

/-! # The text of a tree

Trees are written with every operator in parentheses of its own, one space around binary operators
and between the parts of a block, and no line breaks inside a statement. Names, values and
operators are written as the node holds them; the words that open a declaration, a return or a
function are written as their tokens spell them.
-/

namespace ScriptReader

mutual

def Expr.text : Expr → String
  | .identifier name => name.text
  | .integer _ value => Numeral.text value
  | .boolean _ value => if value then "true" else "false"
  | .unary _ operator operand => "(" ++ operator ++ operand.text ++ ")"
  | .binary _ operator left right => "(" ++ left.text ++ " " ++ operator ++ " " ++ right.text ++ ")"
  | .conditional _ condition consequence alternative =>
    "if (" ++ condition.text ++ ") " ++ consequence.text ++ Block.alternativeText alternative
  | .function token parameters body =>
    token.literal ++ "(" ++ ", ".intercalate (parameters.map Name.text) ++ ") " ++ body.text
  | .call _ callee arguments => callee.text ++ "(" ++ ", ".intercalate (Expr.texts arguments) ++ ")"

def Expr.texts : List Expr → List String
  | [] => []
  | first :: rest => first.text :: Expr.texts rest

def Stmt.text : Stmt → String
  | .declaration token name value => token.literal ++ " " ++ name.text ++ " = " ++ value.text ++ ";"
  | .ret token value => token.literal ++ " " ++ value.text ++ ";"
  | .expression _ value => value.text

/-- Each statement of a block with a space before it. -/
def Stmt.blockText : List Stmt → String
  | [] => ""
  | first :: rest => " " ++ first.text ++ Stmt.blockText rest

def Block.text : Block → String
  | .mk _ body => "\x7b" ++ Stmt.blockText body ++ " \x7d"

def Block.alternativeText : Option Block → String
  | none => ""
  | some block => " else " ++ block.text

end

/-- One statement a line, without a line break behind the last. -/
def Program.text (program : Program) : String :=
  "\n".intercalate (program.statements.map Stmt.text)

end ScriptReader
