import ScriptReader.Grammar.Precedence
import ScriptReader.Token.Kind

/-! # Rule tables

What a token of each kind may begin or continue is data: one table for statements, one for the
operands of expressions, one for the operators between and behind operands, and one for the
precedence of those operators. The tables can be extended; the standard ones are the language.
-/

namespace ScriptReader

/-- How an operand may begin. -/
inductive OperandRule where
  | identifier
  | integer
  | boolean
  | unary
  | grouping
  | conditional
  | function
deriving DecidableEq, Repr

/-- How an expression may go on behind an operand. -/
inductive OperatorRule where
  | binary
  | call
deriving DecidableEq, Repr

/-- How a statement may be read. -/
inductive StatementRule where
  | expression
  | declaration
  | ret
deriving DecidableEq, Repr

structure Rules where
  statement : Kind → Option StatementRule
  operand : Kind → Option OperandRule
  operator : Kind → Option OperatorRule
  precedence : Kind → Option Precedence

namespace Rules

/-- A table with the entry of one kind replaced. -/
def replace {α : Type} (table : Kind → Option α) (kind : Kind) (entry : α) : Kind → Option α :=
  fun other => if other = kind then some entry else table other

def setStatement (rules : Rules) (kind : Kind) (rule : StatementRule) : Rules :=
  { rules with statement := replace rules.statement kind rule }

def setOperand (rules : Rules) (kind : Kind) (rule : OperandRule) : Rules :=
  { rules with operand := replace rules.operand kind rule }

/-- An operator comes with its precedence. -/
def setOperator (rules : Rules) (kind : Kind) (level : Precedence) (rule : OperatorRule) : Rules :=
  { rules with
    operator := replace rules.operator kind rule
    precedence := replace rules.precedence kind level }

/-- The rules of the language. -/
def standard : Rules where
  statement
    | .varWord => some .declaration
    | .returnWord => some .ret
    | _ => none
  operand
    | .identifier => some .identifier
    | .integer => some .integer
    | .trueWord => some .boolean
    | .falseWord => some .boolean
    | .not => some .unary
    | .minus => some .unary
    | .openParen => some .grouping
    | .ifWord => some .conditional
    | .fnWord => some .function
    | _ => none
  operator
    | .equals => some .binary
    | .notEquals => some .binary
    | .less => some .binary
    | .greater => some .binary
    | .plus => some .binary
    | .minus => some .binary
    | .star => some .binary
    | .slash => some .binary
    | .openParen => some .call
    | _ => none
  precedence
    | .equals => some .equality
    | .notEquals => some .equality
    | .less => some .relational
    | .greater => some .relational
    | .plus => some .additive
    | .minus => some .additive
    | .star => some .multiplicative
    | .slash => some .multiplicative
    | .openParen => some .call
    | _ => none

/-- The precedence of a kind; a kind that is no operator binds weakest. -/
def level (rules : Rules) (kind : Kind) : Precedence := (rules.precedence kind).getD .lowest

end Rules

end ScriptReader
