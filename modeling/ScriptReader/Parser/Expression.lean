import ScriptReader.Parser.Statement
import ScriptReader.Text.Numeral

/-! # Expressions

An expression is an operand and the operators behind it that bind tighter than the place it stands
in. Operators of one level gather to the left. On success the current token is the last one of the
expression.
-/

namespace ScriptReader.Descent

open Parse

variable {σ : Type} [TokenStream σ] (d : Descent σ)

def identifier : Parse σ Expr := do
  let token ← current
  return .identifier (.ofToken token)

def integer : Parse σ Expr := do
  let token ← current
  match Numeral.signed? token.literal with
  | some value => return .integer token value
  | none => reject ⟨.badInteger token.literal, token⟩

/-- Any token but the word for truth stands for falsehood. -/
def boolean : Parse σ Expr := do
  let token ← current
  return .boolean token (token.kind = .trueWord)

def unary : Parse σ Expr := do
  let token ← current
  advance
  let operand ← d.expr .unary
  return .unary token token.literal operand

/-- An expression in parentheses, which leave no trace in the tree. -/
def grouping : Parse σ Expr := do
  advance
  let inner ← d.expr .lowest
  let _ ← expect .closeParen
  return inner

/-- The branch behind an `else`, where there is one. -/
def alternative : Parse σ (Option Block) := do
  let word ← peek
  if word.kind = .elseWord then
    advance
    let _ ← expect .openCurly
    let block ← d.block
    return some block
  else
    return none

def conditional : Parse σ Expr := do
  let token ← current
  let _ ← expect .openParen
  advance
  let condition ← d.expr .lowest
  let _ ← expect .closeParen
  let _ ← expect .openCurly
  let consequence ← d.block
  let alternative ← d.alternative
  return .conditional token condition consequence alternative

/-- One step of the reading of parameters: a name and the names behind commas. -/
def parametersStep : Parse σ (List Name) := do
  let first ← expect .identifier
  let behind ← peek
  if behind.kind = .comma then
    advance
    let rest ← d.parameters
    return .ofToken first :: rest
  else
    return [.ofToken first]

/-- What stands between the parentheses of a function, up to and with the closing one. -/
def parameterList : Parse σ (List Name) := do
  let found ← peek
  if found.kind = .closeParen then
    advance
    return []
  else
    let names ← d.parameters
    let _ ← expect .closeParen
    return names

def function : Parse σ Expr := do
  let token ← current
  let _ ← expect .openParen
  let parameters ← d.parameterList
  let _ ← expect .openCurly
  let body ← d.block
  return .function token parameters body

def operandBy : OperandRule → Parse σ Expr
  | .identifier => identifier
  | .integer => integer
  | .boolean => boolean
  | .unary => d.unary
  | .grouping => d.grouping
  | .conditional => d.conditional
  | .function => d.function

/-- The operand that begins at the current token. -/
def operand : Parse σ Expr := do
  let token ← current
  let rules ← rules
  match rules.operand token.kind with
  | some rule => d.operandBy rule
  | none => reject (.noOperand token)

/-- The right operand takes the operators that bind tighter than this one. -/
def binary (left : Expr) (level : Precedence) : Parse σ Expr := do
  let token ← current
  advance
  let right ← d.expr level
  return .binary token token.literal left right

/-- One step of the reading of arguments: an expression and the expressions behind commas. -/
def argumentsStep : Parse σ (List Expr) := do
  let first ← d.expr .lowest
  let behind ← peek
  if behind.kind = .comma then
    advance
    advance
    let rest ← d.arguments
    return first :: rest
  else
    return [first]

/-- What stands between the parentheses of a call, up to and with the closing one. -/
def argumentList : Parse σ (List Expr) := do
  let found ← peek
  advance
  if found.kind = .closeParen then
    return []
  else
    let arguments ← d.arguments
    let _ ← expect .closeParen
    return arguments

def call (callee : Expr) : Parse σ Expr := do
  let token ← current
  let arguments ← d.argumentList
  return .call token callee arguments

def operatorBy (left : Expr) (level : Precedence) : OperatorRule → Parse σ Expr
  | .binary => d.binary left level
  | .call => d.call left

/-- One step behind an operand: the operator at the lookahead, if it binds tighter than `bound`, and
the operators behind it. -/
def operatorsStep (bound : Precedence) (left : Expr) : Parse σ Expr := do
  let found ← peek
  let rules ← rules
  let level := rules.level found.kind
  if bound < level then
    match rules.operator found.kind with
    | some rule =>
      advance
      let expr ← d.operatorBy left level rule
      d.operators bound expr
    | none => return left
  else
    return left

/-- One level of nesting: the operand at the current token and the operators behind it. -/
def exprStep (bound : Precedence) : Parse σ Expr := nested do
  let left ← d.operand
  d.operators bound left

end ScriptReader.Descent
