import ScriptReader.Parser.Descent

/-! # Statements and blocks

A statement is read by the rule of its first token, or else as an expression. It ends in a
semicolon, which an expression that ends with a block may leave out. On success the current token
is the last one of the statement.
-/

namespace ScriptReader.Descent

open Parse

variable {σ : Type} [TokenStream σ] (d : Descent σ)

/-- The expression at the current token is the statement. -/
def expressionStatement : Parse σ Stmt := do
  let token ← current
  let value ← d.expr .lowest
  let found ← peek
  if found.kind = .semicolon then
    advance
    return .expression token value
  else if value.endsWithBlock then
    return .expression token value
  else
    reject (.unexpected .semicolon found)

/-- The current token is the word that opens the declaration. -/
def declaration : Parse σ Stmt := do
  let token ← current
  let name ← expect .identifier
  let _ ← expect .assign
  advance
  let value ← d.expr .lowest
  let _ ← expect .semicolon
  return .declaration token (.ofToken name) value

/-- The current token is the word that opens the return. -/
def ret : Parse σ Stmt := do
  let token ← current
  advance
  let value ← d.expr .lowest
  let _ ← expect .semicolon
  return .ret token value

def statementBy : StatementRule → Parse σ Stmt
  | .expression => d.expressionStatement
  | .declaration => d.declaration
  | .ret => d.ret

def statement : Parse σ Stmt := do
  let token ← current
  let rules ← rules
  match rules.statement token.kind with
  | some rule => d.statementBy rule
  | none => d.expressionStatement

/-- One step of the reading of a block: a statement and what follows it, up to the closing brace. -/
def statementsStep : Parse σ (List Stmt) := do
  let token ← current
  if token.kind = .closeCurly then
    return []
  else if token.kind = .endOfInput then
    reject (.unexpected .closeCurly token)
  else
    let first ← d.statement
    advance
    let rest ← d.statements
    return first :: rest

/-- The current token is the opening brace, whose kind is not looked at again. A block that fails
is left open. -/
def block : Parse σ Block := do
  let token ← current
  advance
  modify Parser.enterBlock
  let body ← d.statements
  modify Parser.exitBlock
  return .mk token body

end ScriptReader.Descent
