import ScriptReader.Token.Basic

/-! # Diagnostics

A diagnostic is a cause together with the token it was found at. Each cause has a name, a message
and at most one tip; a report writes three lines for every diagnostic, in the order they were found.
-/

namespace ScriptReader

/-- Why a statement was refused. -/
inductive Cause where
  | unexpected (expected found : Kind)
  /-- An operand was wanted at a token that cannot begin one. -/
  | noOperand (found : Kind)
  | illegalCharacter (literal : String)
  | badInteger (literal : String)
  | tooDeep (limit : Nat)
deriving DecidableEq, Repr

structure Diagnostic where
  cause : Cause
  token : Token
deriving DecidableEq, Repr

namespace Cause

def name : Cause → String
  | .unexpected .. => "UnexpectedToken"
  | .noOperand _ => "NoPrefixRule"
  | .illegalCharacter _ => "IllegalToken"
  | .badInteger _ => "IntegerParseError"
  | .tooDeep _ => "NestingTooDeep"

def message : Cause → String
  | .unexpected expected found =>
    "expected next token to be " ++ expected.name ++ ", got " ++ found.name ++ " instead"
  | .noOperand found => "no prefix parse rule for " ++ found.name ++ " found"
  | .illegalCharacter literal => "illegal character " ++ quote literal
  | .badInteger literal => "could not parse " ++ quote literal ++ " as integer"
  | .tooDeep limit => "expression nested deeper than " ++ limit.repr ++ " levels"

/-- How the fault may be mended. A literal stands in a tip as it is, unquoted. -/
def tip : Cause → Option String
  | .unexpected .semicolon _ => some "did you miss a semicolon?"
  | .unexpected _ _ => none
  | .noOperand found =>
    some ("`" ++ found.name ++ "` cannot start an expression, is an operand missing?")
  | .illegalCharacter literal =>
    some ("`" ++ literal ++ "` is not part of the language, remove it")
  | .badInteger literal =>
    some ("Invalid integer: `" ++ literal ++ "`, is it above the integer limit?")
  | .tooDeep _ => some "split the expression up with `var` declarations"

/-- The particulars of a cause, in the order the message names them. -/
def detail : Cause → List String
  | .unexpected expected found => [expected.name, found.name]
  | .noOperand found => [found.name]
  | .illegalCharacter literal => [literal]
  | .badInteger literal => [literal]
  | .tooDeep limit => [limit.repr]

end Cause

namespace Diagnostic

/-- The fault of meeting a token where one of another kind has to stand. -/
def unexpected (expected : Kind) (found : Token) : Diagnostic :=
  ⟨.unexpected expected found.kind, found⟩

/-- The fault of a token that no operand begins with. -/
def noOperand (found : Token) : Diagnostic :=
  if found.kind = .illegal then ⟨.illegalCharacter found.literal, found⟩
  else ⟨.noOperand found.kind, found⟩

/-- The first line of a diagnostic: its name, and its tip in parentheses if it has one. -/
def heading (diagnostic : Diagnostic) : String :=
  match diagnostic.cause.tip with
  | none => "Error: " ++ diagnostic.cause.name
  | some tip => "Error: " ++ diagnostic.cause.name ++ " (" ++ tip ++ ")"

/-- The three lines of a diagnostic, each with its line break. -/
def text (diagnostic : Diagnostic) : String :=
  diagnostic.heading ++ "\n | " ++ diagnostic.cause.message ++ "\n | at " ++ diagnostic.token.text ++
    "\n"

end Diagnostic

/-- The text of all diagnostics, in order. -/
def report (diagnostics : List Diagnostic) : String :=
  String.join (diagnostics.map Diagnostic.text)

end ScriptReader
