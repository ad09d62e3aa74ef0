import ScriptReader.Parser.Expression

/-! # Tying the recursion

Each place of the grammar is filled in by the rule for it, over a descent with less fuel. A parser
brings along enough fuel for the tokens it has ahead of it and the nesting it allows, so the entry
points below take none.
-/

namespace ScriptReader

variable {σ α : Type} [TokenStream σ]

/-- The descent that recurs at most as deep as the fuel allows. -/
def descent : Nat → Descent σ
  | 0 => .unfinished
  | fuel + 1 =>
    { expr := fun bound p => (descent fuel).exprStep bound p
      operators := fun bound left p => (descent fuel).operatorsStep bound left p
      arguments := fun p => (descent fuel).argumentsStep p
      parameters := fun p => (descent fuel).parametersStep p
      statements := fun p => (descent fuel).statementsStep p }

namespace Parser

/-- Each token and each level of nesting takes at most four steps down. -/
def fuel (p : Parser σ) : Nat :=
  4 * (TokenStream.remaining p.source + p.limit.getD 0) + 16

/-- Runs a rule of the grammar. -/
def run (p : Parser σ) (rule : Descent σ → Parse σ α) : Outcome σ α := rule (descent p.fuel) p

/-- The expression at the current token, with the operators that bind tighter than `bound`. -/
def expr (p : Parser σ) (bound : Precedence) : Outcome σ Expr := p.run fun d => d.expr bound

def statement (p : Parser σ) : Outcome σ Stmt := p.run Descent.statement

def block (p : Parser σ) : Outcome σ Block := p.run Descent.block

end Parser

end ScriptReader
