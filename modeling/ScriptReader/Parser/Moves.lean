import ScriptReader.Parser.Recursion

/-! # How a parse moves

Whatever a rule of the grammar does, it leaves a parser that was reached by advancing and by
changing the two counters. It never steps back, and neither the rule tables, nor the limit, nor the
diagnostics found before change.
-/

namespace ScriptReader

variable {σ α β : Type} [TokenStream σ]

/-- The second parser is reached from the first by advancing and counting. -/
inductive Moves (p : Parser σ) : Parser σ → Prop where
  | refl : Moves p p
  | advance {q : Parser σ} (moved : Moves p q) : Moves p q.advance
  | count {q : Parser σ} (openBlocks nesting : Nat) (moved : Moves p q) :
    Moves p { q with openBlocks, nesting }

namespace Moves

theorem trans {p q r : Parser σ} (first : Moves p q) (second : Moves q r) : Moves p r := by
  induction second with
  | refl => exact first
  | advance _ ih => exact ih.advance
  | count openBlocks nesting _ ih => exact ih.count openBlocks nesting

theorem behind_le {p q : Parser σ} (moved : Moves p q) : q.behind ≤ p.behind := by
  induction moved with
  | refl => exact Nat.le_refl _
  | advance _ ih => exact Nat.le_trans (Parser.behind_advance_le _) ih
  | count _ _ _ ih => exact ih

theorem rules_eq {p q : Parser σ} (moved : Moves p q) : q.rules = p.rules := by
  induction moved with
  | refl => rfl
  | advance _ ih => exact ih
  | count _ _ _ ih => exact ih

theorem limit_eq {p q : Parser σ} (moved : Moves p q) : q.limit = p.limit := by
  induction moved with
  | refl => rfl
  | advance _ ih => exact ih
  | count _ _ _ ih => exact ih

theorem diagnostics_eq {p q : Parser σ} (moved : Moves p q) : q.diagnostics = p.diagnostics := by
  induction moved with
  | refl => rfl
  | advance _ ih => exact ih
  | count _ _ _ ih => exact ih

end Moves

/-- The parser that an outcome leaves is reached from a given one. -/
def Outcome.MovedFrom (p : Parser σ) : Outcome σ α → Prop
  | .accepted _ after => Moves p after
  | .rejected _ after => Moves p after
  | .unfinished => True

/-- Every outcome of the parse leaves a parser reached from the one it was given. -/
def Parse.Moving (parse : Parse σ α) : Prop := ∀ p, (parse p).MovedFrom p

namespace Parse.Moving

theorem pure (value : α) : Moving (σ := σ) (Pure.pure value) := fun _ => .refl

theorem bind {first : Parse σ α} {next : α → Parse σ β} (head : first.Moving)
    (tail : ∀ value, (next value).Moving) : (first >>= next).Moving := by
  intro p
  change (Parse.bind first next p).MovedFrom p
  have moved := head p
  unfold Parse.bind
  cases ran : first p with
  | accepted value after =>
    rw [ran] at moved
    have further := tail value after
    dsimp only
    cases ended : next value after with
    | accepted => rw [ended] at further; exact Moves.trans moved further
    | rejected => rw [ended] at further; exact Moves.trans moved further
    | unfinished => trivial
  | rejected => rw [ran] at moved; exact moved
  | unfinished => trivial

theorem unfinished : Moving (Parse.unfinished : Parse σ α) := fun _ => trivial

theorem reject (diagnostic : Diagnostic) : Moving (Parse.reject diagnostic : Parse σ α) :=
  fun _ => .refl

theorem current : Moving (Parse.current : Parse σ Token) := fun _ => .refl

theorem peek : Moving (Parse.peek : Parse σ Token) := fun _ => .refl

theorem rules : Moving (Parse.rules : Parse σ Rules) := fun _ => .refl

theorem advance : Moving (Parse.advance : Parse σ Unit) := fun _ => .advance .refl

theorem enterBlock : Moving (Parse.modify Parser.enterBlock : Parse σ Unit) :=
  fun p => .count (p.openBlocks + 1) p.nesting .refl

theorem exitBlock : Moving (Parse.modify Parser.exitBlock : Parse σ Unit) :=
  fun p => .count (p.openBlocks - 1) p.nesting .refl

theorem enterNesting : Moving (Parse.enterNesting : Parse σ Unit) := by
  intro p
  unfold Parse.enterNesting
  split
  · split
    · exact .refl
    · exact .count p.openBlocks (p.nesting + 1) .refl
  · exact .count p.openBlocks (p.nesting + 1) .refl

theorem mapAfter_exitNesting {parse : Parse σ α} (moving : parse.Moving) :
    Moving fun p => (parse p).mapAfter Parser.exitNesting := by
  intro p
  change ((parse p).mapAfter Parser.exitNesting).MovedFrom p
  have moved := moving p
  cases ran : parse p with
  | accepted => rw [ran] at moved; exact Moves.count _ _ moved
  | rejected => rw [ran] at moved; exact Moves.count _ _ moved
  | unfinished => trivial

theorem nested {parse : Parse σ α} (moving : parse.Moving) : (Parse.nested parse).Moving :=
  enterNesting.bind fun _ => moving.mapAfter_exitNesting

theorem expect (expected : Kind) : Moving (Parse.expect expected : Parse σ Token) := by
  refine peek.bind fun found => ?_
  split
  · exact advance.bind fun _ => current
  · exact reject _

end Parse.Moving

/-- Every recursive place moves. -/
structure Descent.Moving (d : Descent σ) : Prop where
  expr (bound : Precedence) : (d.expr bound).Moving
  operators (bound : Precedence) (left : Expr) : (d.operators bound left).Moving
  arguments : d.arguments.Moving
  parameters : d.parameters.Moving
  statements : d.statements.Moving

namespace Descent.Moving

open Parse.Moving

variable {d : Descent σ}

theorem expressionStatement (moving : d.Moving) : d.expressionStatement.Moving := by
  refine current.bind fun token => (moving.expr _).bind fun value => peek.bind fun found => ?_
  split
  · exact advance.bind fun _ => pure _
  · split
    · exact pure _
    · exact reject _

theorem declaration (moving : d.Moving) : d.declaration.Moving :=
  current.bind fun _ => (expect _).bind fun _ => (expect _).bind fun _ => advance.bind fun _ =>
    (moving.expr _).bind fun _ => (expect _).bind fun _ => pure _

theorem ret (moving : d.Moving) : d.ret.Moving :=
  current.bind fun _ => advance.bind fun _ => (moving.expr _).bind fun _ => (expect _).bind fun _ =>
    pure _

theorem statementBy (moving : d.Moving) (rule : StatementRule) : (d.statementBy rule).Moving :=
  match rule with
  | .expression => moving.expressionStatement
  | .declaration => moving.declaration
  | .ret => moving.ret

theorem statement (moving : d.Moving) : d.statement.Moving := by
  refine current.bind fun token => rules.bind fun rules => ?_
  split
  · exact moving.statementBy _
  · exact moving.expressionStatement

theorem statementsStep (moving : d.Moving) : d.statementsStep.Moving := by
  refine current.bind fun token => ?_
  split
  · exact pure _
  · split
    · exact reject _
    · exact moving.statement.bind fun _ => advance.bind fun _ => moving.statements.bind fun _ =>
        pure _

theorem block (moving : d.Moving) : d.block.Moving :=
  current.bind fun _ => advance.bind fun _ => enterBlock.bind fun _ => moving.statements.bind fun _ =>
    exitBlock.bind fun _ => pure _

theorem integer : (Descent.integer : Parse σ Expr).Moving := by
  refine current.bind fun token => ?_
  split
  · exact pure _
  · exact reject _

theorem grouping (moving : d.Moving) : d.grouping.Moving :=
  advance.bind fun _ => (moving.expr _).bind fun _ => (expect _).bind fun _ => pure _

theorem alternative (moving : d.Moving) : d.alternative.Moving := by
  refine peek.bind fun word => ?_
  split
  · exact advance.bind fun _ => (expect _).bind fun _ => moving.block.bind fun _ => pure _
  · exact pure _

theorem conditional (moving : d.Moving) : d.conditional.Moving :=
  current.bind fun _ => (expect _).bind fun _ => advance.bind fun _ => (moving.expr _).bind fun _ =>
    (expect _).bind fun _ => (expect _).bind fun _ => moving.block.bind fun _ =>
    moving.alternative.bind fun _ => pure _

theorem parametersStep (moving : d.Moving) : d.parametersStep.Moving := by
  refine (expect _).bind fun first => peek.bind fun behind => ?_
  split
  · exact advance.bind fun _ => moving.parameters.bind fun _ => pure _
  · exact pure _

theorem parameterList (moving : d.Moving) : d.parameterList.Moving := by
  refine peek.bind fun found => ?_
  split
  · exact advance.bind fun _ => pure _
  · exact moving.parameters.bind fun _ => (expect _).bind fun _ => pure _

theorem function (moving : d.Moving) : d.function.Moving :=
  current.bind fun _ => (expect _).bind fun _ => moving.parameterList.bind fun _ =>
    (expect _).bind fun _ => moving.block.bind fun _ => pure _

theorem unary (moving : d.Moving) : d.unary.Moving :=
  current.bind fun _ => advance.bind fun _ => (moving.expr _).bind fun _ => pure _

theorem operandBy (moving : d.Moving) (rule : OperandRule) : (d.operandBy rule).Moving :=
  match rule with
  | .identifier => current.bind fun _ => pure _
  | .integer => integer
  | .boolean => current.bind fun _ => pure _
  | .unary => moving.unary
  | .grouping => moving.grouping
  | .conditional => moving.conditional
  | .function => moving.function

theorem operand (moving : d.Moving) : d.operand.Moving := by
  refine current.bind fun token => rules.bind fun rules => ?_
  split
  · exact moving.operandBy _
  · exact reject _

theorem argumentsStep (moving : d.Moving) : d.argumentsStep.Moving := by
  refine (moving.expr _).bind fun first => peek.bind fun behind => ?_
  split
  · exact advance.bind fun _ => advance.bind fun _ => moving.arguments.bind fun _ => pure _
  · exact pure _

theorem argumentList (moving : d.Moving) : d.argumentList.Moving := by
  refine peek.bind fun found => advance.bind fun _ => ?_
  split
  · exact pure _
  · exact moving.arguments.bind fun _ => (expect _).bind fun _ => pure _

theorem operatorBy (moving : d.Moving) (left : Expr) (level : Precedence) (rule : OperatorRule) :
    (d.operatorBy left level rule).Moving :=
  match rule with
  | .binary => current.bind fun _ => advance.bind fun _ => (moving.expr _).bind fun _ => pure _
  | .call => current.bind fun _ => moving.argumentList.bind fun _ => pure _

theorem operatorsStep (moving : d.Moving) (bound : Precedence) (left : Expr) :
    (d.operatorsStep bound left).Moving := by
  refine peek.bind fun found => rules.bind fun rules => ?_
  dsimp only
  split
  · split
    · exact advance.bind fun _ => (moving.operatorBy _ _ _).bind fun _ => moving.operators _ _
    · exact pure _
  · exact pure _

theorem exprStep (moving : d.Moving) (bound : Precedence) : (d.exprStep bound).Moving :=
  nested (moving.operand.bind fun _ => moving.operators _ _)

end Descent.Moving

theorem descent_moving (fuel : Nat) : (descent fuel : Descent σ).Moving := by
  induction fuel with
  | zero =>
    exact ⟨fun _ => .unfinished, fun _ _ => .unfinished, .unfinished, .unfinished, .unfinished⟩
  | succ fuel ih =>
    exact ⟨ih.exprStep, ih.operatorsStep, ih.argumentsStep, ih.parametersStep, ih.statementsStep⟩

theorem Parser.statement_moved (p : Parser σ) : p.statement.MovedFrom p :=
  (descent_moving p.fuel).statement p

end ScriptReader
