import ScriptReader.Parser.Program
import ScriptReader.Proofs.Writing

/-! # Never past the end of input

With the rules of the language a statement is read, or refused, without advancing while the end of
input is under examination. A rule that is started at a token stays at a token as long as it goes on;
the rules that may be started at the end of input refuse it at once. Recovery stops there, too.
-/

namespace ScriptReader

variable {σ α β : Type} [TokenStream σ]

/-- The second parser is reached from the first by counting and by advancing, where no end of input
is left behind. -/
inductive Passes (p : Parser σ) : Parser σ → Prop where
  | refl : Passes p p
  | advance {q : Parser σ} (passed : Passes p q) (present : q.current.kind ≠ .endOfInput) :
    Passes p q.advance
  | count {q : Parser σ} (openBlocks nesting : Nat) (passed : Passes p q) :
    Passes p { q with openBlocks, nesting }

namespace Passes

variable {p q r : Parser σ}

theorem trans (first : Passes p q) (second : Passes q r) : Passes p r := by
  induction second with
  | refl => exact first
  | advance _ present ih => exact ih.advance present
  | count openBlocks nesting _ ih => exact ih.count openBlocks nesting

theorem moves (passed : Passes p q) : Moves p q := by
  induction passed with
  | refl => exact .refl
  | advance _ _ ih => exact ih.advance
  | count openBlocks nesting _ ih => exact ih.count openBlocks nesting

theorem rules_eq (passed : Passes p q) : q.rules = p.rules := passed.moves.rules_eq

/-- Recovery stops at the end of input. -/
theorem skip (depth : Nat) (p : Parser σ) : Passes p (p.skip depth) := by
  fun_induction Parser.skip depth p with
  | case1 => exact .refl
  | case2 => exact .refl
  | case3 _ _ present _ _ ih => exact (refl.advance present).trans ih
  | case4 _ _ present _ ih => exact (refl.advance present).trans ih
  | case5 => exact .refl
  | case6 _ _ present => exact refl.advance present
  | case7 => exact .refl
  | case8 _ _ present _ _ _ ih => exact (refl.advance present).trans ih
  | case9 _ _ present _ _ _ ih => exact (refl.advance present).trans ih

theorem recover (p : Parser σ) : Passes p p.recover :=
  (refl.count 0 p.nesting).trans (skip p.openBlocks _)

end Passes

/-- The outcome leaves a parser that has passed no end of input, and what is accepted ends in a
token. -/
def Outcome.PassedFrom (p : Parser σ) : Outcome σ α → Prop
  | .accepted _ after => Passes p after ∧ after.current.kind ≠ .endOfInput
  | .rejected _ after => Passes p after
  | .unfinished => True

theorem Outcome.PassedFrom.trans {p q : Parser σ} {outcome : Outcome σ α} (first : Passes p q)
    (second : outcome.PassedFrom q) : outcome.PassedFrom p := by
  cases outcome with
  | accepted => exact ⟨first.trans second.1, second.2⟩
  | rejected => exact first.trans second
  | unfinished => trivial

/-- Started at a token, the parse passes no end of input. -/
def Parse.Careful (parse : Parse σ α) : Prop :=
  ∀ p, p.rules = .standard → p.current.kind ≠ .endOfInput → (parse p).PassedFrom p

/-- The parse passes no end of input, not even where it is started at one. -/
def Parse.Wary (parse : Parse σ α) : Prop := ∀ p, p.rules = .standard → (parse p).PassedFrom p

namespace Parse

theorem Wary.careful {parse : Parse σ α} (wary : parse.Wary) : parse.Careful :=
  fun p standard _ => wary p standard

/-- What begins at a token that has been read goes on at a token. -/
theorem passedFrom_bind {first : Parse σ α} {next : α → Parse σ β} {p : Parser σ}
    (standard : p.rules = .standard) (head : (first p).PassedFrom p)
    (tail : ∀ value, (next value).Careful) : ((first >>= next) p).PassedFrom p := by
  cases ran : first p with
  | accepted value after =>
    rw [ran] at head
    rw [bind_accepted ran]
    exact (tail value after (head.1.rules_eq.trans standard) head.2).trans head.1
  | rejected diagnostic after =>
    rw [ran] at head
    rw [bind_rejected ran]
    exact head
  | unfinished =>
    change (Parse.bind first next p).PassedFrom p
    simp only [Parse.bind, ran]
    trivial

theorem Careful.bind {first : Parse σ α} {next : α → Parse σ β} (head : first.Careful)
    (tail : ∀ value, (next value).Careful) : (first >>= next).Careful :=
  fun p standard present => passedFrom_bind standard (head p standard present) tail

theorem Wary.bind {first : Parse σ α} {next : α → Parse σ β} (head : first.Wary)
    (tail : ∀ value, (next value).Careful) : (first >>= next).Wary :=
  fun p standard => passedFrom_bind standard (head p standard) tail

namespace Careful

theorem pure (value : α) : Careful (Pure.pure value : Parse σ α) :=
  fun _ _ present => ⟨.refl, present⟩

theorem reject (diagnostic : Diagnostic) : Careful (Parse.reject diagnostic : Parse σ α) :=
  fun _ _ _ => .refl

theorem current : Careful (Parse.current : Parse σ Token) := fun _ _ present => ⟨.refl, present⟩

theorem exitBlock : Careful (Parse.modify Parser.exitBlock : Parse σ Unit) :=
  fun p _ present => ⟨.count (p.openBlocks - 1) p.nesting .refl, present⟩

/-- Behind a token may stand the end of input, so what follows has to be wary of it. -/
theorem advance {next : Unit → Parse σ α} (tail : (next ()).Wary) :
    Careful (Parse.advance >>= next) :=
  fun p standard present => (tail p.advance standard).trans (.advance .refl present)

/-- A token of a known kind may be taken. -/
theorem take (kind : Kind) (token : kind ≠ .endOfInput) {next : Token → Unit → Parse σ α}
    {otherwise : Token → Parse σ α} (taken : ∀ found, (next found ()).Careful)
    (other : ∀ found, (otherwise found).Careful) :
    Careful (Parse.peek >>= fun found =>
      if found.kind = kind then Parse.advance >>= next found else otherwise found) := by
  intro p standard present
  rw [peek_bind]
  split
  · next found =>
    have inside : p.advance.current.kind ≠ .endOfInput := fun ended => token (found.symm.trans ended)
    exact (taken p.peek p.advance standard inside).trans (.advance .refl present)
  · exact other p.peek p standard present

theorem expect {expected : Kind} (token : expected ≠ .endOfInput) :
    Careful (Parse.expect expected : Parse σ Token) :=
  take expected token (fun _ => current) fun _ => reject _

end Careful

theorem Wary.unfinished : (Parse.unfinished : Parse σ α).Wary := fun _ _ => trivial

theorem Wary.enterBlock {next : Unit → Parse σ α} (tail : (next ()).Wary) :
    Wary (Parse.modify Parser.enterBlock >>= next) :=
  fun p standard =>
    (tail p.enterBlock standard).trans (Passes.refl.count (p.openBlocks + 1) p.nesting)

/-- Counting one more expression passes nothing. -/
theorem Wary.nested {body : Parse σ α} (inner : body.Wary) : (Parse.nested body).Wary := by
  intro p standard
  rcases room_or_full p.limit p.nesting with room | ⟨most, limited, full⟩
  · rw [nested_room room]
    have within := inner { p with nesting := p.nesting + 1 } standard
    have deeper : Passes p { p with nesting := p.nesting + 1 } :=
      Passes.refl.count p.openBlocks (p.nesting + 1)
    cases ran : body { p with nesting := p.nesting + 1 } with
    | accepted value after =>
      rw [ran] at within
      exact ⟨(deeper.trans within.1).count after.openBlocks (after.nesting - 1), within.2⟩
    | rejected diagnostic after =>
      rw [ran] at within
      exact (deeper.trans within).count after.openBlocks (after.nesting - 1)
    | unfinished => trivial
  · rw [nested_full limited full]
    exact .refl

end Parse

/-- The places that may lie behind the last token are wary of it. -/
structure Descent.Careful (d : Descent σ) : Prop where
  expr (bound : Precedence) : (d.expr bound).Wary
  operators (bound : Precedence) (left : Expr) : (d.operators bound left).Careful
  arguments : d.arguments.Wary
  parameters : d.parameters.Careful
  statements : d.statements.Wary

namespace Descent.Careful

open Parse.Careful

variable {d : Descent σ}

theorem block (c : d.Careful) : d.block.Careful :=
  current.bind fun _ => advance <| .enterBlock <| c.statements.bind fun _ => exitBlock.bind fun _ =>
    pure _

theorem expressionStatement (c : d.Careful) : d.expressionStatement.Wary := by
  intro p standard
  rw [Descent.expressionStatement, Parse.current_bind]
  refine (c.expr .lowest).bind (fun value => ?_) p standard
  refine take .semicolon (by decide) (fun _ => pure _) fun found => ?_
  split
  · exact pure _
  · exact reject _

theorem declaration (c : d.Careful) : d.declaration.Careful :=
  current.bind fun _ => (expect (by decide)).bind fun _ => (expect (by decide)).bind fun _ =>
    advance <| (c.expr _).bind fun _ => (expect (by decide)).bind fun _ => pure _

theorem ret (c : d.Careful) : d.ret.Careful :=
  current.bind fun _ => advance <| (c.expr _).bind fun _ => (expect (by decide)).bind fun _ => pure _

theorem statementBy (c : d.Careful) (rule : StatementRule) : (d.statementBy rule).Careful :=
  match rule with
  | .expression => c.expressionStatement.careful
  | .declaration => c.declaration
  | .ret => c.ret

theorem statement (c : d.Careful) : d.statement.Wary := by
  intro p standard
  cases begins : Rules.standard.statement p.current.kind with
  | none =>
    rw [statement_eq_expressionStatement (standard ▸ begins)]
    exact c.expressionStatement p standard
  | some rule =>
    rw [statement_eq_statementBy (standard ▸ begins)]
    refine c.statementBy rule p standard fun ended => ?_
    rw [ended] at begins
    cases begins

theorem statementsStep (c : d.Careful) : d.statementsStep.Wary := by
  intro p standard
  rw [Descent.statementsStep, Parse.current_bind]
  split
  · next closes => exact ⟨.refl, by simp [closes]⟩
  · split
    · exact .refl
    · next present =>
      exact (c.statement.bind fun _ => advance <| c.statements.bind fun _ => pure _) p standard

theorem grouping (c : d.Careful) : d.grouping.Careful :=
  advance <| (c.expr _).bind fun _ => (expect (by decide)).bind fun _ => pure _

theorem alternative (c : d.Careful) : d.alternative.Careful :=
  take .elseWord (by decide)
    (fun _ => (expect (by decide)).bind fun _ => c.block.bind fun _ => pure _) fun _ => pure _

theorem conditional (c : d.Careful) : d.conditional.Careful :=
  current.bind fun _ => (expect (by decide)).bind fun _ => advance <| (c.expr _).bind fun _ =>
    (expect (by decide)).bind fun _ => (expect (by decide)).bind fun _ => c.block.bind fun _ =>
    c.alternative.bind fun _ => pure _

theorem parametersStep (c : d.Careful) : d.parametersStep.Careful :=
  (expect (by decide)).bind fun _ =>
    take .comma (by decide) (fun _ => c.parameters.bind fun _ => pure _) fun _ => pure _

theorem parameterList (c : d.Careful) : d.parameterList.Careful :=
  take .closeParen (by decide) (fun _ => pure _) fun _ =>
    c.parameters.bind fun _ => (expect (by decide)).bind fun _ => pure _

theorem function (c : d.Careful) : d.function.Careful :=
  current.bind fun _ => (expect (by decide)).bind fun _ => c.parameterList.bind fun _ =>
    (expect (by decide)).bind fun _ => c.block.bind fun _ => pure _

theorem integer : (Descent.integer : Parse σ Expr).Careful := by
  refine current.bind fun token => ?_
  split
  · exact pure _
  · exact reject _

theorem operandBy (c : d.Careful) (rule : OperandRule) : (d.operandBy rule).Careful :=
  match rule with
  | .identifier => current.bind fun _ => pure _
  | .integer => integer
  | .boolean => current.bind fun _ => pure _
  | .unary => current.bind fun _ => advance <| (c.expr _).bind fun _ => pure _
  | .grouping => c.grouping
  | .conditional => c.conditional
  | .function => c.function

/-- No operand begins at the end of input. -/
theorem operand (c : d.Careful) : d.operand.Wary := by
  intro p standard
  cases begins : Rules.standard.operand p.current.kind with
  | none =>
    rw [operand_rejected (standard ▸ begins)]
    exact .refl
  | some rule =>
    rw [operand_eq_operandBy (standard ▸ begins)]
    refine c.operandBy rule p standard fun ended => ?_
    rw [ended] at begins
    cases begins

theorem argumentsStep (c : d.Careful) : d.argumentsStep.Wary := by
  refine (c.expr _).bind fun first => take .comma (by decide) (fun _ => ?_) fun _ => pure _
  exact advance <| c.arguments.bind fun _ => pure _

theorem argumentList (c : d.Careful) : d.argumentList.Careful := by
  intro p standard present
  rw [Descent.argumentList, Parse.peek_bind, Parse.advance_bind]
  have passed : Passes p p.advance := .advance .refl present
  split
  · next closes => exact ⟨passed, fun ended => nomatch closes.symm.trans ended⟩
  · have inside : (d.arguments >>= fun arguments => Parse.expect .closeParen >>= fun _ =>
        Pure.pure arguments).Wary :=
      c.arguments.bind fun _ => (expect (by decide)).bind fun _ => pure _
    exact (inside p.advance standard).trans passed

theorem operatorBy (c : d.Careful) (left : Expr) (level : Precedence) (rule : OperatorRule) :
    (d.operatorBy left level rule).Careful :=
  match rule with
  | .binary => current.bind fun _ => advance <| (c.expr _).bind fun _ => pure _
  | .call => current.bind fun _ => c.argumentList.bind fun _ => pure _

/-- The end of input is no operator. -/
theorem operatorsStep (c : d.Careful) (bound : Precedence) (left : Expr) :
    (d.operatorsStep bound left).Careful := by
  intro p standard present
  rcases Nat.lt_or_ge bound.rank (p.rules.level p.peek.kind).rank with taken | weak
  · have tight : .lowest < Rules.standard.level p.peek.kind :=
      Nat.lt_of_le_of_lt bound.lowest_le (standard ▸ taken)
    obtain ⟨rule, operates⟩ : ∃ rule, p.rules.operator p.peek.kind = some rule := by
      rw [standard]
      rcases Rules.level_eq_lowest_or tight with binary | opens
      · exact ⟨_, binary⟩
      · exact ⟨.call, by rw [opens]; rfl⟩
    have inside : p.advance.current.kind ≠ .endOfInput := by
      intro ended
      rw [standard, show p.peek.kind = .endOfInput from ended] at operates
      cases operates
    have further := (c.operatorBy left (p.rules.level p.peek.kind) rule).bind (c.operators bound)
    rw [operatorsStep_taken taken operates]
    exact (further p.advance standard inside).trans (.advance .refl present)
  · rw [operatorsStep_ended weak]
    exact ⟨.refl, present⟩

theorem exprStep (c : d.Careful) (bound : Precedence) : (d.exprStep bound).Wary :=
  .nested <| c.operand.bind fun _ => c.operators _ _

end Descent.Careful

theorem descent_careful (fuel : Nat) : (descent fuel : Descent σ).Careful := by
  induction fuel with
  | zero =>
    exact ⟨fun _ => .unfinished, fun _ _ => Parse.Wary.unfinished.careful, .unfinished,
      Parse.Wary.unfinished.careful, .unfinished⟩
  | succ fuel ih =>
    exact ⟨ih.exprStep, ih.operatorsStep, ih.argumentsStep, ih.parametersStep, ih.statementsStep⟩

/-- A statement is read without a step past the end of input, wherever it is begun. -/
theorem Parser.statement_passed {p : Parser σ} (standard : p.rules = .standard) :
    p.statement.PassedFrom p :=
  (descent_careful p.fuel).statement p standard

end ScriptReader
