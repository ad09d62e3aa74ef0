import ScriptReader.Parser.Recursion

/-! # Relations that every rule respects

A rule of the grammar is built from sequencing, from a few primitive steps and from the five
recursive places. A relation between parses that the first two respect therefore holds of every rule
as soon as it holds of the places. The first use is fuel: an outcome that a descent reaches is
reached again by every deeper descent.
-/

namespace ScriptReader

/-- A relation between the parses of two kinds of stream that sequencing and every primitive step
respect. Both parses answer values of the same type. -/
structure Parse.Congruence {σ τ : Type} [TokenStream σ] [TokenStream τ]
    (R : ∀ {α : Type}, Parse σ α → Parse τ α → Prop) : Prop where
  pure {α : Type} (value : α) : R (Pure.pure value) (Pure.pure value)
  bind {α β : Type} {first : Parse σ α} {first' : Parse τ α} {next : α → Parse σ β}
    {next' : α → Parse τ β} (head : R first first') (tail : ∀ value, R (next value) (next' value)) :
    R (first >>= next) (first' >>= next')
  nested {α : Type} {body : Parse σ α} {body' : Parse τ α} (inner : R body body') :
    R (Parse.nested body) (Parse.nested body')
  reject {α : Type} (diagnostic : Diagnostic) :
    R (Parse.reject diagnostic : Parse σ α) (Parse.reject diagnostic)
  current : R Parse.current Parse.current
  peek : R Parse.peek Parse.peek
  rules : R Parse.rules Parse.rules
  advance : R Parse.advance Parse.advance
  /-- A block is entered before its statements and left behind them. -/
  within {α β : Type} {body : Parse σ α} {body' : Parse τ α} {next : α → Parse σ β}
    {next' : α → Parse τ β} (inner : R body body') (tail : ∀ value, R (next value) (next' value)) :
    R (Parse.modify Parser.enterBlock >>= fun _ => body >>= fun value =>
        Parse.modify Parser.exitBlock >>= fun _ => next value)
      (Parse.modify Parser.enterBlock >>= fun _ => body' >>= fun value =>
        Parse.modify Parser.exitBlock >>= fun _ => next' value)

variable {σ τ : Type} [TokenStream σ] [TokenStream τ]
  {R : ∀ {α : Type}, Parse σ α → Parse τ α → Prop}

theorem Parse.Congruence.expect (c : Parse.Congruence R) (expected : Kind) :
    R (Parse.expect expected) (Parse.expect expected) := by
  refine c.bind c.peek fun found => ?_
  split
  · exact c.bind c.advance fun _ => c.current
  · exact c.reject _

/-- The relation holds at each of the five recursive places. -/
structure Descent.Related (R : ∀ {α : Type}, Parse σ α → Parse τ α → Prop) (d : Descent σ)
    (e : Descent τ) : Prop where
  expr (bound : Precedence) : R (d.expr bound) (e.expr bound)
  operators (bound : Precedence) (left : Expr) : R (d.operators bound left) (e.operators bound left)
  arguments : R d.arguments e.arguments
  parameters : R d.parameters e.parameters
  statements : R d.statements e.statements

namespace Descent.Related

variable {d : Descent σ} {e : Descent τ}

theorem block (c : Parse.Congruence R) (r : d.Related R e) : R d.block e.block :=
  c.bind c.current fun _ => c.bind c.advance fun _ => c.within r.statements fun _ => c.pure _

theorem expressionStatement (c : Parse.Congruence R) (r : d.Related R e) :
    R d.expressionStatement e.expressionStatement := by
  refine c.bind c.current fun token => c.bind (r.expr _) fun value => c.bind c.peek fun found => ?_
  split
  · exact c.bind c.advance fun _ => c.pure _
  · split
    · exact c.pure _
    · exact c.reject _

theorem declaration (c : Parse.Congruence R) (r : d.Related R e) :
    R d.declaration e.declaration :=
  c.bind c.current fun _ => c.bind (c.expect _) fun _ => c.bind (c.expect _) fun _ =>
    c.bind c.advance fun _ => c.bind (r.expr _) fun _ => c.bind (c.expect _) fun _ => c.pure _

theorem ret (c : Parse.Congruence R) (r : d.Related R e) : R d.ret e.ret :=
  c.bind c.current fun _ => c.bind c.advance fun _ => c.bind (r.expr _) fun _ =>
    c.bind (c.expect _) fun _ => c.pure _

theorem statementBy (c : Parse.Congruence R) (r : d.Related R e) (rule : StatementRule) :
    R (d.statementBy rule) (e.statementBy rule) :=
  match rule with
  | .expression => r.expressionStatement c
  | .declaration => r.declaration c
  | .ret => r.ret c

theorem statement (c : Parse.Congruence R) (r : d.Related R e) : R d.statement e.statement := by
  refine c.bind c.current fun token => c.bind c.rules fun rules => ?_
  split
  · exact r.statementBy c _
  · exact r.expressionStatement c

theorem statementsStep (c : Parse.Congruence R) (r : d.Related R e) :
    R d.statementsStep e.statementsStep := by
  refine c.bind c.current fun token => ?_
  split
  · exact c.pure _
  · split
    · exact c.reject _
    · exact c.bind (r.statement c) fun _ => c.bind c.advance fun _ => c.bind r.statements fun _ =>
        c.pure _

theorem alternative (c : Parse.Congruence R) (r : d.Related R e) :
    R d.alternative e.alternative := by
  refine c.bind c.peek fun word => ?_
  split
  · exact c.bind c.advance fun _ => c.bind (c.expect _) fun _ => c.bind (r.block c) fun _ =>
    c.pure _
  · exact c.pure _

theorem conditional (c : Parse.Congruence R) (r : d.Related R e) :
    R d.conditional e.conditional :=
  c.bind c.current fun _ => c.bind (c.expect _) fun _ => c.bind c.advance fun _ =>
    c.bind (r.expr _) fun _ => c.bind (c.expect _) fun _ => c.bind (c.expect _) fun _ =>
    c.bind (r.block c) fun _ => c.bind (r.alternative c) fun _ => c.pure _

theorem parametersStep (c : Parse.Congruence R) (r : d.Related R e) :
    R d.parametersStep e.parametersStep := by
  refine c.bind (c.expect _) fun first => c.bind c.peek fun behind => ?_
  split
  · exact c.bind c.advance fun _ => c.bind r.parameters fun _ => c.pure _
  · exact c.pure _

theorem parameterList (c : Parse.Congruence R) (r : d.Related R e) :
    R d.parameterList e.parameterList := by
  refine c.bind c.peek fun found => ?_
  split
  · exact c.bind c.advance fun _ => c.pure _
  · exact c.bind r.parameters fun _ => c.bind (c.expect _) fun _ => c.pure _

theorem function (c : Parse.Congruence R) (r : d.Related R e) : R d.function e.function :=
  c.bind c.current fun _ => c.bind (c.expect _) fun _ => c.bind (r.parameterList c) fun _ =>
    c.bind (c.expect _) fun _ => c.bind (r.block c) fun _ => c.pure _

theorem operandBy (c : Parse.Congruence R) (r : d.Related R e) (rule : OperandRule) :
    R (d.operandBy rule) (e.operandBy rule) := by
  cases rule with
  | identifier => exact c.bind c.current fun _ => c.pure _
  | integer =>
    refine c.bind c.current fun token => ?_
    split
    · exact c.pure _
    · exact c.reject _
  | boolean => exact c.bind c.current fun _ => c.pure _
  | unary =>
    exact c.bind c.current fun _ => c.bind c.advance fun _ => c.bind (r.expr _) fun _ => c.pure _
  | grouping =>
    exact c.bind c.advance fun _ => c.bind (r.expr _) fun _ => c.bind (c.expect _) fun _ => c.pure _
  | conditional => exact r.conditional c
  | function => exact r.function c

theorem operand (c : Parse.Congruence R) (r : d.Related R e) : R d.operand e.operand := by
  refine c.bind c.current fun token => c.bind c.rules fun rules => ?_
  split
  · exact r.operandBy c _
  · exact c.reject _

theorem argumentsStep (c : Parse.Congruence R) (r : d.Related R e) :
    R d.argumentsStep e.argumentsStep := by
  refine c.bind (r.expr _) fun first => c.bind c.peek fun behind => ?_
  split
  · exact c.bind c.advance fun _ => c.bind c.advance fun _ => c.bind r.arguments fun _ => c.pure _
  · exact c.pure _

theorem argumentList (c : Parse.Congruence R) (r : d.Related R e) :
    R d.argumentList e.argumentList := by
  refine c.bind c.peek fun found => c.bind c.advance fun _ => ?_
  split
  · exact c.pure _
  · exact c.bind r.arguments fun _ => c.bind (c.expect _) fun _ => c.pure _

theorem operatorBy (c : Parse.Congruence R) (r : d.Related R e) (left : Expr) (level : Precedence)
    (rule : OperatorRule) : R (d.operatorBy left level rule) (e.operatorBy left level rule) := by
  cases rule with
  | binary =>
    exact c.bind c.current fun _ => c.bind c.advance fun _ => c.bind (r.expr _) fun _ => c.pure _
  | call => exact c.bind c.current fun _ => c.bind (r.argumentList c) fun _ => c.pure _

theorem operatorsStep (c : Parse.Congruence R) (r : d.Related R e) (bound : Precedence)
    (left : Expr) : R (d.operatorsStep bound left) (e.operatorsStep bound left) := by
  refine c.bind c.peek fun found => c.bind c.rules fun rules => ?_
  dsimp only
  split
  · split
    · exact c.bind c.advance fun _ => c.bind (r.operatorBy c _ _ _) fun _ => r.operators _ _
    · exact c.pure _
  · exact c.pure _

theorem exprStep (c : Parse.Congruence R) (r : d.Related R e) (bound : Precedence) :
    R (d.exprStep bound) (e.exprStep bound) :=
  c.nested (c.bind (r.operand c) fun _ => r.operators _ _)

/-- One more level of recursion on both sides. -/
theorem descent {fuel fuel' : Nat} (c : Parse.Congruence R)
    (r : (ScriptReader.descent fuel : Descent σ).Related R
      (ScriptReader.descent fuel' : Descent τ)) :
    (ScriptReader.descent (fuel + 1) : Descent σ).Related R
      (ScriptReader.descent (fuel' + 1) : Descent τ) :=
  ⟨r.exprStep c, r.operatorsStep c, r.argumentsStep c, r.parametersStep c, r.statementsStep c⟩

end Descent.Related

/-- Wherever the first parse comes to an end, the second one comes to the same end. -/
def Parse.Within {α : Type} (shallow deep : Parse σ α) : Prop :=
  ∀ p, shallow p ≠ .unfinished → deep p = shallow p

namespace Parse.Within

variable {ρ α β : Type}

theorem refl (parse : Parse ρ α) : parse.Within parse := fun _ _ => rfl

theorem unfinished (parse : Parse ρ α) : Parse.unfinished.Within parse :=
  fun _ finished => (finished rfl).elim

theorem bind {first first' : Parse ρ α} {next next' : α → Parse ρ β} (head : first.Within first')
    (tail : ∀ value, (next value).Within (next' value)) :
    (first >>= next).Within (first' >>= next') := by
  intro p finished
  change Parse.bind first next p ≠ _ at finished
  change Parse.bind first' next' p = Parse.bind first next p
  unfold Parse.bind at finished ⊢
  cases ran : first p with
  | accepted value after =>
    rw [head p (by simp [ran]), ran]
    exact tail value after (by simpa only [ran] using finished)
  | rejected diagnostic after => rw [head p (by simp [ran]), ran]
  | unfinished => simp [ran] at finished

theorem nested {body body' : Parse ρ α} (inner : body.Within body') :
    (Parse.nested body).Within (Parse.nested body') := by
  refine bind (refl _) fun _ p finished => ?_
  have ended : body p ≠ .unfinished := fun cut => finished (by simp [cut, Outcome.mapAfter])
  simp only [inner p ended]

theorem congruence : Parse.Congruence (σ := σ) (τ := σ) Parse.Within where
  pure _ := refl _
  bind := bind
  nested := nested
  reject _ := refl _
  current := refl _
  peek := refl _
  rules := refl _
  advance := refl _
  within inner tail :=
    bind (refl _) fun _ => bind inner fun value => bind (refl _) fun _ => tail value

end Parse.Within

/-- More fuel keeps every outcome that less fuel reaches. -/
theorem descent_within {fuel fuel' : Nat} (le : fuel ≤ fuel') :
    (descent fuel : Descent σ).Related Parse.Within (descent fuel') := by
  induction fuel generalizing fuel' with
  | zero =>
    exact ⟨fun _ => .unfinished _, fun _ _ => .unfinished _, .unfinished _, .unfinished _,
      .unfinished _⟩
  | succ fuel ih =>
    obtain ⟨more, rfl⟩ := Nat.exists_eq_add_of_le le
    rw [Nat.add_right_comm]
    exact .descent Parse.Within.congruence (ih (Nat.le_add_right fuel more))

end ScriptReader
