import ScriptReader.Proofs.Agreement
import ScriptReader.Proofs.Counters

/-! # Registered rules

An operator is registered together with its precedence. Whatever is registered, the kinds that have
a rule as an operator are therefore the kinds that have a precedence, and a lookahead that binds
tighter than the place it stands in always has a rule. So the operators behind an operand are read
up to a lookahead that binds no tighter. No parse changes the tables, so this holds wherever an
expression is read.
-/

namespace ScriptReader

namespace Rules

/-- The tables that come from the standard ones when rules are registered one after the other. -/
inductive Registered : Rules → Prop
  | standard : Registered .standard
  | statement {rules : Rules} (earlier : Registered rules) (kind : Kind) (rule : StatementRule) :
    Registered (rules.setStatement kind rule)
  | operand {rules : Rules} (earlier : Registered rules) (kind : Kind) (rule : OperandRule) :
    Registered (rules.setOperand kind rule)
  | operator {rules : Rules} (earlier : Registered rules) (kind : Kind) (level : Precedence)
    (rule : OperatorRule) : Registered (rules.setOperator kind level rule)

/-- The kinds that have a rule as an operator are the kinds that have a precedence. -/
def Coherent (rules : Rules) : Prop :=
  ∀ kind, (rules.operator kind).isSome ↔ (rules.precedence kind).isSome

theorem isSome_replace {α : Type} (table : Kind → Option α) (kind : Kind) (entry : α)
    (other : Kind) :
    (replace table kind entry other).isSome ↔ other = kind ∨ (table other).isSome := by
  unfold replace
  split <;> simp [*]

theorem coherent_standard : standard.Coherent := by
  intro kind
  cases kind <;> decide

theorem Coherent.setOperator {rules : Rules} (coherent : rules.Coherent) (kind : Kind)
    (level : Precedence) (rule : OperatorRule) : (rules.setOperator kind level rule).Coherent := by
  intro other
  change (replace rules.operator kind rule other).isSome ↔
    (replace rules.precedence kind level other).isSome
  rw [isSome_replace, isSome_replace, coherent other]

theorem Registered.coherent {rules : Rules} (registered : rules.Registered) : rules.Coherent := by
  induction registered with
  | standard => exact coherent_standard
  | statement _ _ _ ih => exact ih
  | operand _ _ _ ih => exact ih
  | operator _ kind level rule ih => exact ih.setOperator kind level rule

/-- What binds tighter than any place has a precedence of its own, and so a rule. -/
theorem Coherent.exists_operator {rules : Rules} {kind : Kind} {bound : Precedence}
    (coherent : rules.Coherent) (tight : bound < rules.level kind) :
    ∃ rule, rules.operator kind = some rule := by
  apply Option.isSome_iff_exists.mp
  rw [coherent kind]
  by_contra without
  rw [Option.not_isSome_iff_eq_none] at without
  rw [level, without] at tight
  exact Nat.not_lt_zero _ tight

end Rules

variable {σ : Type} [TokenStream σ]

theorem Moves.coherent {p q : Parser σ} (moved : Moves p q) (coherent : p.rules.Coherent) :
    q.rules.Coherent :=
  moved.rules_eq ▸ coherent

/-! ### An operator without a rule -/

/-- Something else is done where the lookahead binds tighter and has no rule as an operator. -/
def Parse.ruled (bound : Precedence) (missing parse : Parse σ Expr) : Parse σ Expr := fun p =>
  if bound < p.level ∧ p.rules.operator p.peek.kind = none then missing p else parse p

/-- The descent that does something else wherever an operator is due that has no rule. -/
def descentRuled (missing : Parse σ Expr) : Nat → Descent σ
  | 0 => .unfinished
  | fuel + 1 =>
    let d := descentRuled missing fuel
    { expr := fun bound p => d.exprStep bound p
      operators := fun bound left p => Parse.ruled bound missing (d.operatorsStep bound left) p
      arguments := fun p => d.argumentsStep p
      parameters := fun p => d.parametersStep p
      statements := fun p => d.statementsStep p }

theorem Parse.AgreesOn.ruled {bound : Precedence} {parse other : Parse σ Expr}
    (missing : Parse σ Expr) (agrees : parse.AgreesOn (fun p => p.rules.Coherent) other) :
    parse.AgreesOn (fun p => p.rules.Coherent) (Parse.ruled bound missing other) := by
  refine ⟨agrees.1, fun p coherent => ?_⟩
  have present : ¬ (bound < p.level ∧ p.rules.operator p.peek.kind = none) := by
    rintro ⟨tight, without⟩
    obtain ⟨rule, found⟩ := coherent.exists_operator tight
    rw [without] at found
    cases found
  rw [Parse.ruled, if_neg present]
  exact agrees.2 p coherent

theorem descent_ruled (missing : Parse σ Expr) (fuel : Nat) :
    (descent fuel).Related (Parse.AgreesOn fun p => p.rules.Coherent)
      (descentRuled missing fuel) := by
  have c : Parse.Congruence (σ := σ) (τ := σ) (Parse.AgreesOn fun p => p.rules.Coherent) :=
    Parse.AgreesOn.congruence Moves.coherent
  induction fuel with
  | zero =>
    exact ⟨fun _ => .refl .unfinished, fun _ _ => .refl .unfinished, .refl .unfinished,
      .refl .unfinished, .refl .unfinished⟩
  | succ fuel ih =>
    exact ⟨ih.exprStep c, fun bound left => (ih.operatorsStep c bound left).ruled missing,
      ih.argumentsStep c, ih.parametersStep c, ih.statementsStep c⟩

/-! ### Where an expression ends -/

/-- What is accepted has a lookahead behind it that binds no tighter than the bound. -/
def Outcome.Ends {α : Type} (bound : Precedence) : Outcome σ α → Prop
  | .accepted _ after => after.level ≤ bound
  | .rejected .. => True
  | .unfinished => True

/-- On coherent rules, whatever the parse accepts ends at the bound. -/
def Parse.Ending {α : Type} (bound : Precedence) (parse : Parse σ α) : Prop :=
  ∀ p, p.rules.Coherent → (parse p).Ends bound

namespace Parse.Ending

variable {α β : Type} {bound : Precedence}

theorem bind {first : Parse σ α} {next : α → Parse σ β} (moving : first.Moving)
    (tail : ∀ value, (next value).Ending bound) : (first >>= next).Ending bound := by
  intro p coherent
  have moved := moving p
  cases ran : first p with
  | accepted value after =>
    rw [ran] at moved
    rw [bind_accepted ran]
    exact tail value after (Moves.coherent moved coherent)
  | rejected diagnostic after =>
    rw [bind_rejected ran]
    trivial
  | unfinished =>
    change (Parse.bind first next p).Ends bound
    simp only [Parse.bind, ran]
    trivial

theorem nested {body : Parse σ α} (inner : body.Ending bound) :
    (Parse.nested body).Ending bound := by
  refine bind Moving.enterNesting fun _ p coherent => ?_
  have ends := inner p coherent
  cases ran : body p with
  | accepted =>
    rw [ran] at ends
    exact ends
  | rejected => trivial
  | unfinished => trivial

end Parse.Ending

/-- The reading of operators goes on while the lookahead binds tighter. -/
theorem Descent.ending_operatorsStep {d : Descent σ} (moving : d.Moving) {bound : Precedence}
    (ending : ∀ left, (d.operators bound left).Ending bound) (left : Expr) :
    (d.operatorsStep bound left).Ending bound := by
  intro p coherent
  by_cases tight : bound < p.level
  · obtain ⟨rule, found⟩ := coherent.exists_operator tight
    rw [operatorsStep_taken tight found]
    have further : Parse.Ending bound
      (d.operatorBy left (p.rules.level p.peek.kind) rule >>= d.operators bound) :=
      .bind (moving.operatorBy left _ rule) ending
    exact further p.advance coherent
  · have weak := Precedence.not_lt.mp tight
    rw [operatorsStep_ended weak]
    exact weak

theorem descent_ending (fuel : Nat) (bound : Precedence) :
    ((descent fuel : Descent σ).expr bound).Ending bound ∧
      ∀ left, ((descent fuel : Descent σ).operators bound left).Ending bound := by
  induction fuel with
  | zero => exact ⟨fun _ _ => trivial, fun _ _ _ => trivial⟩
  | succ fuel ih =>
    have moving : (descent fuel : Descent σ).Moving := descent_moving fuel
    constructor
    · exact .nested (.bind moving.operand ih.2)
    · exact Descent.ending_operatorsStep moving ih.2

/-- Whatever rules are registered, the kinds that have a rule as an operator are the kinds that have
a precedence. Whatever is called then, at whatever depth of the recursion, an operator without a rule
is never due, and an expression that is accepted ends at a lookahead that binds no tighter than
asked. -/
theorem expr_ends (p : Parser σ) (registered : p.rules.Registered) :
    (∀ kind, (p.rules.operator kind).isSome ↔ (p.rules.precedence kind).isSome) ∧
    (∀ {α : Type} (call : Call α) (missing : Parse σ Expr) (fuel : Nat),
      call.rule (descentRuled missing fuel) p = call.rule (descent fuel) p) ∧
    ∀ (fuel : Nat) (bound : Precedence) (value : Expr) (after : Parser σ),
      (descent fuel).expr bound p = .accepted value after → after.level ≤ bound := by
  have coherent := registered.coherent
  refine ⟨coherent, fun call missing fuel => ?_, fun fuel bound value after ran => ?_⟩
  · have agrees := call.related (Parse.AgreesOn.congruence Moves.coherent)
      (descent_ruled missing fuel)
    exact agrees.2 p coherent
  · have ends := (descent_ending fuel bound).1 p coherent
    rw [ran] at ends
    exact ends

/-- A caret that is registered as the tightest operator is taken, and the plus behind it is left. -/
theorem expr_ends_plus :
    ∃ p after : Parser (List Token), p = Parser.start (some Parser.standardLimit)
        (Rules.standard.setOperator .caret .call .binary) [⟨.identifier, "a"⟩, ⟨.caret, "^"⟩,
          ⟨.identifier, "b"⟩, ⟨.plus, "+"⟩, ⟨.identifier, "c"⟩] ∧
      p.rules.Registered ∧
      p.expr .additive = .accepted (.binary ⟨.caret, "^"⟩ "^"
        (.identifier (.ofToken ⟨.identifier, "a"⟩)) (.identifier (.ofToken ⟨.identifier, "b"⟩)))
        after ∧
      after.peek.kind = .plus ∧ after.level ≤ .additive := by
  let p : Parser (List Token) := .start (some Parser.standardLimit)
    (Rules.standard.setOperator .caret .call .binary) [⟨.identifier, "a"⟩, ⟨.caret, "^"⟩,
      ⟨.identifier, "b"⟩, ⟨.plus, "+"⟩, ⟨.identifier, "c"⟩]
  have registered : p.rules.Registered := .operator .standard .caret .call .binary
  have ran : p.expr .additive = .accepted (.binary ⟨.caret, "^"⟩ "^"
      (.identifier (.ofToken ⟨.identifier, "a"⟩)) (.identifier (.ofToken ⟨.identifier, "b"⟩)))
      p.advance.advance := rfl
  exact ⟨p, _, rfl, registered, ran, rfl, (expr_ends p registered).2.2 _ .additive _ _ ran⟩

end ScriptReader
