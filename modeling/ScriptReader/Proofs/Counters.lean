import ScriptReader.Proofs.Agreement
import ScriptReader.Proofs.Heights
import ScriptReader.Proofs.Recovery

/-! # The counters come back

Every rule leaves the number of expressions being read as it found it, whether it accepts or
refuses. The number of open blocks comes back as well where the rule accepts; where it refuses, the
blocks it had entered stay open, for recovery to close. An expression is counted before it is read,
and only below the limit, so the count is never above the limit.
-/

namespace ScriptReader

/-- What can be called on a parser: the entry points of the grammar and the rules of its tables. -/
inductive Call : Type → Type where
  | expr (bound : Precedence) : Call Expr
  | statement : Call Stmt
  | block : Call Block
  | operandBy (rule : OperandRule) : Call Expr
  | operatorBy (left : Expr) (level : Precedence) (rule : OperatorRule) : Call Expr
  | statementBy (rule : StatementRule) : Call Stmt

namespace Call

variable {σ τ α : Type} [TokenStream σ] [TokenStream τ]

def rule : Call α → Descent σ → Parse σ α
  | .expr bound => fun d => d.expr bound
  | .statement => Descent.statement
  | .block => Descent.block
  | .operandBy rule => fun d => d.operandBy rule
  | .operatorBy left level rule => fun d => d.operatorBy left level rule
  | .statementBy rule => fun d => d.statementBy rule

/-- A relation that every rule respects holds of every call. -/
theorem related {R : ∀ {α : Type}, Parse σ α → Parse τ α → Prop} {d : Descent σ} {e : Descent τ}
    (c : Parse.Congruence R) (r : d.Related R e) : ∀ call : Call α, R (call.rule d) (call.rule e)
  | .expr bound => r.expr bound
  | .statement => r.statement c
  | .block => r.block c
  | .operandBy rule => r.operandBy c rule
  | .operatorBy left level rule => r.operatorBy c left level rule
  | .statementBy rule => r.statementBy c rule

end Call

section Balance

variable {σ α β : Type}

/-- The number of expressions being read, the rules and the diagnostics are the same again. -/
structure Parser.Kept (p after : Parser σ) : Prop where
  nesting : after.nesting = p.nesting
  limit : after.limit = p.limit
  rules : after.rules = p.rules
  diagnostics : after.diagnostics = p.diagnostics

theorem Parser.Kept.trans {p q r : Parser σ} (first : p.Kept q) (second : q.Kept r) : p.Kept r :=
  ⟨second.nesting.trans first.nesting, second.limit.trans first.limit,
    second.rules.trans first.rules, second.diagnostics.trans first.diagnostics⟩

/-- The outcome is one of the two that say something about the input. What is accepted leaves no
block open that was not open before, and what is refused closes none of those. -/
def Outcome.Balanced (p : Parser σ) : Outcome σ α → Prop
  | .accepted _ after => after.openBlocks = p.openBlocks ∧ p.Kept after
  | .rejected _ after => p.openBlocks ≤ after.openBlocks ∧ p.Kept after
  | .unfinished => False

theorem Outcome.Balanced.trans {p q : Parser σ} {outcome : Outcome σ α}
    (opened : q.openBlocks = p.openBlocks) (kept : p.Kept q) (balanced : outcome.Balanced q) :
    outcome.Balanced p := by
  cases outcome with
  | accepted => exact ⟨balanced.1.trans opened, kept.trans balanced.2⟩
  | rejected => exact ⟨opened ▸ balanced.1, kept.trans balanced.2⟩
  | unfinished => exact balanced.elim

theorem Outcome.Reads.balanced {p : Parser (List Token)} {read ahead : List Token}
    {good : α → List Token → Token → Prop} {bad : Nat → Diagnostic → List Token → Prop}
    {outcome : Outcome (List Token) α} (reads : outcome.Reads p read ahead good bad) :
    outcome.Balanced p := by
  cases outcome with
  | accepted =>
    obtain ⟨taken, rest, -, -, rfl⟩ := reads
    exact ⟨rfl, rfl, rfl, rfl, rfl⟩
  | rejected =>
    obtain ⟨count, taken, rest, -, -, -, rfl⟩ := reads
    exact ⟨Nat.le_add_right _ _, rfl, rfl, rfl, rfl⟩
  | unfinished => exact reads.elim

end Balance

variable {α β : Type}

/-- A parser for the language that reads no more expressions inside one another than it may. -/
structure Parser.Ready (p : Parser (List Token)) : Prop where
  standard : p.rules = .standard
  limited : p.limit = some standardLimit
  within : p.nesting ≤ standardLimit

theorem Parser.Kept.ready {p after : Parser (List Token)} (kept : p.Kept after) (ready : p.Ready) :
    after.Ready :=
  ⟨kept.rules.trans ready.standard, kept.limit.trans ready.limited, kept.nesting ▸ ready.within⟩

/-- Where no more tokens are to come than some number, the parse is balanced. -/
def Parse.Steady (size : Nat) (parse : Parse (List Token) α) : Prop :=
  parse.Moving ∧ ∀ p : Parser (List Token), p.Ready → p.source.length ≤ size → (parse p).Balanced p

theorem Moves.length_le {p q : Parser (List Token)} (moved : Moves p q) :
    q.source.length ≤ p.source.length := by
  induction moved with
  | refl => exact Nat.le_refl _
  | @advance q _ ih =>
    refine Nat.le_trans ?_ ih
    have := TokenStream.weight_next q.source
    exact Nat.le_trans (Nat.le_add_left _ _) this
  | count _ _ _ ih => exact ih

namespace Parse.Steady

variable {size : Nat}

/-- What happens behind a balanced parse is as if it had happened at once. -/
theorem balanced_bind {first : Parse (List Token) α} {next : α → Parse (List Token) β}
    (head : first.Steady size) (tail : ∀ value, (next value).Steady size)
    (p : Parser (List Token)) (ready : p.Ready) (short : p.source.length ≤ size) :
    ((first >>= next) p).Balanced p := by
  have balanced := head.2 p ready short
  have moved := head.1 p
  cases ran : first p with
  | accepted value after =>
    rw [ran] at balanced moved
    obtain ⟨opened, kept⟩ := balanced
    rw [bind_accepted ran]
    exact ((tail value).2 after (kept.ready ready)
      (Nat.le_trans (Moves.length_le moved) short)).trans opened kept
  | rejected diagnostic after =>
    rw [ran] at balanced
    rw [bind_rejected ran]
    exact balanced
  | unfinished =>
    rw [ran] at balanced
    exact balanced.elim

theorem bind {first : Parse (List Token) α} {next : α → Parse (List Token) β}
    (head : first.Steady size) (tail : ∀ value, (next value).Steady size) :
    (first >>= next).Steady size :=
  ⟨head.1.bind fun value => (tail value).1, balanced_bind head tail⟩

theorem nested {body : Parse (List Token) α} (inner : body.Steady size) :
    (Parse.nested body).Steady size := by
  refine ⟨inner.1.nested, fun p ready short => ?_⟩
  rcases room_or_full p.limit p.nesting with room | ⟨most, limited, full⟩
  · have balanced := inner.2 p.deeper
      ⟨ready.standard, ready.limited, room _ ready.limited⟩ short
    rw [nested_room room]
    change ((body p.deeper).mapAfter Parser.exitNesting).Balanced p
    cases ran : body p.deeper with
    | accepted value after =>
      rw [ran] at balanced
      obtain ⟨opened, kept⟩ := balanced
      exact ⟨opened, congrArg (· - 1) kept.nesting, kept.limit, kept.rules, kept.diagnostics⟩
    | rejected diagnostic after =>
      rw [ran] at balanced
      obtain ⟨opened, kept⟩ := balanced
      exact ⟨opened, congrArg (· - 1) kept.nesting, kept.limit, kept.rules, kept.diagnostics⟩
    | unfinished =>
      rw [ran] at balanced
      exact balanced.elim
  · rw [nested_full limited full]
    exact ⟨Nat.le_refl _, rfl, rfl, rfl, rfl⟩

/-- A block that is accepted is closed again; one that is refused stays open. -/
theorem within {body : Parse (List Token) α} {next : α → Parse (List Token) β}
    (inner : body.Steady size) (tail : ∀ value, (next value).Steady size) :
    (modify Parser.enterBlock >>= fun _ => body >>= fun value =>
      modify Parser.exitBlock >>= fun _ => next value).Steady size := by
  refine ⟨Moving.enterBlock.bind fun _ => inner.1.bind fun value => Moving.exitBlock.bind fun _ =>
    (tail value).1, fun p ready short => ?_⟩
  have balanced := inner.2 p.enterBlock ⟨ready.standard, ready.limited, ready.within⟩ short
  have moved := inner.1 p.enterBlock
  rw [modify_bind]
  cases ran : body p.enterBlock with
  | accepted value after =>
    rw [ran] at balanced moved
    obtain ⟨opened, kept⟩ := balanced
    have kept : p.Kept after.exitBlock := ⟨kept.nesting, kept.limit, kept.rules, kept.diagnostics⟩
    have fewer : after.source.length ≤ p.enterBlock.source.length := Moves.length_le moved
    rw [bind_accepted ran, modify_bind]
    exact ((tail value).2 after.exitBlock (kept.ready ready) (Nat.le_trans fewer short)).trans
      (congrArg (· - 1) opened) kept
  | rejected diagnostic after =>
    rw [ran] at balanced
    obtain ⟨opened, kept⟩ := balanced
    rw [bind_rejected ran]
    exact ⟨Nat.le_of_succ_le opened, kept.nesting, kept.limit, kept.rules, kept.diagnostics⟩
  | unfinished =>
    rw [ran] at balanced
    exact balanced.elim

theorem congruence : Parse.Congruence (σ := List Token) (τ := List Token)
    fun parse _ => parse.Steady size where
  pure value := ⟨.pure value, fun _ _ _ => ⟨rfl, rfl, rfl, rfl, rfl⟩⟩
  bind := bind
  nested := nested
  reject diagnostic := ⟨.reject diagnostic, fun _ _ _ => ⟨Nat.le_refl _, rfl, rfl, rfl, rfl⟩⟩
  current := ⟨.current, fun _ _ _ => ⟨rfl, rfl, rfl, rfl, rfl⟩⟩
  peek := ⟨.peek, fun _ _ _ => ⟨rfl, rfl, rfl, rfl, rfl⟩⟩
  rules := ⟨.rules, fun _ _ _ => ⟨rfl, rfl, rfl, rfl, rfl⟩⟩
  advance := ⟨.advance, fun _ _ _ => ⟨rfl, rfl, rfl, rfl, rfl⟩⟩
  within := within

end Parse.Steady

/-- The descent that reads no operators. -/
def Descent.bare {σ : Type} (d : Descent σ) : Descent σ :=
  { d with operators := fun _ left => pure left }

/-- Operators are only read right behind an operand, never by the rules that are called. -/
theorem Call.rule_bare {σ : Type} [TokenStream σ] (d : Descent σ) :
    ∀ call : Call α, call.rule d.bare = call.rule d
  | .expr _ => rfl
  | .statement => rfl
  | .block => rfl
  | .operandBy rule => by cases rule <;> rfl
  | .operatorBy _ _ rule => by cases rule <;> rfl
  | .statementBy rule => by cases rule <;> rfl

/-- The tokens that a parser holds and those to come, of which the two held may be ends of input. -/
def Parser.held (p : Parser (List Token)) : List Token := p.current :: p.peek :: p.source

/-- With enough fuel every recursive place is balanced. -/
theorem Descent.Judges.steady {d : Descent (List Token)} {fuel size : Nat} (judges : d.Judges fuel)
    (moving : d.Moving) (enough : 3 * size + 8 ≤ fuel) :
    d.bare.Related (fun parse _ => parse.Steady size) d.bare := by
  have room {p : Parser (List Token)} (ready : p.Ready) : Room p.limit p.nesting 0 :=
    ready.limited ▸ room_of_le ready.within
  refine ⟨fun bound => ⟨moving.expr bound, fun p ready short => ?_⟩,
    fun _ left => Parse.Steady.congruence.pure left, ⟨moving.arguments, fun p ready short => ?_⟩,
    ⟨moving.parameters, fun p ready short => ?_⟩, ⟨moving.statements, fun p ready short => ?_⟩⟩
  all_goals have length : p.held.length = p.source.length + 2 := rfl
  · have reads : (d.expr bound (p.facing p.held)).Reads p [] p.held _ _ :=
      judges.expr bound ready.standard (by omega)
    exact reads.balanced
  · have reads : (d.arguments (p.facing p.held)).Reads p [] p.held _ _ :=
      judges.arguments ready.standard (by omega)
    exact reads.balanced
  · have reads : (d.parameters (p.facing (window [p.current] p.held.tail))).Reads p
        [p.current] p.held.tail _ _ :=
      judges.parameters (List.cons_ne_nil _ _) (by rw [List.length_tail]; omega)
    exact reads.balanced
  · have reads : (d.statements (p.facing p.held)).Reads p [] p.held _ _ :=
      judges.statements ready.standard (room ready) (by omega)
    exact reads.balanced

/-- Every call on a parser that is ready comes to an end with its counters balanced. -/
theorem Call.balanced (call : Call α) {p : Parser (List Token)} (ready : p.Ready) :
    (p.run call.rule).Balanced p := by
  have enough : 3 * p.source.length + 8 ≤ p.fuel := by
    change _ ≤ 4 * (p.source.length + _) + 16
    omega
  have steady := call.related Parse.Steady.congruence
    ((descent_judges p.fuel).steady (descent_moving p.fuel) enough)
  rw [call.rule_bare] at steady
  exact steady.2 p ready (Nat.le_refl _)

/-! ### The limit -/

section Limit

variable {σ : Type}

/-- Something else is done where more than `most` expressions are being read. -/
def Parse.guarded (most : Nat) (breach parse : Parse σ α) : Parse σ α := fun p =>
  if p.nesting ≤ most then parse p else breach p

variable [TokenStream σ]

/-- The descent that does something else wherever one more expression has been counted and the count
is above `most`. -/
def descentGuarded (most : Nat) (breach : Parse σ Expr) : Nat → Descent σ
  | 0 => .unfinished
  | fuel + 1 =>
    let d := descentGuarded most breach fuel
    { expr := fun bound p =>
        Parse.nested (Parse.guarded most breach (d.operand >>= d.operators bound)) p
      operators := fun bound left p => d.operatorsStep bound left p
      arguments := fun p => d.argumentsStep p
      parameters := fun p => d.parametersStep p
      statements := fun p => d.statementsStep p }

/-- With the limit in force, both parses do the same. -/
def Parse.AgreesBelow (most : Nat) (parse other : Parse σ α) : Prop :=
  parse.Moving ∧ ∀ p, p.limit = some most → other p = parse p

namespace Parse.AgreesBelow

variable {most : Nat}

theorem refl {parse : Parse σ α} (moving : parse.Moving) : parse.AgreesBelow most parse :=
  ⟨moving, fun _ _ => rfl⟩

/-- What is counted below the limit is within it. -/
theorem nested_guarded {body body' : Parse σ α} (breach : Parse σ α)
    (inner : body.AgreesBelow most body') :
    (Parse.nested body).AgreesBelow most (Parse.nested (guarded most breach body')) := by
  refine ⟨inner.1.nested, fun p limited => ?_⟩
  rcases room_or_full p.limit p.nesting with room | ⟨limit, limited', full⟩
  · have within : p.nesting + 1 ≤ most := room most limited
    rw [nested_room room, nested_room room, guarded, if_pos within]
    exact congrArg (Outcome.mapAfter Parser.exitNesting) (inner.2 _ limited)
  · rw [nested_full limited' full, nested_full limited' full]

theorem congruence : Parse.Congruence (σ := σ) (τ := σ) (Parse.AgreesBelow most) :=
  AgreesOn.congruence fun moved limited => (Moves.limit_eq moved).trans limited

end Parse.AgreesBelow

theorem descent_guarded (most : Nat) (breach : Parse σ Expr) (fuel : Nat) :
    (descent fuel).Related (Parse.AgreesBelow most) (descentGuarded most breach fuel) := by
  have c : Parse.Congruence (σ := σ) (τ := σ) (Parse.AgreesBelow most) :=
    Parse.AgreesBelow.congruence
  induction fuel with
  | zero =>
    exact ⟨fun _ => .refl .unfinished, fun _ _ => .refl .unfinished, .refl .unfinished,
      .refl .unfinished, .refl .unfinished⟩
  | succ fuel ih =>
    exact ⟨fun bound => .nested_guarded breach (c.bind (ih.operand c) fun _ => ih.operators _ _),
      ih.operatorsStep c, ih.argumentsStep c, ih.parametersStep c, ih.statementsStep c⟩

end Limit

/-! ### The whole program -/

/-- On a parser that is ready every call balances its counters and never counts above the limit, so
no expression of a statement that is accepted is higher. The main loop begins every statement with
both counters at zero. -/
theorem counters_balanced (tokens : List Token) :
    (Parser.ofStream tokens).Ready ∧
    (∀ p : Parser (List Token), p.Ready → p.advance.Ready ∧
      (∀ {α : Type} (call : Call α), (p.run call.rule).Balanced p ∧
        ∀ breach, call.rule (descentGuarded Parser.standardLimit breach p.fuel) p =
          p.run call.rule) ∧
      ∀ statement after, p.statement = .accepted statement after →
        Node.Below Parser.standardLimit statement.nodes) ∧
    (∀ q, (Parser.ofStream tokens).Reaches q → q.nesting = 0 ∧ q.openBlocks = 0) ∧
    Node.Below Parser.standardLimit (parse tokens).1.nodes := by
  refine ⟨⟨rfl, rfl, Nat.zero_le _⟩, fun p ready => ⟨?_, fun call => ⟨call.balanced ready, ?_⟩, ?_⟩,
    fun q reached => ?_, parse_below tokens⟩
  · exact ⟨ready.standard, ready.limited, ready.within⟩
  · intro breach
    exact (call.related Parse.AgreesBelow.congruence (descent_guarded _ breach p.fuel)).2 p
      ready.limited
  · exact fun statement after ran => Parser.statement_below ready.standard ready.limited ran
  · obtain ⟨stands, closed, -⟩ := reached.faces
    exact ⟨stands.nesting_eq, closed⟩

theorem counters_balanced_function :
    (Parser.ofStream (functionHead ++ [Token.openCurly])).Ready ∧
    ((Parser.ofStream (functionHead ++ [Token.openCurly])).run Call.statement.rule).Balanced
      (Parser.ofStream (functionHead ++ [Token.openCurly])) :=
  have balanced := counters_balanced (functionHead ++ [Token.openCurly])
  ⟨balanced.1, ((balanced.2.1 _ balanced.1).2.1 .statement).1⟩

end ScriptReader
