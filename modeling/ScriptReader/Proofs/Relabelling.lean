import ScriptReader.Proofs.Order
import ScriptReader.Proofs.Passing

/-! # Other literals

Reading goes by the kinds of tokens, and by the literals of integers. A parser over tokens with other
literals therefore takes the same steps: it comes to the same trees, with the new tokens and the
names and operators that these spell, and it blames the same places for the same reasons.
-/

namespace ScriptReader

/-- A change of literals. Kinds stay, and so do integers and the token behind every source. -/
structure Relabelling where
  toFun : Token → Token
  kind_toFun : ∀ token, (toFun token).kind = token.kind
  integer : ∀ token, token.kind = .integer → toFun token = token
  endOfInput : toFun .endOfInput = .endOfInput

namespace Relabelling

instance : CoeFun Relabelling fun _ => Token → Token := ⟨toFun⟩

@[simp] theorem kind_apply (f : Relabelling) (token : Token) : (f token).kind = token.kind :=
  f.kind_toFun token

/-- No literals but those of integers. -/
def bare : Relabelling where
  toFun token := if token.kind = .integer then token else ⟨token.kind, ""⟩
  kind_toFun token := by split <;> rfl
  integer token numeral := if_pos numeral
  endOfInput := rfl

end Relabelling

section Trees

variable (f : Relabelling)

/-- The name that the new token spells. -/
def Name.relabelled (name : Name) : Name := .ofToken (f name.token)

mutual

/-- The tree over the new tokens. Names and operators are what these spell, values stay. -/
def Expr.relabelled : Expr → Expr
  | .identifier name => .identifier (name.relabelled f)
  | .integer token value => .integer (f token) value
  | .boolean token value => .boolean (f token) value
  | .unary token _ operand => .unary (f token) (f token).literal operand.relabelled
  | .binary token _ left right =>
    .binary (f token) (f token).literal left.relabelled right.relabelled
  | .conditional token condition consequence alternative =>
    .conditional (f token) condition.relabelled consequence.relabelled
      (Block.alternativeRelabelled alternative)
  | .function token parameters body =>
    .function (f token) (parameters.map (Name.relabelled f)) body.relabelled
  | .call token callee arguments =>
    .call (f token) callee.relabelled (Expr.listRelabelled arguments)

def Expr.listRelabelled : List Expr → List Expr
  | [] => []
  | first :: rest => first.relabelled :: Expr.listRelabelled rest

def Stmt.relabelled : Stmt → Stmt
  | .declaration token name value => .declaration (f token) (name.relabelled f) value.relabelled
  | .ret token value => .ret (f token) value.relabelled
  | .expression token value => .expression (f token) value.relabelled

def Stmt.listRelabelled : List Stmt → List Stmt
  | [] => []
  | first :: rest => first.relabelled :: Stmt.listRelabelled rest

def Block.relabelled : Block → Block
  | .mk token body => .mk (f token) (Stmt.listRelabelled body)

def Block.alternativeRelabelled : Option Block → Option Block
  | none => none
  | some block => some block.relabelled

end

def Program.relabelled (program : Program) : Program :=
  ⟨Stmt.listRelabelled f program.statements⟩

@[simp] theorem Expr.endsWithBlock_relabelled (value : Expr) :
    (value.relabelled f).endsWithBlock = value.endsWithBlock := by
  cases value <;> rfl

/-- The same cause at the new token; an illegal character is the one that the token now spells. -/
def Diagnostic.relabelled (diagnostic : Diagnostic) : Diagnostic where
  cause := match diagnostic.cause with
    | .illegalCharacter _ => .illegalCharacter (f diagnostic.token).literal
    | cause => cause
  token := f diagnostic.token

theorem Diagnostic.relabelled_noOperand (token : Token) :
    (noOperand token).relabelled f = noOperand (f token) := by
  rw [noOperand, noOperand, f.kind_apply]
  split <;> rfl

end Trees

/-- The parser over the new tokens, in the same state. -/
def Parser.relabelled (f : Relabelling) (p : Parser (List Token)) : Parser (List Token) :=
  { p with
    source := p.source.map f
    current := f p.current
    peek := f p.peek
    diagnostics := p.diagnostics.map (Diagnostic.relabelled f) }

namespace Parser

variable (f : Relabelling) (p : Parser (List Token))

@[simp] theorem rules_relabelled : (p.relabelled f).rules = p.rules := rfl

@[simp] theorem current_relabelled : (p.relabelled f).current = f p.current := rfl

@[simp] theorem peek_relabelled : (p.relabelled f).peek = f p.peek := rfl

theorem advance_relabelled : (p.relabelled f).advance = p.advance.relabelled f := by
  obtain ⟨source, current, peek, diagnostics, openBlocks, nesting, limit, rules⟩ := p
  cases source with
  | nil => simp only [advance, relabelled, TokenStream.next, List.map_nil, f.endOfInput]
  | cons token rest => rfl

theorem start_map (limit : Option Nat) (rules : Rules) (tokens : List Token) :
    start limit rules (tokens.map f) = (start limit rules tokens).relabelled f := by
  have fresh : (⟨tokens.map f, .endOfInput, .endOfInput, [], 0, 0, limit, rules⟩ :
      Parser (List Token)) =
      relabelled f ⟨tokens, .endOfInput, .endOfInput, [], 0, 0, limit, rules⟩ := by
    simp only [relabelled, f.endOfInput, List.map_nil]
  rw [start, fresh, advance_relabelled, advance_relabelled]
  rfl

theorem fuel_relabelled : (p.relabelled f).fuel = p.fuel := by
  simp only [fuel, relabelled, TokenStream.remaining, List.length_map]

theorem behind_relabelled : (p.relabelled f).behind = p.behind := by
  simp only [behind, relabelled, TokenStream.remaining, List.length_map, Token.weight, f.kind_apply]

theorem ahead_relabelled : (p.relabelled f).ahead = p.ahead := by
  simp only [ahead, behind_relabelled, current_relabelled, Token.weight, f.kind_apply]

/-- Both skip to the same boundary. -/
theorem skip_relabelled (depth : Nat) :
    (p.relabelled f).skip depth = (p.skip depth).relabelled f := by
  induction size : p.ahead using Nat.strong_induction_on generalizing p depth with
  | _ size ih =>
    subst size
    rw [skip, skip.eq_1 depth p]
    simp only [current_relabelled, peek_relabelled, f.kind_apply, advance_relabelled]
    split
    · rfl
    · next present =>
      have further (depth : Nat) :
          (p.advance.relabelled f).skip depth = (p.advance.skip depth).relabelled f :=
        ih _ (ahead_advance_lt present (Nat.le_refl _)) p.advance depth rfl
      split
      · split
        · rfl
        · exact further depth
      · exact further (depth + 1)
      · split
        · rfl
        · split
          · split
            · rfl
            · rfl
          · exact further (depth - 1)
      · exact further depth

theorem recover_relabelled : (p.relabelled f).recover = p.recover.relabelled f :=
  skip_relabelled f { p with openBlocks := 0 } p.openBlocks

theorem record_relabelled (diagnostic : Diagnostic) :
    (p.relabelled f).record (diagnostic.relabelled f) = (p.record diagnostic).relabelled f := by
  simp only [record, relabelled, List.map_append, List.map_cons, List.map_nil]

end Parser

variable {α β : Type}

/-- The outcome over the new tokens, where `change` is what becomes of a value. -/
def Outcome.relabelled (f : Relabelling) (change : α → α) :
    Outcome (List Token) α → Outcome (List Token) α
  | .accepted value after => .accepted (change value) (after.relabelled f)
  | .rejected diagnostic after => .rejected (diagnostic.relabelled f) (after.relabelled f)
  | .unfinished => .unfinished

/-- Over the new tokens the second parse comes to what the first one comes to over the old ones. -/
structure Parse.Commutes (f : Relabelling) (change : α → α) (parse parse' : Parse (List Token) α) :
    Prop where
  moving : parse.Moving
  relabelled (p : Parser (List Token)) (standard : p.rules = .standard) :
    parse' (p.relabelled f) = (parse p).relabelled f change

namespace Parse.Commutes

variable {f : Relabelling} {change : α → α} {change' : β → β}

theorem pure {value value' : α} (same : value' = change value) :
    Commutes f change (Pure.pure value) (Pure.pure value') :=
  ⟨.pure value, fun p _ => congrArg (Outcome.accepted · (p.relabelled f)) same⟩

theorem reject {diagnostic diagnostic' : Diagnostic}
    (same : diagnostic' = diagnostic.relabelled f) :
    Commutes f change (Parse.reject diagnostic) (Parse.reject diagnostic') :=
  ⟨.reject diagnostic, fun p _ => congrArg (Outcome.rejected · (p.relabelled f)) same⟩

theorem unfinished : Commutes f change Parse.unfinished Parse.unfinished :=
  ⟨.unfinished, fun _ _ => rfl⟩

theorem bind {first first' : Parse (List Token) α} {next next' : α → Parse (List Token) β}
    (head : Commutes f change first first')
    (tail : ∀ value, Commutes f change' (next value) (next' (change value))) :
    Commutes f change' (first >>= next) (first' >>= next') := by
  refine ⟨head.moving.bind fun value => (tail value).moving, fun p standard => ?_⟩
  have moved := head.moving p
  have begun := head.relabelled p standard
  cases ran : first p with
  | accepted value after =>
    rw [ran] at moved begun
    rw [bind_accepted ran, bind_accepted begun]
    exact (tail value).relabelled after (moved.rules_eq.trans standard)
  | rejected diagnostic after =>
    rw [ran] at begun
    rw [bind_rejected ran, bind_rejected begun]
    rfl
  | unfinished =>
    rw [ran] at begun
    change Parse.bind _ _ _ = Outcome.relabelled f _ (Parse.bind _ _ _)
    simp only [Parse.bind, ran, begun, Outcome.relabelled]

theorem current : Commutes f f Parse.current Parse.current := ⟨.current, fun _ _ => rfl⟩

theorem peek : Commutes f f Parse.peek Parse.peek := ⟨.peek, fun _ _ => rfl⟩

theorem rules : Commutes f id Parse.rules Parse.rules := ⟨.rules, fun _ _ => rfl⟩

theorem advance : Commutes f id Parse.advance Parse.advance :=
  ⟨.advance, fun p _ => congrArg (Outcome.accepted ()) (p.advance_relabelled f)⟩

theorem enterBlock : Commutes f id (Parse.modify Parser.enterBlock) (Parse.modify Parser.enterBlock) :=
  ⟨.enterBlock, fun _ _ => rfl⟩

theorem exitBlock : Commutes f id (Parse.modify Parser.exitBlock) (Parse.modify Parser.exitBlock) :=
  ⟨.exitBlock, fun _ _ => rfl⟩

theorem nested {body body' : Parse (List Token) α} (inner : Commutes f change body body') :
    Commutes f change (Parse.nested body) (Parse.nested body') := by
  refine ⟨inner.moving.nested, fun p standard => ?_⟩
  rcases room_or_full p.limit p.nesting with room | ⟨most, limited, full⟩
  · have within := inner.relabelled { p with nesting := p.nesting + 1 } standard
    rw [nested_room room, nested_room (p := p.relabelled f) room]
    change (body' (Parser.relabelled f { p with nesting := p.nesting + 1 })).mapAfter _ = _
    rw [within]
    cases body { p with nesting := p.nesting + 1 } <;> rfl
  · rw [nested_full limited full, nested_full (p := p.relabelled f) limited full]
    rfl

theorem expect (expected : Kind) : Commutes f f (Parse.expect expected) (Parse.expect expected) := by
  refine peek.bind fun found => ?_
  rw [f.kind_apply]
  split
  · exact advance.bind fun _ => current
  · exact reject (by rw [Diagnostic.unexpected, f.kind_apply]; rfl)

end Parse.Commutes

/-- At every recursive place the descent commutes with the change of literals. -/
structure Descent.Commutes (f : Relabelling) (d : Descent (List Token)) : Prop where
  expr (bound : Precedence) : (d.expr bound).Commutes f (Expr.relabelled f) (d.expr bound)
  operators (bound : Precedence) (left : Expr) :
    (d.operators bound left).Commutes f (Expr.relabelled f) (d.operators bound (left.relabelled f))
  arguments : d.arguments.Commutes f (Expr.listRelabelled f) d.arguments
  parameters : d.parameters.Commutes f (List.map (Name.relabelled f)) d.parameters
  statements : d.statements.Commutes f (Stmt.listRelabelled f) d.statements

namespace Descent.Commutes

open Parse.Commutes

variable {f : Relabelling} {d : Descent (List Token)}

theorem moving (c : d.Commutes f) : d.Moving where
  expr bound := (c.expr bound).moving
  operators bound left := (c.operators bound left).moving
  arguments := c.arguments.moving
  parameters := c.parameters.moving
  statements := c.statements.moving

theorem block (c : d.Commutes f) : d.block.Commutes f (Block.relabelled f) d.block :=
  current.bind fun _ => advance.bind fun _ => enterBlock.bind fun _ => c.statements.bind fun _ =>
    exitBlock.bind fun _ => pure rfl

theorem expressionStatement (c : d.Commutes f) :
    d.expressionStatement.Commutes f (Stmt.relabelled f) d.expressionStatement := by
  refine current.bind fun token => (c.expr _).bind fun value => peek.bind fun found => ?_
  rw [f.kind_apply, Expr.endsWithBlock_relabelled]
  split
  · exact advance.bind fun _ => pure rfl
  · split
    · exact pure rfl
    · exact reject (by rw [Diagnostic.unexpected, f.kind_apply]; rfl)

theorem declaration (c : d.Commutes f) :
    d.declaration.Commutes f (Stmt.relabelled f) d.declaration :=
  current.bind fun _ => (expect _).bind fun _ => (expect _).bind fun _ => advance.bind fun _ =>
    (c.expr _).bind fun _ => (expect _).bind fun _ => pure rfl

theorem ret (c : d.Commutes f) : d.ret.Commutes f (Stmt.relabelled f) d.ret :=
  current.bind fun _ => advance.bind fun _ => (c.expr _).bind fun _ => (expect _).bind fun _ =>
    pure rfl

theorem statementBy (c : d.Commutes f) (rule : StatementRule) :
    (d.statementBy rule).Commutes f (Stmt.relabelled f) (d.statementBy rule) :=
  match rule with
  | .expression => c.expressionStatement
  | .declaration => c.declaration
  | .ret => c.ret

theorem statement (c : d.Commutes f) : d.statement.Commutes f (Stmt.relabelled f) d.statement := by
  refine current.bind fun token => rules.bind fun rules => ?_
  simp only [id, f.kind_apply]
  split
  · exact c.statementBy _
  · exact c.expressionStatement

theorem statementsStep (c : d.Commutes f) :
    d.statementsStep.Commutes f (Stmt.listRelabelled f) d.statementsStep := by
  refine current.bind fun token => ?_
  rw [f.kind_apply]
  split
  · exact pure rfl
  · split
    · exact reject (by rw [Diagnostic.unexpected, f.kind_apply]; rfl)
    · exact c.statement.bind fun _ => advance.bind fun _ => c.statements.bind fun _ => pure rfl

theorem grouping (c : d.Commutes f) : d.grouping.Commutes f (Expr.relabelled f) d.grouping :=
  advance.bind fun _ => (c.expr _).bind fun _ => (expect _).bind fun _ => pure rfl

theorem alternative (c : d.Commutes f) :
    d.alternative.Commutes f (Block.alternativeRelabelled f) d.alternative := by
  refine peek.bind fun word => ?_
  rw [f.kind_apply]
  split
  · exact advance.bind fun _ => (expect _).bind fun _ => c.block.bind fun _ => pure rfl
  · exact pure rfl

theorem conditional (c : d.Commutes f) :
    d.conditional.Commutes f (Expr.relabelled f) d.conditional :=
  current.bind fun _ => (expect _).bind fun _ => advance.bind fun _ => (c.expr _).bind fun _ =>
    (expect _).bind fun _ => (expect _).bind fun _ => c.block.bind fun _ =>
    c.alternative.bind fun _ => pure rfl

theorem parametersStep (c : d.Commutes f) :
    d.parametersStep.Commutes f (List.map (Name.relabelled f)) d.parametersStep := by
  refine (expect _).bind fun first => peek.bind fun behind => ?_
  rw [f.kind_apply]
  split
  · exact advance.bind fun _ => c.parameters.bind fun _ => pure rfl
  · exact pure rfl

theorem parameterList (c : d.Commutes f) :
    d.parameterList.Commutes f (List.map (Name.relabelled f)) d.parameterList := by
  refine peek.bind fun found => ?_
  rw [f.kind_apply]
  split
  · exact advance.bind fun _ => pure rfl
  · exact c.parameters.bind fun _ => (expect _).bind fun _ => pure rfl

theorem function (c : d.Commutes f) : d.function.Commutes f (Expr.relabelled f) d.function :=
  current.bind fun _ => (expect _).bind fun _ => c.parameterList.bind fun _ =>
    (expect _).bind fun _ => c.block.bind fun _ => pure rfl

theorem unary (c : d.Commutes f) : d.unary.Commutes f (Expr.relabelled f) d.unary :=
  current.bind fun _ => advance.bind fun _ => (c.expr _).bind fun _ => pure rfl

theorem identifier :
    Parse.Commutes f (Expr.relabelled f) Descent.identifier Descent.identifier :=
  current.bind fun _ => pure rfl

theorem boolean : Parse.Commutes f (Expr.relabelled f) Descent.boolean Descent.boolean :=
  current.bind fun _ => pure (by rw [f.kind_apply]; rfl)

/-- The literal of an integer is read, but it does not change. -/
theorem integer_relabelled {p : Parser (List Token)} (numeral : p.current.kind = .integer) :
    Descent.integer (p.relabelled f) = (Descent.integer p).relabelled f (Expr.relabelled f) := by
  have same : (p.relabelled f).current = p.current := f.integer p.current numeral
  rw [Descent.integer, Parse.current_bind, Parse.current_bind, same]
  cases Numeral.signed? p.current.literal with
  | none =>
    exact congrArg (Outcome.rejected · _) (congrArg (Diagnostic.mk _) same.symm)
  | some value => exact congrArg (Outcome.accepted · _) (congrArg (Expr.integer · value) same.symm)

theorem operandBy (c : d.Commutes f) {rule : OperandRule} {p : Parser (List Token)}
    (standard : p.rules = .standard) (begins : Rules.standard.operand p.current.kind = some rule) :
    d.operandBy rule (p.relabelled f) = (d.operandBy rule p).relabelled f (Expr.relabelled f) :=
  match rule with
  | .identifier => identifier.relabelled p standard
  | .integer => integer_relabelled (Rules.operand_eq_some begins)
  | .boolean => boolean.relabelled p standard
  | .unary => c.unary.relabelled p standard
  | .grouping => c.grouping.relabelled p standard
  | .conditional => c.conditional.relabelled p standard
  | .function => c.function.relabelled p standard

theorem operand (c : d.Commutes f) : d.operand.Commutes f (Expr.relabelled f) d.operand := by
  refine ⟨c.moving.operand, fun p standard => ?_⟩
  have same : (p.relabelled f).rules.operand (p.relabelled f).current.kind =
      Rules.standard.operand p.current.kind := by
    rw [Parser.rules_relabelled, Parser.current_relabelled, standard, f.kind_apply]
  cases begins : Rules.standard.operand p.current.kind with
  | none =>
    rw [operand_rejected (p := p) (standard ▸ begins), operand_rejected (same.trans begins),
      Outcome.relabelled, Diagnostic.relabelled_noOperand]
    rfl
  | some rule =>
    rw [operand_eq_operandBy (p := p) (standard ▸ begins),
      operand_eq_operandBy (same.trans begins)]
    exact c.operandBy standard begins

theorem argumentsStep (c : d.Commutes f) :
    d.argumentsStep.Commutes f (Expr.listRelabelled f) d.argumentsStep := by
  refine (c.expr _).bind fun first => peek.bind fun behind => ?_
  rw [f.kind_apply]
  split
  · exact advance.bind fun _ => advance.bind fun _ => c.arguments.bind fun _ => pure rfl
  · exact pure rfl

theorem argumentList (c : d.Commutes f) :
    d.argumentList.Commutes f (Expr.listRelabelled f) d.argumentList := by
  refine peek.bind fun found => advance.bind fun _ => ?_
  rw [f.kind_apply]
  split
  · exact pure rfl
  · exact c.arguments.bind fun _ => (expect _).bind fun _ => pure rfl

theorem operatorBy (c : d.Commutes f) (left : Expr) (level : Precedence) (rule : OperatorRule) :
    (d.operatorBy left level rule).Commutes f (Expr.relabelled f)
      (d.operatorBy (left.relabelled f) level rule) :=
  match rule with
  | .binary => current.bind fun _ => advance.bind fun _ => (c.expr _).bind fun _ => pure rfl
  | .call => current.bind fun _ => c.argumentList.bind fun _ => pure rfl

theorem operatorsStep (c : d.Commutes f) (bound : Precedence) (left : Expr) :
    (d.operatorsStep bound left).Commutes f (Expr.relabelled f)
      (d.operatorsStep bound (left.relabelled f)) := by
  refine peek.bind fun found => rules.bind fun rules => ?_
  simp only [id, f.kind_apply]
  split
  · split
    · exact advance.bind fun _ => (c.operatorBy _ _ _).bind fun _ => c.operators _ _
    · exact pure rfl
  · exact pure rfl

theorem exprStep (c : d.Commutes f) (bound : Precedence) :
    (d.exprStep bound).Commutes f (Expr.relabelled f) (d.exprStep bound) :=
  nested (c.operand.bind fun _ => c.operators _ _)

end Descent.Commutes

theorem descent_commutes (f : Relabelling) (fuel : Nat) : (descent fuel).Commutes f := by
  induction fuel with
  | zero =>
    exact ⟨fun _ => .unfinished, fun _ _ => .unfinished, .unfinished, .unfinished, .unfinished⟩
  | succ fuel ih =>
    exact ⟨ih.exprStep, ih.operatorsStep, ih.argumentsStep, ih.parametersStep, ih.statementsStep⟩

namespace Parser

variable (f : Relabelling) {p : Parser (List Token)}

theorem statement_relabelled (standard : p.rules = .standard) :
    (p.relabelled f).statement = p.statement.relabelled f (Stmt.relabelled f) := by
  rw [statement, statement, run, run, fuel_relabelled]
  exact (descent_commutes f p.fuel).statement.relabelled p standard

theorem resume_relabelled (after : Parser (List Token)) (diagnostic : Diagnostic) :
    ((after.relabelled f).record (diagnostic.relabelled f)).recover.advance =
      (after.record diagnostic).recover.advance.relabelled f := by
  rw [record_relabelled, recover_relabelled, advance_relabelled]

theorem rules_resume (after : Parser (List Token)) (diagnostic : Diagnostic) :
    (after.record diagnostic).recover.advance.rules = after.rules :=
  (Passes.recover (after.record diagnostic)).rules_eq

theorem statement_finishes (standard : p.rules = .standard) : p.statement ≠ .unfinished :=
  show (p.facing (p.current :: p.peek :: p.source)).statement ≠ .unfinished from
    statement_ne_unfinished standard

/-- Reading goes on statement by statement as over the old tokens. -/
theorem statements?_relabelled (standard : p.rules = .standard) :
    (p.relabelled f).statements? = p.statements?.map fun (statements, last) =>
      (Stmt.listRelabelled f statements, last.relabelled f) := by
  fun_induction statements? p with
  | case1 p ended =>
    rw [statements?, dif_pos (by simpa using ended)]
    rfl
  | case2 p present statement after ran ih =>
    have present' : (p.relabelled f).current.kind ≠ .endOfInput := by simpa using present
    have moved := p.statement_moved
    have begun := p.statement_relabelled f standard
    rw [ran] at moved begun
    rw [statements?_accepted present' begun, advance_relabelled,
      ih (moved.rules_eq.trans standard)]
    cases after.advance.statements? <;> rfl
  | case3 p present diagnostic after ran ih =>
    have present' : (p.relabelled f).current.kind ≠ .endOfInput := by simpa using present
    have moved := p.statement_moved
    have begun := p.statement_relabelled f standard
    rw [ran] at moved begun
    rw [statements?_rejected present' begun, resume_relabelled]
    exact ih ((rules_resume after diagnostic).trans (moved.rules_eq.trans standard))
  | case4 p present ran => exact (statement_finishes standard ran).elim

end Parser

/-- The same fault over the new tokens. -/
def Fault.relabelled (f : Relabelling) (fault : Fault (List Token)) : Fault (List Token) :=
  ⟨fault.diagnostic.relabelled f, fault.after.relabelled f⟩

/-- Statements are refused where they are refused over the old tokens. -/
theorem Parser.faults_relabelled (f : Relabelling) {p : Parser (List Token)}
    (standard : p.rules = .standard) :
    (p.relabelled f).faults = p.faults.map (Fault.relabelled f) := by
  fun_induction faults p with
  | case1 p ended => exact faults_ended (by simpa using ended)
  | case2 p present statement after ran ih =>
    have present' : (p.relabelled f).current.kind ≠ .endOfInput := by simpa using present
    have moved := p.statement_moved
    have begun := p.statement_relabelled f standard
    rw [ran] at moved begun
    rw [faults_accepted present' begun, advance_relabelled]
    exact ih (moved.rules_eq.trans standard)
  | case3 p present diagnostic after ran ih =>
    have present' : (p.relabelled f).current.kind ≠ .endOfInput := by simpa using present
    have moved := p.statement_moved
    have begun := p.statement_relabelled f standard
    rw [ran] at moved begun
    rw [faults_rejected present' begun, resume_relabelled, List.map_cons,
      ih ((rules_resume after diagnostic).trans (moved.rules_eq.trans standard))]
    rfl
  | case4 p present ran => exact (statement_finishes standard ran).elim

/-- What parsing answers, over the new tokens. -/
def relabelledAnswer (f : Relabelling) (answer : Program × List Diagnostic) :
    Program × List Diagnostic :=
  (answer.1.relabelled f, answer.2.map (Diagnostic.relabelled f))

theorem Parser.result_relabelled (f : Relabelling) {p : Parser (List Token)}
    (standard : p.rules = .standard) :
    (p.relabelled f).result = relabelledAnswer f p.result := by
  rw [result, result, program?, program?, statements?_relabelled f standard]
  cases p.statements? <;> rfl

theorem parse_map (f : Relabelling) (tokens : List Token) :
    parse (tokens.map f) = relabelledAnswer f (parse tokens) := by
  rw [parse, Parser.ofStream, Parser.start_map]
  exact Parser.result_relabelled f rfl

theorem faults_map (f : Relabelling) (tokens : List Token) :
    (Parser.ofStream (tokens.map f)).faults =
      (Parser.ofStream tokens).faults.map (Fault.relabelled f) := by
  rw [Parser.ofStream, Parser.start_map]
  exact Parser.faults_relabelled f rfl

theorem Fault.place_relabelled (f : Relabelling) (tokens : List Token)
    (fault : Fault (List Token)) : (fault.relabelled f).place (tokens.map f) = fault.place tokens := by
  have late : (fault.diagnostic.relabelled f).cause.atLookahead =
      fault.diagnostic.cause.atLookahead := by
    obtain ⟨⟨cause, token⟩, after⟩ := fault
    cases cause <;> rfl
  rw [place, place, onward, onward, Diagnostic.onward, Diagnostic.onward, List.length_map]
  simp only [Fault.relabelled, late, Parser.behind_relabelled, Parser.ahead_relabelled]

/-- Over tokens with other literals a program is read to the same tree, with the new tokens and the
names and operators that they spell, and the same statements are refused for the same reasons: each
refusal leaves the parser where it is left over the old tokens. So two lists of tokens that differ in
literals only, and not in those of integers, have answers that differ in literals only. -/
theorem parse_relabelled (f : Relabelling) (tokens : List Token) :
    parse (tokens.map f) = relabelledAnswer f (parse tokens) ∧
    (Parser.ofStream (tokens.map f)).faults =
      (Parser.ofStream tokens).faults.map (Fault.relabelled f) ∧
    (Parser.ofStream (tokens.map f)).faults.map (Fault.place (tokens.map f)) =
      (Parser.ofStream tokens).faults.map (Fault.place tokens) ∧
    ∀ others : List Token, others.map Relabelling.bare = tokens.map Relabelling.bare →
      relabelledAnswer .bare (parse others) = relabelledAnswer .bare (parse tokens) := by
  refine ⟨parse_map f tokens, faults_map f tokens, ?_, fun others same => ?_⟩
  · rw [faults_map, List.map_map]
    exact List.map_congr_left fun fault _ => fault.place_relabelled f tokens
  · rw [← parse_map, ← parse_map, same]

/-- Neither a name nor the literal of an operator matters, not even where a statement is refused. -/
theorem parse_relabelled_names :
    relabelledAnswer .bare (parse [Token.identifier "a", .plus, .semicolon]) =
      relabelledAnswer .bare (parse [Token.identifier "b", ⟨.plus, "-"⟩, .semicolon]) :=
  (parse_relabelled .bare [.identifier "b", ⟨.plus, "-"⟩, .semicolon]).2.2.2
    [.identifier "a", .plus, .semicolon] (by decide)

end ScriptReader
